import StyledTemplate.Decimal.FloatText
import StyledTemplate.Fields
import StyledTemplate.Text.Digits
import StyledTemplate.Text.Name

/-!
# Values

What variables, entries of lists and fields of records are bound to. A value has a text, which a
placeholder shows, and a truth, which a condition asks for. The parts of a value are reached by
dotted paths.
-/

namespace StyledTemplate

/-- A value that a name is bound to. -/
inductive Value where
  /-- No value. -/
  | null
  /-- A text. -/
  | string (s : String)
  /-- A whole number of 64 bits. -/
  | integer (n : Int64)
  /-- A floating-point number. -/
  | float (f : Float)
  /-- A truth value. -/
  | bool (b : Bool)
  /-- A list. -/
  | list (items : List Value)
  /-- A record, its fields in order of their names. -/
  | map (fields : List (String × Value))
  deriving Inhabited

namespace Value

/-- A record with the given fields, the last one of a name winning. -/
def ofFields (fields : List (String × Value)) : Value := .map (Fields.ofList fields)

/-! ## Truth and text -/

/-- Does the value count as true in a condition? Nothing, zero and what is empty do not. -/
def isTruthy : Value → Bool
  | .null => false
  | .bool b => b
  | .integer n => n != 0
  | .float f => f != 0
  | .string s => s != ""
  | .list items => !items.isEmpty
  | .map fields => !fields.isEmpty

mutual

/-- The text that a placeholder shows. -/
def text : Value → String
  | .null => ""
  | .string s => s
  | .integer n => toString n.toInt
  | .float f => Decimal.floatText f
  | .bool b => if b then "true" else "false"
  | .list items => ", ".intercalate (itemTexts items)
  | .map fields => "\x7b" ++ ", ".intercalate (fieldTexts fields) ++ "\x7d"

/-- The texts of the items of a list. -/
def itemTexts : List Value → List String
  | [] => []
  | item :: items => item.text :: itemTexts items

/-- The texts of the fields of a record. -/
def fieldTexts : List (String × Value) → List String
  | [] => []
  | (name, value) :: fields => (name ++ ": " ++ value.text) :: fieldTexts fields

end

/-! ## Parts -/

/-- The items, if the value is a list. -/
def items? : Value → Option (List Value)
  | .list items => some items
  | _ => none

/-- The fields, if the value is a record. -/
def fields? : Value → Option (Fields Value)
  | .map fields => some fields
  | _ => none

/-- The text, if the value is one. -/
def string? : Value → Option String
  | .string s => some s
  | _ => none

/-- Is there no value? -/
def isNull : Value → Bool
  | .null => true
  | _ => false

/-- The part of a value under one segment of a path: a field of a record, or an item of a list by
its number. -/
def part? (v : Value) (segment : String) : Option Value :=
  match v with
  | .map fields => Fields.find? segment fields
  | .list items => (Text.readUnsigned? 64 segment.toList).bind (items[·]?)
  | _ => none

/-- The part of a value below some segments of a path. -/
def partAt? (v : Value) : List String → Option Value
  | [] => some v
  | segment :: rest => (v.part? segment).bind (·.partAt? rest)

/-- The part of a value below a dotted path. The empty path means the value itself. -/
def lookup (v : Value) (path : String) : Option Value :=
  if path = "" then some v else v.partAt? (Text.segments path)

/-- The value as a whole number. A floating-point number is cut off towards zero and kept within
bounds. -/
def toInteger? : Value → Option Int64
  | .integer n => some n
  | .float f => some f.toInt64
  | .string s => (Text.readSigned? 64 s.toList).map Int64.ofInt
  | .bool b => some (if b then 1 else 0)
  | _ => none

/-! ## Equality -/

mutual

/-- Are the values equal? A whole number equals the floating-point number of the same size. -/
def same : Value → Value → Bool
  | .null, .null => true
  | .string a, .string b => a == b
  | .integer a, .integer b => a == b
  | .float a, .float b => a == b
  | .integer a, .float b => a.toFloat == b
  | .float a, .integer b => b.toFloat == a
  | .bool a, .bool b => a == b
  | .list as, .list bs => sameItems as bs
  | .map as, .map bs => sameFields as bs
  | _, _ => false

/-- Are the lists equal, item by item? -/
def sameItems : List Value → List Value → Bool
  | [], [] => true
  | a :: as, b :: bs => a.same b && sameItems as bs
  | _, _ => false

/-- Are the records equal, field by field? -/
def sameFields : List (String × Value) → List (String × Value) → Bool
  | [], [] => true
  | (name, a) :: as, (other, b) :: bs => name == other && a.same b && sameFields as bs
  | _, _ => false

end

instance : BEq Value := ⟨same⟩

end Value

end StyledTemplate
