import StyledTemplate.Json.Record
import StyledTemplate.Value.Convert

/-!
# Record types

A record type declares the fields of a record, the name each is bound under and the type of what it
holds. Data that fits the type gives the fields of a record, in the order of their declaration. The
data is an object with the names of the fields, where a field that may be missing may be left out
and further names do not matter, or an array with one item for each field.
-/

namespace StyledTemplate

/-- The declaration of a field of a record, its type apart. -/
structure FieldLabel where
  /-- The identifier of the field. -/
  ident : String
  /-- The name to bind the field under in place of its own. -/
  rename : Option String := none
  /-- Is the field left out? -/
  skip : Bool := false
  deriving Repr, DecidableEq

namespace FieldLabel

/-- The name of the field: its identifier without the mark `r#` for raw identifiers. -/
def name (label : FieldLabel) : String :=
  match label.ident.toList with
  | 'r' :: '#' :: rest => String.ofList rest
  | _ => label.ident

/-- The name that the field is bound under. -/
def boundName (label : FieldLabel) : String := label.rename.getD label.name

end FieldLabel

/-- The type of what a field holds. -/
inductive FieldType where
  /-- A text. -/
  | string
  /-- A truth value. -/
  | bool
  /-- A whole number from `least` up to but not including `bound`. -/
  | integer (least bound : Int)
  /-- A number of single precision. -/
  | single
  /-- A number of double precision. -/
  | double
  /-- Something that may be missing. -/
  | optional (type : FieldType)
  /-- A list. -/
  | list (item : FieldType)
  /-- A table of things of one type. -/
  | table (entry : FieldType)
  /-- A record. -/
  | record (fields : List (FieldLabel × FieldType))

namespace FieldType

/-- A signed number of so many bits. -/
def signed (bits : Nat) : FieldType := .integer (-Int.pow 2 (bits - 1)) (Int.pow 2 (bits - 1))

/-- An unsigned number of so many bits. -/
def unsigned (bits : Nat) : FieldType := .integer 0 (Int.pow 2 bits)

/-- What a field of this type holds if nothing is given. -/
def absent? : FieldType → Option Value
  | .optional _ => some .null
  | _ => none

mutual

/-- The value of data that fits the type. -/
def value? : FieldType → Json → Option Value
  | .string, .string s => some (.string s)
  | .bool, .bool b => some (.bool b)
  | .integer least bound, .integer n =>
    if least ≤ n ∧ n < bound then some (.integer (Int64.ofInt n)) else none
  | .single, .integer n => some (toValue (Float32.ofInt n))
  | .single, .float f => some (toValue f.toFloat32)
  | .double, j => (Json.float? j).map .float
  | .optional _, .null => some .null
  | .optional type, j => type.value? j
  | .list item, .array items => (items.mapM fun j => item.value? j).map .list
  | .table entry, .object fields =>
    (fields.mapM fun field => (entry.value? field.2).map fun v => (field.1, v)).map .map
  | .record fields, .object given => (fieldValues? fields given).map Value.ofFields
  | .record fields, .array items => (itemValues? fields items).map Value.ofFields
  | _, _ => none

/-- The fields of a record, in the order of their declaration. Fields that are left out have to fit
their types all the same. -/
def fieldValues? : List (FieldLabel × FieldType) → List (String × Json) →
    Option (List (String × Value))
  | [], _ => some []
  | (label, type) :: rest, given => do
    let value ← match Fields.find? label.name given with
      | some j => type.value? j
      | none => type.absent?
    let values ← fieldValues? rest given
    return if label.skip then values else (label.boundName, value) :: values

/-- The fields of a record whose items are listed in the order of their declaration. -/
def itemValues? : List (FieldLabel × FieldType) → List Json → Option (List (String × Value))
  | [], [] => some []
  | (label, type) :: rest, item :: items => do
    let value ← type.value? item
    let values ← itemValues? rest items
    return if label.skip then values else (label.boundName, value) :: values
  | _, _ => none

end

end FieldType

/-- A record type. -/
abbrev RecordType := List (FieldLabel × FieldType)

/-- The fields of the record that data gives, if it fits the type. -/
def RecordType.fields? (type : RecordType) : Json → Option (List (String × Value))
  | .object given => FieldType.fieldValues? type given
  | .array items => FieldType.itemValues? type items
  | _ => none

end StyledTemplate
