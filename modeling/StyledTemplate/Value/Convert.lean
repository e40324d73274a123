import StyledTemplate.Json.Basic
import StyledTemplate.Value.Basic

/-!
# Making values

Typed data becomes a value in two ways: `IntoValue` makes a value from data that is used up, and
`ToValue` makes one from data that is only looked at. A whole number of 64 unsigned bits that is too
large for the signed numbers of `Value` wraps around. `Value.ofJson` makes values from JSON.
-/

namespace StyledTemplate

/-! ## From data -/

/-- Data that values are made from. -/
class IntoValue (α : Type) where
  /-- The value. -/
  intoValue : α → Value

export IntoValue (intoValue)

instance : IntoValue Value := ⟨id⟩

instance : IntoValue String := ⟨.string⟩

instance : IntoValue Bool := ⟨.bool⟩

instance : IntoValue Int8 := ⟨fun n => .integer n.toInt64⟩

instance : IntoValue Int16 := ⟨fun n => .integer n.toInt64⟩

instance : IntoValue Int32 := ⟨fun n => .integer n.toInt64⟩

instance : IntoValue Int64 := ⟨.integer⟩

instance : IntoValue UInt8 := ⟨fun n => .integer n.toUInt64.toInt64⟩

instance : IntoValue UInt16 := ⟨fun n => .integer n.toUInt64.toInt64⟩

instance : IntoValue UInt32 := ⟨fun n => .integer n.toUInt64.toInt64⟩

instance : IntoValue UInt64 := ⟨fun n => .integer n.toInt64⟩

instance : IntoValue Float := ⟨.float⟩

instance : IntoValue Float32 := ⟨fun f => .float f.toFloat⟩

section

variable {α : Type} [IntoValue α]

instance : IntoValue (Option α) :=
  ⟨fun
    | none => .null
    | some a => intoValue a⟩

instance : IntoValue (List α) := ⟨fun items => .list (items.map intoValue)⟩

instance : IntoValue (NameMap α) :=
  ⟨fun fields => .map (fields.entries.map fun field => (field.1, intoValue field.2))⟩

end

/-! ## From what is only looked at -/

/-- Data that can be bound to a name. -/
class ToValue (α : Type) where
  /-- The value. -/
  toValue : α → Value

export ToValue (toValue)

instance : ToValue Value := ⟨id⟩

instance : ToValue String := ⟨intoValue⟩

instance : ToValue Bool := ⟨intoValue⟩

instance : ToValue Int8 := ⟨intoValue⟩

instance : ToValue Int16 := ⟨intoValue⟩

instance : ToValue Int32 := ⟨intoValue⟩

instance : ToValue Int64 := ⟨intoValue⟩

instance : ToValue UInt8 := ⟨intoValue⟩

instance : ToValue UInt16 := ⟨intoValue⟩

instance : ToValue UInt32 := ⟨intoValue⟩

instance : ToValue UInt64 := ⟨intoValue⟩

instance : ToValue Float := ⟨intoValue⟩

instance : ToValue Float32 := ⟨intoValue⟩

/-- A reference to data. -/
structure Ref (α : Type) where
  /-- What it refers to. -/
  target : α

section

variable {α : Type} [ToValue α]

instance : ToValue (Ref α) := ⟨fun ref => toValue ref.target⟩

instance : ToValue (Option α) :=
  ⟨fun
    | none => .null
    | some a => toValue a⟩

instance : ToValue (List α) := ⟨fun items => .list (items.map toValue)⟩

instance : ToValue (NameMap α) :=
  ⟨fun fields => .map (fields.entries.map fun field => (field.1, toValue field.2))⟩

end

namespace Value

/-- A whole number that fits 64 signed bits, or else the nearest floating-point number. -/
def ofInt (n : Int) : Value :=
  if -Int.pow 2 63 ≤ n ∧ n < Int.pow 2 63 then .integer (Int64.ofInt n) else .float (Float.ofInt n)

mutual

/-- The value that a JSON value stands for. -/
def ofJson : Json → Value
  | .null => .null
  | .bool b => .bool b
  | .integer n => ofInt n
  | .float f => .float f
  | .string s => .string s
  | .array items => .list (ofItems items)
  | .object fields => .map (ofJsonFields fields)

/-- The values that the items of an array stand for. -/
def ofItems : List Json → List Value
  | [] => []
  | item :: items => ofJson item :: ofItems items

/-- The values that the fields of an object stand for. -/
def ofJsonFields : List (String × Json) → List (String × Value)
  | [] => []
  | (name, value) :: fields => (name, ofJson value) :: ofJsonFields fields

end

mutual

/-- The JSON value that stands for a value. -/
def toJson : Value → Json
  | .null => .null
  | .bool b => .bool b
  | .integer n => .integer n.toInt
  | .float f => .float f
  | .string s => .string s
  | .list items => .array (toItems items)
  | .map fields => .object (toJsonFields fields)

/-- The JSON values that stand for the items of a list. -/
def toItems : List Value → List Json
  | [] => []
  | item :: items => item.toJson :: toItems items

/-- The JSON values that stand for the fields of a record. -/
def toJsonFields : List (String × Value) → List (String × Json)
  | [] => []
  | (name, value) :: fields => (name, value.toJson) :: toJsonFields fields

end

end Value

end StyledTemplate
