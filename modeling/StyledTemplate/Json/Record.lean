import StyledTemplate.Json.Basic

/-!
# Records in JSON

A record is written as an object, whose unknown fields are ignored, or as an array of its fields in
the order of their declaration. A field may be declared with a default, and an optional field may be
`null`. A choice between named cases is written as the name of a case, or as an object with that
name as its only field.
-/

namespace StyledTemplate.Json

variable {α : Type}

/-- A value that may be `null`. -/
def nullable (decode : Json → Option α) : Json → Option (Option α)
  | .null => some none
  | value => (decode value).map some

/-- A boolean. -/
def bool? : Json → Option Bool
  | .bool b => some b
  | _ => none

/-- A string. -/
def string? : Json → Option String
  | .string s => some s
  | _ => none

/-- A number, whole or not. -/
def float? : Json → Option Float
  | .float f => some f
  | .integer n => some (Float.ofInt n)
  | _ => none

/-- A natural number below a bound. -/
def natBelow? (bound : Nat) : Json → Option Nat
  | .integer n => if 0 ≤ n ∧ n < bound then some n.toNat else none
  | _ => none

/-- A byte. -/
def uint8? (j : Json) : Option UInt8 := (natBelow? UInt8.size j).map UInt8.ofNat

/-- An unsigned number of 32 bits. -/
def uint32? (j : Json) : Option UInt32 := (natBelow? UInt32.size j).map UInt32.ofNat

/-- An unsigned number of 64 bits. -/
def uint64? (j : Json) : Option UInt64 := (natBelow? UInt64.size j).map UInt64.ofNat

/-- A signed number of 32 bits. -/
def int32? : Json → Option Int32
  | .integer n => if -Int.pow 2 31 ≤ n ∧ n < Int.pow 2 31 then some (Int32.ofInt n) else none
  | _ => none

/-- An array of things of one kind. -/
def array? (decode : Json → Option α) : Json → Option (List α)
  | .array items => items.mapM decode
  | _ => none

/-- The case of a choice and what it carries, `null` if it is given by its name alone. -/
def case? : Json → Option (String × Option Json)
  | .string name => some (name, none)
  | .object [(name, value)] => some (name, some value)
  | _ => none

/-- One of some cases that carry nothing, each listed with its name. -/
def oneOf? (cases : List (String × α)) (j : Json) : Option α :=
  match case? j with
  | some (name, none) => cases.lookup name
  | some (name, some .null) => cases.lookup name
  | _ => none

/-! ## Parts

A decoder that descends into a value is applied to parts of it, which come with the proof that they
are smaller. -/

/-- A proper part of a JSON value. -/
abbrev Part (j : Json) : Type := { part : Json // sizeOf part < sizeOf j }

/-- The items of an array, as parts. -/
def parts? : (j : Json) → Option (List (Part j))
  | .array items =>
    some (items.attach.map fun item => ⟨item.1, by
      have := List.sizeOf_lt_of_mem item.2
      simp only [array.sizeOf_spec]
      omega⟩)
  | _ => none

/-- The fields of a value that is read as a record, as parts. -/
def recordParts? (names : List String) (least : Nat) : (j : Json) → Option (Fields (Part j))
  | .object fields =>
    some (fields.attach.map fun field => (field.1.1, ⟨field.1.2, by
      have h := List.sizeOf_lt_of_mem field.2
      have hpair : sizeOf field.1 = 1 + sizeOf field.1.1 + sizeOf field.1.2 := rfl
      simp only [object.sizeOf_spec]
      omega⟩))
  | .array items =>
    if least ≤ items.length ∧ items.length ≤ names.length then
      some (Fields.ofList (names.zip (items.attach.map fun item => ⟨item.1, by
        have := List.sizeOf_lt_of_mem item.2
        simp only [array.sizeOf_spec]
        omega⟩)))
    else none
  | _ => none

/-- The case of a choice and the part it carries. -/
def casePart? : (j : Json) → Option (String × Option (Part j))
  | .string name => some (name, none)
  | .object [(name, value)] => some (name, some ⟨value, by simp; omega⟩)
  | _ => none

/-- A field that takes a default when it is left out. -/
def partD {j : Json} (fields : Fields (Part j)) (name : String) (decode : Part j → Option α)
    (default : α) : Option α :=
  match fields.find? name with
  | none => some default
  | some part => decode part

/-- A field without further parts that takes a default when it is left out. -/
def fieldD {j : Json} (fields : Fields (Part j)) (name : String) (decode : Json → Option α)
    (default : α) : Option α :=
  partD fields name (fun part => decode part.1) default

/-- A field that may not be left out. -/
def field {j : Json} (fields : Fields (Part j)) (name : String) (decode : Json → Option α) :
    Option α :=
  (fields.find? name).bind fun part => decode part.1

end StyledTemplate.Json
