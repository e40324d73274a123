import Mathlib.Algebra.Group.Int.Defs
import Mathlib.Algebra.Group.Nat.Defs
import StyledTemplate.Proofs.Fields
import StyledTemplate.Value.Convert

/-!
# Values of whole numbers

A value can be made from whole numbers of nine types, alone or within options, lists and maps. It does
not matter whether the data is used up, looked at, or looked at through a reference
(`DataShape.conversions_agree`). The numbers of a value have 64 signed bits, and a number keeps its bits
when it becomes one of these. So a number that fits is shown in decimal as it is, and a larger one,
which only the two types of 64 unsigned bits have, as the number that is less by `2 ^ 64`.
-/

namespace StyledTemplate

/-- The types of whole numbers that values are made from. The sizes of data have 64 bits. -/
inductive IntType
  | int8
  | int16
  | int32
  | int64
  | uint8
  | uint16
  | uint32
  | uint64
  | size
  deriving DecidableEq

namespace IntType

/-- The numbers of a type. -/
def Number : IntType → Type
  | int8 => Int8
  | int16 => Int16
  | int32 => Int32
  | int64 => Int64
  | uint8 => UInt8
  | uint16 => UInt16
  | uint32 => UInt32
  | uint64 => UInt64
  | size => UInt64

instance : (type : IntType) → IntoValue type.Number
  | int8 => inferInstanceAs (IntoValue Int8)
  | int16 => inferInstanceAs (IntoValue Int16)
  | int32 => inferInstanceAs (IntoValue Int32)
  | int64 => inferInstanceAs (IntoValue Int64)
  | uint8 => inferInstanceAs (IntoValue UInt8)
  | uint16 => inferInstanceAs (IntoValue UInt16)
  | uint32 => inferInstanceAs (IntoValue UInt32)
  | uint64 => inferInstanceAs (IntoValue UInt64)
  | size => inferInstanceAs (IntoValue UInt64)

instance : (type : IntType) → ToValue type.Number
  | int8 => inferInstanceAs (ToValue Int8)
  | int16 => inferInstanceAs (ToValue Int16)
  | int32 => inferInstanceAs (ToValue Int32)
  | int64 => inferInstanceAs (ToValue Int64)
  | uint8 => inferInstanceAs (ToValue UInt8)
  | uint16 => inferInstanceAs (ToValue UInt16)
  | uint32 => inferInstanceAs (ToValue UInt32)
  | uint64 => inferInstanceAs (ToValue UInt64)
  | size => inferInstanceAs (ToValue UInt64)

/-- The number, without bounds. -/
def toInt : (type : IntType) → type.Number → Int
  | int8, n => Int8.toInt n
  | int16, n => Int16.toInt n
  | int32, n => Int32.toInt n
  | int64, n => Int64.toInt n
  | uint8, n => UInt8.toNat n
  | uint16, n => UInt16.toNat n
  | uint32, n => UInt32.toNat n
  | uint64, n => UInt64.toNat n
  | size, n => UInt64.toNat n

/-- The number that is shown: the one of 64 signed bits that has the same bits. -/
def shown (type : IntType) (n : type.Number) : Int :=
  if type.toInt n < 2 ^ 63 then type.toInt n else type.toInt n - 2 ^ 64

end IntType

/-- What is put around numbers: nothing, or options, lists and maps in any nesting. -/
inductive DataShape
  | number
  | option (inner : DataShape)
  | list (inner : DataShape)
  | map (inner : DataShape)

namespace DataShape

/-- Data of a shape, with numbers of a type. -/
def Data (type : IntType) : DataShape → Type
  | number => type.Number
  | option inner => Option (inner.Data type)
  | list inner => List (inner.Data type)
  | map inner => NameMap (inner.Data type)

instance instIntoValue (type : IntType) : (shape : DataShape) → IntoValue (shape.Data type)
  | number => inferInstanceAs (IntoValue type.Number)
  | option inner =>
    have := instIntoValue type inner
    inferInstanceAs (IntoValue (Option (inner.Data type)))
  | list inner =>
    have := instIntoValue type inner
    inferInstanceAs (IntoValue (List (inner.Data type)))
  | map inner =>
    have := instIntoValue type inner
    inferInstanceAs (IntoValue (NameMap (inner.Data type)))

instance instToValue (type : IntType) : (shape : DataShape) → ToValue (shape.Data type)
  | number => inferInstanceAs (ToValue type.Number)
  | option inner =>
    have := instToValue type inner
    inferInstanceAs (ToValue (Option (inner.Data type)))
  | list inner =>
    have := instToValue type inner
    inferInstanceAs (ToValue (List (inner.Data type)))
  | map inner =>
    have := instToValue type inner
    inferInstanceAs (ToValue (NameMap (inner.Data type)))

/-- The text for data of a shape, from texts for its numbers. -/
def text {type : IntType} (numberText : type.Number → String) :
    (shape : DataShape) → shape.Data type → String
  | number, n => numberText n
  | option _, none => ""
  | option inner, some d => inner.text numberText d
  | list inner, ds => ", ".intercalate (ds.map (inner.text numberText))
  | map inner, fields => "\x7b" ++ ", ".intercalate
      (NameMap.entries fields |>.map fun field =>
        field.1 ++ ": " ++ inner.text numberText field.2) ++ "\x7d"

end DataShape

/-! ## Numbers -/

theorem toInt_toInt64 (n : UInt64) :
    n.toInt64.toInt = if (n.toNat : Int) < 2 ^ 63 then (n.toNat : Int) else n.toNat - 2 ^ 64 := by
  have hbits : n.toInt64.toInt = n.toBitVec.toInt := rfl
  rw [hbits, BitVec.toInt_eq_toNat_cond, UInt64.toNat_toBitVec]
  split <;> split <;> omega

namespace IntType

/-- Only numbers of 64 unsigned bits may be too large. -/
theorem toInt_lt (type : IntType) (n : type.Number) (huint64 : type ≠ uint64)
    (hsize : type ≠ size) : type.toInt n < 2 ^ 63 := by
  cases type with
  | int8 => exact Int.lt_trans (Int8.toInt_lt n) (by decide)
  | int16 => exact Int.lt_trans (Int16.toInt_lt n) (by decide)
  | int32 => exact Int.lt_trans (Int32.toInt_lt n) (by decide)
  | int64 => exact Int64.toInt_lt n
  | uint8 => exact Int.lt_trans (Int.ofNat_lt.2 (UInt8.toNat_lt n)) (by decide)
  | uint16 => exact Int.lt_trans (Int.ofNat_lt.2 (UInt16.toNat_lt n)) (by decide)
  | uint32 => exact Int.lt_trans (Int.ofNat_lt.2 (UInt32.toNat_lt n)) (by decide)
  | uint64 => exact absurd rfl huint64
  | size => exact absurd rfl hsize

theorem shown_of_lt {type : IntType} {n : type.Number} (h : type.toInt n < 2 ^ 63) :
    type.shown n = type.toInt n := if_pos h

/-- The value of a number has 64 signed bits, and its bits are those of the number. -/
theorem exists_intoValue_eq (type : IntType) (n : type.Number) :
    ∃ m : Int64, intoValue n = .integer m ∧ m.toInt = type.shown n := by
  cases type with
  | int8 =>
    have hlt := toInt_lt int8 n nofun nofun
    exact ⟨Int8.toInt64 n, rfl, (Int8.toInt_toInt64 n).trans (shown_of_lt hlt).symm⟩
  | int16 =>
    have hlt := toInt_lt int16 n nofun nofun
    exact ⟨Int16.toInt64 n, rfl, (Int16.toInt_toInt64 n).trans (shown_of_lt hlt).symm⟩
  | int32 =>
    have hlt := toInt_lt int32 n nofun nofun
    exact ⟨Int32.toInt64 n, rfl, (Int32.toInt_toInt64 n).trans (shown_of_lt hlt).symm⟩
  | int64 =>
    have hlt := toInt_lt int64 n nofun nofun
    exact ⟨n, rfl, (shown_of_lt hlt).symm⟩
  | uint8 => exact ⟨_, rfl, toInt_toInt64 (UInt8.toUInt64 n)⟩
  | uint16 => exact ⟨_, rfl, toInt_toInt64 (UInt16.toUInt64 n)⟩
  | uint32 => exact ⟨_, rfl, toInt_toInt64 (UInt32.toUInt64 n)⟩
  | uint64 => exact ⟨_, rfl, toInt_toInt64 n⟩
  | size => exact ⟨_, rfl, toInt_toInt64 n⟩

theorem toValue_eq (type : IntType) (n : type.Number) : toValue n = intoValue n := by
  cases type <;> rfl

theorem text_intoValue (type : IntType) (n : type.Number) :
    (intoValue n).text = toString (type.shown n) := by
  obtain ⟨m, hvalue, hm⟩ := type.exists_intoValue_eq n
  rw [hvalue, Value.text, hm]

end IntType

/-! ## Data of a shape -/

theorem itemTexts_eq_map (items : List Value) : Value.itemTexts items = items.map Value.text := by
  induction items with
  | nil => rfl
  | cons item items ih => rw [Value.itemTexts, ih, List.map_cons]

theorem fieldTexts_eq_map (fields : List (String × Value)) :
    Value.fieldTexts fields = fields.map fun field => field.1 ++ ": " ++ field.2.text := by
  induction fields with
  | nil => rfl
  | cons field fields ih => rw [Value.fieldTexts, ih, List.map_cons]

section

variable {α : Type} [IntoValue α]

theorem text_intoValue_list (items : List α) :
    (intoValue items).text = ", ".intercalate (items.map fun item => (intoValue item).text) := by
  change (Value.list (items.map intoValue)).text = _
  rw [Value.text, itemTexts_eq_map, List.map_map]
  rfl

theorem text_intoValue_map (fields : NameMap α) :
    (intoValue fields).text = "\x7b" ++ ", ".intercalate (fields.entries.map fun field =>
      field.1 ++ ": " ++ (intoValue field.2).text) ++ "\x7d" := by
  change (Value.map (fields.entries.map fun field => (field.1, intoValue field.2))).text = _
  rw [Value.text, fieldTexts_eq_map, List.map_map]
  rfl

end

namespace DataShape

theorem toValue_eq {type : IntType} (shape : DataShape) (d : shape.Data type) :
    toValue d = intoValue d := by
  induction shape with
  | number => exact type.toValue_eq d
  | option inner ih =>
    cases d with
    | none => rfl
    | some d => exact ih d
  | list inner ih => exact congrArg Value.list (List.map_congr_left fun d _ => ih d)
  | map inner ih =>
    refine congrArg Value.map (List.map_congr_left fun field _ => ?_)
    exact congrArg (field.1, ·) (ih field.2)

theorem text_intoValue {type : IntType} (shape : DataShape) (d : shape.Data type) :
    (intoValue d).text = shape.text (fun n => toString (type.shown n)) d := by
  induction shape with
  | number => exact type.text_intoValue d
  | option inner ih =>
    cases d with
    | none => rfl
    | some d => exact ih d
  | list inner ih =>
    have htext := text_intoValue_list (d : List (inner.Data type))
    simp only [ih] at htext
    exact htext
  | map inner ih =>
    have htext := text_intoValue_map (d : NameMap (inner.Data type))
    simp only [ih] at htext
    exact htext

/-- Whole numbers, and data of any shape around them, have one value, however it is made. It shows
them in decimal: the numbers as they are, but those of `2 ^ 63` and above, which have 64 unsigned
bits, less by `2 ^ 64`. -/
theorem conversions_agree (type : IntType) (shape : DataShape) (d : shape.Data type) :
    toValue d = intoValue d ∧ toValue (Ref.mk d) = intoValue d ∧
    (intoValue d).text = shape.text (fun n => toString
      (if type.toInt n < 2 ^ 63 then type.toInt n else type.toInt n - 2 ^ 64)) d ∧
    (type ≠ .uint64 → type ≠ .size → ∀ n : type.Number, type.toInt n < 2 ^ 63) :=
  ⟨shape.toValue_eq d, shape.toValue_eq d, shape.text_intoValue d,
    fun huint64 hsize n => type.toInt_lt n huint64 hsize⟩

end DataShape

/-- The largest number of 64 unsigned bits is shown as a negative number. -/
theorem largest_uint64_shown : (intoValue (18446744073709551615 : UInt64)).text = "-1" ∧
    toString (IntType.toInt .uint64 (18446744073709551615 : UInt64)) = "18446744073709551615" := by
  decide +kernel

end StyledTemplate
