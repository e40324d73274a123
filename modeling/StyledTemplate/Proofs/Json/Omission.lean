import Mathlib.Data.List.Basic
import StyledTemplate.Json.Record
import StyledTemplate.Proofs.Fields

/-!
# Leaving fields out of JSON

`Json.without` drops the fields at some places of a value, each place given by the keys that lead to
it. A decoder that asks for a field with a default then sees the default exactly if the field is
left out, and otherwise what is left of the field (`Json.fieldD_without`); one that reads an array
sees what is left of each item (`Json.mapM_itemsWithout`).
-/

namespace StyledTemplate.Json

/-- One step down into a JSON value. -/
inductive Key where
  /-- To what an object holds under a name. -/
  | field (name : String)
  /-- To an item of an array. -/
  | item (index : Nat)
  deriving DecidableEq

/-- Places in a JSON value, each given by the keys that lead to it. -/
abbrev Places := List Key → Bool

namespace Places

/-- The places that a key leads to. -/
def below (places : Places) (key : Key) : Places := fun path => places (key :: path)

/-- The places in each item of an array. -/
def items (places : Places) (index : Nat) : Places := places.below (.item index)

/-- No place at all. -/
def nowhere : Places := fun _ => false

/-- The listed places. -/
def ofList (paths : List (List Key)) : Places := fun path => decide (path ∈ paths)

/-- What is read for a field: its default if the field is left out. -/
def orDefault {α : Type} (omitted : Places) (name : String) (default value : α) : α :=
  if omitted [.field name] then default else value

@[simp] theorem orDefault_some {α : Type} (omitted : Places) (name : String) (default value : α) :
    omitted.orDefault name (some default) (some value) =
      some (omitted.orDefault name default value) := by
  rw [orDefault, orDefault, apply_ite some]

end Places

mutual

/-- The value without the fields at some places. -/
def without (omitted : Places) : Json → Json
  | .array items => .array (itemsWithout omitted.items items)
  | .object fields => .object (fieldsWithout omitted fields)
  | atom => atom

/-- The items of an array, each without the fields at some places. -/
def itemsWithout (omitted : Nat → Places) : List Json → List Json
  | [] => []
  | item :: rest =>
    item.without (omitted 0) :: itemsWithout (fun index => omitted (index + 1)) rest

/-- The fields of an object without those at some places. -/
def fieldsWithout (omitted : Places) : Fields Json → Fields Json
  | [] => []
  | (name, value) :: rest =>
    if omitted [.field name] then fieldsWithout omitted rest
    else (name, value.without (omitted.below (.field name))) :: fieldsWithout omitted rest

end

/-- What is left of an object is what is left of its fields. -/
theorem without_object (omitted : Places) (fields : Fields Json) :
    (object fields).without omitted = object (fieldsWithout omitted fields) := rfl

/-- The case of a choice that carries something is not left out. -/
theorem without_case {name : String} {value : Json} {omitted : Places}
    (hkept : omitted [.field name] = false) :
    (object [(name, value)]).without omitted =
      object [(name, value.without (omitted.below (.field name)))] := by
  rw [without_object, fieldsWithout, hkept, if_neg Bool.false_ne_true, fieldsWithout]

/-! ## Nothing left out -/

mutual

theorem without_nowhere : (j : Json) → j.without .nowhere = j
  | .null | .bool _ | .integer _ | .float _ | .string _ => rfl
  | .array items => congrArg array (itemsWithout_nowhere items)
  | .object fields => congrArg object (fieldsWithout_nowhere fields)

theorem itemsWithout_nowhere : (items : List Json) → itemsWithout (fun _ => .nowhere) items = items
  | [] => rfl
  | item :: rest => congrArg₂ List.cons (without_nowhere item) (itemsWithout_nowhere rest)

theorem fieldsWithout_nowhere : (fields : Fields Json) → fieldsWithout .nowhere fields = fields
  | [] => rfl
  | (name, value) :: rest =>
    congrArg₂ List.cons (congrArg (Prod.mk name) (without_nowhere value))
      (fieldsWithout_nowhere rest)

end

/-! ## Reading values without fields -/

section Atoms

variable {α : Type}

@[simp] theorem bool?_without (omitted : Places) (b : Bool) :
    bool? ((bool b).without omitted) = some b := rfl

@[simp] theorem string?_without (omitted : Places) (s : String) :
    string? ((string s).without omitted) = some s := rfl

@[simp] theorem float?_without (omitted : Places) (f : Float) :
    float? ((float f).without omitted) = some f := rfl

theorem natBelow?_without (omitted : Places) {n bound : Nat} (h : n < bound) :
    natBelow? bound ((integer n).without omitted) = some n := by
  have hbounds : (0 : Int) ≤ n ∧ (n : Int) < bound := by omega
  have hatom : (integer n).without omitted = integer n := rfl
  rw [hatom, natBelow?, if_pos hbounds, Int.toNat_natCast]

@[simp] theorem uint8?_without (omitted : Places) (n : UInt8) :
    uint8? ((integer n.toNat).without omitted) = some n := by
  rw [uint8?, natBelow?_without omitted n.toNat_lt_size, Option.map_some, UInt8.ofNat_toNat]

@[simp] theorem uint32?_without (omitted : Places) (n : UInt32) :
    uint32? ((integer n.toNat).without omitted) = some n := by
  rw [uint32?, natBelow?_without omitted n.toNat_lt_size, Option.map_some, UInt32.ofNat_toNat]

@[simp] theorem int32?_without (omitted : Places) (n : Int32) :
    int32? ((integer n.toInt).without omitted) = some n := by
  have hbounds : -Int.pow 2 31 ≤ n.toInt ∧ n.toInt < Int.pow 2 31 := ⟨n.le_toInt, n.toInt_lt⟩
  have hatom : (integer n.toInt).without omitted = integer n.toInt := rfl
  rw [hatom, int32?, if_pos hbounds, Int32.ofInt_toInt]

/-- A value that may be absent is read as such if the decoder of the value rejects `null`. -/
theorem nullable_without {decode : Json → Option α} {write : α → Json} {omitted : Places}
    (hread : ∀ value, decode ((write value).without omitted) = some value)
    (hnull : decode .null = none) (value : Option α) :
    nullable decode (((value.map write).getD .null).without omitted) = some value := by
  cases value with
  | none => rfl
  | some value =>
    have hwritten := hread value
    rw [Option.map_some, Option.getD_some]
    cases hj : (write value).without omitted with
    | null =>
      rw [hj, hnull] at hwritten
      cases hwritten
    | _ =>
      rw [hj] at hwritten
      rw [nullable, hwritten, Option.map_some]
      exact fun hnull => by cases hnull

end Atoms

/-! ## Reading records -/

section Records

variable {α : Type} {omitted : Places} {fields : Fields Json} {names : List String} {least : Nat}
  {name : String}

/-- Of an object one finds what is left of each field that is not left out. -/
theorem find?_fieldsWithout (omitted : Places) (fields : Fields Json) (name : String) :
    (fieldsWithout omitted fields).find? name =
      if omitted [.field name] then none
      else (fields.find? name).map (without (omitted.below (.field name))) := by
  induction fields with
  | nil => simp [fieldsWithout, Fields.find?]
  | cons field rest ih =>
    obtain ⟨key, value⟩ := field
    rw [fieldsWithout, Fields.find?]
    by_cases hname : key = name
    · subst hname
      by_cases homitted : omitted [.field key] = true
      · rw [if_pos homitted, ih, if_pos homitted, if_pos homitted]
      · rw [if_neg homitted, if_neg homitted, Fields.find?, if_pos rfl, if_pos rfl]
        rfl
    · rw [if_neg hname, ← ih]
      split
      · rfl
      · rw [Fields.find?, if_neg hname]

/-- A decoder finds in a record what the object holds. -/
theorem find?_recordParts? {parts : Fields (Part (object fields))}
    (hparts : recordParts? names least (object fields) = some parts) (name : String) :
    (parts.find? name).map Subtype.val = fields.find? name := by
  obtain rfl := Option.some.inj hparts
  rw [← Fields.find?_map fun _ => Subtype.val, List.map_map]
  exact congrArg (Fields.find? name) fields.attach_map_subtype_val

/-- An object is read as a record, whatever its fields are. -/
theorem recordParts?_bind {β : Type} {use : Fields (Part (object fields)) → Option β}
    {result : Option β}
    (h : ∀ parts, recordParts? names least (object fields) = some parts → use parts = result) :
    (recordParts? names least (object fields)).bind use = result :=
  h _ rfl

/-- The field of a record that takes a default takes it if the object does not hold it. -/
theorem fieldD_eq {parts : Fields (Part (object fields))}
    (hparts : recordParts? names least (object fields) = some parts) (name : String)
    (decode : Json → Option α) (default : α) : fieldD parts name decode default =
      match fields.find? name with
      | none => some default
      | some value => decode value := by
  rw [fieldD, partD, ← find?_recordParts? hparts name]
  cases parts.find? name <;> rfl

/-- The field of a record that takes a default takes it exactly if it is left out. -/
theorem fieldD_without {parts : Fields (Part (object (fieldsWithout omitted fields)))}
    (hparts : recordParts? names least (object (fieldsWithout omitted fields)) = some parts)
    (decode : Json → Option α) (default : α) :
    fieldD parts name decode default =
      omitted.orDefault name (some default)
        (match fields.find? name with
        | none => some default
        | some value => decode (value.without (omitted.below (.field name)))) := by
  rw [fieldD_eq hparts, find?_fieldsWithout, Places.orDefault]
  by_cases homitted : omitted [.field name] = true
  · rw [if_pos homitted, if_pos homitted]
  · rw [if_neg homitted, if_neg homitted]
    cases fields.find? name <;> rfl

/-- The field of a record that is not left out is read from what is left of it. -/
theorem field_without {parts : Fields (Part (object (fieldsWithout omitted fields)))}
    (hparts : recordParts? names least (object (fieldsWithout omitted fields)) = some parts)
    (hkept : omitted [.field name] = false) (decode : Json → Option α) :
    field parts name decode =
      match fields.find? name with
      | none => none
      | some value => decode (value.without (omitted.below (.field name))) := by
  have hfind := find?_recordParts? hparts name
  rw [find?_fieldsWithout, hkept, if_neg Bool.false_ne_true] at hfind
  have hopen : field parts name decode = ((parts.find? name).map Subtype.val).bind decode :=
    Option.bind_map.symm
  rw [hopen, hfind, Option.bind_map]
  cases fields.find? name <;> rfl

end Records

/-! ## Reading arrays -/

section Arrays

variable {α : Type} {decode : Json → Option α} {write : α → Json}

/-- The items of an array are read one by one, each from what is left of it. -/
theorem mapM_itemsWithout (read : Places → α → α) (omitted : Nat → Places) (items : List α)
    (hread : ∀ index, ∀ item ∈ items,
      decode ((write item).without (omitted index)) = some (read (omitted index) item)) :
    (itemsWithout omitted (items.map write)).mapM decode =
      some (items.mapIdx fun index item => read (omitted index) item) := by
  induction items generalizing omitted with
  | nil => rfl
  | cons item rest ih =>
    have hhead := hread 0 item List.mem_cons_self
    have htail := ih (fun index => omitted (index + 1)) fun index item hmem =>
      hread (index + 1) item (List.mem_cons_of_mem _ hmem)
    rw [List.map_cons, itemsWithout, List.mapM_cons, hhead, htail, List.mapIdx_cons]
    rfl

theorem array?_without (omitted : Places) (items : List Json) :
    array? decode ((array items).without omitted) =
      (itemsWithout omitted.items items).mapM decode := rfl

/-- An array of things without fields is read as a whole. -/
theorem array?_without_atoms (omitted : Places) (items : List α)
    (hread : ∀ omitted item, decode ((write item).without omitted) = some item) :
    array? decode ((array (items.map write)).without omitted) = some items := by
  have hall := mapM_itemsWithout (fun _ item => item) omitted.items items
    fun index item _ => hread (omitted.items index) item
  rw [array?_without, hall]
  congr 1
  exact List.mapIdx_eq_iff.2 fun index => by cases items[index]? <;> rfl

theorem parts?_bind_mapM (j : Json) :
    ((parts? j).bind fun items => items.mapM fun item => decode item.1) = array? decode j := by
  cases j with
  | array items =>
    rw [parts?, Option.bind_some, List.mapM_map, array?]
    conv => rhs; rw [← items.attach_map_subtype_val, List.mapM_map]
    rfl
  | _ => rfl

/-- A field that holds an array is read by the decoder of the items, whether or not it is a part to
descend into. -/
theorem partD_array {j : Json} (fields : Fields (Part j)) (name : String) (default : List α) :
    partD fields name
        (fun part => (parts? part.1).bind fun items => items.mapM fun item => decode item.1)
        default =
      fieldD fields name (array? decode) default := by
  simp only [parts?_bind_mapM, fieldD]

end Arrays

end StyledTemplate.Json
