import StyledTemplate.Proofs.Json.Omission

/-!
# Laying one JSON value over another

Laying an object over another one gives the names of both, and a name of both holds what it held,
with its new value laid over that (`Json.find?_mergeFields`). An array takes the place of whatever
was there, at any depth (`Json.at?_merge_array`).
-/

namespace StyledTemplate.Json

/-- What a name comes to hold when a value is laid over what it held. -/
def mergeOver (old : Option Json) (value : Json) : Json :=
  match old with
  | some old => merge old value
  | none => value

/-- No object within the value has two fields of one name. -/
inductive Distinct : Json → Prop
  | null : Distinct .null
  | bool (b : Bool) : Distinct (.bool b)
  | integer (n : Int) : Distinct (.integer n)
  | float (f : Float) : Distinct (.float f)
  | string (s : String) : Distinct (.string s)
  | array {items : List Json} (hitems : ∀ item ∈ items, Distinct item) : Distinct (.array items)
  | object {fields : List (String × Json)} (hkeys : (fields.map Prod.fst).Nodup)
      (hfields : ∀ field ∈ fields, Distinct field.2) : Distinct (.object fields)

/-- What some names lead to, from one object to the next. -/
def at? : Json → List String → Option Json
  | j, [] => some j
  | .object fields, name :: path => (Fields.find? name fields).bind (·.at? path)
  | _, _ :: _ => none

theorem merge_object (base upper : Fields Json) :
    merge (.object base) (.object upper) = .object (mergeFields base upper) := rfl

theorem mergeFields_cons (base : Fields Json) (name : String) (value : Json) (rest : Fields Json) :
    mergeFields base ((name, value) :: rest) =
      mergeFields (base.insert name (mergeOver (base.find? name) value)) rest := rfl

/-- Each name holds what it held, with what the upper object gives it laid over that. -/
theorem find?_mergeFields {upper : Fields Json} (hdistinct : upper.keys.Nodup) (base : Fields Json)
    (name : String) : (mergeFields base upper).find? name =
      ((upper.find? name).map (mergeOver (base.find? name))).or (base.find? name) := by
  induction upper generalizing base with
  | nil => rfl
  | cons field rest ih =>
    obtain ⟨key, value⟩ := field
    obtain ⟨hkey, hrest⟩ := List.nodup_cons.1 hdistinct
    rw [mergeFields_cons, ih hrest, Fields.find?_insert, Fields.find?]
    by_cases hname : key = name
    · subst hname
      have hnone : Fields.find? key rest = none :=
        Option.eq_none_iff_forall_ne_some.2 fun _ hfound => hkey (Fields.find?_mem_keys hfound)
      rw [hnone, if_pos rfl, if_pos rfl]
      rfl
    · rw [if_neg hname, if_neg hname]

/-- An array is not merged with what it is laid over, wherever it stands. -/
theorem at?_merge_array {base upper : Json} {path : List String} {items : List Json}
    (hdistinct : upper.Distinct) (h : upper.at? path = some (.array items)) :
    (merge base upper).at? path = some (.array items) := by
  induction path generalizing base upper with
  | nil =>
    rw [at?] at h
    obtain rfl := Option.some.inj h
    rfl
  | cons name path ih =>
    cases hdistinct with
    | @object upper hkeys hfields =>
      rw [at?] at h
      obtain ⟨value, hfind, hvalue⟩ := Option.bind_eq_some_iff.1 h
      have hplain := hfields _ (Fields.mem_of_find? hfind)
      cases base with
      | object base =>
        rw [merge_object, at?, find?_mergeFields hkeys, hfind, Option.map_some, Option.some_or,
          Option.bind_some]
        cases Fields.find? name base with
        | none => exact hvalue
        | some old => exact ih hplain hvalue
      | _ =>
        show (Json.object upper).at? (name :: path) = _
        rw [at?, hfind]
        exact hvalue
    | _ => cases h

/-! ## Some fields of a record -/

/-- The fields are those of the members whose names are chosen, in any order, and perhaps others of
unknown names. -/
structure Holds (members : Fields Json) (chosen : String → Bool) (fields : Fields Json) : Prop where
  /-- No two fields have one name. -/
  distinct : fields.keys.Nodup
  /-- The chosen members and what there is besides. -/
  content : ∃ others : Fields Json,
    fields.Perm (members.filter (fun member => chosen member.1) ++ others) ∧
    ∀ name ∈ others.keys, name ∉ members.keys

section Holds

variable {α : Type} {members base fields : Fields Json} {chosen : String → Bool} {name : String}
  {old value : Json}

/-- A member is held if its name is chosen, and otherwise there is nothing of its name. -/
theorem Holds.find?_eq (h : Holds members chosen fields) (hmembers : members.keys.Nodup)
    (hmember : members.find? name = some value) :
    fields.find? name = if chosen name then some value else none := by
  obtain ⟨hdistinct, others, horder, hothers⟩ := h
  have hmem := (Fields.find?_eq_some_iff_mem hmembers).1 hmember
  by_cases hchosen : chosen name = true
  · rw [if_pos hchosen, Fields.find?_eq_some_iff_mem hdistinct, horder.mem_iff]
    exact List.mem_append_left _ (List.mem_filter.2 ⟨hmem, hchosen⟩)
  · rw [if_neg hchosen]
    refine Option.eq_none_iff_forall_ne_some.2 fun found hfound => ?_
    have hfield := horder.mem_iff.1 (Fields.mem_of_find? hfound)
    rcases List.mem_append.1 hfield with hfilter | hother
    · exact hchosen (List.mem_filter.1 hfilter).2
    · exact hothers name (List.mem_map_of_mem hother) (List.mem_map_of_mem hmem)

/-- Where a record is laid over another one, a field is read from both if its name is chosen, and
otherwise from what is below. -/
theorem Holds.fieldD_merge (h : Holds members chosen fields) (hmembers : members.keys.Nodup)
    {names : List String} {least : Nat} {parts : Fields (Part (object (mergeFields base fields)))}
    (hparts : recordParts? names least (object (mergeFields base fields)) = some parts)
    {decode : Json → Option α} {default lower upper : α}
    (hold : base.find? name = some old) (hlower : decode old = some lower)
    (hmember : members.find? name = some value) (hupper : decode (merge old value) = some upper) :
    fieldD parts name decode default = some (if chosen name then upper else lower) := by
  rw [fieldD_eq hparts, find?_mergeFields h.distinct, h.find?_eq hmembers hmember, hold]
  by_cases hchosen : chosen name = true
  · rw [if_pos hchosen, if_pos hchosen]
    exact hupper
  · rw [if_neg hchosen, if_neg hchosen]
    exact hlower

end Holds

end StyledTemplate.Json
