import StyledTemplate.Proofs.Json.Merge

/-!
# The laws of laying JSON values over each other

Laying one object over another one is a union of their fields at every depth: a name of only one of
them holds what it holds there, and a name of both holds the one value laid over the other
(`Json.IsUnion`). Laying a value over itself, or over what it has been laid over already, changes
nothing, and an object without fields is neutral on both sides (`Json.merge_deep_union`).
-/

namespace StyledTemplate.Json

/-- The fields of every object within the value are in strictly increasing order of their names. -/
inductive Ordered : Json → Prop
  | null : Ordered .null
  | bool (b : Bool) : Ordered (.bool b)
  | integer (n : Int) : Ordered (.integer n)
  | float (f : Float) : Ordered (.float f)
  | string (s : String) : Ordered (.string s)
  | array {items : List Json} (hitems : ∀ item ∈ items, Ordered item) : Ordered (.array items)
  | object {fields : Fields Json} (hsorted : fields.Sorted)
      (hfields : ∀ field ∈ fields, Ordered field.2) : Ordered (.object fields)

/-- The fields are those of both objects, a name of both holding the upper value laid over the lower
one. -/
structure IsUnion (lower upper fields : Fields Json) : Prop where
  /-- The names are in order, and no two are the same. -/
  sorted : fields.Sorted
  /-- There are the names of both. -/
  names : ∀ name, name ∈ fields.keys ↔ name ∈ lower.keys ∨ name ∈ upper.keys
  /-- A name of the lower object alone keeps its value. -/
  of_lower : ∀ name old, lower.find? name = some old → name ∉ upper.keys →
    fields.find? name = some old
  /-- A name of the upper object alone keeps its value. -/
  of_upper : ∀ name value, name ∉ lower.keys → upper.find? name = some value →
    fields.find? name = some value
  /-- What a name of both holds is merged. -/
  of_both : ∀ name old value, lower.find? name = some old → upper.find? name = some value →
    fields.find? name = some (merge old value)

/-- An object that is made of values in order is in order. -/
theorem Ordered.ofList {pairs : List (String × Json)} (h : ∀ pair ∈ pairs, pair.2.Ordered) :
    (Json.object (Fields.ofList pairs)).Ordered := by
  have hsorted := Fields.sorted_ofList pairs
  refine .object hsorted ?_
  rintro ⟨name, value⟩ hmem
  have hlast := hsorted.mem_iff.1 hmem
  rw [Fields.find?_ofPairs, lastValue?_eq_some_iff] at hlast
  obtain ⟨pre, post, rfl, -⟩ := hlast
  exact h _ (List.mem_append_right _ List.mem_cons_self)

/-! ## Objects -/

section Objects

variable {base upper : Fields Json}

theorem sorted_mergeFields (hbase : base.Sorted) (upper : Fields Json) :
    (mergeFields base upper).Sorted := by
  induction upper generalizing base with
  | nil => exact hbase
  | cons field rest ih =>
    rw [mergeFields_cons]
    exact ih (hbase.insert _ _)

/-- Laying one object over another one gives their union. -/
theorem isUnion_mergeFields (hbase : base.Sorted) (hupper : upper.Sorted) :
    IsUnion base upper (mergeFields base upper) := by
  have hfind := find?_mergeFields hupper.nodup_keys base
  refine ⟨sorted_mergeFields hbase upper, ?_, ?_, ?_, ?_⟩
  · intro name
    have hnone : (mergeFields base upper).find? name = none ↔
        name ∉ (mergeFields base upper).keys := Fields.find?_eq_none_iff
    rw [← not_iff_not, ← hnone, hfind, Option.or_eq_none_iff, Option.map_eq_none_iff,
      Fields.find?_eq_none_iff, Fields.find?_eq_none_iff, not_or, and_comm]
  · intro name old hold hupper
    rw [hfind, Fields.find?_eq_none_iff.2 hupper, hold]
    rfl
  · intro name value hbase hvalue
    rw [hfind, Fields.find?_eq_none_iff.2 hbase, hvalue]
    rfl
  · intro name old value hold hvalue
    rw [hfind, hold, hvalue]
    rfl

/-- What laying an object over another one gives has a value under a name that comes from one of
them, or from both. -/
theorem find?_mergeFields_cases {name : String} {value : Json} (hupper : upper.Sorted)
    (h : (mergeFields base upper).find? name = some value) :
    base.find? name = some value ∨ upper.find? name = some value ∨
      ∃ old new, base.find? name = some old ∧ upper.find? name = some new ∧
        value = merge old new := by
  rw [find?_mergeFields hupper.nodup_keys] at h
  cases hbase : base.find? name with
  | none =>
    cases hnew : upper.find? name with
    | none =>
      rw [hbase, hnew] at h
      cases h
    | some new =>
      rw [hbase, hnew] at h
      exact .inr (.inl h)
  | some old =>
    cases hnew : upper.find? name with
    | none =>
      rw [hbase, hnew] at h
      exact .inl h
    | some new =>
      rw [hbase, hnew] at h
      exact .inr (.inr ⟨old, new, rfl, rfl, (Option.some.inj h).symm⟩)

theorem mergeFields_nil_left (hupper : upper.Sorted) : mergeFields [] upper = upper := by
  refine (sorted_mergeFields List.Pairwise.nil upper).ext hupper fun name => ?_
  rw [find?_mergeFields hupper.nodup_keys]
  cases upper.find? name <;> rfl

end Objects

/-! ## Values -/

section Values

variable {a b : Json}

/-- If not both are objects, the upper value takes the place of the lower one. -/
theorem merge_of_not_objects
    (h : ∀ base upper, a = .object base → b = .object upper → False) : merge a b = b := by
  cases b with
  | object upper =>
    cases a with
    | object base => exact absurd rfl (h base upper rfl)
    | _ => rfl
  | _ => rfl

theorem Ordered.merge (ha : a.Ordered) (hb : b.Ordered) : (merge a b).Ordered := by
  induction hb generalizing a with
  | @object upper hupper hfields ih =>
    cases ha with
    | @object base hbase hold =>
      have hsorted := sorted_mergeFields hbase upper
      refine .object hsorted ?_
      rintro ⟨name, value⟩ hmem
      rcases find?_mergeFields_cases hupper (hsorted.mem_iff.1 hmem) with hlow | hup | hboth
      · exact hold _ (Fields.mem_of_find? hlow)
      · exact hfields _ (Fields.mem_of_find? hup)
      · obtain ⟨old, new, hlow, hup, rfl⟩ := hboth
        exact ih _ (Fields.mem_of_find? hup) (hold _ (Fields.mem_of_find? hlow))
    | _ => exact .object hupper hfields
  | null => exact .null
  | bool b => exact .bool b
  | integer n => exact .integer n
  | float f => exact .float f
  | string s => exact .string s
  | array hitems => exact .array hitems

/-- A value that is laid over itself is the same. -/
theorem merge_self (ha : a.Ordered) : merge a a = a := by
  induction ha with
  | @object fields hsorted hfields ih =>
    rw [merge_object]
    refine congrArg Json.object ((sorted_mergeFields hsorted fields).ext hsorted fun name => ?_)
    rw [find?_mergeFields hsorted.nodup_keys]
    cases hfind : fields.find? name with
    | none => rfl
    | some value =>
      have hvalue : merge value value = value := ih _ (Fields.mem_of_find? hfind)
      rw [Option.map_some, Option.some_or, mergeOver, hvalue]
  | _ => rfl

/-- A value that is laid over another one twice is laid over it once. -/
theorem merge_merge_self (ha : a.Ordered) (hb : b.Ordered) :
    merge (merge a b) b = merge a b := by
  induction hb generalizing a with
  | @object upper hupper hfields ih =>
    cases ha with
    | @object base hbase hold =>
      have hsorted := sorted_mergeFields hbase upper
      rw [merge_object, merge_object]
      refine congrArg Json.object ((sorted_mergeFields hsorted upper).ext hsorted fun name => ?_)
      rw [find?_mergeFields hupper.nodup_keys (mergeFields base upper),
        find?_mergeFields hupper.nodup_keys base]
      cases hnew : upper.find? name with
      | none => rfl
      | some new =>
        have hnewMem := Fields.mem_of_find? hnew
        cases hlow : base.find? name with
        | none =>
          have hself : merge new new = new := merge_self (hfields _ hnewMem)
          exact congrArg some hself
        | some old =>
          have htwice : merge (merge old new) new = merge old new :=
            ih _ hnewMem (hold _ (Fields.mem_of_find? hlow))
          exact congrArg some htwice
    | _ => exact merge_self (.object hupper hfields)
  | _ => rfl

/-- Where some names lead into both values, the one is laid over the other. -/
theorem at?_merge {path : List String} {old value : Json} (hb : b.Ordered)
    (hold : a.at? path = some old) (hvalue : b.at? path = some value) :
    (merge a b).at? path = some (merge old value) := by
  induction path generalizing a b with
  | nil =>
    rw [at?] at hold hvalue
    obtain rfl := Option.some.inj hold
    obtain rfl := Option.some.inj hvalue
    rw [at?]
  | cons name path ih =>
    cases a with
    | object base =>
      cases hb with
      | @object upper hupper hfields =>
        rw [at?] at hold hvalue
        obtain ⟨low, hlow, hold⟩ := Option.bind_eq_some_iff.1 hold
        obtain ⟨new, hnew, hvalue⟩ := Option.bind_eq_some_iff.1 hvalue
        rw [merge_object, at?, find?_mergeFields hupper.nodup_keys, hnew, hlow]
        exact ih (hfields _ (Fields.mem_of_find? hnew)) hold hvalue
      | _ => cases hvalue
    | _ => cases hold

theorem Ordered.at? {path : List String} {value : Json} (ha : a.Ordered)
    (h : a.at? path = some value) : value.Ordered := by
  induction path generalizing a with
  | nil =>
    rw [Json.at?] at h
    obtain rfl := Option.some.inj h
    exact ha
  | cons name path ih =>
    cases ha with
    | @object fields hsorted hfields =>
      rw [Json.at?] at h
      obtain ⟨inner, hinner, h⟩ := Option.bind_eq_some_iff.1 h
      exact ih (hfields _ (Fields.mem_of_find? hinner)) h
    | _ => cases h

/-- Laying a value over another one is a union with the upper one preferred, at every depth at which
both have an object: there the names of both are found again, none is lost, each with what it held
or with the merge of what it held. Otherwise the upper value is taken. Doing it twice, or with one
value on both sides, changes nothing, and neither does an object without fields on either side. -/
theorem merge_deep_union (ha : a.Ordered) (hb : b.Ordered) :
    (merge a b).Ordered ∧
    (∀ path lower upper, a.at? path = some (.object lower) → b.at? path = some (.object upper) →
      ∃ fields, (merge a b).at? path = some (.object fields) ∧ IsUnion lower upper fields) ∧
    ((∀ lower upper, a = .object lower → b = .object upper → False) → merge a b = b) ∧
    merge (merge a b) b = merge a b ∧ merge a a = a ∧
    (∀ fields, a = .object fields → merge a (.object []) = a) ∧
    ∀ fields, b = .object fields → merge (.object []) b = b := by
  refine ⟨ha.merge hb, ?_, merge_of_not_objects, merge_merge_self ha hb, merge_self ha, ?_, ?_⟩
  · intro path lower upper hlower hupper
    cases ha.at? hlower with
    | object hlow =>
      cases hb.at? hupper with
      | object hup =>
        exact ⟨mergeFields lower upper, at?_merge hb hlower hupper, isUnion_mergeFields hlow hup⟩
  · rintro fields rfl
    rfl
  · rintro fields rfl
    cases hb with
    | object hsorted => exact congrArg Json.object (mergeFields_nil_left hsorted)

/-- An object with an array and another object in it. -/
def ledger : Json :=
  .object (Fields.ofList [("due", .array [.integer 1, .integer 2]),
    ("outer", .object (Fields.ofList [("a", .integer 1), ("b", .integer 2)]))])

/-- Other values for some of the names, and one more name at each depth. -/
def ledgerUpdate : Json :=
  .object (Fields.ofList [("due", .array [.integer 4]), ("note", .string "late"),
    ("outer", .object (Fields.ofList [("b", .integer 3), ("c", .null)]))])

theorem ordered_ledger : ledger.Ordered := by
  refine .ofList ?_
  rw [List.forall_mem_cons, List.forall_mem_singleton]
  refine ⟨.array ?_, .ofList ?_⟩
  · rw [List.forall_mem_cons, List.forall_mem_singleton]
    exact ⟨.integer 1, .integer 2⟩
  · rw [List.forall_mem_cons, List.forall_mem_singleton]
    exact ⟨.integer 1, .integer 2⟩

theorem ordered_ledgerUpdate : ledgerUpdate.Ordered := by
  refine .ofList ?_
  rw [List.forall_mem_cons, List.forall_mem_cons, List.forall_mem_singleton]
  refine ⟨.array ?_, .string "late", .ofList ?_⟩
  · rw [List.forall_mem_singleton]
    exact .integer 4
  · rw [List.forall_mem_cons, List.forall_mem_singleton]
    exact ⟨.integer 3, .null⟩

/-- The inner objects are merged, the array is replaced, and the update changes nothing the second
time. -/
theorem ledger_updated :
    ledger.Ordered ∧ ledgerUpdate.Ordered ∧
      merge ledger ledgerUpdate = .object [("due", .array [.integer 4]), ("note", .string "late"),
        ("outer", .object [("a", .integer 1), ("b", .integer 3), ("c", .null)])] ∧
      merge (merge ledger ledgerUpdate) ledgerUpdate = merge ledger ledgerUpdate ∧
      merge ledger ledger = ledger ∧
      ∃ fields, (merge ledger ledgerUpdate).at? ["outer"] = some (.object fields) ∧
        IsUnion [("a", .integer 1), ("b", .integer 2)] [("b", .integer 3), ("c", .null)]
          fields := by
  obtain ⟨-, hunion, -, htwice, hself, -⟩ := merge_deep_union ordered_ledger ordered_ledgerUpdate
  exact ⟨ordered_ledger, ordered_ledgerUpdate, rfl, htwice, hself, hunion ["outer"] _ _ rfl rfl⟩

end Values

end StyledTemplate.Json
