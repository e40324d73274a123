import Mathlib.Data.List.Basic
import Mathlib.Data.List.Perm.Subperm
import StyledTemplate.Fields
import StyledTemplate.Inheritance.Chain

/-!
# Looking up in maps from names

What is stored under a name after pairs have been stored one after the other is what the last pair
of the name holds (`NameMap.find?_insertAll`). Fields in order are determined by what is found under
each name (`Fields.Sorted.ext`), so two maps are equal if all look-ups in them are.
-/

namespace StyledTemplate

/-! ## The last entry of a name -/

/-- What the last pair of a name holds. -/
def lastValue? {α : Type} (pairs : List (String × α)) (name : String) : Option α :=
  (pairs.reverse.find? fun pair => pair.1 = name).map Prod.snd

section LastValue

variable {α : Type} {pairs : List (String × α)} {name : String} {value : α}

theorem lastValue?_append (as bs : List (String × α)) (name : String) :
    lastValue? (as ++ bs) name = (lastValue? bs name).or (lastValue? as name) := by
  rw [lastValue?, List.reverse_append, List.find?_append, Option.map_or]
  rfl

theorem lastValue?_cons (pair : String × α) (pairs : List (String × α)) (name : String) :
    lastValue? (pair :: pairs) name =
      (lastValue? pairs name).or (if pair.1 = name then some pair.2 else none) := by
  have h := lastValue?_append [pair] pairs name
  rw [List.singleton_append] at h
  rw [h]
  congr 1
  by_cases hname : pair.1 = name <;> simp [lastValue?, hname]

/-- Behind the last pair of a name there is no other. -/
theorem lastValue?_eq_some_iff : lastValue? pairs name = some value ↔
    ∃ pre post, pairs = pre ++ (name, value) :: post ∧ name ∉ post.map Prod.fst := by
  constructor
  · intro h
    obtain ⟨⟨key, found⟩, hfind, rfl⟩ := Option.map_eq_some_iff.1 h
    obtain ⟨hkey, pre, post, hsplit, hpre⟩ := List.find?_eq_some_iff_append.1 hfind
    obtain rfl : key = name := by simpa using hkey
    refine ⟨post.reverse, pre.reverse, ?_, ?_⟩
    · have := congrArg List.reverse hsplit
      simpa using this
    · intro hmem
      obtain ⟨pair, hpair, hname⟩ := List.mem_map.1 hmem
      have := hpre pair (List.mem_reverse.1 hpair)
      simp [hname] at this
  · rintro ⟨pre, post, rfl, hpost⟩
    have hnone : lastValue? post name = none := by
      rw [lastValue?, Option.map_eq_none_iff, List.find?_eq_none]
      intro pair hpair hname
      refine hpost (List.mem_map.2 ⟨pair, List.mem_reverse.1 hpair, ?_⟩)
      simpa using hname
    rw [lastValue?_append, lastValue?_cons, hnone]
    simp

theorem lastValue?_isSome_iff : (lastValue? pairs name).isSome ↔ name ∈ pairs.map Prod.fst := by
  rw [lastValue?, Option.isSome_map, List.find?_isSome]
  simp [List.mem_map]

theorem lastValue?_map {β : Type} (f : α → β) (pairs : List (String × α)) (name : String) :
    lastValue? (pairs.map fun pair => (pair.1, f pair.2)) name =
      (lastValue? pairs name).map f := by
  rw [lastValue?, ← List.map_reverse, List.find?_map, Option.map_map, lastValue?, Option.map_map]
  rfl

end LastValue

/-! ## Fields in order -/

namespace Fields

variable {α β : Type} {fields : Fields α} {name : String} {value : α}

theorem insert_ne_nil (fields : Fields α) (name : String) (value : α) :
    fields.insert name value ≠ [] := by
  intro h
  have hfind := fields.find?_insert name name value
  rw [h, if_pos rfl] at hfind
  cases hfind

/-- All names of fields in order are behind the first one. -/
theorem Sorted.find?_head_eq_none (h : Sorted ((name, value) :: fields)) :
    fields.find? name = none := by
  have hbehind := (List.pairwise_cons.1 h).1
  refine Option.eq_none_iff_forall_ne_some.2 fun found hfound => ?_
  exact String.lt_irrefl name (hbehind _ (mem_of_find? hfound))

/-- Of pairs with different names there is only one to be the last of its name. -/
theorem lastValue?_eq_find? (hdistinct : fields.keys.Nodup) (name : String) :
    lastValue? fields name = fields.find? name := by
  induction fields with
  | nil => rfl
  | cons field rest ih =>
    obtain ⟨key, value⟩ := field
    have hparts := List.nodup_cons.1 hdistinct
    rw [lastValue?_cons, ih hparts.2, find?]
    by_cases hname : key = name
    · subst hname
      have hnone : Fields.find? key rest = none :=
        Option.eq_none_iff_forall_ne_some.2 fun found hfound =>
          hparts.1 (List.mem_map.2 ⟨_, mem_of_find? hfound, rfl⟩)
      simp [hnone]
    · simp [hname]

theorem Sorted.nodup_keys (h : fields.Sorted) : fields.keys.Nodup :=
  List.pairwise_map.2 (h.imp String.ne_of_lt)

theorem Sorted.lastValue?_eq (h : fields.Sorted) (name : String) :
    lastValue? fields name = fields.find? name :=
  lastValue?_eq_find? h.nodup_keys name

theorem find?_map (f : String → α → β) (fields : Fields α) (name : String) :
    Fields.find? name (fields.map fun field => (field.1, f field.1 field.2)) =
      (fields.find? name).map (f name) := by
  induction fields with
  | nil => rfl
  | cons field rest ih =>
    obtain ⟨key, value⟩ := field
    rw [List.map_cons, find?, find?, ih]
    by_cases hname : key = name
    · simp [hname]
    · simp [hname]

/-- The first name of fields in order does not come later in others with the same look-ups. -/
theorem Sorted.not_lt_head {other : String} {old : α} {rest : Fields α}
    (h : Sorted ((other, old) :: rest)) (hfind : Fields.find? name ((other, old) :: rest) = some value) :
    ¬ name < other := by
  intro hlt
  rcases List.mem_cons.1 (mem_of_find? hfind) with heq | hmem
  · obtain rfl : name = other := congrArg Prod.fst heq
    exact String.lt_irrefl name hlt
  · exact String.lt_irrefl name (String.lt_trans hlt ((List.pairwise_cons.1 h).1 _ hmem))

/-- Fields in order are determined by what is found under each name. -/
theorem Sorted.ext {as bs : Fields α} (ha : as.Sorted) (hb : bs.Sorted)
    (h : ∀ name, as.find? name = bs.find? name) : as = bs := by
  induction as generalizing bs with
  | nil =>
    cases bs with
    | nil => rfl
    | cons field bs =>
      have hnone := h field.1
      rw [find?, find?, if_pos rfl] at hnone
      cases hnone
  | cons field as ih =>
    obtain ⟨name, value⟩ := field
    cases bs with
    | nil =>
      have hnone := h name
      rw [find?, find?, if_pos rfl] at hnone
      cases hnone
    | cons field bs =>
      obtain ⟨other, old⟩ := field
      have hone : Fields.find? name ((other, old) :: bs) = some value := by
        rw [← h name, find?, if_pos rfl]
      have htwo : Fields.find? other ((name, value) :: as) = some old := by
        rw [h other, find?, if_pos rfl]
      obtain rfl : name = other :=
        String.le_antisymm (String.not_lt.1 (ha.not_lt_head htwo))
          (String.not_lt.1 (hb.not_lt_head hone))
      rw [find?, if_pos rfl] at hone
      obtain rfl := Option.some.inj hone
      have hrest : as = bs := by
        refine ih (List.pairwise_cons.1 ha).2 (List.pairwise_cons.1 hb).2 fun key => ?_
        by_cases hkey : name = key
        · subst hkey
          rw [ha.find?_head_eq_none, hb.find?_head_eq_none]
        · have hfind := h key
          rwa [find?, find?, if_neg hkey, if_neg hkey] at hfind
      rw [hrest]

theorem Sorted.mem_iff (h : fields.Sorted) {field : String × α} :
    field ∈ fields ↔ fields.find? field.1 = some field.2 := by
  constructor
  · intro hmem
    induction fields with
    | nil => cases hmem
    | cons first rest ih =>
      obtain ⟨key, value⟩ := first
      rw [find?]
      rcases List.mem_cons.1 hmem with rfl | hrest
      · exact if_pos rfl
      · have hlt := (List.pairwise_cons.1 h).1 field hrest
        rw [if_neg (String.ne_of_lt hlt)]
        exact ih (List.pairwise_cons.1 h).2 hrest
  · exact mem_of_find?

/-- Storing things and then applying a function to each is storing what the function makes of
them. -/
theorem map_insert (f : α → β) (name : String) (value : α) (fields : Fields α) :
    (fields.insert name value).map (fun field => (field.1, f field.2)) =
      insert name (f value) (fields.map fun field => (field.1, f field.2)) := by
  induction fields with
  | nil => rfl
  | cons field rest ih =>
    obtain ⟨key, old⟩ := field
    rw [insert, List.map_cons, insert]
    split
    · rfl
    · split
      · rfl
      · rw [List.map_cons, ih]

theorem map_insertAll (f : α → β) (pairs : List (String × α)) (fields : Fields α) :
    (fields.insertAll pairs).map (fun field => (field.1, f field.2)) =
      insertAll (pairs.map fun pair => (pair.1, f pair.2))
        (fields.map fun field => (field.1, f field.2)) := by
  induction pairs generalizing fields with
  | nil => rfl
  | cons pair pairs ih =>
    have hstep : fields.insertAll (pair :: pairs) = (fields.insert pair.1 pair.2).insertAll pairs :=
      rfl
    rw [hstep, ih, map_insert]
    rfl

theorem map_ofList (f : α → β) (pairs : List (String × α)) :
    (ofList pairs).map (fun field => (field.1, f field.2)) =
      ofList (pairs.map fun pair => (pair.1, f pair.2)) :=
  map_insertAll f pairs []

theorem mem_keys_iff : name ∈ fields.keys ↔ ∃ value, fields.find? name = some value := by
  constructor
  · intro h
    induction fields with
    | nil => cases h
    | cons field rest ih =>
      obtain ⟨key, value⟩ := field
      rw [find?]
      by_cases hname : key = name
      · exact ⟨value, if_pos hname⟩
      · rw [if_neg hname]
        rcases List.mem_cons.1 h with heq | hrest
        · exact absurd heq.symm hname
        · exact ih hrest
  · rintro ⟨value, hvalue⟩
    exact find?_mem_keys hvalue

theorem find?_eq_none_iff : fields.find? name = none ↔ name ∉ fields.keys := by
  rw [mem_keys_iff, Option.eq_none_iff_forall_ne_some, not_exists]

/-- Fields in order have the same names if there are as many and each name of the one is found in the
other. -/
theorem Sorted.keys_eq_of_length_eq {as : Fields α} {bs : Fields β} (ha : as.Sorted)
    (hb : bs.Sorted) (hlength : as.length = bs.length)
    (hfound : ∀ field ∈ as, (bs.find? field.1).isSome) : as.keys = bs.keys := by
  have hsubset : as.keys ⊆ bs.keys := by
    intro name hname
    obtain ⟨field, hfield, rfl⟩ := List.mem_map.1 hname
    exact mem_keys_iff.2 (Option.isSome_iff_exists.1 (hfound field hfield))
  have hperm : as.keys.Perm bs.keys := by
    refine (List.subperm_of_subset ha.nodup_keys hsubset).perm_of_length_le ?_
    rw [keys, keys, List.length_map, List.length_map]
    exact Nat.le_of_eq hlength.symm
  have hsorted : as.keys.Pairwise (· < ·) := List.pairwise_map.2 ha
  have hsorted' : bs.keys.Pairwise (· < ·) := List.pairwise_map.2 hb
  exact hperm.eq_of_pairwise (fun _ _ _ _ hlt hgt => absurd hgt (String.lt_asymm hlt)) hsorted
    hsorted'

end Fields

/-! ## Maps -/

namespace NameMap

variable {α : Type}

theorem find?_insertAll (map : NameMap α) (pairs : List (String × α)) (name : String) :
    (map.insertAll pairs).find? name = (lastValue? pairs name).or (map.find? name) := by
  induction pairs generalizing map with
  | nil => rfl
  | cons pair pairs ih =>
    have hstep : map.insertAll (pair :: pairs) = (map.insert pair.1 pair.2).insertAll pairs := rfl
    rw [hstep, ih, lastValue?_cons, NameMap.find?_insert, Option.or_assoc]
    congr 1
    by_cases h : pair.1 = name <;> simp [h]

/-- The map that holds some pairs holds the last pair of each name. -/
theorem find?_ofPairs (pairs : List (String × α)) (name : String) :
    (ofList pairs).find? name = lastValue? pairs name := by
  rw [ofList, find?_insertAll]
  exact Option.or_none

theorem find?_ofList {fields : Fields α} (h : fields.Sorted) (name : String) :
    (ofList fields).find? name = fields.find? name := by
  rw [find?_ofPairs, h.lastValue?_eq]

theorem keys_sorted (map : NameMap α) : map.keys.Pairwise (· < ·) :=
  List.pairwise_map.2 map.sorted

theorem mem_keys_of_contains {map : NameMap α} {name : String} (h : map.contains name = true) :
    name ∈ map.keys :=
  Fields.mem_keys_iff.2 (Option.isSome_iff_exists.1 h)

theorem contains_of_mem_keys {map : NameMap α} {name : String} (h : name ∈ map.keys) :
    map.contains name = true :=
  Option.isSome_iff_exists.2 (Fields.mem_keys_iff.1 h)

theorem find?_eq_none {map : NameMap α} {name : String} (h : name ∉ map.keys) :
    map.find? name = none :=
  Fields.find?_eq_none_iff.2 h

/-- Two maps are equal if the same is found in both under each name. -/
theorem ext_find? {map map' : NameMap α} (h : ∀ name, map.find? name = map'.find? name) :
    map = map' := by
  obtain ⟨fields, hfields⟩ := map
  obtain ⟨fields', hfields'⟩ := map'
  obtain rfl := hfields.ext hfields' h
  rfl

end NameMap

theorem NameSet.contains_add (set : NameSet) (name other : String) :
    (set.add name).contains other = (name == other || set.contains other) := by
  unfold NameSet.add NameMap.contains
  rw [NameMap.find?_insert]
  by_cases h : name = other
  · simp [h]
  · simp [h]

theorem NameSet.ext_contains {set set' : NameSet}
    (h : ∀ name, set.contains name = set'.contains name) : set = set' := by
  refine NameMap.ext_find? fun name => ?_
  have hname := h name
  unfold NameMap.contains at hname
  cases hset : set.find? name <;> cases hset' : set'.find? name <;> simp_all

theorem NameSet.contains_foldl_add (names : List String) (set : NameSet) (name : String) :
    (names.foldl NameSet.add set).contains name = (decide (name ∈ names) || set.contains name) := by
  induction names generalizing set with
  | nil => simp
  | cons first names ih =>
    rw [List.foldl_cons, ih, NameSet.contains_add, ← Bool.or_assoc, Bool.or_comm (decide _)]
    congr 1
    simp [List.mem_cons, eq_comm, Bool.beq_eq_decide_eq]

theorem Fields.find?_ofPairs {α : Type} (pairs : List (String × α)) (name : String) :
    (Fields.ofList pairs).find? name = lastValue? pairs name :=
  NameMap.find?_ofPairs pairs name

/-- Of pairs with different names each is found. -/
theorem Fields.find?_of_ofList_eq {α : Type} {pairs fields : Fields α}
    (h : Fields.ofList pairs = fields) (hdistinct : pairs.keys.Nodup) (name : String) :
    fields.find? name = pairs.find? name := by
  rw [← h, Fields.find?_ofPairs, Fields.lastValue?_eq_find? hdistinct]

theorem Fields.sorted_ofList {α : Type} (pairs : List (String × α)) :
    Sorted (Fields.ofList pairs) := Sorted.insertAll List.Pairwise.nil pairs

/-- Of pairs with different names all are kept. -/
theorem Fields.mem_ofList_iff {α : Type} {pairs : List (String × α)}
    (hdistinct : (pairs.map Prod.fst).Nodup) {pair : String × α} :
    pair ∈ Fields.ofList pairs ↔ pair ∈ pairs := by
  obtain ⟨name, value⟩ := pair
  rw [(sorted_ofList pairs).mem_iff, Fields.find?_ofPairs, lastValue?_eq_some_iff]
  constructor
  · rintro ⟨before, after, rfl, -⟩
    exact List.mem_append_right _ List.mem_cons_self
  · intro hmem
    obtain ⟨before, after, rfl⟩ := List.append_of_mem hmem
    rw [List.map_append, List.map_cons, List.nodup_append] at hdistinct
    exact ⟨before, after, rfl, (List.nodup_cons.1 hdistinct.2.1).1⟩

/-- Of pairs with different names each is the last one of its name. -/
theorem lastValue?_eq_some_iff_mem {α : Type} {pairs : List (String × α)} {name : String}
    {value : α} (hdistinct : (pairs.map Prod.fst).Nodup) :
    lastValue? pairs name = some value ↔ (name, value) ∈ pairs := by
  have hmem : (name, value) ∈ Fields.ofList pairs ↔
      (Fields.ofList pairs).find? name = some value := (Fields.sorted_ofList pairs).mem_iff
  rw [← Fields.find?_ofPairs, ← hmem, Fields.mem_ofList_iff hdistinct]

theorem lastValue?_perm {α : Type} {as bs : List (String × α)} (h : as.Perm bs)
    (hdistinct : (bs.map Prod.fst).Nodup) (name : String) :
    lastValue? as name = lastValue? bs name := by
  have hdistinct' : (as.map Prod.fst).Nodup := (h.map Prod.fst).nodup_iff.2 hdistinct
  refine Option.ext fun value => ?_
  rw [lastValue?_eq_some_iff_mem hdistinct', lastValue?_eq_some_iff_mem hdistinct]
  exact h.mem_iff

/-- Among fields with different names each is found. -/
theorem Fields.find?_eq_some_iff_mem {α : Type} {fields : Fields α} {name : String} {value : α}
    (hdistinct : fields.keys.Nodup) : fields.find? name = some value ↔ (name, value) ∈ fields := by
  rw [← lastValue?_eq_find? hdistinct, lastValue?_eq_some_iff_mem hdistinct]

/-- Storing pairs with different names puts them in order. -/
theorem Fields.ofList_perm {α : Type} {pairs : Fields α} (hdistinct : pairs.keys.Nodup) :
    (Fields.ofList pairs).Perm pairs := by
  have hstored : (Fields.ofList pairs).Nodup :=
    (sorted_ofList pairs).imp fun hlt heq => String.ne_of_lt hlt (congrArg Prod.fst heq)
  have hpairs : pairs.Nodup :=
    List.Pairwise.of_map Prod.fst (fun _ _ hne heq => hne (congrArg Prod.fst heq)) hdistinct
  exact (List.perm_ext_iff_of_nodup hstored hpairs).2 fun _ => mem_ofList_iff hdistinct

end StyledTemplate
