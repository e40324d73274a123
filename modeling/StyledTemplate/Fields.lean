/-!
# Lists of named fields

A record value, a JSON object and every table of bindings map names to things. All of them are kept
as association lists in strictly increasing order of the names, so that a map has one representation
and every listing of it is sorted. `Fields` holds the operations on the bare lists, which a
recursive type can contain; `NameMap` bundles such a list with its order.

Names compare by code point, which is also the order of their UTF-8 bytes.
-/

namespace StyledTemplate

/-- Named things, meant to be in strictly increasing order of the names. -/
abbrev Fields (α : Type) := List (String × α)

namespace Fields

variable {α β : Type}

/-- The names are strictly increasing. -/
def Sorted (fields : Fields α) : Prop := fields.Pairwise fun a b => a.1 < b.1

/-- The thing stored under `name`. -/
def find? (name : String) : Fields α → Option α
  | [] => none
  | (key, value) :: rest => if key = name then some value else find? name rest

/-- Stores `value` under `name`, in place of what was there. -/
def insert (name : String) (value : α) : Fields α → Fields α
  | [] => [(name, value)]
  | (key, old) :: rest =>
    if name < key then (name, value) :: (key, old) :: rest
    else if key = name then (name, value) :: rest
    else (key, old) :: insert name value rest

/-- Drops what is stored under `name`. -/
def erase (name : String) (fields : Fields α) : Fields α :=
  fields.filter fun field => field.1 ≠ name

/-- Stores each pair in turn, so a later pair of one name replaces an earlier one. -/
def insertAll (pairs : List (String × α)) (fields : Fields α) : Fields α :=
  pairs.foldl (fun acc pair => acc.insert pair.1 pair.2) fields

/-- The fields that hold the given pairs, the last pair of a name winning. -/
def ofList (pairs : List (String × α)) : Fields α := insertAll pairs []

/-- The names, in order. -/
def keys (fields : Fields α) : List String := fields.map Prod.fst

theorem mem_insert {name : String} {value : α} {fields : Fields α} {field : String × α}
    (h : field ∈ fields.insert name value) : field = (name, value) ∨ field ∈ fields := by
  induction fields with
  | nil => simpa [insert] using h
  | cons head rest ih =>
    obtain ⟨key, old⟩ := head
    simp only [insert] at h
    split at h
    · simpa using h
    · split at h
      · simp only [List.mem_cons] at h ⊢
        exact h.imp_right Or.inr
      · simp only [List.mem_cons] at h ⊢
        rcases h with h | h
        · exact .inr (.inl h)
        · exact (ih h).imp_right Or.inr

/-- Storing keeps the names in order. -/
theorem Sorted.insert {fields : Fields α} (h : fields.Sorted) (name : String) (value : α) :
    (fields.insert name value).Sorted := by
  induction fields with
  | nil => simp [Sorted, Fields.insert]
  | cons head rest ih =>
    obtain ⟨key, old⟩ := head
    have hrest : Sorted rest := (List.pairwise_cons.1 h).2
    have hkey : ∀ field ∈ rest, key < field.1 := (List.pairwise_cons.1 h).1
    simp only [Fields.insert]
    split
    · next hlt =>
      refine List.pairwise_cons.2 ⟨?_, h⟩
      intro field hf
      rcases List.mem_cons.1 hf with rfl | hf
      · exact hlt
      · exact String.lt_trans hlt (hkey field hf)
    · next hnlt =>
      split
      · next heq => exact List.pairwise_cons.2 ⟨heq ▸ hkey, hrest⟩
      · next hne =>
        refine List.pairwise_cons.2 ⟨?_, ih hrest⟩
        intro field hf
        rcases mem_insert hf with rfl | hf
        · refine String.not_le.1 fun hle => hne ?_
          exact String.le_antisymm (String.not_lt.1 hnlt) hle
        · exact hkey field hf

/-- Dropping keeps the names in order. -/
theorem Sorted.erase {fields : Fields α} (h : fields.Sorted) (name : String) :
    (fields.erase name).Sorted := h.filter _

theorem Sorted.insertAll {fields : Fields α} (h : fields.Sorted) (pairs : List (String × α)) :
    (Fields.insertAll pairs fields).Sorted := by
  induction pairs generalizing fields with
  | nil => exact h
  | cons pair rest ih => exact ih (h.insert pair.1 pair.2)

theorem mem_of_find? {name : String} {value : α} {fields : Fields α}
    (h : fields.find? name = some value) : (name, value) ∈ fields := by
  induction fields with
  | nil => cases h
  | cons field rest ih =>
    obtain ⟨key, old⟩ := field
    rw [find?] at h
    by_cases hkey : key = name
    · rw [if_pos hkey] at h
      obtain rfl := Option.some.inj h
      rw [hkey]
      exact List.mem_cons_self
    · rw [if_neg hkey] at h
      exact List.mem_cons_of_mem _ (ih h)

/-- What is stored after storing: the new thing under its name, the old things elsewhere. -/
theorem find?_insert (fields : Fields α) (name other : String) (value : α) :
    (fields.insert name value).find? other =
      if name = other then some value else fields.find? other := by
  induction fields with
  | nil => simp [insert, find?]
  | cons head rest ih =>
    obtain ⟨key, old⟩ := head
    simp only [insert]
    split
    · simp [find?]
    · split
      · next heq => subst heq; by_cases h : key = other <;> simp [find?, h]
      · next hne =>
        simp only [find?, ih]
        by_cases h : key = other
        · have : name ≠ other := fun h' => hne (h.trans h'.symm)
          simp [h, this]
        · simp [h]

theorem find?_erase (fields : Fields α) (name other : String) :
    (fields.erase name).find? other = if name = other then none else fields.find? other := by
  induction fields with
  | nil => simp [erase, find?]
  | cons field rest ih =>
    obtain ⟨key, old⟩ := field
    rw [erase] at ih ⊢
    by_cases hkey : key = name
    · subst hkey
      rw [List.filter_cons_of_neg (by simp), ih, find?]
      by_cases h : key = other <;> simp [h]
    · rw [List.filter_cons_of_pos (by simpa using hkey), find?, ih, find?]
      by_cases h : key = other
      · subst h
        simp [Ne.symm hkey]
      · simp [h]

end Fields

/-- A map from names, kept in strictly increasing order of the names. -/
structure NameMap (α : Type) where
  /-- The named things, in order. -/
  entries : Fields α
  /-- The names are strictly increasing. -/
  sorted : entries.Sorted

namespace NameMap

variable {α β : Type}

/-- The map with no names. -/
def empty : NameMap α := ⟨[], List.Pairwise.nil⟩

instance : EmptyCollection (NameMap α) := ⟨empty⟩

instance : Inhabited (NameMap α) := ⟨empty⟩

/-- What is stored under `name`. -/
def find? (map : NameMap α) (name : String) : Option α := map.entries.find? name

/-- Is something stored under `name`? -/
def contains (map : NameMap α) (name : String) : Bool := (map.find? name).isSome

/-- Stores `value` under `name`, in place of what was there. -/
def insert (map : NameMap α) (name : String) (value : α) : NameMap α :=
  ⟨map.entries.insert name value, map.sorted.insert name value⟩

/-- Stores each pair in turn. -/
def insertAll (map : NameMap α) (pairs : List (String × α)) : NameMap α :=
  ⟨map.entries.insertAll pairs, map.sorted.insertAll pairs⟩

/-- The map that holds the given pairs, the last pair of a name winning. -/
def ofList (pairs : List (String × α)) : NameMap α := empty.insertAll pairs

/-- Drops what is stored under `name`. -/
def erase (map : NameMap α) (name : String) : NameMap α :=
  ⟨map.entries.erase name, map.sorted.erase name⟩

/-- Everything in `other`, and what `map` holds under further names. -/
def union (map other : NameMap α) : NameMap α := map.insertAll other.entries

/-- The names, in order. -/
def keys (map : NameMap α) : List String := map.entries.keys

/-- The number of names. -/
def size (map : NameMap α) : Nat := map.entries.length

/-- Is the map without names? -/
def isEmpty (map : NameMap α) : Bool := map.entries.isEmpty

/-- Applies `f` to what is stored under each name. -/
def map (f : α → β) (names : NameMap α) : NameMap β :=
  ⟨names.entries.map fun field => (field.1, f field.2),
    List.pairwise_map.2 (names.sorted.imp fun h => h)⟩

/-- A look-up after storing sees the new thing under its name and the old things elsewhere. -/
@[simp] theorem find?_insert (map : NameMap α) (name other : String) (value : α) :
    (map.insert name value).find? other = if name = other then some value else map.find? other :=
  Fields.find?_insert _ _ _ _

@[simp] theorem find?_erase (map : NameMap α) (name other : String) :
    (map.erase name).find? other = if name = other then none else map.find? other :=
  Fields.find?_erase _ _ _

end NameMap

/-- A finite set of names, listed in order. -/
abbrev NameSet := NameMap Unit

namespace NameSet

/-- Adds a name. -/
def add (set : NameSet) (name : String) : NameSet := set.insert name ()

end NameSet

end StyledTemplate
