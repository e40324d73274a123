import Mathlib.Data.List.Nodup
import Mathlib.Data.List.Perm.Subperm
import StyledTemplate.Proofs.Inheritance.Ancestors

/-!
# The walk along the parents

From a template a walk leads to its parent, to the parent of that one, and so on. As long as the
names on it differ there is only one way to go on, and no more templates to meet than the registry
has, so the walk ends: at a template without a parent, before a name that is on it, or before a name
that is not registered. A chain is the walk up to there, and its errors say which end it is
(`chain_iff_walk`).
-/

namespace StyledTemplate

/-- Following the parents from `start` on has led over some templates to the last of them. -/
inductive Registry.Walk (registry : Registry) (start : Template) :
    List Template → Template → Prop where
  /-- The walk has not begun. -/
  | here : Walk registry start [start] start
  /-- The walk goes on to the parent. -/
  | parent {walk : List Template} {last next : Template} {name : String}
      (hwalk : Walk registry start walk last) (hparent : last.parent = some name)
      (hfound : registry.find? name = some next) : Walk registry start (walk ++ [next]) next

/-- The names of some templates. -/
def namesOf (templates : List Template) : List String := templates.map Template.name

/-- What comes of a walk over templates of different names that ends at its last template. -/
inductive Registry.EndsWith (registry : Registry) (walk : List Template) (last : Template) :
    Except Error (List Template) → Prop where
  /-- There is no parent. -/
  | root (hparent : last.parent = none) : EndsWith registry walk last (.ok walk)
  /-- The parent is on the walk. -/
  | circle {parent : String} (hparent : last.parent = some parent) (hmem : parent ∈ namesOf walk) :
      EndsWith registry walk last (.error (.inheritanceCycle (namesOf walk ++ [parent])))
  /-- The parent is new, and no template has its name. -/
  | missing {parent : String} (hparent : last.parent = some parent) (hnew : parent ∉ namesOf walk)
      (hmissing : registry.find? parent = none) :
      EndsWith registry walk last (.error (.templateNotFound parent))

section Walk

variable {registry : Registry} {start last : Template} {walk : List Template}

theorem namesOf_concat (ts : List Template) (t : Template) :
    namesOf (ts ++ [t]) = namesOf ts ++ [t.name] := by
  rw [namesOf, List.map_append]
  rfl

/-- What is left of a chain after a walk is what is left to follow from its last template. -/
theorem chain_eq_of_walk (hwalk : registry.Walk start walk last)
    (hdistinct : (namesOf walk).Nodup) :
    chain registry start = (ancestors registry (namesOf walk) last).map (walk ++ ·) := by
  induction hwalk with
  | here =>
    show (ancestors registry [start.name] start >>= fun rest => pure (start :: rest)) =
      (ancestors registry [start.name] start).map ([start] ++ ·)
    cases ancestors registry [start.name] start <;> rfl
  | @parent walk last next name hwalk hparent hfound ih =>
    rw [namesOf_concat] at hdistinct ⊢
    have hnew : name ∉ namesOf walk := by
      rw [← Registry.name_of_find? hfound]
      intro hmem
      exact (List.nodup_append.1 hdistinct).2.2 next.name hmem next.name (List.mem_singleton.2 rfl)
        rfl
    rw [ih (List.nodup_append.1 hdistinct).1, ancestors_of_found hparent hnew hfound]
    cases ancestors registry (namesOf walk ++ [next.name]) next with
    | error e => rfl
    | ok rest => exact congrArg Except.ok (List.append_cons walk next rest)

/-- The chain of a template is what comes of a walk that has ended. -/
theorem chain_eq_of_endsWith (hwalk : registry.Walk start walk last)
    (hdistinct : (namesOf walk).Nodup) {outcome : Except Error (List Template)}
    (hends : registry.EndsWith walk last outcome) : chain registry start = outcome := by
  rw [chain_eq_of_walk hwalk hdistinct]
  cases hends with
  | root hparent =>
    rw [ancestors_of_root hparent]
    exact congrArg Except.ok (List.append_nil walk)
  | circle hparent hmem =>
    rw [ancestors_of_visited hparent hmem]
    rfl
  | missing hparent hnew hmissing =>
    rw [ancestors_of_missing hparent hnew hmissing]
    rfl

/-- A walk over templates of different names can be followed to its end. -/
theorem exists_endsWith (hwalk : registry.Walk start walk last)
    (hdistinct : (namesOf walk).Nodup) :
    ∃ walk last outcome, registry.Walk start walk last ∧ (namesOf walk).Nodup ∧
      registry.EndsWith walk last outcome := by
  generalize hvisited : namesOf walk = visited at hdistinct
  induction visited, last using ancestors.induct registry generalizing walk with
  | case1 visited last hparent =>
    exact ⟨walk, last, _, hwalk, hvisited ▸ hdistinct, .root hparent⟩
  | case2 visited last parent hparent hmem =>
    exact ⟨walk, last, _, hwalk, hvisited ▸ hdistinct, .circle hparent (hvisited ▸ hmem)⟩
  | case3 visited last parent hparent hnew hmissing =>
    exact ⟨walk, last, _, hwalk, hvisited ▸ hdistinct,
      .missing hparent (hvisited ▸ hnew) hmissing⟩
  | case4 visited last parent hparent hnew next hfound ih =>
    refine ih (hwalk.parent hparent hfound) ?_ ?_
    · rw [namesOf_concat, hvisited]
    · rw [Registry.name_of_find? hfound, ← List.concat_eq_append]
      exact hdistinct.concat hnew

/-- The chain of a template is what comes of its walk, which always comes to an end. -/
theorem chain_eq_iff {outcome : Except Error (List Template)} :
    chain registry start = outcome ↔ ∃ walk last, registry.Walk start walk last ∧
      (namesOf walk).Nodup ∧ registry.EndsWith walk last outcome := by
  constructor
  · rintro rfl
    obtain ⟨walk, last, outcome, hwalk, hdistinct, hends⟩ :=
      exists_endsWith (.here : registry.Walk start [start] start)
        (List.nodup_singleton start.name)
    rw [chain_eq_of_endsWith hwalk hdistinct hends]
    exact ⟨walk, last, hwalk, hdistinct, hends⟩
  · rintro ⟨walk, last, hwalk, hdistinct, hends⟩
    exact chain_eq_of_endsWith hwalk hdistinct hends

/-- All templates of a walk but the first one are registered. -/
theorem Registry.Walk.exists_rest (hwalk : registry.Walk start walk last) :
    ∃ rest, walk = start :: rest ∧ ∀ t ∈ rest, t.name ∈ registry.keys := by
  induction hwalk with
  | here => exact ⟨[], rfl, List.forall_mem_nil _⟩
  | @parent walk last next name hwalk hparent hfound ih =>
    obtain ⟨rest, rfl, hrest⟩ := ih
    refine ⟨rest ++ [next], rfl, List.forall_mem_append.2 ⟨hrest, ?_⟩⟩
    rw [List.forall_mem_singleton, Registry.name_of_find? hfound]
    exact Fields.find?_mem_keys hfound

/-- A walk over templates of different names is not longer than the registry, the first template
aside. -/
theorem Registry.Walk.length_le (hwalk : registry.Walk start walk last)
    (hdistinct : (namesOf walk).Nodup) : walk.length ≤ registry.size + 1 := by
  obtain ⟨rest, rfl, hrest⟩ := hwalk.exists_rest
  have hsubset : namesOf rest ⊆ registry.keys := by
    intro name hname
    obtain ⟨t, ht, rfl⟩ := List.mem_map.1 hname
    exact hrest t ht
  have hle := ((List.nodup_cons.1 hdistinct).2.subperm hsubset).length_le
  rw [List.length_map, NameMap.keys, Fields.keys, List.length_map] at hle
  exact Nat.succ_le_succ hle

end Walk

/-- In every registry, which keeps each template under its name, the chain of a template is its walk
up to a template without a parent, if the walk comes to one before a name is repeated or missing. If
it comes back to a name first, the error lists the names of the walk and the repeated one, and if a
name is missing first, the error names it. One of these is the case for every template, since a walk
without a repeated name is not longer than the registry. -/
theorem chain_iff_walk (registry : Registry) (start : Template) :
    (∀ ts, chain registry start = .ok ts ↔
      ∃ last, registry.Walk start ts last ∧ (namesOf ts).Nodup ∧ last.parent = none) ∧
    (∀ names, chain registry start = .error (.inheritanceCycle names) ↔
      ∃ walk last parent, registry.Walk start walk last ∧ (namesOf walk).Nodup ∧
        last.parent = some parent ∧ parent ∈ namesOf walk ∧ names = namesOf walk ++ [parent]) ∧
    (∀ name, chain registry start = .error (.templateNotFound name) ↔
      ∃ walk last, registry.Walk start walk last ∧ (namesOf walk).Nodup ∧
        last.parent = some name ∧ name ∉ namesOf walk ∧ registry.find? name = none) ∧
    ((∃ ts, chain registry start = .ok ts) ∨
      (∃ names, chain registry start = .error (.inheritanceCycle names)) ∨
      ∃ name, chain registry start = .error (.templateNotFound name)) ∧
    ∀ walk last, registry.Walk start walk last → (namesOf walk).Nodup →
      walk.length ≤ registry.size + 1 := by
  refine ⟨fun ts => ?_, fun names => ?_, fun name => ?_, ?_,
    fun walk last hwalk hdistinct => hwalk.length_le hdistinct⟩
  · rw [chain_eq_iff]
    constructor
    · rintro ⟨walk, last, hwalk, hdistinct, ⟨hparent⟩⟩
      exact ⟨last, hwalk, hdistinct, hparent⟩
    · rintro ⟨last, hwalk, hdistinct, hparent⟩
      exact ⟨ts, last, hwalk, hdistinct, .root hparent⟩
  · rw [chain_eq_iff]
    constructor
    · rintro ⟨walk, last, hwalk, hdistinct, ⟨⟩⟩
      exact ⟨walk, last, _, hwalk, hdistinct, ‹_›, ‹_›, rfl⟩
    · rintro ⟨walk, last, parent, hwalk, hdistinct, hparent, hmem, rfl⟩
      exact ⟨walk, last, hwalk, hdistinct, .circle hparent hmem⟩
  · rw [chain_eq_iff]
    constructor
    · rintro ⟨walk, last, hwalk, hdistinct, ⟨⟩⟩
      exact ⟨walk, last, hwalk, hdistinct, ‹_›, ‹_›, ‹_›⟩
    · rintro ⟨walk, last, hwalk, hdistinct, hparent, hnew, hmissing⟩
      exact ⟨walk, last, hwalk, hdistinct, .missing hparent hnew hmissing⟩
  · obtain ⟨walk, last, -, -, hends⟩ := chain_eq_iff.1 (rfl : chain registry start = _)
    generalize chain registry start = outcome at hends
    cases hends with
    | root hparent => exact .inl ⟨_, rfl⟩
    | circle hparent hmem => exact .inr (.inl ⟨_, rfl⟩)
    | missing hparent hnew hmissing => exact .inr (.inr ⟨_, rfl⟩)

section Circle

/-- A template that shows nothing. -/
def emptyTemplate (name : String) (parent : Option String) : Template where
  name := name
  blocks := []
  parent := parent
  placeholders := NameMap.empty
  source := {}

/-- Two templates that inherit from each other. -/
def circleRegistry : Registry :=
  (Registry.empty.insert (emptyTemplate "card" (some "page"))).insert
    (emptyTemplate "page" (some "card"))

/-- The chain of a template that inherits from one of the two goes around, though it is not on the
circle itself. -/
theorem note_meets_circle : chain circleRegistry (emptyTemplate "note" (some "page")) =
    .error (.inheritanceCycle ["note", "page", "card", "page"]) := by
  refine ((chain_iff_walk circleRegistry _).2.1 _).2 ?_
  have hwalk : circleRegistry.Walk (emptyTemplate "note" (some "page"))
      [emptyTemplate "note" (some "page"), emptyTemplate "page" (some "card"),
        emptyTemplate "card" (some "page")] (emptyTemplate "card" (some "page")) :=
    .parent (.parent .here rfl rfl) rfl rfl
  exact ⟨_, _, "page", hwalk, by decide, rfl, by decide, rfl⟩

end Circle

end StyledTemplate
