import StyledTemplate.Bindings.Context
import StyledTemplate.Proofs.Fields
import StyledTemplate.Proofs.Text.Paths

/-!
# What paths mean

A path means what its first segment is bound to, followed down its other segments
(`Context.get?_eq`), so a longer path goes on where a shorter one ends (`Context.get?_append`).
Conditions and loops look a path up in orders of their own. If no name is bound twice, a condition
still goes by what its path means (`Context.holds_iff_isTruthy`). So does a loop, but for the paths
that lead into a list of the bindings: there it finds no entries, whatever the path means
(`Context.entries_eq_entriesMeant_iff`).
-/

namespace StyledTemplate

open Text (segments splitPath)

/-! ## Parts of values -/

namespace Value

theorem partAt?_append (v : Value) (as bs : List String) :
    v.partAt? (as ++ bs) = (v.partAt? as).bind (·.partAt? bs) := by
  induction as generalizing v with
  | nil => rfl
  | cons a as ih =>
    rw [List.cons_append, partAt?, partAt?]
    cases v.part? a with
    | none => rfl
    | some part => exact ih part

theorem lookup_of_ne_empty {path : String} (h : path ≠ "") (v : Value) :
    v.lookup path = v.partAt? (segments path) := if_neg h

/-- A truth value has no parts. -/
theorem lookup_bool (flag : Bool) (path : String) :
    (Value.bool flag).lookup path = if path = "" then some (.bool flag) else none := by
  by_cases h : path = ""
  · rw [h]
    rfl
  · obtain ⟨segment, rest, hsegments⟩ := List.exists_cons_of_ne_nil (Text.segments_ne_nil path)
    rw [lookup_of_ne_empty h, hsegments, if_neg h]
    rfl

theorem lookup_dotted {p q : String} (hp : p ≠ "") (hq : q ≠ "") (v : Value) :
    v.lookup (p ++ "." ++ q) = (v.lookup p).bind (·.lookup q) := by
  have hne : p ++ "." ++ q ≠ "" := by
    intro h
    have hlist := congrArg String.toList h
    rw [Text.toList_dotted] at hlist
    simp at hlist
  have hq : (fun part : Value => part.lookup q) = fun part => part.partAt? (segments q) :=
    funext (lookup_of_ne_empty hq)
  rw [lookup_of_ne_empty hne, Text.segments_dotted, partAt?_append, lookup_of_ne_empty hp, hq]

/-- Behind the first segment of a joined path there is the rest of the first path, and then the
second one. -/
theorem lookup_splitPath_dotted {p q : String} (hp : ∀ s ∈ segments p, s ≠ "") (hq : q ≠ "")
    (v : Value) : v.lookup (splitPath (p ++ "." ++ q)).2 =
      (v.lookup (splitPath p).2).bind (·.lookup q) := by
  by_cases hdot : '.' ∈ p.toList
  · have hne := Text.ne_empty_of_segments (Text.segments_splitPath_ne_empty hp hdot)
    rw [Text.splitPath_dotted_of_mem hdot]
    exact lookup_dotted hne hq v
  · rw [Text.splitPath_dotted_of_not_mem hdot, Text.splitPath_of_not_mem hdot]
    rfl

end Value

namespace Bindings

/-- No name is bound twice, as a variable, as a list or as a condition. -/
def Apart (b : Bindings) : Prop :=
  (∀ name ∈ b.values.keys, name ∉ b.lists.keys ∧ name ∉ b.conditions.keys) ∧
    ∀ name ∈ b.lists.keys, name ∉ b.conditions.keys

instance (b : Bindings) : Decidable b.Apart := inferInstanceAs (Decidable (_ ∧ _))

variable {b : Bindings} {name : String}

theorem Apart.values_eq_none_of_list (h : b.Apart) {entries : List Value}
    (hlist : b.lists.find? name = some entries) : b.values.find? name = none :=
  NameMap.find?_eq_none fun hmem => (h.1 name hmem).1 (Fields.find?_mem_keys hlist)

theorem Apart.values_eq_none_of_condition (h : b.Apart) {flag : Bool}
    (hflag : b.conditions.find? name = some flag) : b.values.find? name = none :=
  NameMap.find?_eq_none fun hmem => (h.1 name hmem).2 (Fields.find?_mem_keys hflag)

theorem Apart.lists_eq_none_of_condition (h : b.Apart) {flag : Bool}
    (hflag : b.conditions.find? name = some flag) : b.lists.find? name = none :=
  NameMap.find?_eq_none fun hmem => h.2 name hmem (Fields.find?_mem_keys hflag)

end Bindings

/-! ## The scopes of loops -/

namespace Scope

/-- What a loop binds besides the fields of an entry. -/
def loopNames (entry : Value) (index length : Nat) : List (String × Value) :=
  [("this", entry), ("@index", .integer (Int64.ofNat index)),
    ("@number", .integer (Int64.ofNat (index + 1))), ("@first", .bool (index == 0)),
    ("@last", .bool (index + 1 == length))]

theorem find?_ofEntry_eq (entry : Value) (index length : Nat) (name : String) :
    (ofEntry entry index length).find? name =
      (lastValue? (loopNames entry index length) name).or
        (lastValue? (entry.fields?.getD []) name) := by
  unfold ofEntry
  rw [NameMap.find?_insertAll, lastValue?_append]
  exact Option.or_none

/-- The scope binds an entry of a list, its place in the list and its fields, and nothing else. -/
structure BindsEntry (scope : Scope) (entry : Value) (index length : Nat) : Prop where
  /-- The entry itself. -/
  whole : scope.find? "this" = some entry
  /-- The number of entries before it. -/
  place : scope.find? "@index" = some (.integer (Int64.ofNat index))
  /-- Its number, counted from one. -/
  number : scope.find? "@number" = some (.integer (Int64.ofNat (index + 1)))
  /-- Whether it is the first entry. -/
  isFirst : scope.find? "@first" = some (.bool (index == 0))
  /-- Whether it is the last entry. -/
  isLast : scope.find? "@last" = some (.bool (index + 1 == length))
  /-- Its fields, unless their names are those above. -/
  field : ∀ name ∉ ["this", "@index", "@number", "@first", "@last"],
    scope.find? name = lastValue? (entry.fields?.getD []) name

/-- No field of an entry hides the entry or its place. -/
theorem bindsEntry_ofEntry (entry : Value) (index length : Nat) :
    BindsEntry (ofEntry entry index length) entry index length where
  whole := find?_ofEntry_eq entry index length _
  place := find?_ofEntry_eq entry index length _
  number := find?_ofEntry_eq entry index length _
  isFirst := find?_ofEntry_eq entry index length _
  isLast := find?_ofEntry_eq entry index length _
  field := by
    intro name hname
    have hnone : lastValue? (loopNames entry index length) name = none := by
      rw [← Option.not_isSome_iff_eq_none, lastValue?_isSome_iff]
      exact hname
    rw [find?_ofEntry_eq, hnone, Option.none_or]

end Scope

namespace Context

/-! ## Placeholders -/

/-- What a name is bound to: in a scope, as a variable, as a list or as a condition, in this
order. -/
def bound? (c : Context) (name : String) : Option Value :=
  (c.scoped? name).or <| (c.bindings.values.find? name).or <|
    ((c.bindings.lists.find? name).map Value.list).or <|
      (c.bindings.conditions.find? name).map Value.bool

/-- A path means the part, below its first segment, of what that is bound to. -/
theorem get?_eq (c : Context) (path : String) :
    c.get? path = (c.bound? (splitPath path).1).bind (·.lookup (splitPath path).2) := by
  unfold get? bound?
  dsimp only
  cases c.scoped? (splitPath path).1 with
  | some value => rfl
  | none =>
    cases c.bindings.values.find? (splitPath path).1 with
    | some value => rfl
    | none =>
      cases c.bindings.lists.find? (splitPath path).1 with
      | some entries => rfl
      | none =>
        cases c.bindings.conditions.find? (splitPath path).1 with
        | some flag => exact (Value.lookup_bool flag _).symm
        | none => rfl

/-- A path that goes on after another one means the part, below it, of what that one means. -/
theorem get?_append {p q : String} (hp : ∀ s ∈ segments p, s ≠ "")
    (hq : ∀ s ∈ segments q, s ≠ "") :
    (∀ c : Context, c.get? (p ++ "." ++ q) = (c.get? p).bind (·.lookup q)) ∧
      ∀ v : Value, v.lookup (p ++ "." ++ q) = (v.lookup p).bind (·.lookup q) := by
  have hp' := Text.ne_empty_of_segments hp
  have hq' := Text.ne_empty_of_segments hq
  constructor
  · intro c
    rw [get?_eq, get?_eq, Text.splitPath_dotted_fst]
    cases c.bound? (splitPath p).1 with
    | none => rfl
    | some value => exact value.lookup_splitPath_dotted hp hq'
  · intro v
    exact v.lookup_dotted hp' hq'

/-- A dinner, with its guests at two tables. -/
def seating : Context where
  bindings := ((Bindings.empty.setValue "event" (.ofFields [("title", .string "Dinner"),
    ("guests", .list [.string "Ada", .string "Max", .string "Eve"])])).setList "tables"
      [.list [.string "Ada", .string "Max"], .list [.string "Eve"]]).setCondition "indoors" false

/-- The second guest of the first table, in two steps. -/
theorem seating_get? : (∀ s ∈ segments "tables.0", s ≠ "") ∧ (∀ s ∈ segments "1", s ≠ "") ∧
    seating.get? "tables.0" = some (.list [.string "Ada", .string "Max"]) ∧
    seating.get? ("tables.0" ++ "." ++ "1") = (seating.get? "tables.0").bind (·.lookup "1") := by
  have hp : ∀ s ∈ segments "tables.0", s ≠ "" := by decide
  have hq : ∀ s ∈ segments "1", s ≠ "" := by decide
  exact ⟨hp, hq, rfl, (get?_append hp hq).1 seating⟩

/-! ## Conditions -/

theorem holds_of_scoped {c : Context} {path : String} {value : Value}
    (h : c.scoped? (splitPath path).1 = some value) :
    c.holds path = (value.lookup (splitPath path).2).any Value.isTruthy := by
  unfold holds
  simp only [h]
  cases value.lookup (splitPath path).2 <;> rfl

theorem holds_of_unscoped {c : Context} {path : String}
    (h : c.scoped? (splitPath path).1 = none) :
    c.holds path = ((c.bindings.conditions.find? path).or
      (((c.bindings.values.find? (splitPath path).1).or
        ((c.bindings.lists.find? (splitPath path).1).map Value.list)).map fun value =>
          (value.lookup (splitPath path).2).any Value.isTruthy)).getD false := by
  unfold holds
  simp only [h]
  cases c.bindings.conditions.find? path with
  | some flag => rfl
  | none =>
    cases c.bindings.values.find? (splitPath path).1 with
    | some value => cases hvalue : value.lookup (splitPath path).2 <;> simp [hvalue]
    | none =>
      cases c.bindings.lists.find? (splitPath path).1 with
      | some entries =>
        cases hvalue : (Value.list entries).lookup (splitPath path).2 <;> simp [hvalue]
      | none => rfl

/-- If no name is bound twice and no condition has a dot in its name, a condition goes by what its
path means. -/
theorem holds_eq_any {c : Context} (happart : c.bindings.Apart)
    (hplain : ∀ name ∈ c.bindings.conditions.keys, '.' ∉ name.toList) {path : String}
    (hpath : ∀ s ∈ segments path, s ≠ "") : c.holds path = (c.get? path).any Value.isTruthy := by
  rw [get?_eq]
  unfold bound?
  cases hscoped : c.scoped? (splitPath path).1 with
  | some value => exact holds_of_scoped hscoped
  | none =>
    rw [holds_of_unscoped hscoped]
    -- Only a path without a dot can name a condition, and that name is then bound to nothing else.
    by_cases hdot : '.' ∈ path.toList
    · have hne := Text.ne_empty_of_segments (Text.segments_splitPath_ne_empty hpath hdot)
      have hnone : c.bindings.conditions.find? path = none :=
        NameMap.find?_eq_none fun hmem => hplain path hmem hdot
      rw [hnone]
      cases c.bindings.values.find? (splitPath path).1 with
      | some value => rfl
      | none =>
        cases c.bindings.lists.find? (splitPath path).1 with
        | some entries => rfl
        | none =>
          cases c.bindings.conditions.find? (splitPath path).1 with
          | some flag => simp [Value.lookup_bool, hne]
          | none => rfl
    · rw [Text.splitPath_of_not_mem hdot]
      cases hflag : c.bindings.conditions.find? path with
      | some flag =>
        rw [happart.values_eq_none_of_condition hflag, happart.lists_eq_none_of_condition hflag]
        rfl
      | none =>
        cases c.bindings.values.find? path with
        | some value => rfl
        | none => cases c.bindings.lists.find? path <;> rfl

theorem exists_scoped? {c : Context} {name : String} {scope : Scope} (hscope : scope ∈ c.scopes)
    (h : scope.contains name = true) : ∃ value, c.scoped? name = some value :=
  Option.isSome_iff_exists.1 (List.findSome?_isSome_iff.2 ⟨scope, hscope, h⟩)

/-- A condition goes by what its path means, if no name is bound twice. A name that is bound more
than once is taken as a condition first, then as a variable, then as a list; a scope that binds the
first segment hides them all, even if the path leads nowhere below it. -/
theorem holds_iff_isTruthy (c : Context) :
    (c.bindings.Apart → (∀ name ∈ c.bindings.conditions.keys, '.' ∉ name.toList) →
      ∀ path, (∀ s ∈ segments path, s ≠ "") →
        (c.holds path = true ↔ ∃ value, c.get? path = some value ∧ value.isTruthy = true)) ∧
    (∀ name, '.' ∉ name.toList → c.scoped? name = none →
      c.holds name = ((c.bindings.conditions.find? name).or <|
        ((c.bindings.values.find? name).map Value.isTruthy).or <|
          (c.bindings.lists.find? name).map fun entries => !entries.isEmpty).getD false) ∧
    ∀ path, ∀ scope ∈ c.scopes, scope.contains (splitPath path).1 = true →
      ∃ value, c.scoped? (splitPath path).1 = some value ∧ ∀ bindings : Bindings,
        holds { c with bindings } path =
          (value.lookup (splitPath path).2).any Value.isTruthy := by
  refine ⟨?_, ?_, ?_⟩
  · intro happart hplain path hpath
    rw [holds_eq_any happart hplain hpath, Option.any_eq_true]
  · intro name hname hscoped
    have hpath : (splitPath name).1 = name := by rw [Text.splitPath_of_not_mem hname]
    rw [holds_of_unscoped (hpath.symm ▸ hscoped), Text.splitPath_of_not_mem hname]
    cases c.bindings.values.find? name with
    | some value => rfl
    | none => cases c.bindings.lists.find? name <;> rfl
  · intro path scope hscope hbinds
    obtain ⟨value, hvalue⟩ := exists_scoped? hscope hbinds
    exact ⟨value, hvalue, fun bindings => holds_of_scoped hvalue⟩

/-- The dinner, whose title is also a list and a condition, within a loop that binds `event`. -/
def crowdedSeating : Context where
  bindings := ((seating.bindings.setValue "title" (.string "Dinner")).setList "title"
    [.string "Dinner"]).setCondition "title" false
  scopes := [NameMap.empty.insert "event" (.string "Dinner")]

/-- The dinner has guests. A title that is bound three times is taken as the condition, and a scope
hides the record of the event, though it has no guests. -/
theorem seating_holds : seating.bindings.Apart ∧
    (seating.holds "event.guests" = true ↔
      ∃ value, seating.get? "event.guests" = some value ∧ value.isTruthy = true) ∧
    (crowdedSeating.scoped? "title" = none ∧ crowdedSeating.holds "title" = false) ∧
    ∃ value, crowdedSeating.scoped? "event" = some value ∧
      crowdedSeating.holds "event.guests" = (value.lookup "guests").any Value.isTruthy := by
  have happart : seating.bindings.Apart := by decide
  have hguests := (holds_iff_isTruthy seating).1 happart (by decide) "event.guests" (by decide)
  have htitle := (holds_iff_isTruthy crowdedSeating).2.1 "title" (by decide) rfl
  obtain ⟨value, hvalue, hholds⟩ := (holds_iff_isTruthy crowdedSeating).2.2 "event.guests" _
    List.mem_cons_self (by decide)
  exact ⟨happart, hguests, ⟨rfl, htitle⟩, value, hvalue, hholds crowdedSeating.bindings⟩

/-! ## Loops -/

/-- What a loop does whose path is bound to no list. -/
def noEntries (c : Context) (path : String) : Except Error (List Value) :=
  if c.strict then .error (.variableResolution path) else .ok []

/-- The entries of a loop that goes by what its path means: the items of a list, and none if there
is no value. -/
def entriesMeant (c : Context) (path : String) : Except Error (List Value) :=
  match c.get? path with
  | some (.list items) => .ok items
  | some .null => .ok []
  | _ => c.noEntries path

/-- The path leads into a list of the bindings that no scope hides. -/
structure LeadsIntoList (c : Context) (path : String) : Prop where
  /-- The path goes on behind its first name. -/
  dotted : '.' ∈ path.toList
  /-- No scope binds the first name. -/
  unscoped : c.scoped? (splitPath path).1 = none
  /-- The bindings have a list of that name. -/
  list : c.bindings.lists.contains (splitPath path).1 = true

/-- The path leads into a list of the bindings and means entries there. Out of strict mode to have
no entries is as good as not to be found. -/
structure MissesEntries (c : Context) (path : String) : Prop extends c.LeadsIntoList path where
  /-- The path means entries, and some if the context is not strict. -/
  meant : ∃ entries, (c.get? path).bind entriesOf? = some entries ∧
    (c.strict = true ∨ entries ≠ [])

section Loops

variable {c : Context} {path : String}

theorem entries_eq (c : Context) (path : String) :
    c.entries path = ((c.entries? path).map Except.ok).getD (c.noEntries path) := by
  unfold entries
  cases c.entries? path <;> rfl

theorem entriesMeant_eq (c : Context) (path : String) :
    c.entriesMeant path =
      (((c.get? path).bind entriesOf?).map Except.ok).getD (c.noEntries path) := by
  unfold entriesMeant
  cases c.get? path with
  | none => rfl
  | some value => cases value <;> rfl

theorem noEntries_eq_ok_iff {entries : List Value} :
    c.noEntries path = .ok entries ↔ ¬ (c.strict = true ∨ entries ≠ []) := by
  unfold noEntries
  by_cases hstrict : c.strict = true
  · simp [hstrict]
  · simp [hstrict, eq_comm]

theorem entries?_of_leadsIntoList (happart : c.bindings.Apart)
    (hplain : ∀ name ∈ c.bindings.lists.keys, '.' ∉ name.toList) (h : c.LeadsIntoList path) :
    c.entries? path = none := by
  obtain ⟨entries, hentries⟩ := Option.isSome_iff_exists.1 h.list
  have hpath : c.bindings.lists.find? path = none :=
    NameMap.find?_eq_none fun hmem => hplain path hmem h.dotted
  unfold entries?
  simp only [h.unscoped, hpath, happart.values_eq_none_of_list hentries]

theorem entries?_of_not_leadsIntoList (happart : c.bindings.Apart)
    (hplain : ∀ name ∈ c.bindings.lists.keys, '.' ∉ name.toList) (h : ¬ c.LeadsIntoList path) :
    c.entries? path = (c.get? path).bind entriesOf? := by
  rw [get?_eq]
  unfold entries? bound?
  dsimp only
  cases hscoped : c.scoped? (splitPath path).1 with
  | some value => rfl
  | none =>
    -- A list is looked up by the whole path, and so is found only if that has no dot.
    by_cases hdot : '.' ∈ path.toList
    · have hpath : c.bindings.lists.find? path = none :=
        NameMap.find?_eq_none fun hmem => hplain path hmem hdot
      have hroot : c.bindings.lists.find? (splitPath path).1 = none :=
        Option.not_isSome_iff_eq_none.1 fun hlist => h ⟨hdot, hscoped, hlist⟩
      rw [hpath, hroot]
      cases c.bindings.values.find? (splitPath path).1 with
      | some value => rfl
      | none =>
        cases c.bindings.conditions.find? (splitPath path).1 with
        | some flag =>
          have hnone : ((Value.bool flag).lookup (splitPath path).2).bind entriesOf? = none := by
            rw [Value.lookup_bool]
            split <;> rfl
          exact hnone.symm
        | none => rfl
    · rw [Text.splitPath_of_not_mem hdot]
      cases hlist : c.bindings.lists.find? path with
      | some entries =>
        rw [happart.values_eq_none_of_list hlist]
        rfl
      | none =>
        cases c.bindings.values.find? path with
        | some value => rfl
        | none => cases c.bindings.conditions.find? path <;> rfl

/-- If no name is bound twice and no list has a dot in its name, a loop goes by what its path means
unless that leads into a list of the bindings, to entries. There it does as if nothing were bound to
the path. -/
theorem entries_eq_entriesMeant_iff (happart : c.bindings.Apart)
    (hplain : ∀ name ∈ c.bindings.lists.keys, '.' ∉ name.toList) :
    (c.entries path = c.entriesMeant path ↔ ¬ c.MissesEntries path) ∧
      (c.MissesEntries path → c.entries path = c.noEntries path) := by
  rw [entries_eq, entriesMeant_eq]
  by_cases hleads : c.LeadsIntoList path
  · rw [entries?_of_leadsIntoList happart hplain hleads]
    refine ⟨?_, fun _ => rfl⟩
    cases hmeant : (c.get? path).bind entriesOf? with
    | none =>
      refine iff_of_true rfl ?_
      rintro ⟨-, entries, hentries, -⟩
      exact nomatch hmeant.symm.trans hentries
    | some entries =>
      have hok : c.noEntries path = .ok entries ↔ ¬ (c.strict = true ∨ entries ≠ []) :=
        noEntries_eq_ok_iff
      refine hok.trans (not_congr ⟨?_, ?_⟩)
      · intro h
        exact ⟨hleads, entries, hmeant, h⟩
      · rintro ⟨-, entries', hentries', h⟩
        obtain rfl := Option.some.inj (hmeant.symm.trans hentries')
        exact h
  · rw [entries?_of_not_leadsIntoList happart hplain hleads]
    refine ⟨iff_of_true rfl ?_, ?_⟩
    · intro h
      exact hleads h.toLeadsIntoList
    · intro h
      exact absurd h.toLeadsIntoList hleads

/-- The guests of the dinner are run through. Those of its first table are not, though the path to
them means a list. -/
theorem seating_entries : seating.bindings.Apart ∧
    (∀ name ∈ seating.bindings.lists.keys, '.' ∉ name.toList) ∧
    seating.entries "event.guests" = seating.entriesMeant "event.guests" ∧
    seating.MissesEntries "tables.0" ∧
    seating.entries "tables.0" = seating.noEntries "tables.0" := by
  have happart : seating.bindings.Apart := by decide
  have hplain : ∀ name ∈ seating.bindings.lists.keys, '.' ∉ name.toList := by decide
  have hguests : ¬ seating.MissesEntries "event.guests" := by
    intro h
    exact absurd h.list (by decide)
  have htable : seating.MissesEntries "tables.0" :=
    ⟨⟨by decide, rfl, by decide⟩, _, rfl, .inr (List.cons_ne_nil _ _)⟩
  exact ⟨happart, hplain, (entries_eq_entriesMeant_iff happart hplain).1.2 hguests, htable,
    (entries_eq_entriesMeant_iff happart hplain).2 htable⟩

/-- A path without empty segments means a list, but a loop over it runs through nothing. -/
theorem seating_table_unread : seating.bindings.Apart ∧
    (∀ name ∈ seating.bindings.lists.keys, '.' ∉ name.toList) ∧
    (∀ name ∈ seating.bindings.conditions.keys, '.' ∉ name.toList) ∧
    (∀ s ∈ segments "tables.0", s ≠ "") ∧
    seating.get? "tables.0" = some (.list [.string "Ada", .string "Max"]) ∧
    seating.entries "tables.0" = .ok [] :=
  ⟨by decide, by decide, by decide, by decide, rfl, rfl⟩

end Loops

end Context

end StyledTemplate
