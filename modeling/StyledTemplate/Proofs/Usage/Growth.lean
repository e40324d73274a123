import StyledTemplate.Proofs.Fields
import StyledTemplate.Proofs.Usage.Walk

/-!
# What stays recorded

Recording more names loses none: what `u` has recorded about a place is still recorded once further
blocks were gone through (`grows_useBlocks`). Unlike the reports of a usage, this keeps apart where a
name was recorded: as a placeholder, as a condition, as a list or as a field of a list.
-/

namespace StyledTemplate

namespace Usage

/-- The name is recorded as a field of a list. -/
def HasField (u : Usage) (list path : String) : Prop :=
  ∃ fields, u.lists.find? list = some fields ∧ fields.contains path = true

/-- The name is recorded as one that is used within the loops of `list`, or outside of loops. -/
def Mentions (u : Usage) (list : Option String) (isCondition : Bool) (path : String) : Prop :=
  match list with
  | some list => u.HasField list path
  | none => if isCondition then u.conditions.contains path = true
      else u.placeholders.contains path = true

/-- All that `u` has recorded is recorded in `v` in the same way. -/
structure Grows (u v : Usage) : Prop where
  /-- What is mentioned stays mentioned. -/
  mentions : ∀ list isCondition path, u.Mentions list isCondition path →
    v.Mentions list isCondition path
  /-- A list stays recorded. -/
  lists : ∀ list, u.lists.contains list = true → v.lists.contains list = true

variable {u v w : Usage}

theorem Grows.refl (u : Usage) : u.Grows u := ⟨fun _ _ _ h => h, fun _ h => h⟩

theorem Grows.trans (h : u.Grows v) (h' : v.Grows w) : u.Grows w where
  mentions list isCondition path hpath := h'.mentions _ _ _ (h.mentions list isCondition path hpath)
  lists list hlist := h'.lists _ (h.lists list hlist)

/-- What is recorded depends on three components only. -/
theorem Grows.of_eq (hplaceholders : v.placeholders = u.placeholders)
    (hconditions : v.conditions = u.conditions) (hlists : v.lists = u.lists) : u.Grows v where
  mentions list isCondition path h := by
    unfold Mentions HasField at h ⊢
    rw [hplaceholders, hconditions, hlists]
    exact h
  lists list h := by
    rw [hlists]
    exact h

/-- Storing a list with at least the fields that it has loses nothing. -/
theorem grows_insert (u : Usage) {list : String} {fields : NameSet}
    (hfields : ∀ path, u.HasField list path → fields.contains path = true) :
    u.Grows { u with lists := u.lists.insert list fields } where
  mentions other isCondition path h := by
    cases other with
    | none => exact h
    | some other =>
      obtain ⟨old, hold, hpath⟩ := h
      by_cases heq : list = other
      · subst heq
        exact ⟨fields, by simp, hfields path ⟨old, hold, hpath⟩⟩
      · exact ⟨old, by simpa [heq] using hold, hpath⟩
  lists other h := by
    unfold NameMap.contains at h ⊢
    rw [NameMap.find?_insert]
    by_cases heq : list = other
    · simp [heq]
    · simpa [heq] using h

theorem HasField.contains_getD {list path : String} (h : u.HasField list path) :
    ((u.lists.find? list).getD NameMap.empty).contains path = true := by
  obtain ⟨fields, hfields, hpath⟩ := h
  rw [hfields]
  exact hpath

theorem grows_addList (u : Usage) (list : String) : u.Grows (u.addList list) :=
  u.grows_insert fun _ h => h.contains_getD

theorem contains_addList (u : Usage) (list : String) :
    (u.addList list).lists.contains list = true := by
  simp [addList, NameMap.contains]

theorem grows_addField (u : Usage) (list path : String) : u.Grows (u.addField list path) := by
  refine u.grows_insert fun other h => ?_
  rw [NameSet.contains_add, h.contains_getD, Bool.or_true]

theorem hasField_addField (u : Usage) (list path : String) :
    (u.addField list path).HasField list path := by
  refine ⟨((u.lists.find? list).getD NameMap.empty).add path, by simp [addField], ?_⟩
  simp [NameSet.contains_add]

theorem grows_addCondition (u : Usage) (path : String) :
    u.Grows { u with conditions := u.conditions.add path } where
  mentions list isCondition other h := by
    cases list with
    | some list => exact h
    | none =>
      cases isCondition with
      | false => exact h
      | true =>
        have hother : u.conditions.contains other = true := h
        simp [Mentions, NameSet.contains_add, hother]
  lists _ h := h

theorem grows_addPlaceholder (u : Usage) (path : String) :
    u.Grows { u with placeholders := u.placeholders.add path } where
  mentions list isCondition other h := by
    cases list with
    | some list => exact h
    | none =>
      cases isCondition with
      | true => exact h
      | false =>
        have hother : u.placeholders.contains other = true := h
        simp [Mentions, NameSet.contains_add, hother]
  lists _ h := h

theorem grows_mentionInTable (u : Usage) (place : Place) (path : String) :
    u.Grows (u.mentionInTable place path) := by
  unfold mentionInTable
  split
  · exact .refl u
  · exact .of_eq rfl rfl rfl

theorem grows_mention (u : Usage) (place : Place) (isCondition : Bool) (path : String) :
    u.Grows (u.mention place isCondition path) := by
  unfold mention
  split
  · exact .refl u
  · have htable := u.grows_mentionInTable place path
    split
    · exact htable.trans (grows_addField _ _ path)
    · split
      · exact htable.trans (grows_addCondition _ path)
      · exact htable.trans (grows_addPlaceholder _ path)

theorem mentions_mention (u : Usage) (place : Place) (isCondition : Bool) {path : String}
    (hpath : isLoopName path = false) :
    (u.mention place isCondition path).Mentions place.list isCondition path := by
  unfold mention
  rw [if_neg (by simp [hpath])]
  cases place.list with
  | some list => exact hasField_addField _ list path
  | none =>
    cases isCondition with
    | true => simp [Mentions, NameSet.contains_add]
    | false => simp [Mentions, NameSet.contains_add]

theorem grows_mentionList (u : Usage) (place : Place) (list : String) :
    u.Grows (u.mentionList place list) := by
  unfold mentionList
  split
  · exact u.grows_addList list
  · exact u.grows_mention place false list

theorem grows_record (u : Usage) (place : Place) (d : Directive) : u.Grows (u.record place d) := by
  cases d with
  | placeholder path => exact u.grows_mention place false path
  | ifOpen condition => exact u.grows_mention place true condition
  | eachOpen list => exact u.grows_mentionList place list
  | _ => exact .of_eq rfl rfl rfl

end Usage

/-! ## Walking through a tree -/

theorem followsUse_grows : FollowsUse fun u _ v => u.Grows v where
  refl := Usage.Grows.refl
  trans := Usage.Grows.trans
  record u place mark := u.grows_record place mark.directive
  table _ _ _ := .of_eq rfl rfl rfl
  rowLoop _ _ _ _ := .of_eq rfl rfl rfl

theorem grows_useBlocks (blocks : List Block) (place : Place) (u : Usage) :
    u.Grows (useBlocks place blocks u) := followsUse_grows.useBlocks blocks place u

theorem grows_useRows (rows : List (RowBlock Block)) (place : Place) (index row : Nat) (u : Usage) :
    u.Grows (useRows place index row rows u) := followsUse_grows.useRows rows place index row u

theorem grows_useCells (cells : List (Cell Block)) (place : Place) (u : Usage) :
    u.Grows (useCells place cells u) := followsUse_grows.useCells cells place u

end StyledTemplate
