import Mathlib.Data.List.Basic
import StyledTemplate.Proofs.Text.Returns
import StyledTemplate.Value.Basic

/-!
# Dotted paths

A path that is longer by some segments comes later in the order of texts
(`Text.le_of_segments_prefix`). A look-up that takes the first segment off a path and reads the rest
as a path again follows the segments of the whole path, unless one of them is empty
(`Text.exists_segments_eq`). Joining two paths by a dot joins their segments
(`Text.segments_dotted`).
-/

namespace StyledTemplate.Text

theorem splitOn_cons_self (separator : Char) (cs : List Char) :
    splitOn separator (separator :: cs) = [] :: splitOn separator cs := by
  simp [splitOn]

theorem exists_splitOn_cons {separator c : Char} (hc : c ≠ separator) (cs : List Char) :
    ∃ piece pieces, splitOn separator cs = piece :: pieces ∧
      splitOn separator (c :: cs) = (c :: piece) :: pieces := by
  obtain ⟨piece, pieces, hsplit⟩ := List.exists_cons_of_ne_nil (splitOn_ne_nil separator cs)
  refine ⟨piece, pieces, hsplit, ?_⟩
  rw [splitOn, if_neg hc, hsplit]

/-- The pieces of a text are the first pieces of longer texts only. -/
theorem prefix_of_splitOn_prefix {separator : Char} {cs ds : List Char}
    (h : splitOn separator cs <+: splitOn separator ds) : cs <+: ds := by
  induction cs generalizing ds with
  | nil => exact List.nil_prefix
  | cons c cs ih =>
    by_cases hc : c = separator
    · subst hc
      rw [splitOn_cons_self] at h
      cases ds with
      | nil =>
        have hnil := List.prefix_nil.1 (List.cons_prefix_cons.1 h).2
        exact absurd hnil (splitOn_ne_nil _ _)
      | cons d ds =>
        by_cases hd : d = c
        · subst hd
          rw [splitOn_cons_self, List.cons_prefix_cons] at h
          exact List.cons_prefix_cons.2 ⟨rfl, ih h.2⟩
        · obtain ⟨piece, pieces, -, hds⟩ := exists_splitOn_cons hd ds
          rw [hds, List.cons_prefix_cons] at h
          cases h.1
    · obtain ⟨piece, pieces, hcs, hcons⟩ := exists_splitOn_cons hc cs
      rw [hcons] at h
      cases ds with
      | nil => cases (List.cons_prefix_cons.1 h).1
      | cons d ds =>
        by_cases hd : d = separator
        · subst hd
          rw [splitOn_cons_self, List.cons_prefix_cons] at h
          cases h.1
        · obtain ⟨piece', pieces', hds, hcons'⟩ := exists_splitOn_cons hd ds
          rw [hcons', List.cons_prefix_cons, List.cons.injEq] at h
          obtain ⟨⟨rfl, rfl⟩, hpieces⟩ := h
          have hprefix : splitOn separator cs <+: splitOn separator ds := by
            rw [hcs, hds]
            exact List.cons_prefix_cons.2 ⟨rfl, hpieces⟩
          exact List.cons_prefix_cons.2 ⟨rfl, ih hprefix⟩

/-- A path is not behind the paths that go on after it. -/
theorem le_of_segments_prefix {p q : String} (h : segments p <+: segments q) : p ≤ q := by
  obtain ⟨pieces, hpieces, heq⟩ := List.prefix_map_iff.1 h
  have hofList : Function.Injective String.ofList := fun cs ds h =>
    String.ofList_inj.1 h
  rw [← List.map_injective_iff.2 hofList heq] at hpieces
  have hprefix : p.toList <+: q.toList := prefix_of_splitOn_prefix hpieces
  exact String.not_lt.1 fun hlt => hprefix.le hlt

theorem segments_injective {p q : String} (h : segments p = segments q) : p = q := by
  have hle : p ≤ q := le_of_segments_prefix (h ▸ List.prefix_rfl)
  have hge : q ≤ p := le_of_segments_prefix (h ▸ List.prefix_rfl)
  exact String.le_antisymm hle hge

/-- The second path is the first one with further segments behind it. -/
def GoesOn (p q : String) : Prop := ∃ segment rest, segments q = segments p ++ segment :: rest

theorem goesOn_iff {p q : String} : GoesOn p q ↔ segments p <+: segments q ∧ p ≠ q := by
  constructor
  · rintro ⟨segment, rest, h⟩
    refine ⟨⟨segment :: rest, h.symm⟩, ?_⟩
    rintro rfl
    exact List.cons_ne_nil segment rest (List.self_eq_append_right.1 h)
  · rintro ⟨⟨rest, h⟩, hne⟩
    cases rest with
    | nil => exact absurd (segments_injective ((List.append_nil _).symm.trans h)) hne
    | cons segment rest => exact ⟨segment, rest, h.symm⟩

instance (p q : String) : Decidable (GoesOn p q) := decidable_of_iff _ goesOn_iff.symm

theorem segments_ne_nil (path : String) : segments path ≠ [] := by
  intro h
  exact splitOn_ne_nil _ _ (List.map_eq_nil_iff.1 h)

/-! ## The first segment and the rest -/

/-- The text before the first separator is the first piece, and what is behind it makes up the
others. -/
theorem splitOn_eq_splitFirst (separator : Char) (cs : List Char) :
    splitOn separator cs = (splitFirst separator cs).1 ::
      ((splitFirst separator cs).2.map (splitOn separator)).getD [] := by
  induction cs with
  | nil => rfl
  | cons c cs ih =>
    rw [splitFirst]
    split
    · next hc =>
      subst hc
      exact splitOn_cons_self c cs
    · next hc =>
      rw [splitOn, if_neg hc, ih]

theorem eq_splitFirst (separator : Char) (cs : List Char) :
    cs = (splitFirst separator cs).1 ++
      ((splitFirst separator cs).2.map (separator :: ·)).getD [] := by
  induction cs with
  | nil => rfl
  | cons c cs ih =>
    rw [splitFirst]
    split
    · next hc =>
      subst hc
      rfl
    · exact congrArg (c :: ·) ih

theorem splitFirst_of_not_mem {separator : Char} {cs : List Char} (h : separator ∉ cs) :
    splitFirst separator cs = (cs, none) := by
  induction cs with
  | nil => rfl
  | cons c cs ih =>
    have hc : c ≠ separator := fun hc => h (hc ▸ List.mem_cons_self)
    rw [splitFirst, if_neg hc, ih fun hmem => h (List.mem_cons_of_mem _ hmem)]

theorem exists_splitFirst_of_mem {separator : Char} {cs : List Char} (h : separator ∈ cs) :
    ∃ rest, (splitFirst separator cs).2 = some rest := by
  induction cs with
  | nil => cases h
  | cons c cs ih =>
    by_cases hc : c = separator
    · exact ⟨cs, by rw [splitFirst, if_pos hc]⟩
    · rcases List.mem_cons.1 h with heq | hmem
      · exact absurd heq.symm hc
      · rw [splitFirst, if_neg hc]
        exact ih hmem

/-- A path without a dot is its own first segment. -/
theorem splitPath_of_not_mem {path : String} (h : '.' ∉ path.toList) :
    splitPath path = (path, "") := by
  unfold splitPath
  rw [splitFirst_of_not_mem h]
  simp

theorem segments_of_not_mem {path : String} (h : '.' ∉ path.toList) : segments path = [path] := by
  rw [segments, splitOn_eq_splitFirst, splitFirst_of_not_mem h]
  simp

/-- The segments of a path with a dot are the first one and those of what is behind it. -/
theorem segments_of_mem {path : String} (h : '.' ∈ path.toList) :
    segments path = (splitPath path).1 :: segments (splitPath path).2 := by
  obtain ⟨rest, hrest⟩ := exists_splitFirst_of_mem h
  simp only [segments, splitPath, hrest, Option.getD_some, String.toList_ofList]
  rw [splitOn_eq_splitFirst '.' path.toList, hrest]
  rfl

theorem ne_empty_of_segments {path : String} (h : ∀ s ∈ segments path, s ≠ "") : path ≠ "" := by
  rintro rfl
  exact h "" (by decide) rfl

/-- Behind the first segment of a path with a dot there is a path, if no segment is empty. -/
theorem segments_splitPath_ne_empty {path : String} (h : ∀ s ∈ segments path, s ≠ "")
    (hdot : '.' ∈ path.toList) : ∀ s ∈ segments (splitPath path).2, s ≠ "" := by
  intro s hs
  refine h s ?_
  rw [segments_of_mem hdot]
  exact List.mem_cons_of_mem _ hs

/-- Looking up a path below its first segment follows its other segments. -/
theorem exists_segments_eq {path : String} (h : ∀ s ∈ segments path, s ≠ "") :
    ∃ rest, segments path = (splitPath path).1 :: rest ∧
      ∀ v : Value, v.lookup (splitPath path).2 = v.partAt? rest := by
  by_cases hdot : '.' ∈ path.toList
  · have hne : (splitPath path).2 ≠ "" :=
      ne_empty_of_segments (segments_splitPath_ne_empty h hdot)
    refine ⟨segments (splitPath path).2, segments_of_mem hdot, fun v => ?_⟩
    rw [Value.lookup, if_neg hne]
  · rw [splitPath_of_not_mem hdot, segments_of_not_mem hdot]
    exact ⟨[], rfl, fun v => rfl⟩

/-! ## Paths joined by a dot -/

theorem splitOn_append (separator : Char) (as bs : List Char) :
    splitOn separator (as ++ separator :: bs) = splitOn separator as ++ splitOn separator bs := by
  induction as with
  | nil => exact splitOn_cons_self separator bs
  | cons a as ih =>
    by_cases ha : a = separator
    · subst ha
      rw [List.cons_append, splitOn_cons_self, ih, splitOn_cons_self, List.cons_append]
    · obtain ⟨piece, pieces, has, hcons⟩ := exists_splitOn_cons ha as
      rw [List.cons_append, splitOn, if_neg ha, ih, has, hcons]
      rfl

theorem toList_dotted (p q : String) : (p ++ "." ++ q).toList = p.toList ++ '.' :: q.toList := by
  simp

theorem segments_dotted (p q : String) : segments (p ++ "." ++ q) = segments p ++ segments q := by
  rw [segments, toList_dotted, splitOn_append, List.map_append]
  rfl

theorem splitFirst_append (separator : Char) (as bs : List Char) :
    splitFirst separator (as ++ separator :: bs) = ((splitFirst separator as).1,
      some (((splitFirst separator as).2.map (· ++ separator :: bs)).getD bs)) := by
  induction as with
  | nil => simp [splitFirst]
  | cons a as ih =>
    rw [List.cons_append, splitFirst, splitFirst]
    by_cases ha : a = separator
    · simp [ha]
    · rw [if_neg ha, if_neg ha, ih]

/-- Behind a path without a dot there is the whole second path. -/
theorem splitPath_dotted_of_not_mem {p : String} (h : '.' ∉ p.toList) (q : String) :
    splitPath (p ++ "." ++ q) = (p, q) := by
  unfold splitPath
  rw [toList_dotted, splitFirst_append, splitFirst_of_not_mem h]
  simp

/-- Behind the first segment of a path with a dot there is its rest, joined with the second path. -/
theorem splitPath_dotted_of_mem {p : String} (h : '.' ∈ p.toList) (q : String) :
    splitPath (p ++ "." ++ q) = ((splitPath p).1, (splitPath p).2 ++ "." ++ q) := by
  obtain ⟨rest, hrest⟩ := exists_splitFirst_of_mem h
  unfold splitPath
  rw [toList_dotted, splitFirst_append]
  simp [String.ext_iff, hrest]

theorem splitPath_dotted_fst (p q : String) : (splitPath (p ++ "." ++ q)).1 = (splitPath p).1 := by
  by_cases hdot : '.' ∈ p.toList
  · rw [splitPath_dotted_of_mem hdot]
  · rw [splitPath_dotted_of_not_mem hdot, splitPath_of_not_mem hdot]

end StyledTemplate.Text
