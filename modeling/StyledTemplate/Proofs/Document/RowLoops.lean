import StyledTemplate.Proofs.Template.Outline

/-!
# The loops of a repeated row

A row is repeated if the first directive of its first paragraph opens a loop, the last directive of
its last paragraph closes one, and these two belong together: between them, each loop that is opened
in the row is closed again (`rowMarkers?_eq_some_iff`). The markers of a row are found by counting
depths, which `Balanced` says without numbers.
-/

namespace StyledTemplate

/-! ## Loops that are closed again -/

/-- Each loop that is opened (`true`) is closed (`false`) again, and no other loop is closed. -/
inductive Balanced : List Bool → Prop
  | nil : Balanced []
  | loop {inner rest : List Bool} (hinner : Balanced inner) (hrest : Balanced rest) :
      Balanced (true :: inner ++ false :: rest)

/-- Loops that are closed again do not count. -/
theorem Balanced.closesLast_append {marks : List Bool} (h : Balanced marks) {depth : Nat}
    (hdepth : 0 < depth) (rest : List Bool) :
    closesLast depth (marks ++ rest) = closesLast depth rest := by
  induction h generalizing depth rest with
  | nil => rfl
  | @loop inner behind _ _ ihinner ihrest =>
    have hopen : ¬ depth + 1 ≤ 1 := by omega
    rw [List.cons_append, List.cons_append, List.append_assoc, closesLast,
      ihinner (Nat.succ_pos depth), List.cons_append, closesLast, if_neg hopen]
    exact ihrest hdepth rest

/-- If the marks close the innermost of some loops, they do so behind loops that are closed again. -/
theorem exists_of_closesLast {depth : Nat} {marks : List Bool}
    (h : closesLast (depth + 1) marks = true) :
    ∃ inner rest, Balanced inner ∧ marks = inner ++ false :: rest ∧
      (depth = 0 → rest = []) ∧ (0 < depth → closesLast depth rest = true) := by
  induction hlength : marks.length using Nat.strongRecOn generalizing depth marks with
  | ind length ih =>
    subst hlength
    match marks, h with
    | false :: marks, h =>
      refine ⟨[], marks, .nil, rfl, ?_, ?_⟩
      · rintro rfl
        rw [closesLast, if_pos (Nat.le_refl 1)] at h
        exact List.isEmpty_iff.1 h
      · intro hdepth
        rw [closesLast, if_neg (by omega)] at h
        exact h
    | true :: marks, h =>
      rw [closesLast] at h
      obtain ⟨inner, rest, hinner, rfl, -, hrest⟩ :=
        ih _ (Nat.lt_succ_self marks.length) h rfl
      have hlt : rest.length < (true :: (inner ++ false :: rest)).length := by
        simp only [List.length_cons, List.length_append]
        omega
      obtain ⟨inner', rest', hinner', rfl, hclosed⟩ :=
        ih _ hlt (hrest (Nat.succ_pos depth)) rfl
      exact ⟨true :: inner ++ false :: inner', rest', .loop hinner hinner', by simp, hclosed⟩

/-- The first mark opens the loop that the last one closes. -/
theorem closesLast_iff {marks : List Bool} :
    closesLast 0 (true :: marks ++ [false]) = true ↔ Balanced marks := by
  rw [List.cons_append, closesLast]
  constructor
  · intro h
    obtain ⟨inner, rest, hinner, hmarks, hrest, -⟩ := exists_of_closesLast h
    rw [hrest rfl] at hmarks
    rw [List.append_cancel_right hmarks]
    exact hinner
  · intro h
    rw [h.closesLast_append Nat.one_pos]
    rfl

/-! ## The loops of a row -/

/-- The tokens of a paragraph that open or close a loop. -/
def Paragraph.loopTokens (strict : Bool) (p : Paragraph) : List Token :=
  (p.tokens strict).filter (·.loopMark?.isSome)

/-- The tokens of a row that open or close a loop, in document order. -/
def Row.loopTokens (strict : Bool) (row : Row Element) : List Token :=
  (cellsParagraphs row.cells).flatMap (·.loopTokens strict)

/-- Do the tokens open and close loops? -/
def loopMarksOf (tokens : List Token) : List Bool := tokens.filterMap Token.loopMark?

theorem Paragraph.loopMarks_eq (strict : Bool) (p : Paragraph) :
    p.loopMarks strict = loopMarksOf (p.loopTokens strict) := by
  have hfilter : ∀ tokens : List Token,
      tokens.filterMap Token.loopMark? = loopMarksOf (tokens.filter (·.loopMark?.isSome)) := by
    intro tokens
    rw [loopMarksOf, List.filterMap_filter]
    refine congrArg (List.filterMap · tokens) (funext fun t => ?_)
    cases t.loopMark? <;> rfl
  rw [Paragraph.loopMarks, Paragraph.loopTokens, Paragraph.tokens]
  cases tokenize strict (runsText p.runs) with
  | error e => rfl
  | ok tokens => exact hfilter tokens

mutual

theorem Element.loopMarks_eq (strict : Bool) : ∀ element : Element,
    element.loopMarks strict = element.paragraphs.flatMap (·.loopMarks strict)
  | .paragraph p => by
    rw [Element.loopMarks, paragraphs_paragraph, List.flatMap_singleton]
  | .table t => by
    rw [Element.loopMarks, paragraphs_table, rowsLoopMarks_eq strict t.rows]

theorem rowsLoopMarks_eq (strict : Bool) : ∀ rows : List (Row Element),
    rowsLoopMarks strict rows = (rowsParagraphs rows).flatMap (·.loopMarks strict)
  | [] => by
    rw [rowsLoopMarks, rowsParagraphs_nil, List.flatMap_nil]
  | ⟨_, cells⟩ :: rows => by
    rw [rowsLoopMarks, rowsParagraphs_cons, List.flatMap_append, cellsLoopMarks_eq strict cells,
      rowsLoopMarks_eq strict rows]

theorem cellsLoopMarks_eq (strict : Bool) : ∀ cells : List (Cell Element),
    cellsLoopMarks strict cells = (cellsParagraphs cells).flatMap (·.loopMarks strict)
  | [] => by
    rw [cellsLoopMarks, cellsParagraphs_nil, List.flatMap_nil]
  | ⟨_, body⟩ :: cells => by
    rw [cellsLoopMarks, cellsParagraphs_cons, List.flatMap_append, bodyLoopMarks_eq strict body,
      cellsLoopMarks_eq strict cells]

theorem bodyLoopMarks_eq (strict : Bool) : ∀ body : List Element,
    bodyLoopMarks strict body = (bodyParagraphs body).flatMap (·.loopMarks strict)
  | [] => by
    rw [bodyLoopMarks, bodyParagraphs_nil, List.flatMap_nil]
  | element :: rest => by
    rw [bodyLoopMarks, bodyParagraphs_cons, List.flatMap_append, element.loopMarks_eq strict,
      bodyLoopMarks_eq strict rest]

end

theorem Row.loopMarks_eq (strict : Bool) (row : Row Element) :
    cellsLoopMarks strict row.cells = loopMarksOf (row.loopTokens strict) := by
  rw [cellsLoopMarks_eq, Row.loopTokens, loopMarksOf, List.filterMap_flatMap]
  refine congrArg (List.flatMap · _) (funext fun p => ?_)
  exact p.loopMarks_eq strict

/-! ## Markers -/

/-- The row is repeated, and these are its markers. -/
structure Row.HasMarkers (strict : Bool) (row : Row Element) (markers : RowMarkers) : Prop where
  /-- The opening marker leads the first paragraph, the closing marker trails the last one. -/
  outer : ∃ first last, row.outerParagraphs? = some (first, last) ∧
    (first.tokens strict).find? (!·.isBlank) = some markers.opener ∧
    (last.tokens strict).reverse.find? (!·.isBlank) = some markers.closer
  /-- The opening marker opens a loop over the list. -/
  opener : markers.opener.kind = .directive (.eachOpen markers.list)
  /-- The closing marker closes a loop. -/
  closer : markers.closer.kind = .directive .eachClose
  /-- The two markers belong together: all loops between them are closed again. -/
  paired : ∃ mid, row.loopTokens strict = markers.opener :: mid ++ [markers.closer] ∧
    Balanced (loopMarksOf mid)

section Markers

variable {strict : Bool} {row : Row Element} {first last : Paragraph} {markers : RowMarkers}

/-- The first and the last of the paragraphs of a row. -/
theorem OuterShape.paragraphs (h : OuterShape first last row.cells) :
    (cellsParagraphs row.cells).head? = some first ∧
      (cellsParagraphs row.cells).getLast? = some last := by
  generalize row.cells = cells at h
  cases h with
  | single properties hlast => simp [hlast]
  | cell properties mid => simp [List.getLast?_cons]
  | cells properties properties' rest front mid => simp [List.getLast?_cons, ← List.append_assoc]

theorem exists_eq_cons_concat {α : Type} {as : List α} {a b : α} (hhead : as.head? = some a)
    (hlast : as.getLast? = some b) (hne : a ≠ b) : ∃ mid, as = a :: mid ++ [b] := by
  obtain ⟨rest, rfl⟩ := List.head?_eq_some_iff.1 hhead
  rcases List.eq_nil_or_concat rest with rfl | ⟨mid, last, rfl⟩
  · exact absurd (by simpa using hlast) hne
  · refine ⟨mid, ?_⟩
    rw [List.concat_eq_append, ← List.cons_append, List.getLast?_concat] at hlast
    rw [List.concat_eq_append, Option.some.inj hlast]
    rfl

/-- If the first token that is not blank opens or closes a loop, it is the first one that does. -/
theorem head?_loopTokens {tokens : List Token} {t : Token}
    (h : tokens.find? (!·.isBlank) = some t) (hmark : t.loopMark?.isSome = true) :
    (tokens.filter (·.loopMark?.isSome)).head? = some t := by
  obtain ⟨-, pre, post, rfl, hpre⟩ := List.find?_eq_some_iff_append.1 h
  rw [List.head?_filter]
  refine List.find?_eq_some_iff_append.2 ⟨hmark, pre, post, rfl, fun u hu => ?_⟩
  have hblank : u.isBlank = true := by simpa using hpre u hu
  obtain ⟨kind, start, stop⟩ := u
  cases kind with
  | text s => rfl
  | directive d => simp [Token.isBlank] at hblank

theorem Paragraph.head?_loopTokens {p : Paragraph} {t : Token}
    (h : (p.tokens strict).find? (!·.isBlank) = some t) (hmark : t.loopMark?.isSome = true) :
    (p.loopTokens strict).head? = some t :=
  StyledTemplate.head?_loopTokens h hmark

theorem Paragraph.getLast?_loopTokens {p : Paragraph} {t : Token}
    (h : (p.tokens strict).reverse.find? (!·.isBlank) = some t)
    (hmark : t.loopMark?.isSome = true) : (p.loopTokens strict).getLast? = some t := by
  rw [← List.head?_reverse, Paragraph.loopTokens, ← List.filter_reverse]
  exact StyledTemplate.head?_loopTokens h hmark

/-- The markers are the first and the last of the tokens that open or close a loop. -/
theorem exists_loopTokens_eq {opener closer : Token} {list : String}
    (houter : row.outerParagraphs? = some (first, last))
    (hfirst : (first.tokens strict).find? (!·.isBlank) = some opener)
    (hlast : (last.tokens strict).reverse.find? (!·.isBlank) = some closer)
    (hopener : opener.kind = .directive (.eachOpen list))
    (hcloser : closer.kind = .directive .eachClose) :
    ∃ mid, row.loopTokens strict = opener :: mid ++ [closer] := by
  obtain ⟨hhead, hend⟩ := (outerShape_of_outerParagraphs? houter).paragraphs
  have hopens := first.head?_loopTokens hfirst (by simp [Token.loopMark?, hopener])
  have hcloses := last.getLast?_loopTokens hlast (by simp [Token.loopMark?, hcloser])
  have hne : opener ≠ closer := by
    intro heq
    rw [heq, hcloser] at hopener
    cases hopener
  refine exists_eq_cons_concat ?_ ?_ hne
  · obtain ⟨rest, hrest⟩ := List.head?_eq_some_iff.1 hhead
    rw [Row.loopTokens, hrest, List.flatMap_cons, List.head?_append, hopens]
    rfl
  · obtain ⟨front, hfront⟩ := List.getLast?_eq_some_iff.1 hend
    rw [Row.loopTokens, hfront, List.flatMap_append, List.flatMap_singleton, List.getLast?_append,
      hcloses]
    rfl

theorem Paragraph.tokenize_of_mem {p : Paragraph} {t : Token} (h : t ∈ p.tokens strict) :
    tokenize strict (runsText p.runs) = .ok (p.tokens strict) := by
  rw [Paragraph.tokens] at h ⊢
  cases hresult : tokenize strict (runsText p.runs) with
  | error e =>
    rw [hresult] at h
    cases h
  | ok tokens => rfl

/-- A row is found to be repeated if and only if it has markers that belong together. -/
theorem rowMarkers?_eq_some_iff :
    rowMarkers? strict row = .ok (some markers) ↔ row.HasMarkers strict markers := by
  have hmarks : ∀ mid, row.loopTokens strict = markers.opener :: mid ++ [markers.closer] →
      markers.opener.kind = .directive (.eachOpen markers.list) →
      markers.closer.kind = .directive .eachClose →
      (closesLast 0 (cellsLoopMarks strict row.cells) = true ↔ Balanced (loopMarksOf mid)) := by
    intro mid hmid hopener hcloser
    have hopens : markers.opener.loopMark? = some true := by simp [Token.loopMark?, hopener]
    have hcloses : markers.closer.loopMark? = some false := by simp [Token.loopMark?, hcloser]
    have hsplit : loopMarksOf (markers.opener :: mid ++ [markers.closer]) =
        true :: loopMarksOf mid ++ [false] := by
      simp [loopMarksOf, hopens, hcloses]
    rw [row.loopMarks_eq, hmid, hsplit, closesLast_iff]
  constructor
  · intro h
    unfold rowMarkers? at h
    split at h
    · simp at h
    · next first last houter =>
      obtain ⟨firstTokens, hfirst, h⟩ := exists_of_bind_eq_ok h
      obtain ⟨lastTokens, hlast, h⟩ := exists_of_bind_eq_ok h
      split at h
      · next opener closer hleads htrails =>
        split at h
        · next list hopener hcloser =>
          split at h
          · next hcloses =>
            obtain rfl := Option.some.inj (Except.ok.inj h)
            have hleads' : (first.tokens strict).find? (!·.isBlank) = some opener := by
              rw [Paragraph.tokens, hfirst]
              exact hleads
            have htrails' : (last.tokens strict).reverse.find? (!·.isBlank) = some closer := by
              rw [Paragraph.tokens, hlast]
              exact htrails
            obtain ⟨mid, hmid⟩ := exists_loopTokens_eq houter hleads' htrails' hopener hcloser
            exact ⟨⟨first, last, houter, hleads', htrails'⟩, hopener, hcloser, mid, hmid,
              (hmarks mid hmid hopener hcloser).1 hcloses⟩
          · simp [pure, Except.pure] at h
        · simp [pure, Except.pure] at h
      · simp [pure, Except.pure] at h
  · rintro ⟨⟨first, last, houter, hleads, htrails⟩, hopener, hcloser, mid, hmid, hbalanced⟩
    have hcloses := (hmarks mid hmid hopener hcloser).2 hbalanced
    have hfirst := first.tokenize_of_mem (List.mem_of_find?_eq_some hleads)
    have hlast := last.tokenize_of_mem (List.mem_reverse.1 (List.mem_of_find?_eq_some htrails))
    rw [rowMarkers?, houter]
    simp only [hfirst, hlast, hleads, htrails, hopener, hcloser, hcloses, bind, Except.bind, pure,
      Except.pure, if_true]

end Markers

end StyledTemplate
