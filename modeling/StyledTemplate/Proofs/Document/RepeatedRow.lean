import StyledTemplate.Proofs.Directive.Sources
import StyledTemplate.Proofs.Document.RowContent
import StyledTemplate.Proofs.Document.RowLoops
import StyledTemplate.Proofs.Template.Occurrences

/-!
# Rows that are repeated

A row is repeated exactly if it has two markers that belong together. Taking them out leaves every
cell in its place, and in the cells every element but the paragraphs in which the markers stand
(`CellsLose`). Such a paragraph keeps its properties and all of its content and its directives but
the marker (`Paragraph.Loses`), and it is dropped exactly if only blank characters are left in it and
its cell has other elements (`Paragraph.Leaves`). Altogether: `rowMarkers?_exact`.
-/

namespace StyledTemplate

/-- The directives in the paragraphs of a row, in document order. -/
def Row.directives (strict : Bool) (row : Row Element) : List Directive :=
  (cellsParagraphs row.cells).flatMap fun p => directivesOf (p.placed strict)

/-- Is it a blank character? -/
def Atom.isBlank : Atom → Bool
  | .char c _ => Text.isBlank c
  | .run _ => false

/-! ## What a row loses -/

/-- `left` is the paragraph without some tokens and with all else. -/
structure Paragraph.Loses (strict : Bool) (tokens : List Token) (p left : Paragraph) : Prop where
  /-- The paragraph keeps its properties. -/
  properties : left.properties = p.properties
  /-- All its content stays but the characters of the tokens. -/
  content : runsAtoms left.runs = contentOf ((locate 0 0 (runsAtoms p.runs)).filter fun l =>
    !tokens.any fun t => l.isWithin t.start t.stop)
  /-- All its directives stay but those at the places of the tokens. -/
  directives : directivesOf (left.placed strict) =
    directivesOf ((p.placed strict).filter fun d => !tokens.any fun t => d.offset == t.start)

/-- What stands in place of a paragraph that loses some tokens, `others` being the other elements of
its cell. -/
inductive Paragraph.Leaves (strict : Bool) (tokens : List Token) (p : Paragraph)
    (others : List Element) : List Element → Prop where
  /-- Only blank characters are left and there are other elements, so the paragraph is dropped. -/
  | dropped {left : Paragraph} (hloses : p.Loses strict tokens left)
      (hblank : ∀ atom ∈ runsAtoms left.runs, atom.isBlank = true) (hothers : others ≠ []) :
      Leaves strict tokens p others []
  /-- More than that is left or there is no other element, so the paragraph stays. -/
  | kept {left : Paragraph} (hloses : p.Loses strict tokens left)
      (hkept : (∃ atom ∈ runsAtoms left.runs, atom.isBlank = false) ∨ others = []) :
      Leaves strict tokens p others [.paragraph left]

/-- The cells of a row with its markers and without them. Nothing but the two paragraphs in which the
markers stand has changed. -/
inductive CellsLose (strict : Bool) (markers : RowMarkers) :
    List (Cell Element) → List (Cell Element) → Prop where
  /-- Both markers stand in the only paragraph of the only cell. -/
  | single {properties : CellProperties} {p left : Paragraph}
      (hloses : p.Loses strict [markers.opener, markers.closer] left) :
      CellsLose strict markers [⟨properties, [.paragraph p]⟩] [⟨properties, [.paragraph left]⟩]
  /-- The markers stand in two paragraphs of the only cell. The last one may be dropped first, and
  does not count among the elements beside the first one then. -/
  | cell {properties : CellProperties} {first last : Paragraph}
      {mid firstLeft lastLeft : List Element}
      (hlast : last.Leaves strict [markers.closer] (.paragraph first :: mid) lastLeft)
      (hfirst : first.Leaves strict [markers.opener] (mid ++ lastLeft) firstLeft) :
      CellsLose strict markers [⟨properties, .paragraph first :: mid ++ [.paragraph last]⟩]
        [⟨properties, firstLeft ++ mid ++ lastLeft⟩]
  /-- The markers stand in two cells. -/
  | cells {properties properties' : CellProperties} {first last : Paragraph}
      {rest front firstLeft lastLeft : List Element} {mid : List (Cell Element)}
      (hfirst : first.Leaves strict [markers.opener] rest firstLeft)
      (hlast : last.Leaves strict [markers.closer] front lastLeft) :
      CellsLose strict markers
        (⟨properties, .paragraph first :: rest⟩ :: mid ++
          [⟨properties', front ++ [.paragraph last]⟩])
        (⟨properties, firstLeft ++ rest⟩ :: mid ++ [⟨properties', front ++ lastLeft⟩])

/-- `left` is the row without its markers and with all else. -/
structure Row.LosesMarkers (strict : Bool) (row : Row Element) (markers : RowMarkers)
    (left : Row Element) : Prop where
  /-- The row keeps its properties. -/
  properties : left.properties = row.properties
  /-- The cells lose the markers and, with them, the paragraphs that are left blank. -/
  cells : CellsLose strict markers row.cells left.cells
  /-- The texts of the row can still be split into tokens. -/
  splits : ∀ p ∈ cellsParagraphs left.cells, p.Splits strict
  /-- Of all directives, the first and the last one go. -/
  directives : row.directives strict =
    .eachOpen markers.list :: left.directives strict ++ [.eachClose]

section Markers

variable {strict : Bool} {row : Row Element} {markers : RowMarkers}

/-- What taking the markers out leaves unchanged in each cell, it leaves unchanged in the row. -/
theorem map_withoutMarkers {α : Type} {g : Cell Element → α} (markers : RowMarkers)
    (row : Row Element)
    (hfirst : ∀ cell, g { cell with body := cutFirst markers.opener cell.body } = g cell)
    (hlast : ∀ cell, g { cell with body := cutLast markers.closer cell.body } = g cell) :
    (row.withoutMarkers markers).cells.map g = row.cells.map g :=
  (map_modifyHead hfirst _).trans (map_modifyLast hlast _)

/-! ## Directives -/

theorem Paragraph.Reads.directives {p : Paragraph} {ds : List Placed} (h : p.Reads strict ds) :
    directivesOf (p.placed strict) = directivesOf ds := congrArg directivesOf h.placed_eq

theorem directivesOf_shift (n : Nat) (ds : List Placed) :
    directivesOf (ds.map (Placed.shift n)) = directivesOf ds := by
  rw [directivesOf, List.map_map]
  rfl

/-- The directives of a paragraph that is dropped only if it has none. -/
theorem directives_unlessDropped {p : Paragraph} {ds : List Placed} (h : p.Reads strict ds)
    {drop : Bool} (hdrop : drop = true → ds = []) :
    (unlessDropped drop p).flatMap (fun p => directivesOf (p.placed strict)) =
      directivesOf ds := by
  cases drop with
  | true =>
    rw [hdrop rfl]
    rfl
  | false =>
    rw [unlessDropped, if_neg Bool.false_ne_true, List.flatMap_singleton, h.directives]

/-- All directives of a repeated row but the markers stay. -/
theorem directives_withoutMarkers (h : rowMarkers? strict row = .ok (some markers)) :
    row.directives strict = .eachOpen markers.list ::
      (row.withoutMarkers markers).directives strict ++ [.eachClose] := by
  rw [Row.directives, Row.directives, cellsParagraphs_eq, cellsParagraphs_eq, ← Row.elements,
    ← Row.elements]
  cases unmarked_of_rowMarkers? h with
  | @together p left ds hsource hrest _ _ _ hreads hleaves =>
    rw [hsource, hrest]
    simp only [bodyParagraphs_cons, paragraphs_paragraph, bodyParagraphs_nil, List.append_nil,
      List.flatMap_singleton, hreads.directives, hleaves.directives, directivesOf_shift]
    simp [directivesOf, Placed.shift]
  | @apart first last first' last' mid ds es hsource hrest hfirst hfirst' hdropFirst hlast hlast'
      hdropLast =>
    have hdropFirst' : row.dropsOpener markers = true →
        ds.map (Placed.shift markers.opener.start) = [] := by
      intro hdrop
      rw [hdropFirst hdrop]
      rfl
    rw [hsource, hrest]
    simp only [List.cons_append, bodyParagraphs_cons, bodyParagraphs_append, bodyParagraphs_nil,
      paragraphs_paragraph, bodyParagraphs_map_paragraph, List.flatMap_append, List.flatMap_cons,
      List.flatMap_nil, List.nil_append, List.append_nil,
      directives_unlessDropped hfirst' hdropFirst', directives_unlessDropped hlast' hdropLast,
      hfirst.directives, hlast.directives, directivesOf_shift]
    simp [directivesOf, Placed.shift]

/-! ## Paragraphs -/

theorem Run.isBlank_iff (run : Run) :
    (run.text?.map fun s => Text.allBlank s.toList).getD false = true ↔
      ∀ atom ∈ run.atoms, atom.isBlank = true := by
  obtain ⟨properties, content⟩ := run
  cases content with
  | text s =>
    have hatoms : (∀ atom ∈ (⟨properties, .text s⟩ : Run).atoms, atom.isBlank = true) ↔
        ∀ c ∈ s.toList, Text.isBlank c = true := List.forall_mem_map
    rw [hatoms]
    exact List.all_eq_true
  | lineBreak => simp [Run.text?, Run.atoms, Atom.isBlank]
  | image image => simp [Run.text?, Run.atoms, Atom.isBlank]

/-- A paragraph is blank if and only if all its content is blank characters. -/
theorem Paragraph.isBlank_iff (p : Paragraph) :
    p.isBlank = true ↔ ∀ atom ∈ runsAtoms p.runs, atom.isBlank = true := by
  rw [Paragraph.isBlank, List.all_eq_true, runsAtoms, List.forall_mem_flatMap]
  exact forall₂_congr fun run _ => run.isBlank_iff

/-- A paragraph that a token is cut out of is dropped or kept by what is left of it. -/
theorem Paragraph.Loses.leaves {t : Token} {p : Paragraph}
    (h : p.Loses strict [t] (p.cut t.start t.stop)) (others : List Element) :
    p.Leaves strict [t] others (p.without t others) := by
  rw [Paragraph.without_eq]
  by_cases hgoes : (p.cut t.start t.stop).isBlank = true ∧ others ≠ []
  · rw [if_pos hgoes]
    exact .dropped h ((Paragraph.isBlank_iff _).1 hgoes.1) hgoes.2
  · rw [if_neg hgoes]
    refine .kept h ?_
    rw [Paragraph.isBlank_iff, not_and_or, not_not] at hgoes
    refine hgoes.imp_left fun hsome => ?_
    simpa using hsome

/-- The directives of a paragraph come in the order of their places. -/
theorem Paragraph.pairwise_placed (strict : Bool) (p : Paragraph) :
    (p.placed strict).Pairwise fun a b => a.offset < b.offset := by
  rw [Paragraph.placed, Paragraph.tokens]
  split
  · next tokens htokens =>
    refine (tokenized_of_tokenize htokens).pairwise_start.filterMap _ ?_
    intro a b hlt d hd e he
    obtain ⟨-, -, rfl⟩ := Option.map_eq_some_iff.1 hd
    obtain ⟨-, -, rfl⟩ := Option.map_eq_some_iff.1 he
    exact hlt
  · exact .nil

/-- Leaving out the directives at the places of the first and the last ones leaves those between
them. -/
theorem Paragraph.Reads.filter_placed {p : Paragraph} {front mid back : List Placed}
    (h : p.Reads strict (front ++ mid ++ back)) {tokens : List Token}
    (htokens : tokens.map Token.start = (front ++ back).map Placed.offset) :
    (p.placed strict).filter (fun d => !tokens.any fun t => d.offset == t.start) = mid := by
  have hordered := p.pairwise_placed strict
  rw [h.placed_eq] at hordered ⊢
  obtain ⟨hfront, -, hback⟩ := List.pairwise_append.1 hordered
  replace hfront := (List.pairwise_append.1 hfront).2.2
  have hgone : ∀ d : Placed, (tokens.any fun t => d.offset == t.start) = true ↔
      ∃ e ∈ front ++ back, e.offset = d.offset := by
    intro d
    rw [← List.mem_map, ← htokens, List.mem_map, List.any_eq_true]
    simp only [beq_iff_eq]
    exact exists_congr fun t => and_congr_right fun _ => eq_comm
  have hmid : ∀ d ∈ mid, ¬ ∃ e ∈ front ++ back, e.offset = d.offset := by
    rintro d hd ⟨e, he, heq⟩
    rcases List.mem_append.1 he with he | he
    · exact Nat.ne_of_lt (hfront e he d hd) heq
    · exact Nat.ne_of_gt (hback d (List.mem_append_right _ hd) e he) heq
  rw [List.filter_append, List.filter_append, List.filter_eq_nil_iff.2, List.filter_eq_self.2,
    List.filter_eq_nil_iff.2, List.nil_append, List.append_nil]
  · intro d hd
    simpa using (hgone d).2 ⟨d, List.mem_append_right _ hd, rfl⟩
  · intro d hd
    simpa using mt (hgone d).1 (hmid d hd)
  · intro d hd
    simpa using (hgone d).2 ⟨d, List.mem_append_left _ hd, rfl⟩

section Marked

variable {first last : Paragraph}

theorem Marked.loses_first (h : Marked strict row markers first last) :
    first.Loses strict [markers.opener]
      (first.cut markers.opener.start markers.opener.stop) where
  properties := rfl
  content := by
    rw [h.opener_isIn.fits.runsAtoms_cut 0, cutContent]
    simp
  directives := by
    obtain ⟨ds, hreads, hleft⟩ := h.reads_first
    rw [← List.append_nil (_ :: _), ← List.singleton_append] at hreads
    rw [hreads.filter_placed rfl, hleft.directives, directivesOf_shift, directivesOf_shift]

theorem Marked.loses_last (h : Marked strict row markers first last) :
    last.Loses strict [markers.closer]
      (last.cut markers.closer.start markers.closer.stop) where
  properties := rfl
  content := by
    rw [h.closer_isIn.fits.runsAtoms_cut 0, cutContent]
    simp
  directives := by
    obtain ⟨ds, hreads, hleft⟩ := h.reads_last
    rw [← List.nil_append (ds ++ _), ← List.append_assoc] at hreads
    rw [hreads.filter_placed rfl, hleft.directives]

theorem Marked.loses_only {p : Paragraph} (h : Marked strict row markers p p) :
    p.Loses strict [markers.opener, markers.closer]
      ((p.cut markers.closer.start markers.closer.stop).cut
        markers.opener.start markers.opener.stop) where
  properties := rfl
  content := by
    obtain ⟨ds, horder, -, -⟩ := h.reads_only
    have hcloser := h.closer_isIn.fits
    have hnone : NoneAcross markers.closer.start 0 (atomsText (runsAtoms p.runs)) := by
      rw [← runsText_eq_atomsText]
      exact hcloser.start
    rw [(h.opener_isIn.fits.cut h.closer_isIn horder).runsAtoms_cut 0, hcloser.runsAtoms_cut 0,
      cutContent_cutContent horder 0 hnone]
    simp
  directives := by
    obtain ⟨ds, -, hreads, hleft⟩ := h.reads_only
    rw [← List.singleton_append] at hreads
    rw [hreads.filter_placed rfl, hleft.directives, directivesOf_shift, directivesOf_shift]

/-- Taking the markers out changes nothing but the two paragraphs in which they stand. -/
theorem Marked.cellsLose (h : Marked strict row markers first last) :
    CellsLose strict markers row.cells (row.withoutMarkers markers).cells := by
  have hshape := h.shape
  obtain ⟨properties, cells⟩ := row
  dsimp only at hshape
  cases hshape with
  | single properties' hlast =>
    subst hlast
    rw [Row.withoutMarkers_single]
    exact .single h.loses_only
  | cell properties' mid =>
    rw [Row.withoutMarkers_cell]
    exact .cell (h.loses_last.leaves _) (h.loses_first.leaves _)
  | cells properties' properties'' rest front mid =>
    rw [Row.withoutMarkers_cells]
    exact .cells (h.loses_first.leaves _) (h.loses_last.leaves _)

end Marked

theorem Row.HasMarkers.losesMarkers (hmarkers : row.HasMarkers strict markers)
    (hsplits : ∀ p ∈ cellsParagraphs row.cells, p.Splits strict) :
    row.LosesMarkers strict markers (row.withoutMarkers markers) := by
  have h := rowMarkers?_eq_some_iff.2 hmarkers
  obtain ⟨first, last, hmarked⟩ := marked_of_rowMarkers? h
  exact ⟨rfl, hmarked.cellsLose, (splits_withoutMarkers_iff h).2 hsplits,
    directives_withoutMarkers h⟩

end Markers

/-- For a row whose texts can all be split into tokens: whether it is repeated, and for which list,
is always found out, and taking its markers out loses nothing else. -/
theorem rowMarkers?_exact {strict : Bool} {row : Row Element}
    (h : ∀ p ∈ cellsParagraphs row.cells, p.Splits strict) :
    ∃ result, rowMarkers? strict row = .ok result ∧
      ∀ markers, (result = some markers ↔ row.HasMarkers strict markers) ∧
        (result = some markers →
          row.LosesMarkers strict markers (row.withoutMarkers markers)) := by
  obtain ⟨result, hresult⟩ := exists_rowMarkers? h
  have hiff : ∀ markers, result = some markers ↔ row.HasMarkers strict markers := by
    intro markers
    rw [← rowMarkers?_eq_some_iff, hresult, Except.ok.injEq]
  refine ⟨result, hresult, fun markers => ⟨hiff markers, fun hmarkers => ?_⟩⟩
  exact ((hiff markers).1 hmarkers).losesMarkers h

/-- A row of one cell. The opening marker has a paragraph of its own, the closing one has not. -/
def itemRow : Row Element :=
  { cells := [{ body := [.paragraph (.ofText "\x7b\x7b#each items\x7d\x7d"),
      .paragraph (.ofText "\x7b\x7bname\x7d\x7d \x7b\x7b/each\x7d\x7d")] }] }

/-- The row is repeated for the items, and loses its markers and the paragraph of the opening one. -/
theorem itemRow_exact : ∃ markers, rowMarkers? false itemRow = .ok (some markers) ∧
    (markers.list, itemRow.dropsOpener markers, itemRow.dropsCloser markers) =
      ("items", true, false) ∧
    itemRow.LosesMarkers false markers (itemRow.withoutMarkers markers) := by
  have hok : (cellsParagraphs itemRow.cells).all
      (fun p => (tokenize false (runsText p.runs)).isOk) = true := by decide +kernel
  have hsplits : ∀ p ∈ cellsParagraphs itemRow.cells, p.Splits false := fun p hp =>
    isOk_iff.1 (List.all_eq_true.1 hok p hp)
  have hlist : (rowMarkers? false itemRow).toOption.map (Option.map fun markers =>
      (markers.list, itemRow.dropsOpener markers, itemRow.dropsCloser markers)) =
        some (some ("items", true, false)) := by decide +kernel
  obtain ⟨result, hresult, hexact⟩ := rowMarkers?_exact hsplits
  rw [hresult] at hlist
  obtain ⟨markers, rfl, hitems⟩ := Option.map_eq_some_iff.1 (Option.some.inj hlist)
  exact ⟨markers, hresult, hitems, (hexact markers).2 rfl⟩

end StyledTemplate
