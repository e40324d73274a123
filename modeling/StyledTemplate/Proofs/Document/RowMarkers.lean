import StyledTemplate.Proofs.Document.Paragraphs

/-!
# Repeated rows without their markers

Taking the two markers out of a repeated row changes two of its paragraphs, or one if the row has no
other: the first one loses its first directive, the last one its last, and a paragraph that is left
blank may be dropped. All other directives stay, those behind the opening marker in its paragraph by
the length of the marker further to the front (`withoutMarkers_cases`).
-/

namespace StyledTemplate

open Text (byteLength allBlank)

/-- The text of the paragraph can be split into tokens, and `ds` are the directives among them. -/
def Paragraph.Reads (strict : Bool) (p : Paragraph) (ds : List Placed) : Prop :=
  placedIn? strict (runsText p.runs) = some ds

/-! ## The shape of a row with markers -/

/-- A row whose first and last element are paragraphs. -/
inductive OuterShape (first last : Paragraph) : List (Cell Element) → Prop where
  /-- A row of one cell with one paragraph. -/
  | single (properties : CellProperties) (hlast : last = first) :
      OuterShape first last [⟨properties, [.paragraph first]⟩]
  /-- A row of one cell. -/
  | cell (properties : CellProperties) (mid : List Element) :
      OuterShape first last [⟨properties, .paragraph first :: mid ++ [.paragraph last]⟩]
  /-- A row of several cells. -/
  | cells (properties properties' : CellProperties) (rest front : List Element)
      (mid : List (Cell Element)) :
      OuterShape first last
        (⟨properties, .paragraph first :: rest⟩ :: mid ++
          [⟨properties', front ++ [.paragraph last]⟩])

theorem eq_paragraph_of_paragraph? {element : Element} {p : Paragraph}
    (h : element.paragraph? = some p) : element = .paragraph p := by
  cases element with
  | paragraph q => rw [Option.some.inj h]
  | table t => simp [Element.paragraph?] at h

theorem outerShape_of_outerParagraphs? {row : Row Element} {first last : Paragraph}
    (h : row.outerParagraphs? = some (first, last)) : OuterShape first last row.cells := by
  simp only [Row.outerParagraphs?, Option.bind_eq_bind, Option.bind_eq_some_iff, Option.pure_def,
    Option.some.injEq, Prod.mk.injEq] at h
  obtain ⟨cell, hcell, element, helement, p, hp, cell', hcell', element', helement', q, hq, rfl,
    rfl⟩ := h
  obtain rfl := eq_paragraph_of_paragraph? hp
  obtain rfl := eq_paragraph_of_paragraph? hq
  obtain ⟨cells, hcells⟩ := List.head?_eq_some_iff.1 hcell
  obtain ⟨rest, hrest⟩ := List.head?_eq_some_iff.1 helement
  obtain ⟨front, hfront⟩ := List.getLast?_eq_some_iff.1 helement'
  obtain ⟨properties, body⟩ := cell
  obtain ⟨properties', body'⟩ := cell'
  dsimp only at hrest hfront
  subst hrest hfront
  rw [hcells] at hcell' ⊢
  rcases List.eq_nil_or_concat cells with rfl | ⟨mid, last, rfl⟩
  · obtain ⟨-, hbody⟩ := Cell.mk.inj (Option.some.inj hcell')
    rcases front with _ | ⟨element, mid⟩
    · rw [List.nil_append, List.cons.injEq, Element.paragraph.injEq] at hbody
      obtain ⟨rfl, rfl⟩ := hbody
      exact .single _ rfl
    · rw [List.cons_append, List.cons.injEq] at hbody
      obtain ⟨-, rfl⟩ := hbody
      exact .cell _ _
  · rw [List.concat_eq_append, ← List.cons_append, List.getLast?_append] at hcell'
    obtain rfl : last = _ := by simpa using hcell'
    rw [List.concat_eq_append]
    exact .cells _ _ _ _ _

/-- What is known of a row that is repeated. -/
structure Marked (strict : Bool) (row : Row Element) (markers : RowMarkers)
    (first last : Paragraph) : Prop where
  /-- Its first and its last paragraph. -/
  shape : OuterShape first last row.cells
  /-- The opening marker leads the first one. -/
  opens : ∃ tokens, tokenize strict (runsText first.runs) = .ok tokens ∧
    tokens.find? (!·.isBlank) = some markers.opener
  /-- The closing marker trails the last one. -/
  closes : ∃ tokens, tokenize strict (runsText last.runs) = .ok tokens ∧
    tokens.reverse.find? (!·.isBlank) = some markers.closer
  /-- The opening marker opens a loop over the list. -/
  opener : markers.opener.directive? = some (.eachOpen markers.list)
  /-- The closing marker closes a loop. -/
  closer : markers.closer.directive? = some .eachClose

theorem marked_of_rowMarkers? {strict : Bool} {row : Row Element} {markers : RowMarkers}
    (h : rowMarkers? strict row = .ok (some markers)) :
    ∃ first last, Marked strict row markers first last := by
  unfold rowMarkers? at h
  split at h
  · simp at h
  · next first last houter =>
    obtain ⟨firstTokens, hfirst, h⟩ := exists_of_bind_eq_ok h
    obtain ⟨lastTokens, hlast, h⟩ := exists_of_bind_eq_ok h
    refine ⟨first, last, ?_⟩
    have hshape := outerShape_of_outerParagraphs? houter
    split at h
    · next opener closer hopener hcloser =>
      split at h
      · next list hopenerKind hcloserKind =>
        split at h
        · obtain rfl := Option.some.inj (Except.ok.inj h)
          exact ⟨hshape, ⟨_, hfirst, hopener⟩, ⟨_, hlast, hcloser⟩,
            by simp [Token.directive?, hopenerKind], by simp [Token.directive?, hcloserKind]⟩
        · simp [pure, Except.pure] at h
      · simp [pure, Except.pure] at h
    · simp [pure, Except.pure] at h

/-! ## Taking the markers out -/

/-- A paragraph, unless it is dropped. -/
def unlessDropped (drop : Bool) (p : Paragraph) : List Paragraph := if drop then [] else [p]

/-- The elements in the cells of a row. -/
def Row.elements (row : Row Element) : List Element := row.cells.flatMap Cell.body

/-- Does the paragraph go with a token that is taken out of it? It does if the rest of it is blank and
there are other elements in its cell. -/
def Paragraph.goesWith (t : Token) (others : List Element) (p : Paragraph) : Bool :=
  (p.cut t.start t.stop).isBlank && !others.isEmpty

/-- What is left of a paragraph beside the other elements of its cell, if a token is taken out. -/
def Paragraph.without (t : Token) (others : List Element) (p : Paragraph) : List Element :=
  (unlessDropped (p.goesWith t others) (p.cut t.start t.stop)).map .paragraph

theorem Paragraph.goesWith_iff {t : Token} {others : List Element} {p : Paragraph} :
    p.goesWith t others = true ↔ (p.cut t.start t.stop).isBlank = true ∧ others ≠ [] := by
  simp [goesWith]

theorem Paragraph.without_eq (t : Token) (others : List Element) (p : Paragraph) :
    p.without t others =
      if (p.cut t.start t.stop).isBlank = true ∧ others ≠ [] then []
      else [.paragraph (p.cut t.start t.stop)] := by
  simp only [without, unlessDropped, goesWith_iff]
  split <;> rfl

theorem cutFirst_cons (t : Token) (p : Paragraph) (rest : List Element) :
    cutFirst t (.paragraph p :: rest) = p.without t rest ++ rest := by
  rw [Paragraph.without_eq, cutFirst]
  split <;> rfl

theorem cutLast_concat (t : Token) (front : List Element) (p : Paragraph) :
    cutLast t (front ++ [.paragraph p]) = front ++ p.without t front := by
  induction front with
  | nil => simp [cutLast, Paragraph.without_eq]
  | cons element front ih =>
    cases front with
    | nil =>
      rw [Paragraph.without_eq]
      by_cases h : (p.cut t.start t.stop).isBlank = true <;> simp [cutLast, h]
    | cons next front =>
      have hstep : cutLast t (element :: next :: front ++ [.paragraph p]) =
          element :: cutLast t (next :: front ++ [.paragraph p]) := by
        cases front <;> simp [cutLast]
      rw [hstep, ih, Paragraph.without_eq, Paragraph.without_eq]
      simp

theorem modifyLast_concat {α : Type} (f : α → α) (as : List α) (a : α) :
    modifyLast f (as ++ [a]) = as ++ [f a] := by
  induction as with
  | nil => rfl
  | cons b as ih =>
    cases as with
    | nil => rfl
    | cons c as => exact congrArg (b :: ·) ih

/-- Does the paragraph of the closing marker go with it? -/
def Row.dropsCloser (row : Row Element) (markers : RowMarkers) : Bool :=
  match row.outerParagraphs?, row.cells.getLast? with
  | some (_, last), some cell => last.goesWith markers.closer cell.body.dropLast
  | _, _ => false

/-- Does the paragraph of the opening marker go with it? If the row has one cell, the paragraph of the
closing marker may have gone before. -/
def Row.dropsOpener (row : Row Element) (markers : RowMarkers) : Bool :=
  match row.outerParagraphs?, row.cells with
  | some (first, _), [cell] =>
    first.goesWith markers.opener
      (if row.dropsCloser markers then cell.body.tail.dropLast else cell.body.tail)
  | some (first, _), cell :: _ => first.goesWith markers.opener cell.body.tail
  | _, _ => false

theorem OuterShape.outerParagraphs?_eq {first last : Paragraph} {row : Row Element}
    (h : OuterShape first last row.cells) : row.outerParagraphs? = some (first, last) := by
  obtain ⟨properties, cells⟩ := row
  dsimp only at h
  cases h with
  | single _ hlast =>
    subst hlast
    rfl
  | cell _ mid => simp [Row.outerParagraphs?, Element.paragraph?, List.getLast?_cons]
  | cells _ _ rest front mid => simp [Row.outerParagraphs?, Element.paragraph?, List.getLast?_cons]

section Shapes

variable (markers : RowMarkers) (properties : RowProperties) (properties' : CellProperties)
  (first last : Paragraph)

/-- A row of one paragraph keeps it. -/
theorem Row.withoutMarkers_single :
    Row.withoutMarkers ⟨properties, [⟨properties', [.paragraph first]⟩]⟩ markers =
      ⟨properties, [⟨properties', [.paragraph ((first.cut markers.closer.start
        markers.closer.stop).cut markers.opener.start markers.opener.stop)]⟩]⟩ := by
  simp [withoutMarkers, modifyLast, cutLast, cutFirst]

/-- In a row of one cell, the paragraph of the closing marker goes first. -/
theorem Row.withoutMarkers_cell (mid : List Element) :
    Row.withoutMarkers
        ⟨properties, [⟨properties', .paragraph first :: mid ++ [.paragraph last]⟩]⟩ markers =
      ⟨properties, [⟨properties',
        first.without markers.opener
            (mid ++ last.without markers.closer (.paragraph first :: mid)) ++ mid ++
          last.without markers.closer (.paragraph first :: mid)⟩]⟩ := by
  rw [withoutMarkers]
  simp only [modifyLast, List.modifyHead_cons]
  rw [cutLast_concat, List.cons_append, cutFirst_cons, List.append_assoc]

/-- In a row of several cells, only the first and the last one change. -/
theorem Row.withoutMarkers_cells (properties'' : CellProperties) (rest front : List Element)
    (mid : List (Cell Element)) :
    Row.withoutMarkers ⟨properties, ⟨properties', .paragraph first :: rest⟩ :: mid ++
        [⟨properties'', front ++ [.paragraph last]⟩]⟩ markers =
      ⟨properties, ⟨properties', first.without markers.opener rest ++ rest⟩ :: mid ++
        [⟨properties'', front ++ last.without markers.closer front⟩]⟩ := by
  rw [withoutMarkers]
  dsimp only
  rw [modifyLast_concat, List.cons_append, List.modifyHead_cons, cutFirst_cons, cutLast_concat]
  rfl

end Shapes

/-- The two paragraphs of a row with markers and what is left of them. -/
theorem OuterShape.withoutMarkers {first last : Paragraph} {row : Row Element}
    (h : OuterShape first last row.cells) (markers : RowMarkers) :
    (row.elements = [.paragraph first] ∧ last = first ∧ row.dropsOpener markers = false ∧
      row.dropsCloser markers = false ∧
      (row.withoutMarkers markers).elements =
        [.paragraph ((first.cut markers.closer.start markers.closer.stop).cut
          markers.opener.start markers.opener.stop)]) ∨
    (∃ mid, row.elements = .paragraph first :: mid ++ [.paragraph last] ∧
      (row.dropsOpener markers = true →
        (first.cut markers.opener.start markers.opener.stop).isBlank = true) ∧
      (row.dropsCloser markers = true →
        (last.cut markers.closer.start markers.closer.stop).isBlank = true) ∧
      (row.withoutMarkers markers).elements =
        (unlessDropped (row.dropsOpener markers)
          (first.cut markers.opener.start markers.opener.stop)).map .paragraph ++ mid ++
        (unlessDropped (row.dropsCloser markers)
          (last.cut markers.closer.start markers.closer.stop)).map .paragraph) := by
  have houter := h.outerParagraphs?_eq
  obtain ⟨properties, cells⟩ := row
  dsimp only at h
  cases h with
  | single properties' hlast =>
    subst hlast
    have hcloser : Row.dropsCloser ⟨properties, [⟨properties', [.paragraph last]⟩]⟩ markers =
        false := by
      simp [Row.dropsCloser, houter, Paragraph.goesWith]
    have hopener : Row.dropsOpener ⟨properties, [⟨properties', [.paragraph last]⟩]⟩ markers =
        false := by
      simp [Row.dropsOpener, houter, Paragraph.goesWith]
    refine .inl ⟨rfl, rfl, hopener, hcloser, ?_⟩
    rw [Row.withoutMarkers_single]
    rfl
  | cell properties' mid =>
    have hcloser : Row.dropsCloser
        ⟨properties, [⟨properties', .paragraph first :: mid ++ [.paragraph last]⟩]⟩ markers =
          last.goesWith markers.closer (.paragraph first :: mid) := by
      rw [Row.dropsCloser, houter]
      exact congrArg (last.goesWith markers.closer ·) List.dropLast_concat
    have hopener : Row.dropsOpener
        ⟨properties, [⟨properties', .paragraph first :: mid ++ [.paragraph last]⟩]⟩ markers =
          first.goesWith markers.opener
            (mid ++ last.without markers.closer (.paragraph first :: mid)) := by
      rw [Row.dropsOpener, houter, hcloser, Paragraph.without]
      cases last.goesWith markers.closer (.paragraph first :: mid) with
      | true => simp [unlessDropped]
      | false => cases mid <;> rfl
    refine .inr ⟨mid, by simp [Row.elements], ?_⟩
    rw [hcloser, hopener, Row.withoutMarkers_cell]
    refine ⟨fun h => (Paragraph.goesWith_iff.1 h).1, fun h => (Paragraph.goesWith_iff.1 h).1, ?_⟩
    exact List.flatMap_singleton ..
  | cells properties' properties'' rest front mid =>
    have hcloser : Row.dropsCloser ⟨properties, ⟨properties', .paragraph first :: rest⟩ :: mid ++
        [⟨properties'', front ++ [.paragraph last]⟩]⟩ markers =
          last.goesWith markers.closer front := by
      rw [Row.dropsCloser, houter, List.getLast?_concat]
      simp
    have hopener : Row.dropsOpener ⟨properties, ⟨properties', .paragraph first :: rest⟩ :: mid ++
        [⟨properties'', front ++ [.paragraph last]⟩]⟩ markers =
          first.goesWith markers.opener rest := by
      rw [Row.dropsOpener, houter]
      cases mid <;> rfl
    refine .inr ⟨rest ++ mid.flatMap Cell.body ++ front, by simp [Row.elements], ?_⟩
    rw [hcloser, hopener, Row.withoutMarkers_cells]
    refine ⟨fun h => (Paragraph.goesWith_iff.1 h).1, fun h => (Paragraph.goesWith_iff.1 h).1, ?_⟩
    simp [Row.elements, Paragraph.without]

/-! ## What the directives become -/

/-- The text of a paragraph with nothing but blank text is blank. -/
theorem allBlank_of_isBlank {p : Paragraph} (h : p.isBlank = true) :
    allBlank (runsText p.runs) = true := by
  rw [Paragraph.isBlank] at h
  generalize p.runs = runs at h ⊢
  induction runs with
  | nil => rfl
  | cons run runs ih =>
    rw [List.all_cons, Bool.and_eq_true] at h
    have hrest : allBlank (runsText runs) = true := ih h.2
    rw [runsText_cons]
    cases hs : run.text? with
    | none => simp [hs] at h
    | some s =>
      have hrun : allBlank s.toList = true := by simpa [hs] using h.1
      rw [allBlank] at hrun hrest ⊢
      simp only [Option.map_some, Option.getD_some, List.all_append, hrun, hrest, Bool.and_true]

theorem Paragraph.Reads.nil_of_isBlank {strict : Bool} {p : Paragraph} {ds : List Placed}
    (h : p.Reads strict ds) (hblank : p.isBlank = true) : ds = [] := by
  rw [Paragraph.Reads, placedIn?_of_allBlank strict (allBlank_of_isBlank hblank)] at h
  exact (Option.some.inj h).symm

/-- The first paragraph without the opening marker. -/
theorem Marked.reads_first {strict : Bool} {row : Row Element} {markers : RowMarkers}
    {first last : Paragraph} (h : Marked strict row markers first last) :
    ∃ ds : List Placed,
      first.Reads strict (⟨.eachOpen markers.list, markers.opener.start⟩ ::
        ds.map (Placed.shift markers.opener.stop)) ∧
      (first.cut markers.opener.start markers.opener.stop).Reads strict
        (ds.map (Placed.shift markers.opener.start)) := by
  obtain ⟨tokens, htokens, hfind⟩ := h.opens
  obtain ⟨before, source, after, ds, hstands, hblank, hstart, hstop, hafter, hplaced⟩ :=
    leading_directive htokens hfind h.opener
  refine ⟨ds, hplaced, ?_⟩
  rw [Paragraph.Reads, runsText_cut hstands.text_eq hstart hstop,
    placedIn?_prepend strict (noBraces_of_allBlank hblank), hafter, hstart]
  rfl

/-- The last paragraph without the closing marker. -/
theorem Marked.reads_last {strict : Bool} {row : Row Element} {markers : RowMarkers}
    {first last : Paragraph} (h : Marked strict row markers first last) :
    ∃ ds : List Placed,
      last.Reads strict (ds ++ [⟨.eachClose, markers.closer.start⟩]) ∧
      (last.cut markers.closer.start markers.closer.stop).Reads strict ds := by
  obtain ⟨tokens, htokens, hfind⟩ := h.closes
  obtain ⟨before, source, after, pre, post, hstands, hblank, hstart, hstop, -, hpre, hplaced⟩ :=
    trailing_directive htokens hfind h.closer
  refine ⟨placedOf pre, hplaced, ?_⟩
  rw [Paragraph.Reads, runsText_cut hstands.text_eq hstart hstop,
    placedIn?_append strict (noBraces_of_allBlank hblank)]
  exact placedIn?_of_tokenize hpre

/-- The only paragraph without both markers. -/
theorem Marked.reads_only {strict : Bool} {row : Row Element} {markers : RowMarkers}
    {p : Paragraph} (h : Marked strict row markers p p) :
    ∃ ds : List Placed, markers.opener.stop ≤ markers.closer.start ∧
      p.Reads strict (⟨.eachOpen markers.list, markers.opener.start⟩ ::
        ds.map (Placed.shift markers.opener.stop) ++ [⟨.eachClose, markers.closer.start⟩]) ∧
      ((p.cut markers.closer.start markers.closer.stop).cut markers.opener.start
        markers.opener.stop).Reads strict (ds.map (Placed.shift markers.opener.start)) := by
  obtain ⟨tokens, htokens, hfind⟩ := h.closes
  obtain ⟨before, source, after, pre, post, hstands, hblank, hstart, hstop, rfl, hpre, hplaced⟩ :=
    trailing_directive htokens hfind h.closer
  have hcloser : markers.closer.isBlank = false := by
    simpa using List.find?_some hfind
  -- the opening marker is among the tokens before the closing one
  have hopener : pre.find? (!·.isBlank) = some markers.opener := by
    obtain ⟨tokens', htokens', hfind'⟩ := h.opens
    obtain rfl := Except.ok.inj (htokens.symm.trans htokens')
    rw [List.find?_append] at hfind'
    cases hpre' : pre.find? (!·.isBlank) with
    | some t => simpa [hpre'] using hfind'
    | none =>
      have heq : markers.closer = markers.opener := by simpa [hpre', hcloser] using hfind'
      have hsame := h.closer
      rw [heq, h.opener] at hsame
      simp at hsame
  obtain ⟨before', source', after', ds, hstands', hblank', hstart', hstop', hafter', hplaced'⟩ :=
    leading_directive hpre hopener h.opener
  refine ⟨ds, ?_, ?_, ?_⟩
  · rw [hstop', hstart', hstart, hstands'.text_eq, Text.byteLength_append, Text.byteLength_append]
    exact Nat.le_add_right _ _
  · rw [placedIn?_of_tokenize hpre] at hplaced'
    rw [Paragraph.Reads, hplaced, Option.some.inj hplaced']
  · have htext : runsText (p.cut markers.closer.start markers.closer.stop).runs =
        before' ++ source' ++ (after' ++ after) := by
      rw [runsText_cut hstands.text_eq hstart hstop, hstands'.text_eq]
      simp
    rw [Paragraph.Reads, runsText_cut htext hstart' hstop',
      placedIn?_prepend strict (noBraces_of_allBlank hblank'),
      placedIn?_append strict (noBraces_of_allBlank hblank), hafter', hstart']
    rfl

/-- The elements of a repeated row with and without the markers, and the directives in those two
that the markers stand in. -/
inductive Unmarked (strict : Bool) (row : Row Element) (markers : RowMarkers) : Prop where
  /-- The row has one paragraph. -/
  | together {p left : Paragraph} {ds : List Placed}
      (source : row.elements = [.paragraph p])
      (rest : (row.withoutMarkers markers).elements = [.paragraph left])
      (dropsOpener : row.dropsOpener markers = false)
      (dropsCloser : row.dropsCloser markers = false)
      (order : markers.opener.stop ≤ markers.closer.start)
      (reads : p.Reads strict (⟨.eachOpen markers.list, markers.opener.start⟩ ::
        ds.map (Placed.shift markers.opener.stop) ++ [⟨.eachClose, markers.closer.start⟩]))
      (leaves : left.Reads strict (ds.map (Placed.shift markers.opener.start)))
  /-- The markers stand in different paragraphs. -/
  | apart {first last first' last' : Paragraph} {mid : List Element} {ds es : List Placed}
      (source : row.elements = .paragraph first :: mid ++ [.paragraph last])
      (rest : (row.withoutMarkers markers).elements =
        (unlessDropped (row.dropsOpener markers) first').map .paragraph ++ mid ++
          (unlessDropped (row.dropsCloser markers) last').map .paragraph)
      (readsFirst : first.Reads strict (⟨.eachOpen markers.list, markers.opener.start⟩ ::
        ds.map (Placed.shift markers.opener.stop)))
      (leavesFirst : first'.Reads strict (ds.map (Placed.shift markers.opener.start)))
      (dropsFirst : row.dropsOpener markers = true → ds = [])
      (readsLast : last.Reads strict (es ++ [⟨.eachClose, markers.closer.start⟩]))
      (leavesLast : last'.Reads strict es)
      (dropsLast : row.dropsCloser markers = true → es = [])

/-- Taking the markers out of a repeated row has the effect that `Unmarked` describes. -/
theorem unmarked_of_rowMarkers? {strict : Bool} {row : Row Element} {markers : RowMarkers}
    (h : rowMarkers? strict row = .ok (some markers)) : Unmarked strict row markers := by
  obtain ⟨first, last, hmarked⟩ := marked_of_rowMarkers? h
  rcases hmarked.shape.withoutMarkers markers with ⟨hsource, rfl, hopener, hcloser, hrest⟩ |
    ⟨mid, hsource, hopener, hcloser, hrest⟩
  · obtain ⟨ds, horder, hreads, hleaves⟩ := hmarked.reads_only
    exact .together hsource hrest hopener hcloser horder hreads hleaves
  · obtain ⟨ds, hfirst, hfirst'⟩ := hmarked.reads_first
    obtain ⟨es, hlast, hlast'⟩ := hmarked.reads_last
    refine .apart hsource hrest hfirst hfirst' (fun hdrop => ?_) hlast hlast' (fun hdrop => ?_)
    · exact List.map_eq_nil_iff.1 (hfirst'.nil_of_isBlank (hopener hdrop))
    · exact hlast'.nil_of_isBlank (hcloser hdrop)

end StyledTemplate
