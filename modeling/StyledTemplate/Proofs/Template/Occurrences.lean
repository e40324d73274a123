import StyledTemplate.Proofs.Template.Fits

/-!
# The directives of a document and their places

`Document.occurrences` lists the directives of a document in document order, each with its exact
place and with what the parser takes out before it: the parser reads a repeated row without its
markers, so that a paragraph which the markers take with them is not counted, and the bytes of an
opening marker are missing from the text behind it. `itemsMarks_outline` says that the outline of a
document has exactly these directives, at the places that are left after that.
-/

namespace StyledTemplate

open Text (byteLength)

/-! ## Occurrences -/

/-- A directive of a document. -/
structure Occurrence where
  /-- The directive. -/
  directive : Directive
  /-- Where it stands: the number of its paragraph in the document and its offset there. -/
  position : Position
  /-- The number of paragraphs before its own that go with the markers of repeated rows. -/
  dropped : Nat
  /-- The number of bytes that are taken out before it in its paragraph. For the opening marker of a
  repeated row these are all, as the place of the row is the start of its first paragraph. -/
  cut : Nat
  /-- Is the directive a marker of a repeated row? -/
  ofRow : Bool := false
  deriving Repr, DecidableEq

namespace Occurrence

/-- The place that the parser gives to the directive. -/
def reported (o : Occurrence) : Position where
  paragraph := o.position.paragraph - o.dropped
  offset := o.position.offset - o.cut

/-- The directive in the paragraph of a given number, where `dropped` paragraphs before it go with
markers. -/
def inParagraph (number dropped : Nat) (o : Occurrence) : Occurrence :=
  { o with position := { o.position with paragraph := number }, dropped }

/-- The mark of the directive, at the place that the parser gives to it. -/
def mark (o : Occurrence) : Mark where
  directive := o.directive
  position := if o.directive.keepsPlace then some o.reported else none
  ofRow := o.ofRow

end Occurrence

/-- A directive of a paragraph as an occurrence before which `cut` bytes are taken out. -/
def Placed.occurrence (cut : Nat) (d : Placed) : Occurrence where
  directive := d.directive
  position := { paragraph := 0, offset := d.offset }
  dropped := 0
  cut := cut

/-! ## Lines -/

/-- A paragraph of a document, and what the markers of repeated rows do to it. -/
structure Line where
  /-- The paragraph. -/
  paragraph : Paragraph
  /-- The marker that opens a repeated row in it. -/
  opener : Option Token := none
  /-- Is a repeated row closed in it? -/
  closes : Bool := false
  /-- Does it go with a marker? -/
  dropped : Bool := false

namespace Line

/-- The number of paragraphs that the parser reads of it. -/
def count (line : Line) : Nat := if line.dropped then 0 else 1

/-- The number of bytes that are taken out before the directives behind an opening marker. -/
def cut (line : Line) : Nat :=
  match line.opener with
  | some token => token.stop - token.start
  | none => 0

/-- The directives of a line. -/
def occurrences (strict : Bool) (line : Line) : List Occurrence :=
  let found := (line.paragraph.placed strict).map (Placed.occurrence line.cut)
  let found :=
    if line.opener.isSome then
      found.modifyHead fun o => { o with cut := o.position.offset, ofRow := true }
    else found
  if line.closes then modifyLast (fun o => { o with ofRow := true }) found else found

end Line

/-- The lines of a row, from those of its cells. -/
def Row.markLines (strict : Bool) (row : Row Element) (lines : List Line) : List Line :=
  match rowMarkers? strict row with
  | .ok (some markers) =>
    (modifyLast (fun line =>
        { line with closes := true, dropped := row.dropsCloser markers }) lines)
      |>.modifyHead fun line =>
        { line with
          opener := some markers.opener, dropped := line.dropped || row.dropsOpener markers }
  | _ => lines

/-- The lines of a row that is not repeated are those of its cells. -/
theorem markLines_of_not_repeated {strict : Bool} {row : Row Element}
    (h : ∀ markers, rowMarkers? strict row ≠ .ok (some markers)) (lines : List Line) :
    row.markLines strict lines = lines := by
  rw [Row.markLines]
  split
  · next markers hmarkers => exact absurd hmarkers (h markers)
  · rfl

mutual

/-- The lines of an element. -/
def Element.lines (strict : Bool) : Element → List Line
  | .paragraph p => [{ paragraph := p }]
  | .table t => rowsLines strict t.rows

/-- The lines of the rows of a table. -/
def rowsLines (strict : Bool) : List (Row Element) → List Line
  | [] => []
  | ⟨properties, cells⟩ :: rows =>
    Row.markLines strict ⟨properties, cells⟩ (cellsLines strict cells) ++ rowsLines strict rows

/-- The lines of the cells of a row. -/
def cellsLines (strict : Bool) : List (Cell Element) → List Line
  | [] => []
  | ⟨_, body⟩ :: cells => bodyLines strict body ++ cellsLines strict cells

/-- The lines of a body. -/
def bodyLines (strict : Bool) : List Element → List Line
  | [] => []
  | element :: rest => element.lines strict ++ bodyLines strict rest

end

/-- The directives of some lines, where `number` paragraphs stand before them and `dropped` of these
go with markers. -/
def occurrencesFrom (strict : Bool) (number dropped : Nat) : List Line → List Occurrence
  | [] => []
  | line :: lines =>
    (line.occurrences strict).map (Occurrence.inParagraph number dropped) ++
      occurrencesFrom strict (number + 1) (dropped + (1 - line.count)) lines

/-- The directives of a document, in document order. -/
def Document.occurrences (strict : Bool) (d : Document) : List Occurrence :=
  occurrencesFrom strict 0 0 (bodyLines strict d.body)

@[simp] theorem bodyLines_nil (strict : Bool) : bodyLines strict [] = [] := by rw [bodyLines]

@[simp] theorem bodyLines_cons (strict : Bool) (element : Element) (rest : List Element) :
    bodyLines strict (element :: rest) = element.lines strict ++ bodyLines strict rest := by
  rw [bodyLines]

@[simp] theorem lines_paragraph (strict : Bool) (p : Paragraph) :
    (Element.paragraph p).lines strict = [{ paragraph := p }] := by rw [Element.lines]

@[simp] theorem lines_table (strict : Bool) (t : Table (Row Element)) :
    (Element.table t).lines strict = rowsLines strict t.rows := by rw [Element.lines]

@[simp] theorem bodyLines_append (strict : Bool) (as bs : List Element) :
    bodyLines strict (as ++ bs) = bodyLines strict as ++ bodyLines strict bs := by
  induction as with
  | nil => simp
  | cons a as ih => simp [ih]

@[simp] theorem rowsLines_nil (strict : Bool) : rowsLines strict [] = [] := by rw [rowsLines]

@[simp] theorem rowsLines_cons (strict : Bool) (row : Row Element) (rows : List (Row Element)) :
    rowsLines strict (row :: rows) =
      row.markLines strict (cellsLines strict row.cells) ++ rowsLines strict rows := by
  rw [rowsLines]

@[simp] theorem cellsLines_nil (strict : Bool) : cellsLines strict [] = [] := by rw [cellsLines]

@[simp] theorem cellsLines_cons (strict : Bool) (cell : Cell Element)
    (cells : List (Cell Element)) :
    cellsLines strict (cell :: cells) =
      bodyLines strict cell.body ++ cellsLines strict cells := by rw [cellsLines]

/-- The lines of cells are those of the elements in them. -/
theorem cellsLines_eq (strict : Bool) (cells : List (Cell Element)) :
    cellsLines strict cells = bodyLines strict (cells.flatMap Cell.body) := by
  induction cells with
  | nil => simp
  | cons cell cells ih => simp [ih]

/-! ## Marks of lines -/

/-- The marks of some lines, the first of which has a given number. -/
def lineMarks (strict : Bool) (n : Nat) (lines : List Line) : List Mark :=
  (occurrencesFrom strict n 0 lines).map Occurrence.mark

/-- The number of paragraphs that the parser reads of some lines. -/
def keptCount : List Line → Nat
  | [] => 0
  | line :: lines => line.count + keptCount lines

@[simp] theorem keptCount_nil : keptCount [] = 0 := rfl

@[simp] theorem keptCount_cons (line : Line) (lines : List Line) :
    keptCount (line :: lines) = line.count + keptCount lines := rfl

@[simp] theorem keptCount_append (as bs : List Line) :
    keptCount (as ++ bs) = keptCount as + keptCount bs := by
  induction as with
  | nil => simp
  | cons line as ih => simp [ih, Nat.add_assoc]

/-- Paragraphs that are not counted make no difference to the marks behind them. -/
theorem mark_occurrencesFrom_add (strict : Bool) (n m k : Nat) (lines : List Line) :
    (occurrencesFrom strict (n + k) (m + k) lines).map Occurrence.mark =
      (occurrencesFrom strict n m lines).map Occurrence.mark := by
  induction lines generalizing n m with
  | nil => rfl
  | cons line lines ih =>
    have hline : ∀ o : Occurrence,
        (o.inParagraph (n + k) (m + k)).mark = (o.inParagraph n m).mark := by
      intro o
      simp only [Occurrence.mark, Occurrence.inParagraph, Occurrence.reported,
        Nat.add_sub_add_right]
      rfl
    have hrest := ih (n + 1) (m + (1 - line.count))
    rw [occurrencesFrom, occurrencesFrom, List.map_append, List.map_append, List.map_map,
      List.map_map, ← hrest, Nat.add_right_comm n, Nat.add_right_comm m]
    congr 1
    exact List.map_congr_left fun o _ => hline o

@[simp] theorem lineMarks_nil (strict : Bool) (n : Nat) : lineMarks strict n [] = [] := rfl

theorem lineMarks_cons (strict : Bool) (n : Nat) (line : Line) (lines : List Line) :
    lineMarks strict n (line :: lines) =
      (line.occurrences strict).map (fun o => (o.inParagraph n 0).mark) ++
        lineMarks strict (n + line.count) lines := by
  rw [lineMarks, occurrencesFrom, List.map_append, List.map_map, lineMarks]
  congr 1
  by_cases hdropped : line.dropped
  · have := mark_occurrencesFrom_add strict n 0 1 lines
    simpa [Line.count, hdropped] using this
  · simp [Line.count, hdropped]

theorem lineMarks_append (strict : Bool) (n : Nat) (as bs : List Line) :
    lineMarks strict n (as ++ bs) =
      lineMarks strict n as ++ lineMarks strict (n + keptCount as) bs := by
  induction as generalizing n with
  | nil => simp
  | cons line as ih =>
    rw [List.cons_append, lineMarks_cons, lineMarks_cons, ih, keptCount_cons, List.append_assoc,
      Nat.add_assoc]

/-! ## Marks of one line -/

theorem Paragraph.Reads.placed_eq {strict : Bool} {p : Paragraph} {ds : List Placed}
    (h : p.Reads strict ds) : p.placed strict = ds := by
  obtain ⟨tokens, htokens⟩ := h.splits
  rw [Paragraph.Reads, placedIn?_of_tokenize htokens] at h
  rw [Paragraph.placed, Paragraph.tokens, htokens]
  exact Option.some.inj h

/-- The marks of a paragraph that no marker stands in. -/
theorem lineMarks_plain (strict : Bool) (n : Nat) (p : Paragraph) :
    lineMarks strict n [{ paragraph := p }] = (p.placed strict).map (Placed.mark n) := by
  simp only [lineMarks, occurrencesFrom, Line.occurrences, Line.cut, List.append_nil, List.map_map,
    Option.isSome_none, Bool.false_eq_true, if_false]
  rfl

/-- The marker of a repeated row that opens it. -/
def rowOpen (n : Nat) (list : String) : Mark :=
  { directive := .eachOpen list, position := some { paragraph := n }, ofRow := true }

/-- The marker of a repeated row that closes it. -/
def rowClose : Mark := { directive := .eachClose, ofRow := true }

section Markers

variable {strict : Bool} {p : Paragraph} {list : String} {opener : Token} {ds es : List Placed}
  {start : Nat}

/-- Taking the opening marker out moves the directives behind it as the line says. -/
theorem lineMarks_opener (hle : opener.start ≤ opener.stop)
    (hreads : p.Reads strict (⟨.eachOpen list, opener.start⟩ :: ds.map (Placed.shift opener.stop)))
    (n : Nat) (dropped : Bool) :
    lineMarks strict n [{ paragraph := p, opener := some opener, dropped }] =
      rowOpen n list :: (ds.map (Placed.shift opener.start)).map (Placed.mark n) := by
  have hsub : ∀ k, opener.stop + k - (opener.stop - opener.start) = opener.start + k := by omega
  simp [lineMarks, occurrencesFrom, Line.occurrences, Line.cut, Placed.occurrence, hreads.placed_eq,
    Occurrence.mark, Placed.mark, Placed.shift, Occurrence.reported, Occurrence.inParagraph,
    Directive.mark, rowOpen, Directive.keepsPlace, Directive.isOpener, hsub]

theorem lineMarks_closer (hreads : p.Reads strict (es ++ [⟨.eachClose, start⟩])) (n : Nat)
    (dropped : Bool) :
    lineMarks strict n [{ paragraph := p, closes := true, dropped }] =
      es.map (Placed.mark n) ++ [rowClose] := by
  simp [lineMarks, occurrencesFrom, Line.occurrences, Line.cut, Placed.occurrence, hreads.placed_eq,
    modifyLast_concat, Occurrence.mark, Placed.mark, Occurrence.reported, Occurrence.inParagraph,
    Directive.mark, rowClose, Directive.keepsPlace, Directive.isOpener, Directive.isLeaf]

theorem lineMarks_both (hle : opener.start ≤ opener.stop)
    (hreads : p.Reads strict (⟨.eachOpen list, opener.start⟩ :: ds.map (Placed.shift opener.stop) ++
      [⟨.eachClose, start⟩])) (n : Nat) :
    lineMarks strict n [{ paragraph := p, opener := some opener, closes := true }] =
      rowOpen n list :: (ds.map (Placed.shift opener.start)).map (Placed.mark n) ++ [rowClose] := by
  have hsub : ∀ k, opener.stop + k - (opener.stop - opener.start) = opener.start + k := by omega
  have hlast := fun f : Occurrence → Occurrence => fun a : Occurrence => fun as b =>
    modifyLast_concat f (a :: as) b
  simp only [List.cons_append] at hlast
  simp [lineMarks, occurrencesFrom, Line.occurrences, Line.cut, Placed.occurrence, hreads.placed_eq,
    hlast, Occurrence.mark, Placed.mark, Placed.shift, Occurrence.reported, Occurrence.inParagraph,
    Directive.mark, rowOpen, rowClose, Directive.keepsPlace, Directive.isOpener, Directive.isLeaf,
    hsub]

end Markers

/-! ## The outline has the marks of the lines -/

/-- A paragraph that stands for a directive has no other. -/
theorem placedOf_of_standalone? {map : RunMap} {tokens : List Token} {token : Token}
    {d : Directive} (h : standalone? map tokens = some (token, d)) :
    placedOf tokens = [⟨d, token.start⟩] := by
  unfold standalone? at h
  split at h
  · split at h
    · next only hfilter =>
      obtain ⟨d', hd', h⟩ := Option.bind_eq_some_iff.1 h
      split at h
      · obtain ⟨rfl, rfl⟩ := Prod.mk.inj (Option.some.inj h)
        have hall : placedOf (tokens.filter (!·.isBlank)) = placedOf tokens := by
          rw [placedOf, placedOf, List.filterMap_filter]
          congr 1
          funext t
          cases hblank : t.isBlank with
          | true => simp [placed?_of_isBlank hblank]
          | false => simp
        rw [← hall, hfilter]
        simp [placedOf, Token.placed?, hd']
      · cases h
    · cases h
  · cases h

theorem marks_item (strict : Bool) (n : Nat) (p : Paragraph) :
    (p.item strict).marks n = (p.placed strict).map (Placed.mark n) := by
  rw [Paragraph.item]
  split
  · next token d hstandalone =>
    rw [Item.marks, Paragraph.placed, placedOf_of_standalone? hstandalone]
    rfl
  · rw [Item.marks]

theorem start_le_stop_opener {strict : Bool} {row : Row Element} {markers : RowMarkers}
    (h : rowMarkers? strict row = .ok (some markers)) :
    markers.opener.start ≤ markers.opener.stop := by
  obtain ⟨first, last, hmarked⟩ := marked_of_rowMarkers? h
  obtain ⟨tokens, htokens, hfind⟩ := hmarked.opens
  obtain ⟨before, source, after, ds, -, -, -, hstop, -⟩ :=
    leading_directive htokens hfind hmarked.opener
  rw [hstop]
  exact Nat.le_add_right _ _

theorem lineMarks_unlessDropped {strict drop : Bool} {p : Paragraph}
    (h : drop = true → p.placed strict = []) (n : Nat) :
    lineMarks strict n (bodyLines strict ((unlessDropped drop p).map .paragraph)) =
      (p.placed strict).map (Placed.mark n) := by
  cases drop with
  | true => simp [unlessDropped, h rfl]
  | false =>
    rw [← lineMarks_plain]
    simp [unlessDropped]

theorem keptCount_unlessDropped (strict drop : Bool) (p : Paragraph) :
    keptCount (bodyLines strict ((unlessDropped drop p).map .paragraph)) =
      if drop then 0 else 1 := by
  cases drop <;> simp [unlessDropped, Line.count]

section Repeated

variable {strict : Bool} {row : Row Element} {markers : RowMarkers}

/-- The line of a repeated row with one paragraph. -/
theorem markLines_together (h : rowMarkers? strict row = .ok (some markers)) {p : Paragraph}
    (hsource : row.elements = [.paragraph p]) (hopener : row.dropsOpener markers = false)
    (hcloser : row.dropsCloser markers = false) :
    row.markLines strict (cellsLines strict row.cells) =
      [{ paragraph := p, opener := some markers.opener, closes := true }] := by
  rw [Row.markLines, h, cellsLines_eq, ← Row.elements, hsource]
  simp [modifyLast, hopener, hcloser]

/-- The lines of a repeated row whose markers stand in different paragraphs. -/
theorem markLines_apart (h : rowMarkers? strict row = .ok (some markers))
    {first last : Paragraph} {mid : List Element}
    (hsource : row.elements = .paragraph first :: mid ++ [.paragraph last]) :
    row.markLines strict (cellsLines strict row.cells) =
      { paragraph := first, opener := some markers.opener, dropped := row.dropsOpener markers } ::
        bodyLines strict mid ++
        [{ paragraph := last, closes := true, dropped := row.dropsCloser markers }] := by
  have hlines : bodyLines strict (.paragraph first :: mid ++ [.paragraph last]) =
      { paragraph := first } :: bodyLines strict mid ++ [{ paragraph := last }] := by simp
  rw [Row.markLines, h, cellsLines_eq, ← Row.elements, hsource, hlines]
  dsimp only
  rw [modifyLast_concat]
  simp

/-- The lines of a repeated row have the marks of the row without its markers, and the markers
around them. -/
theorem lineMarks_repeated (h : rowMarkers? strict row = .ok (some markers)) (n : Nat) :
    lineMarks strict n (row.markLines strict (cellsLines strict row.cells)) =
      rowOpen n markers.list :: lineMarks strict n
        (cellsLines strict (row.withoutMarkers markers).cells) ++ [rowClose] ∧
    keptCount (row.markLines strict (cellsLines strict row.cells)) =
      keptCount (cellsLines strict (row.withoutMarkers markers).cells) := by
  have hle := start_le_stop_opener h
  rw [cellsLines_eq strict (row.withoutMarkers markers).cells, ← Row.elements]
  cases unmarked_of_rowMarkers? h with
  | together hsource hrest hopener hcloser _ hreads hleaves =>
    rw [markLines_together h hsource hopener hcloser, hrest, bodyLines_cons, bodyLines_nil,
      lines_paragraph, List.append_nil]
    refine ⟨?_, rfl⟩
    rw [lineMarks_both hle hreads, lineMarks_plain, hleaves.placed_eq]
  | @apart first last first' last' mid ds es hsource hrest hfirst hfirst' hdropFirst hlast hlast'
      hdropLast =>
    have hplacedFirst : row.dropsOpener markers = true → first'.placed strict = [] := by
      intro hdrop
      rw [hfirst'.placed_eq, hdropFirst hdrop, List.map_nil]
    have hplacedLast : row.dropsCloser markers = true → last'.placed strict = [] := by
      intro hdrop
      rw [hlast'.placed_eq, hdropLast hdrop]
    rw [markLines_apart h hsource, hrest]
    constructor
    · have hcons := lineMarks_append strict n
        [{ paragraph := first, opener := some markers.opener, dropped := row.dropsOpener markers }]
        (bodyLines strict mid ++
          [{ paragraph := last, closes := true, dropped := row.dropsCloser markers }])
      rw [List.singleton_append] at hcons
      rw [List.cons_append, hcons, lineMarks_append, lineMarks_opener hle hfirst,
        lineMarks_closer hlast, bodyLines_append, bodyLines_append, lineMarks_append,
        lineMarks_append, keptCount_append, lineMarks_unlessDropped hplacedFirst,
        lineMarks_unlessDropped hplacedLast, keptCount_unlessDropped, hfirst'.placed_eq,
        hlast'.placed_eq]
      simp [Line.count, Nat.add_assoc]
    · simp [Line.count, keptCount_unlessDropped]

end Repeated

/-- The outline of a body has the marks of its lines. -/
def OutlineMarks (strict : Bool) (body : List Element) : Prop :=
  (∀ p ∈ bodyParagraphs body, p.Splits strict) →
    (∀ n, itemsMarks n (outline strict body) = lineMarks strict n (bodyLines strict body)) ∧
    itemsCount (outline strict body) = keptCount (bodyLines strict body)

/-- The outline of some rows has the marks of their lines. -/
def OutlineRowsMarks (strict : Bool) (rows : List (Row Element)) : Prop :=
  (∀ p ∈ rowsParagraphs rows, p.Splits strict) →
    (∀ n, rowsMarks n (outlineRows strict rows) = lineMarks strict n (rowsLines strict rows)) ∧
    rowsCount (outlineRows strict rows) = keptCount (rowsLines strict rows)

/-- The outline of some cells has the marks of their lines. -/
def OutlineCellsMarks (strict : Bool) (cells : List (Cell Element)) : Prop :=
  (∀ p ∈ cellsParagraphs cells, p.Splits strict) →
    (∀ n, cellsMarks n (outlineCells strict cells) = lineMarks strict n (cellsLines strict cells)) ∧
    cellsCount (outlineCells strict cells) = keptCount (cellsLines strict cells)

section OutlineMarks

variable {strict : Bool}

theorem outlineMarks_paragraph {p : Paragraph} {rest : List Element}
    (ih : OutlineMarks strict rest) : OutlineMarks strict (.paragraph p :: rest) := by
  intro hsplits
  rw [bodyParagraphs_cons, List.forall_mem_append] at hsplits
  obtain ⟨hmarks, hcount⟩ := ih hsplits.2
  constructor
  · intro n
    rw [outline_paragraph, bodyLines_cons, itemsMarks, lineMarks_append, hmarks, marks_item,
      lines_paragraph, lineMarks_plain, Paragraph.count_item]
    rfl
  · rw [outline_paragraph, bodyLines_cons, itemsCount, keptCount_append, hcount,
      Paragraph.count_item, lines_paragraph]
    rfl

theorem outlineMarks_table {t : Table (Row Element)} {rest : List Element}
    (ihRows : OutlineRowsMarks strict t.rows) (ih : OutlineMarks strict rest) :
    OutlineMarks strict (.table t :: rest) := by
  intro hsplits
  rw [bodyParagraphs_cons, paragraphs_table, List.forall_mem_append] at hsplits
  obtain ⟨hmarksRows, hcountRows⟩ := ihRows hsplits.1
  obtain ⟨hmarks, hcount⟩ := ih hsplits.2
  constructor
  · intro n
    rw [outline_table, bodyLines_cons, itemsMarks, lineMarks_append, hmarks, Item.marks, Item.count,
      hmarksRows, hcountRows, lines_table]
  · rw [outline_table, bodyLines_cons, itemsCount, keptCount_append, hcount, Item.count, hcountRows,
      lines_table]

theorem outlineRowsMarks_repeated {row : Row Element} {rows : List (Row Element)}
    {markers : RowMarkers} (h : rowMarkers? strict row = .ok (some markers))
    (ihCells : OutlineCellsMarks strict (row.withoutMarkers markers).cells)
    (ihRows : OutlineRowsMarks strict rows) : OutlineRowsMarks strict (row :: rows) := by
  intro hsplits
  rw [rowsParagraphs_cons, List.forall_mem_append] at hsplits
  obtain ⟨hmarksRows, hcountRows⟩ := ihRows hsplits.2
  obtain ⟨hmarks, hcount⟩ := ihCells ((splits_withoutMarkers_iff h).2 hsplits.1)
  rw [outlineRows_repeated h, rowsLines_cons]
  constructor
  · intro n
    obtain ⟨hmarksRow, hcountRow⟩ := lineMarks_repeated h n
    rw [rowsMarks, lineMarks_append, hmarks, hmarksRows, hcount, hmarksRow, hcountRow]
    simp [rowOpen, rowClose]
  · rw [rowsCount, keptCount_append, hcount, hcountRows, (lineMarks_repeated h 0).2]

theorem outlineRowsMarks_once {row : Row Element} {rows : List (Row Element)}
    (h : ∀ markers, rowMarkers? strict row ≠ .ok (some markers))
    (ihCells : OutlineCellsMarks strict row.cells)
    (ihRows : OutlineRowsMarks strict rows) : OutlineRowsMarks strict (row :: rows) := by
  intro hsplits
  rw [rowsParagraphs_cons, List.forall_mem_append] at hsplits
  obtain ⟨hmarksRows, hcountRows⟩ := ihRows hsplits.2
  obtain ⟨hmarks, hcount⟩ := ihCells hsplits.1
  obtain ⟨_ | markers, hmarkers⟩ := exists_rowMarkers? hsplits.1
  · rw [outlineRows_once hmarkers, rowsLines_cons, markLines_of_not_repeated h]
    constructor
    · intro n
      rw [rowsMarks, lineMarks_append, hmarks, hmarksRows, hcount]
    · rw [rowsCount, keptCount_append, hcount, hcountRows]
  · exact absurd hmarkers (h markers)

theorem outlineCellsMarks_cons {cell : Cell Element} {cells : List (Cell Element)}
    (ihBody : OutlineMarks strict cell.body) (ihCells : OutlineCellsMarks strict cells) :
    OutlineCellsMarks strict (cell :: cells) := by
  intro hsplits
  rw [cellsParagraphs_cons, List.forall_mem_append] at hsplits
  obtain ⟨hmarks, hcount⟩ := ihBody hsplits.1
  obtain ⟨hmarksCells, hcountCells⟩ := ihCells hsplits.2
  constructor
  · intro n
    rw [outlineCells_cons, cellsLines_cons, cellsMarks, lineMarks_append, hmarks, hmarksCells,
      hcount]
  · rw [outlineCells_cons, cellsLines_cons, cellsCount, keptCount_append, hcount, hcountCells]

/-- The outline of what can be read has the marks of its lines. -/
theorem outlinesMarks (strict : Bool) :
    (∀ body, OutlineMarks strict body) ∧ (∀ rows, OutlineRowsMarks strict rows) ∧
      ∀ cells, OutlineCellsMarks strict cells :=
  outline.mutual_induct strict (OutlineMarks strict) (OutlineRowsMarks strict)
    (OutlineCellsMarks strict)
    (fun _ => ⟨fun _ => by rw [outline_nil, itemsMarks]; rfl, by rw [outline_nil, itemsCount]; rfl⟩)
    (fun _ _ => outlineMarks_paragraph) (fun _ _ => outlineMarks_table)
    (fun _ => ⟨fun _ => by rw [outlineRows_nil, rowsMarks, rowsLines_nil, lineMarks_nil],
      by rw [outlineRows_nil, rowsCount, rowsLines_nil, keptCount_nil]⟩)
    (fun _ _ _ => outlineRowsMarks_repeated) (fun _ _ => outlineRowsMarks_once)
    (fun _ => ⟨fun _ => by rw [outlineCells_nil, cellsMarks, cellsLines_nil, lineMarks_nil],
      by rw [outlineCells_nil, cellsCount, cellsLines_nil, keptCount_nil]⟩)
    (fun _ _ => outlineCellsMarks_cons)

theorem outlineMarks (strict : Bool) (body : List Element) : OutlineMarks strict body :=
  (outlinesMarks strict).1 body

end OutlineMarks

/-! ## Occurrences are the directives of the document -/

theorem map_modifyLast {α β : Type} {f : α → α} {g : α → β} (h : ∀ a, g (f a) = g a)
    (as : List α) : (modifyLast f as).map g = as.map g := by
  rcases List.eq_nil_or_concat as with rfl | ⟨front, last, rfl⟩
  · rfl
  · rw [List.concat_eq_append, modifyLast_concat]
    simp [h]

theorem map_modifyHead {α β : Type} {f : α → α} {g : α → β} (h : ∀ a, g (f a) = g a)
    (as : List α) : (as.modifyHead f).map g = as.map g := by
  cases as with
  | nil => rfl
  | cons a as => simp [h]

theorem map_markLines {strict : Bool} (row : Row Element) (lines : List Line) :
    (row.markLines strict lines).map Line.paragraph = lines.map Line.paragraph := by
  rw [Row.markLines]
  split
  · refine (map_modifyHead ?_ _).trans (map_modifyLast ?_ _)
    · exact fun _ => rfl
    · exact fun _ => rfl
  · rfl

/-- The lines of a body are its paragraphs. -/
theorem map_bodyLines (strict : Bool) (body : List Element) :
    (bodyLines strict body).map Line.paragraph = bodyParagraphs body :=
  (Element.lines.mutual_induct
    (fun element => (element.lines strict).map Line.paragraph = element.paragraphs)
    (fun rows => (rowsLines strict rows).map Line.paragraph = rowsParagraphs rows)
    (fun cells => (cellsLines strict cells).map Line.paragraph = cellsParagraphs cells)
    (fun body => (bodyLines strict body).map Line.paragraph = bodyParagraphs body)
    (fun p => by simp) (fun t ih => by simpa using ih) (by simp)
    (fun properties cells rows ihCells ihRows => by
      rw [rowsLines_cons, List.map_append, map_markLines, ihCells, ihRows, rowsParagraphs_cons])
    (by simp) (fun properties body cells ihBody ihCells => by simp [ihBody, ihCells])
    (by simp) (fun element rest ihElement ih => by simp [ihElement, ih])).2.2.2 body

/-- The directives of some paragraphs and their places, where the first paragraph has a given
number. -/
def placesFrom (strict : Bool) (number : Nat) : List Paragraph → List (Directive × Position)
  | [] => []
  | p :: ps =>
    (p.placed strict).map (fun d => (d.directive, { paragraph := number, offset := d.offset })) ++
      placesFrom strict (number + 1) ps

theorem Line.map_occurrences (strict : Bool) (line : Line) (number dropped : Nat) :
    ((line.occurrences strict).map (Occurrence.inParagraph number dropped)).map
        (fun o => (o.directive, o.position)) =
      (line.paragraph.placed strict).map
        (fun d => (d.directive, { paragraph := number, offset := d.offset })) := by
  rw [List.map_map, occurrences]
  split
  · refine (map_modifyLast ?_ _).trans ?_
    · exact fun _ => rfl
    · split
      · refine (map_modifyHead ?_ _).trans (List.map_map ..)
        exact fun _ => rfl
      · exact List.map_map ..
  · split
    · refine (map_modifyHead ?_ _).trans (List.map_map ..)
      exact fun _ => rfl
    · exact List.map_map ..

theorem map_occurrencesFrom (strict : Bool) (number dropped : Nat) (lines : List Line) :
    (occurrencesFrom strict number dropped lines).map (fun o => (o.directive, o.position)) =
      placesFrom strict number (lines.map Line.paragraph) := by
  induction lines generalizing number dropped with
  | nil => rfl
  | cons line lines ih =>
    rw [occurrencesFrom, List.map_append, Line.map_occurrences, ih]
    rfl

theorem map_cellsLines (strict : Bool) (cells : List (Cell Element)) :
    (cellsLines strict cells).map Line.paragraph = cellsParagraphs cells := by
  rw [cellsLines_eq, map_bodyLines, cellsParagraphs_eq]

/-- The occurrences of a document are the directives of its paragraphs, at their places. -/
theorem map_occurrences (strict : Bool) (d : Document) :
    (d.occurrences strict).map (fun o => (o.directive, o.position)) =
      placesFrom strict 0 d.allParagraphs := by
  rw [Document.occurrences, map_occurrencesFrom, map_bodyLines]
  rfl

theorem map_placesFrom (strict : Bool) (number : Nat) (ps : List Paragraph) :
    (placesFrom strict number ps).map Prod.fst =
      ps.flatMap fun p => directivesOf (p.placed strict) := by
  induction ps generalizing number with
  | nil => rfl
  | cons p ps ih => simp [placesFrom, ih, directivesOf]

theorem mem_placesFrom {strict : Bool} {number : Nat} {ps : List Paragraph}
    {place : Directive × Position} (h : place ∈ placesFrom strict number ps) :
    ∃ i p, ps[i]? = some p ∧ place.2.paragraph = number + i ∧
      ⟨place.1, place.2.offset⟩ ∈ p.placed strict := by
  induction ps generalizing number with
  | nil => simp [placesFrom] at h
  | cons p ps ih =>
    rcases List.mem_append.1 h with h | h
    · obtain ⟨d, hd, rfl⟩ := List.mem_map.1 h
      exact ⟨0, p, rfl, rfl, hd⟩
    · obtain ⟨i, q, hq, hnumber, hplaced⟩ := ih h
      exact ⟨i + 1, q, hq, by omega, hplaced⟩

/-- The directives of a paragraph stand in its text. -/
theorem standsAt_of_mem_placed {strict : Bool} {p : Paragraph} {d : Placed}
    (h : d ∈ p.placed strict) :
    ∃ before source after, StandsAt d.directive (runsText p.runs) before source after ∧
      byteLength before = d.offset := by
  rw [Paragraph.placed, Paragraph.tokens] at h
  split at h
  · next tokens htokens =>
    obtain ⟨t, ht, hplaced⟩ := List.mem_filterMap.1 h
    obtain ⟨d', hd', rfl⟩ := Option.map_eq_some_iff.1 hplaced
    obtain ⟨pre, post, rfl⟩ := List.append_of_mem ht
    obtain ⟨before, source, after, hstands, hstart, -⟩ := tokensFrom_split htokens hd'
    refine ⟨before, source, after, hstands, ?_⟩
    simpa using hstart.symm
  · simp [placedOf] at h

end StyledTemplate
