import StyledTemplate.Proofs.Directive.Tiling
import StyledTemplate.Proofs.Document.RowMarkers
import StyledTemplate.Proofs.Document.Spelling

/-!
# Spelling documents out

A document is spelled out paragraph by paragraph, at every depth of tables. Rows are repeated just as
before, and their markers are taken out of the same places.
-/

namespace StyledTemplate

/-! ## Documents -/

mutual

/-- The element with all of its paragraphs spelled out. -/
def Element.spell : Element → Element
  | .paragraph p => .paragraph p.spell
  | .table ⟨properties, grid, rows⟩ => .table ⟨properties, grid, spellRows rows⟩

def spellRows : List (Row Element) → List (Row Element)
  | [] => []
  | ⟨properties, cells⟩ :: rows => ⟨properties, spellCells cells⟩ :: spellRows rows

def spellCells : List (Cell Element) → List (Cell Element)
  | [] => []
  | ⟨properties, body⟩ :: cells => ⟨properties, spellBody body⟩ :: spellCells cells

def spellBody : List Element → List Element
  | [] => []
  | element :: rest => element.spell :: spellBody rest

end

/-- The document with all of its paragraphs spelled out. -/
def Document.spell (d : Document) : Document := ⟨spellBody d.body⟩

def Row.spell (row : Row Element) : Row Element := { row with cells := spellCells row.cells }

def Cell.spell (cell : Cell Element) : Cell Element := { cell with body := spellBody cell.body }

theorem spellBody_eq_map (body : List Element) : spellBody body = body.map Element.spell := by
  induction body with
  | nil => rw [spellBody]; rfl
  | cons element rest ih => rw [spellBody, ih]; rfl

theorem spellBody_append (as bs : List Element) :
    spellBody (as ++ bs) = spellBody as ++ spellBody bs := by
  rw [spellBody_eq_map, spellBody_eq_map, spellBody_eq_map, List.map_append]

theorem spellBody_singleton (element : Element) : spellBody [element] = [element.spell] :=
  spellBody_eq_map [element]

theorem spellCells_eq_map (cells : List (Cell Element)) : spellCells cells = cells.map Cell.spell := by
  induction cells with
  | nil => rw [spellCells]; rfl
  | cons cell cells ih =>
    rw [spellCells, ih]
    rfl

theorem spellRows_eq_map (rows : List (Row Element)) : spellRows rows = rows.map Row.spell := by
  induction rows with
  | nil => rw [spellRows]; rfl
  | cons row rows ih =>
    rw [spellRows, ih]
    rfl

theorem Element.spell_paragraph (p : Paragraph) :
    (Element.paragraph p).spell = .paragraph p.spell := by rw [Element.spell]

theorem Element.spell_table (t : Table (Row Element)) :
    (Element.table t).spell = .table ⟨t.properties, t.grid, spellRows t.rows⟩ := by
  rw [Element.spell]

theorem Element.paragraph?_spell (element : Element) :
    element.spell.paragraph? = element.paragraph?.map Paragraph.spell := by
  cases element with
  | paragraph p => rw [Element.spell]; rfl
  | table t => rw [Element.spell_table]; rfl

/-! ## Loops of rows -/

section Loops

variable {strict : Bool}

theorem Paragraph.loopMarks_spell (strict : Bool) (p : Paragraph) :
    p.spell.loopMarks strict = p.loopMarks strict := by
  have htext : runsText p.spell.runs = runsText p.runs := runsText_spellRuns p.runs
  rw [Paragraph.loopMarks, htext, Paragraph.loopMarks]

mutual

theorem Element.loopMarks_spell : ∀ element : Element,
    element.spell.loopMarks strict = element.loopMarks strict
  | .paragraph p => by
    rw [Element.spell, Element.loopMarks, Element.loopMarks, p.loopMarks_spell]
  | .table ⟨properties, grid, rows⟩ => by
    rw [Element.spell, Element.loopMarks, Element.loopMarks]
    exact rowsLoopMarks_spell rows

theorem rowsLoopMarks_spell : ∀ rows : List (Row Element),
    rowsLoopMarks strict (spellRows rows) = rowsLoopMarks strict rows
  | [] => by rw [spellRows]
  | ⟨properties, cells⟩ :: rows => by
    rw [spellRows, rowsLoopMarks, rowsLoopMarks, cellsLoopMarks_spell cells,
      rowsLoopMarks_spell rows]

/-- Cells that are spelled out have the same loops. -/
theorem cellsLoopMarks_spell : ∀ cells : List (Cell Element),
    cellsLoopMarks strict (spellCells cells) = cellsLoopMarks strict cells
  | [] => by rw [spellCells]
  | ⟨properties, body⟩ :: cells => by
    rw [spellCells, cellsLoopMarks, cellsLoopMarks, bodyLoopMarks_spell body,
      cellsLoopMarks_spell cells]

theorem bodyLoopMarks_spell : ∀ body : List Element,
    bodyLoopMarks strict (spellBody body) = bodyLoopMarks strict body
  | [] => by rw [spellBody]
  | element :: rest => by
    rw [spellBody, bodyLoopMarks, bodyLoopMarks, element.loopMarks_spell, bodyLoopMarks_spell rest]

end

end Loops

/-! ## Repeated rows -/

theorem outerParagraphs?_eq (row : Row Element) :
    row.outerParagraphs? =
      ((row.cells.head?.bind (·.body.head?)).bind Element.paragraph?).bind fun first =>
        ((row.cells.getLast?.bind (·.body.getLast?)).bind Element.paragraph?).map fun last =>
          (first, last) := by
  simp only [Row.outerParagraphs?, Option.bind_assoc, Option.map_eq_bind]
  rfl

theorem outerParagraphs?_spell (row : Row Element) :
    row.spell.outerParagraphs? =
      row.outerParagraphs?.map fun outer => (outer.1.spell, outer.2.spell) := by
  have hparagraph : ∀ element : Option Element,
      (element.map Element.spell).bind Element.paragraph? =
        (element.bind Element.paragraph?).map Paragraph.spell := by
    intro element
    cases element with
    | none => rfl
    | some element => exact element.paragraph?_spell
  have hfirst : row.spell.cells.head?.bind (·.body.head?) =
      (row.cells.head?.bind (·.body.head?)).map Element.spell := by
    rw [Row.spell, spellCells_eq_map, List.head?_map]
    cases row.cells.head? with
    | none => rfl
    | some cell => simp [Cell.spell, spellBody_eq_map]
  have hlast : row.spell.cells.getLast?.bind (·.body.getLast?) =
      (row.cells.getLast?.bind (·.body.getLast?)).map Element.spell := by
    rw [Row.spell, spellCells_eq_map, List.getLast?_map]
    cases row.cells.getLast? with
    | none => rfl
    | some cell => simp [Cell.spell, spellBody_eq_map]
  rw [outerParagraphs?_eq, outerParagraphs?_eq, hfirst, hlast, hparagraph, hparagraph]
  cases (row.cells.head?.bind (·.body.head?)).bind Element.paragraph? with
  | none => rfl
  | some first =>
    cases (row.cells.getLast?.bind (·.body.getLast?)).bind Element.paragraph? <;> rfl

/-- A row that is spelled out has the same markers. -/
theorem rowMarkers?_spell (strict : Bool) (row : Row Element) :
    rowMarkers? strict row.spell = rowMarkers? strict row := by
  unfold rowMarkers?
  rw [outerParagraphs?_spell]
  cases row.outerParagraphs? with
  | none => rfl
  | some outer =>
    obtain ⟨first, last⟩ := outer
    have htext : ∀ p : Paragraph, runsText p.spell.runs = runsText p.runs :=
      fun p => runsText_spellRuns p.runs
    have hloops : cellsLoopMarks strict row.spell.cells = cellsLoopMarks strict row.cells :=
      cellsLoopMarks_spell row.cells
    simp only [Option.map_some, htext, hloops]

section Cut

variable {t : Token}

theorem cutFirst_table (t : Token) (table : Table (Row Element)) (rest : List Element) :
    cutFirst t (.table table :: rest) = .table table :: rest := rfl

theorem isBlank_cut_spell (p : Paragraph) (h : t.start ≤ t.stop) :
    (p.spell.cut t.start t.stop).isBlank = (p.cut t.start t.stop).isBlank := by
  rw [← p.spell_cut h, Paragraph.isBlank_spell]

/-- Beside other elements, a paragraph that is spelled out leaves what it leaves, spelled out. -/
theorem Paragraph.without_spell (p : Paragraph) (h : t.start ≤ t.stop) (others : List Element) :
    p.spell.without t (spellBody others) = spellBody (p.without t others) := by
  have hgoes : p.spell.goesWith t (spellBody others) = p.goesWith t others := by
    rw [goesWith, goesWith, isBlank_cut_spell p h, spellBody_eq_map, List.isEmpty_map]
  rw [without, without, hgoes, ← p.spell_cut h, spellBody_eq_map]
  cases p.goesWith t others <;> rfl

theorem cutFirst_spell (h : t.start ≤ t.stop) (body : List Element) :
    cutFirst t (spellBody body) = spellBody (cutFirst t body) := by
  cases body with
  | nil => rfl
  | cons element rest =>
    cases element with
    | table table =>
      rw [cutFirst_table, spellBody, Element.spell_table, cutFirst_table]
    | paragraph p =>
      rw [spellBody, Element.spell_paragraph, cutFirst_cons, cutFirst_cons, p.without_spell h,
        spellBody_append]

theorem cutLast_concat_table (t : Token) (front : List Element) (table : Table (Row Element)) :
    cutLast t (front ++ [.table table]) = front ++ [.table table] := by
  induction front with
  | nil => rfl
  | cons element front ih =>
    cases front with
    | nil => simp [cutLast]
    | cons next front =>
      have hstep : cutLast t (element :: next :: front ++ [.table table]) =
          element :: cutLast t (next :: front ++ [.table table]) := by
        cases front <;> simp [cutLast]
      rw [hstep, ih]
      rfl

theorem cutLast_spell (h : t.start ≤ t.stop) (body : List Element) :
    cutLast t (spellBody body) = spellBody (cutLast t body) := by
  rcases List.eq_nil_or_concat body with rfl | ⟨front, element, rfl⟩
  · rfl
  · rw [List.concat_eq_append, spellBody_append, spellBody_singleton]
    cases element with
    | table table =>
      rw [Element.spell_table, cutLast_concat_table, cutLast_concat_table, spellBody_append,
        spellBody_singleton, Element.spell_table]
    | paragraph p =>
      rw [Element.spell_paragraph, cutLast_concat, cutLast_concat, p.without_spell h,
        spellBody_append]

end Cut

theorem modifyLast_map {α β : Type} {f : α → α} {g : β → β} {map : α → β}
    (h : ∀ a, g (map a) = map (f a)) (as : List α) :
    modifyLast g (as.map map) = (modifyLast f as).map map := by
  rcases List.eq_nil_or_concat as with rfl | ⟨front, last, rfl⟩
  · rfl
  · rw [List.concat_eq_append, List.map_append, List.map_singleton, modifyLast_concat,
      modifyLast_concat, List.map_append, List.map_singleton, h]

/-- Taking the markers out of a row takes them out of the row spelled out. -/
theorem withoutMarkers_spell {row : Row Element} {markers : RowMarkers}
    (hopener : markers.opener.start ≤ markers.opener.stop)
    (hcloser : markers.closer.start ≤ markers.closer.stop) :
    row.spell.withoutMarkers markers = (row.withoutMarkers markers).spell := by
  have hlast : ∀ cell : Cell Element,
      { cell.spell with body := cutLast markers.closer cell.spell.body } =
        Cell.spell { cell with body := cutLast markers.closer cell.body } := by
    intro cell
    rw [Cell.spell, Cell.spell, cutLast_spell hcloser]
  have hfirst : ∀ cell : Cell Element,
      { cell.spell with body := cutFirst markers.opener cell.spell.body } =
        Cell.spell { cell with body := cutFirst markers.opener cell.body } := by
    intro cell
    rw [Cell.spell, Cell.spell, cutFirst_spell hopener]
  simp only [Row.withoutMarkers, Row.spell, spellCells_eq_map]
  rw [modifyLast_map hlast]
  cases modifyLast (fun cell => { cell with body := cutLast markers.closer cell.body }) row.cells with
  | nil => rfl
  | cons cell cells =>
    rw [List.map_cons, List.modifyHead_cons, hfirst, List.modifyHead_cons, List.map_cons]

/-- The markers of a row take up bytes. -/
theorem markers_start_le_stop {strict : Bool} {row : Row Element} {markers : RowMarkers}
    (h : rowMarkers? strict row = .ok (some markers)) :
    markers.opener.start ≤ markers.opener.stop ∧ markers.closer.start ≤ markers.closer.stop := by
  obtain ⟨first, last, hmarked⟩ := marked_of_rowMarkers? h
  obtain ⟨firstTokens, hfirst, hopener⟩ := hmarked.opens
  obtain ⟨lastTokens, hlast, hcloser⟩ := hmarked.closes
  have hopens := exists_part_of_tokenize hfirst _ (List.mem_of_find?_eq_some hopener)
  have hcloses := exists_part_of_tokenize hlast _
    (List.mem_reverse.1 (List.mem_of_find?_eq_some hcloser))
  obtain ⟨_, _, _, hopens⟩ := hopens
  obtain ⟨_, _, _, hcloses⟩ := hcloses
  exact ⟨hopens.start_le_stop, hcloses.start_le_stop⟩

end StyledTemplate
