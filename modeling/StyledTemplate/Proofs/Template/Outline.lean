import StyledTemplate.Proofs.Block.Marks
import StyledTemplate.Proofs.Document.RowMarkers
import StyledTemplate.Template.Parse

/-!
# Outlines of documents

The outline of a document keeps of its elements only what matters for the nesting of directives:
which paragraphs stand for a directive of their body, the directives in all others, and the tables,
with the markers of repeated rows taken out. It is what the parser sees; nothing in it depends on
whether the parser accepts the document.
-/

namespace StyledTemplate

/-- The mark of a directive in the paragraph of a given number. -/
def Placed.mark (ordinal : Nat) (d : Placed) : Mark :=
  d.directive.mark { paragraph := ordinal, offset := d.offset }

/-- The directives without their places. -/
def directivesOf (ds : List Placed) : List Directive := ds.map Placed.directive

/-- The tokens of a paragraph. If its text cannot be split into tokens there are none. -/
def Paragraph.tokens (strict : Bool) (p : Paragraph) : List Token :=
  match tokenize strict (runsText p.runs) with
  | .ok tokens => tokens
  | .error _ => []

/-- The directives of a paragraph. -/
def Paragraph.placed (strict : Bool) (p : Paragraph) : List Placed := placedOf (p.tokens strict)

/-! ## Items -/

/-- What an element contributes to the nesting of directives. -/
inductive Item where
  /-- A paragraph that stands for a directive of its body. -/
  | alone (d : Placed)
  /-- Any other paragraph, with the directives in it. -/
  | inline (ds : List Placed)
  /-- A table. A row that is repeated comes with the name of its list. -/
  | table (rows : List (Option String × List (List Item)))

/-- What a paragraph contributes. -/
def Paragraph.item (strict : Bool) (p : Paragraph) : Item :=
  match standalone? (.ofRuns p.runs) (p.tokens strict) with
  | some (token, d) => .alone ⟨d, token.start⟩
  | none => .inline (p.placed strict)

theorem Paragraph.item_alone {strict : Bool} {p : Paragraph} {token : Token} {d : Directive}
    (h : standalone? (.ofRuns p.runs) (p.tokens strict) = some (token, d)) :
    p.item strict = .alone ⟨d, token.start⟩ := by
  rw [Paragraph.item, h]

theorem Paragraph.item_inline {strict : Bool} {p : Paragraph}
    (h : standalone? (.ofRuns p.runs) (p.tokens strict) = none) :
    p.item strict = .inline (p.placed strict) := by
  rw [Paragraph.item, h]

mutual

/-- The outline of a body. -/
def outline (strict : Bool) : List Element → List Item
  | [] => []
  | .paragraph p :: rest => p.item strict :: outline strict rest
  | .table t :: rest => .table (outlineRows strict t.rows) :: outline strict rest
termination_by body => bodySize body
decreasing_by
  · simp [bodySize, Element.size]
  · simp [bodySize, Element.size]
    omega
  · have := Element.size_pos (.table t)
    simp only [bodySize]
    omega

/-- The outlines of the rows of a table. A row that is repeated is read without its markers. -/
def outlineRows (strict : Bool) :
    List (Row Element) → List (Option String × List (List Item))
  | [] => []
  | row :: rows =>
    match rowMarkers? strict row with
    | .ok (some markers) =>
      (some markers.list, outlineCells strict (row.withoutMarkers markers).cells) ::
        outlineRows strict rows
    | _ => (none, outlineCells strict row.cells) :: outlineRows strict rows
termination_by rows => rowsSize rows
decreasing_by
  · have := cellsSize_withoutMarkers row markers
    simp only [rowsSize]
    omega
  · simp only [rowsSize]
    omega
  · simp only [rowsSize]
    omega
  · simp only [rowsSize]
    omega

/-- The outlines of the cells of a row. -/
def outlineCells (strict : Bool) : List (Cell Element) → List (List Item)
  | [] => []
  | cell :: cells => outline strict cell.body :: outlineCells strict cells
termination_by cells => cellsSize cells
decreasing_by
  · simp only [cellsSize]
    omega
  · simp only [cellsSize]
    omega

end

@[simp] theorem outline_nil (strict : Bool) : outline strict [] = [] := by rw [outline]

@[simp] theorem outline_paragraph (strict : Bool) (p : Paragraph) (rest : List Element) :
    outline strict (.paragraph p :: rest) = p.item strict :: outline strict rest := by rw [outline]

@[simp] theorem outline_table (strict : Bool) (t : Table (Row Element)) (rest : List Element) :
    outline strict (.table t :: rest) =
      .table (outlineRows strict t.rows) :: outline strict rest := by rw [outline]

@[simp] theorem outlineRows_nil (strict : Bool) : outlineRows strict [] = [] := by rw [outlineRows]

theorem outlineRows_repeated {strict : Bool} {row : Row Element} {markers : RowMarkers}
    (h : rowMarkers? strict row = .ok (some markers)) (rows : List (Row Element)) :
    outlineRows strict (row :: rows) =
      (some markers.list, outlineCells strict (row.withoutMarkers markers).cells) ::
        outlineRows strict rows := by
  rw [outlineRows]
  simp only [h]

theorem outlineRows_once {strict : Bool} {row : Row Element}
    (h : rowMarkers? strict row = .ok none) (rows : List (Row Element)) :
    outlineRows strict (row :: rows) =
      (none, outlineCells strict row.cells) :: outlineRows strict rows := by
  rw [outlineRows]
  simp only [h]

@[simp] theorem outlineCells_nil (strict : Bool) : outlineCells strict [] = [] := by
  rw [outlineCells]

@[simp] theorem outlineCells_cons (strict : Bool) (cell : Cell Element)
    (cells : List (Cell Element)) :
    outlineCells strict (cell :: cells) =
      outline strict cell.body :: outlineCells strict cells := by rw [outlineCells]

/-! ## What an outline says -/

mutual

/-- The number of paragraphs of an item. -/
def Item.count : Item → Nat
  | .alone _ => 1
  | .inline _ => 1
  | .table rows => rowsCount rows

/-- The number of paragraphs of a body. -/
def itemsCount : List Item → Nat
  | [] => 0
  | item :: items => item.count + itemsCount items

/-- The number of paragraphs in the rows of a table. -/
def rowsCount : List (Option String × List (List Item)) → Nat
  | [] => 0
  | (_, cells) :: rows => cellsCount cells + rowsCount rows

/-- The number of paragraphs in the cells of a row. -/
def cellsCount : List (List Item) → Nat
  | [] => 0
  | body :: cells => itemsCount body + cellsCount cells

end

theorem Paragraph.count_item (strict : Bool) (p : Paragraph) : (p.item strict).count = 1 := by
  rw [item]
  split <;> rw [Item.count]

mutual

/-- The marks of an item whose first paragraph has a given number. -/
def Item.marks (ordinal : Nat) : Item → List Mark
  | .alone d => [d.mark ordinal]
  | .inline ds => ds.map (Placed.mark ordinal)
  | .table rows => rowsMarks ordinal rows

/-- The marks of a body. -/
def itemsMarks (ordinal : Nat) : List Item → List Mark
  | [] => []
  | item :: items => item.marks ordinal ++ itemsMarks (ordinal + item.count) items

/-- The marks of the rows of a table. The place of a row that is repeated is the start of its first
paragraph. -/
def rowsMarks (ordinal : Nat) : List (Option String × List (List Item)) → List Mark
  | [] => []
  | (none, cells) :: rows =>
    cellsMarks ordinal cells ++ rowsMarks (ordinal + cellsCount cells) rows
  | (some list, cells) :: rows =>
    { directive := .eachOpen list, position := some { paragraph := ordinal }, ofRow := true } ::
      cellsMarks ordinal cells ++
      { directive := .eachClose, ofRow := true } ::
        rowsMarks (ordinal + cellsCount cells) rows

/-- The marks of the cells of a row. -/
def cellsMarks (ordinal : Nat) : List (List Item) → List Mark
  | [] => []
  | body :: cells =>
    itemsMarks ordinal body ++ cellsMarks (ordinal + itemsCount body) cells

end

/-- The directives that paragraphs of a body stand for. -/
def aloneDirectives : List Item → List Directive
  | [] => []
  | .alone d :: items => d.directive :: aloneDirectives items
  | .inline _ :: items => aloneDirectives items
  | .table _ :: items => aloneDirectives items

mutual

/-- The cell bodies within an item, at any depth. -/
def Item.cellBodies : Item → List (List Item)
  | .alone _ => []
  | .inline _ => []
  | .table rows => rowsCellBodies rows

/-- The cell bodies within a body, at any depth. -/
def itemsCellBodies : List Item → List (List Item)
  | [] => []
  | item :: items => item.cellBodies ++ itemsCellBodies items

/-- The cell bodies of the rows of a table, at any depth. -/
def rowsCellBodies : List (Option String × List (List Item)) → List (List Item)
  | [] => []
  | (_, cells) :: rows => cellsCellBodies cells ++ rowsCellBodies rows

/-- The bodies of some cells, and those within them. -/
def cellsCellBodies : List (List Item) → List (List Item)
  | [] => []
  | body :: cells => body :: itemsCellBodies body ++ cellsCellBodies cells

end

/-- A body and all cell bodies within it, at any depth. -/
def bodiesOf (items : List Item) : List (List Item) := items :: itemsCellBodies items

mutual

/-- The number of regions that are open at the deepest place of a body. Inside of an item those
count that paragraphs before it have opened. -/
def itemsDeepest (depth : Nat) : List Item → Nat
  | [] => depth
  | .alone d :: items => max depth (itemsDeepest (d.directive.depthAfter depth) items)
  | .inline ds :: items =>
    max (StyledTemplate.deepest depth (directivesOf ds)) (itemsDeepest depth items)
  | .table rows :: items => max (rowsDeepest depth rows) (itemsDeepest depth items)

/-- The number of regions that are open at the deepest place of some rows. A row that is repeated is
a region of its own. -/
def rowsDeepest (depth : Nat) : List (Option String × List (List Item)) → Nat
  | [] => depth
  | (none, cells) :: rows => max (cellsDeepest depth cells) (rowsDeepest depth rows)
  | (some _, cells) :: rows => max (cellsDeepest (depth + 1) cells) (rowsDeepest depth rows)

/-- The number of regions that are open at the deepest place of some cells. -/
def cellsDeepest (depth : Nat) : List (List Item) → Nat
  | [] => depth
  | body :: cells => max (itemsDeepest depth body) (cellsDeepest depth cells)

end

end StyledTemplate
