import StyledTemplate.Block.Basic
import StyledTemplate.Directive.Scan
import StyledTemplate.Document.RunMap

/-!
# Rows that are repeated

A row of a table is repeated for each entry of a list if a loop is opened by the first directive of
its first cell and closed by the last directive of its last cell. `rowMarkers?` recognises such a
row and `Row.withoutMarkers` takes the two directives out. The row that is left is not larger, which
the recursion over nested tables needs.
-/

namespace StyledTemplate

namespace Token

/-- Is the token blank text? -/
def isBlank (t : Token) : Bool :=
  match t.kind with
  | .text s => Text.allBlank s.toList
  | .directive _ => false

/-- Does the token open (`true`) or close (`false`) a loop? -/
def loopMark? (t : Token) : Option Bool :=
  match t.kind with
  | .directive (.eachOpen _) => some true
  | .directive .eachClose => some false
  | _ => none

end Token

/-- The loops that the text of a paragraph opens and closes. Text with a wrong directive counts as
having none. -/
def Paragraph.loopMarks (strict : Bool) (p : Paragraph) : List Bool :=
  match tokenize strict (runsText p.runs) with
  | .ok tokens => tokens.filterMap Token.loopMark?
  | .error _ => []

mutual

/-- The loops that an element opens and closes, in document order. -/
def Element.loopMarks (strict : Bool) : Element → List Bool
  | .paragraph p => p.loopMarks strict
  | .table t => rowsLoopMarks strict t.rows

/-- The loops that rows open and close. -/
def rowsLoopMarks (strict : Bool) : List (Row Element) → List Bool
  | [] => []
  | ⟨_, cells⟩ :: rows => cellsLoopMarks strict cells ++ rowsLoopMarks strict rows

/-- The loops that cells open and close. -/
def cellsLoopMarks (strict : Bool) : List (Cell Element) → List Bool
  | [] => []
  | ⟨_, body⟩ :: cells => bodyLoopMarks strict body ++ cellsLoopMarks strict cells

/-- The loops that the elements of a body open and close. -/
def bodyLoopMarks (strict : Bool) : List Element → List Bool
  | [] => []
  | element :: rest => element.loopMarks strict ++ bodyLoopMarks strict rest

end

/-- Is the first loop that closes the outermost open one closed by the very last mark? `depth` loops
are open before the marks. -/
def closesLast (depth : Nat) : List Bool → Bool
  | [] => false
  | true :: marks => closesLast (depth + 1) marks
  | false :: marks => if depth ≤ 1 then marks.isEmpty else closesLast (depth - 1) marks

/-- The two directives that make a row repeated. -/
structure RowMarkers where
  /-- The list that the row is repeated for. -/
  list : String
  /-- The directive that opens the loop, in the first paragraph of the row. -/
  opener : Token
  /-- The directive that closes the loop, in the last paragraph of the row. -/
  closer : Token

/-- The paragraphs in which the markers of a row would stand: the first element of its first cell
and the last element of its last cell. -/
def Row.outerParagraphs? (row : Row Element) : Option (Paragraph × Paragraph) := do
  let first ← (← (← row.cells.head?).body.head?).paragraph?
  let last ← (← (← row.cells.getLast?).body.getLast?).paragraph?
  return (first, last)

/-- The markers of a row, if the row is repeated. -/
def rowMarkers? (strict : Bool) (row : Row Element) : Except ParseError (Option RowMarkers) :=
  match row.outerParagraphs? with
  | none => .ok none
  | some (first, last) => do
    let firstTokens ← tokenize strict (runsText first.runs)
    let lastTokens ← tokenize strict (runsText last.runs)
    match firstTokens.find? (!·.isBlank), lastTokens.reverse.find? (!·.isBlank) with
    | some opener, some closer =>
      match opener.kind, closer.kind with
      | .directive (.eachOpen list), .directive .eachClose =>
        if closesLast 0 (cellsLoopMarks strict row.cells) then
          return some ⟨list, opener, closer⟩
        else return none
      | _, _ => return none
    | _, _ => return none

/-! ## Taking the markers out -/

/-- Applies `f` to the last item of a list. -/
def modifyLast {α : Type} (f : α → α) : List α → List α
  | [] => []
  | [a] => [f a]
  | a :: b :: rest => a :: modifyLast f (b :: rest)

/-- Takes a token out of the first paragraph of a body. A paragraph that is left blank is dropped,
unless it is all there is. -/
def cutFirst (t : Token) : List Element → List Element
  | .paragraph p :: rest =>
    let left := p.cut t.start t.stop
    if left.isBlank ∧ rest ≠ [] then rest else .paragraph left :: rest
  | body => body

/-- Takes a token out of the last paragraph of a body. A paragraph that is left blank is dropped,
unless it is all there is. -/
def cutLast (t : Token) : List Element → List Element
  | [] => []
  | [.paragraph p] => [.paragraph (p.cut t.start t.stop)]
  | [element] => [element]
  | [element, .paragraph p] =>
    let left := p.cut t.start t.stop
    if left.isBlank then [element] else [element, .paragraph left]
  | element :: next :: rest => element :: cutLast t (next :: rest)

/-- The row without its markers. The closing one goes first, so that the offsets of the opening one
still hold if both stand in one paragraph. -/
def Row.withoutMarkers (row : Row Element) (markers : RowMarkers) : Row Element :=
  { row with
    cells :=
      (modifyLast (fun cell => { cell with body := cutLast markers.closer cell.body }) row.cells)
        |>.modifyHead fun cell => { cell with body := cutFirst markers.opener cell.body } }

/-! ## Sizes -/

mutual

/-- The number of paragraphs, tables, rows and cells of an element. -/
def Element.size : Element → Nat
  | .paragraph _ => 1
  | .table t => 1 + rowsSize t.rows

/-- The size of some rows. -/
def rowsSize : List (Row Element) → Nat
  | [] => 0
  | ⟨_, cells⟩ :: rows => 1 + cellsSize cells + rowsSize rows

/-- The size of some cells. -/
def cellsSize : List (Cell Element) → Nat
  | [] => 0
  | ⟨_, body⟩ :: cells => 1 + bodySize body + cellsSize cells

/-- The size of a body. -/
def bodySize : List Element → Nat
  | [] => 0
  | element :: rest => element.size + bodySize rest

end

theorem Element.size_pos (element : Element) : 0 < element.size := by
  cases element with
  | paragraph p => rw [Element.size]; exact Nat.one_pos
  | table t => rw [Element.size]; exact Nat.add_pos_left Nat.one_pos _

theorem bodySize_cutFirst (t : Token) (body : List Element) :
    bodySize (cutFirst t body) ≤ bodySize body := by
  unfold cutFirst
  split
  · dsimp only
    split <;> simp [bodySize, Element.size]
  · exact Nat.le_refl _

theorem bodySize_cutLast (t : Token) (body : List Element) :
    bodySize (cutLast t body) ≤ bodySize body := by
  fun_induction cutLast t body <;> simp_all [bodySize, Element.size]

theorem cellsSize_modifyHead {f : Cell Element → Cell Element}
    (h : ∀ cell, bodySize (f cell).body ≤ bodySize cell.body) (cells : List (Cell Element)) :
    cellsSize (cells.modifyHead f) ≤ cellsSize cells := by
  cases cells with
  | nil => simp
  | cons cell cells =>
    have := h cell
    simp only [List.modifyHead_cons, cellsSize]
    omega

theorem cellsSize_modifyLast {f : Cell Element → Cell Element}
    (h : ∀ cell, bodySize (f cell).body ≤ bodySize cell.body) (cells : List (Cell Element)) :
    cellsSize (modifyLast f cells) ≤ cellsSize cells := by
  fun_induction modifyLast f cells with
  | case1 => exact Nat.le_refl _
  | case2 cell =>
    have := h cell
    simp only [cellsSize]
    omega
  | case3 cell next rest ih =>
    simp only [cellsSize] at ih ⊢
    omega

/-- Taking the markers out does not make a row larger. -/
theorem cellsSize_withoutMarkers (row : Row Element) (markers : RowMarkers) :
    cellsSize (row.withoutMarkers markers).cells ≤ cellsSize row.cells :=
  Nat.le_trans (cellsSize_modifyHead (fun _ => bodySize_cutFirst _ _) _)
    (cellsSize_modifyLast (fun _ => bodySize_cutLast _ _) _)

end StyledTemplate
