import StyledTemplate.Document.Basic
import StyledTemplate.Text.Name

/-!
# The text of a document

`Document.plainText` writes a document without its formatting: paragraphs and table rows on lines of
their own, cells apart by tabulators. `Document.ofText` goes the other way and makes one paragraph
of each line.
-/

namespace StyledTemplate

/-- The characters a run shows. -/
def Run.chars (run : Run) : List Char :=
  match run.content with
  | .text s => s.toList
  | .lineBreak => ['\n']
  | .image _ => []

/-- The characters a paragraph shows. -/
def Paragraph.chars (p : Paragraph) : List Char := p.runs.flatMap Run.chars

/-- The text of a paragraph. -/
def Paragraph.plainText (p : Paragraph) : String := String.ofList p.chars

mutual

/-- The text of an element: a paragraph shows its characters, a table one line for each row. -/
def Element.chars : Element → List Char
  | .paragraph p => p.chars
  | .table t => ['\n'].intercalate (rowLines t.rows)

/-- The lines of the rows of a table. -/
def rowLines : List (Row Element) → List (List Char)
  | [] => []
  | ⟨_, cells⟩ :: rows => ['\t'].intercalate (cellTexts cells) :: rowLines rows

/-- The texts of the cells of a row. -/
def cellTexts : List (Cell Element) → List (List Char)
  | [] => []
  | ⟨_, body⟩ :: cells => ['\n'].intercalate (elementTexts body) :: cellTexts cells

/-- The texts of the elements of a body. -/
def elementTexts : List Element → List (List Char)
  | [] => []
  | element :: rest => element.chars :: elementTexts rest

end

/-- The text of a body: one line for each element. -/
def bodyText (body : List Element) : String :=
  String.ofList (['\n'].intercalate (elementTexts body))

/-- The text of a cell. -/
def Cell.plainText (cell : Cell Element) : String := bodyText cell.body

/-- The text of a document. -/
def Document.plainText (d : Document) : String := bodyText d.body

/-- A line without the carriage returns at its end. -/
def trimReturns (line : List Char) : List Char := (line.reverse.dropWhile (· == '\r')).reverse

/-- A document of one paragraph for each line of a text. -/
def Document.ofText (text : String) : Document where
  body := (Text.splitOn '\n' text.toList).map fun line =>
    .paragraph (.ofText (String.ofList (trimReturns line)))

mutual

/-- The images of an element, in document order. -/
def Element.images : Element → List EmbeddedImage
  | .paragraph p => p.runs.filterMap Run.image?
  | .table t => rowImages t.rows

/-- The images in the rows of a table. -/
def rowImages : List (Row Element) → List EmbeddedImage
  | [] => []
  | ⟨_, cells⟩ :: rows => cellImages cells ++ rowImages rows

/-- The images in the cells of a row. -/
def cellImages : List (Cell Element) → List EmbeddedImage
  | [] => []
  | ⟨_, body⟩ :: cells => bodyImages body ++ cellImages cells

/-- The images of the elements of a body. -/
def bodyImages : List Element → List EmbeddedImage
  | [] => []
  | element :: rest => element.images ++ bodyImages rest

end

/-- The images of a document, in document order. -/
def Document.images (d : Document) : List EmbeddedImage := bodyImages d.body

end StyledTemplate
