/-!
# Styled documents

A document is a sequence of elements: paragraphs, which are sequences of formatted runs, and tables,
which are rows of cells. Each cell holds a body of its own, so tables nest.

`Table`, `Row` and `Cell` are parametrised over what they hold, because a parsed template has tables
of the same shape whose cells hold blocks instead of elements.
-/

namespace StyledTemplate

/-! ## Formatting -/

/-- Horizontal alignment of a paragraph, a table or an image. -/
inductive Alignment where
  /-- At the start of the line. -/
  | left
  /-- In the middle of the line. -/
  | center
  /-- At the end of the line. -/
  | right
  /-- Stretched to both margins. -/
  | justify
  deriving Repr, DecidableEq

/-- The formatting of the characters of a run. -/
structure RunProperties where
  /-- Heavy type. -/
  bold : Bool := false
  /-- Slanted type. -/
  italic : Bool := false
  /-- A line below the characters. -/
  underline : Bool := false
  /-- A line through the characters. -/
  strike : Bool := false
  /-- The name of the font family. -/
  fontFamily : Option String := none
  /-- The font size in half-points. -/
  fontSize : Option UInt32 := none
  /-- The colour of the characters, in hexadecimal digits. -/
  color : Option String := none
  /-- The name of the highlight colour. -/
  highlight : Option String := none
  deriving Repr, DecidableEq, Inhabited

/-- The formatting of a paragraph. Lengths are in twips. -/
structure ParagraphProperties where
  /-- The named paragraph style. -/
  style : Option String := none
  /-- Horizontal alignment. -/
  alignment : Option Alignment := none
  /-- Space before the paragraph. -/
  spacingBefore : Option UInt32 := none
  /-- Space after the paragraph. -/
  spacingAfter : Option UInt32 := none
  /-- Indentation at the start of the line. -/
  indentLeft : Option Int32 := none
  /-- Stay on the page of the next paragraph. -/
  keepWithNext : Bool := false
  deriving Repr, DecidableEq, Inhabited

/-! ## Images -/

/-- The encodings of images that are recognised. -/
inductive ImageFormat where
  /-- PNG. -/
  | png
  /-- JPEG. -/
  | jpeg
  /-- GIF. -/
  | gif
  /-- BMP. -/
  | bmp
  deriving Repr, DecidableEq

namespace ImageFormat

/-- The media type of the format. -/
def mimeType : ImageFormat → String
  | .png => "image/png"
  | .jpeg => "image/jpeg"
  | .gif => "image/gif"
  | .bmp => "image/bmp"

/-- The usual file extension of the format. -/
def extension : ImageFormat → String
  | .png => "png"
  | .jpeg => "jpeg"
  | .gif => "gif"
  | .bmp => "bmp"

end ImageFormat

/-- How an image sits among the text. -/
inductive ImagePosition where
  /-- In the line, like a large character. -/
  | inline
  /-- At the left margin, text flowing around it. -/
  | floatLeft
  /-- At the right margin, text flowing around it. -/
  | floatRight
  deriving Repr, DecidableEq, Inhabited

/-- How text wraps around a floating image. -/
inductive ImageWrap where
  /-- Not at all. -/
  | none
  /-- Around the bounding box. -/
  | square
  /-- Around the outline. -/
  | tight
  /-- Above and below only. -/
  | topAndBottom
  deriving Repr, DecidableEq, Inhabited

/-- An image embedded in a run. -/
structure EmbeddedImage where
  /-- The name of the placeholder the image stands for. -/
  name : String
  /-- The encoding of the bytes. -/
  format : ImageFormat
  /-- The encoded image. -/
  data : List UInt8
  /-- The width in pixels. -/
  pixelWidth : UInt32
  /-- The height in pixels. -/
  pixelHeight : UInt32
  /-- The width on the page, in millimetres. -/
  widthMm : Float
  /-- The height on the page, in millimetres. -/
  heightMm : Float
  /-- How the image sits among the text. -/
  position : ImagePosition
  /-- How text wraps around the image. -/
  wrap : ImageWrap
  /-- Horizontal alignment. -/
  alignment : Option Alignment
  /-- Horizontal offset of a floating image, in millimetres. -/
  offsetXMm : Float
  /-- Vertical offset of a floating image, in millimetres. -/
  offsetYMm : Float
  /-- A text that stands for the image. -/
  altText : Option String
  /-- The title of the image. -/
  title : Option String
  deriving DecidableEq

/-! ## Runs and paragraphs -/

/-- What a run carries. -/
inductive RunContent where
  /-- Characters. -/
  | text (s : String)
  /-- A manual line break. -/
  | lineBreak
  /-- An image. -/
  | image (image : EmbeddedImage)
  deriving DecidableEq

/-- A piece of content in one formatting. -/
structure Run where
  /-- The formatting. -/
  properties : RunProperties := {}
  /-- What the run carries. -/
  content : RunContent
  deriving DecidableEq

namespace Run

/-- A text run. -/
def ofText (text : String) (properties : RunProperties := {}) : Run := ⟨properties, .text text⟩

/-- The text of a text run. -/
def text? (run : Run) : Option String :=
  match run.content with
  | .text s => some s
  | _ => none

/-- The image of an image run. -/
def image? (run : Run) : Option EmbeddedImage :=
  match run.content with
  | .image image => some image
  | _ => none

/-- Is this a text run without characters? -/
def isEmptyText (run : Run) : Bool := run.text? == some ""

end Run

/-- A paragraph: runs that share paragraph formatting. -/
structure Paragraph where
  /-- The formatting. -/
  properties : ParagraphProperties := {}
  /-- The runs. -/
  runs : List Run := []
  deriving DecidableEq, Inhabited

namespace Paragraph

/-- A paragraph of one text run in default formatting. -/
def ofText (text : String) : Paragraph := { runs := [.ofText text] }

/-- A paragraph in default formatting. -/
def ofRuns (runs : List Run) : Paragraph := { runs }

/-- Has the paragraph nothing but text runs without characters? -/
def isEmpty (p : Paragraph) : Bool := p.runs.all Run.isEmptyText

end Paragraph

/-! ## Tables -/

/-- The place of a cell in a range of cells merged downwards. -/
inductive VerticalMerge where
  /-- The first cell of the range. -/
  | restart
  /-- A further cell of the range. -/
  | continued
  deriving Repr, DecidableEq

/-- Vertical alignment of the content of a cell. -/
inductive VerticalAlign where
  /-- At the top. -/
  | top
  /-- In the middle. -/
  | center
  /-- At the bottom. -/
  | bottom
  deriving Repr, DecidableEq

/-- The formatting of a table. -/
structure TableProperties where
  /-- The named table style. -/
  style : Option String := none
  /-- The preferred width in twips. -/
  width : Option UInt32 := none
  /-- Horizontal alignment. -/
  alignment : Option Alignment := none
  /-- Are borders drawn? -/
  borders : Bool := false
  deriving Repr, DecidableEq, Inhabited

/-- The formatting of a row. -/
structure RowProperties where
  /-- The height in twips. -/
  height : Option UInt32 := none
  /-- Repeat the row at the top of every page. -/
  header : Bool := false
  /-- Keep the row on one page. -/
  cantSplit : Bool := false
  deriving Repr, DecidableEq, Inhabited

/-- The formatting of a cell. -/
structure CellProperties where
  /-- The width in twips. -/
  width : Option UInt32 := none
  /-- The number of grid columns the cell spans. -/
  gridSpan : UInt32 := 1
  /-- The place in a range of cells merged downwards. -/
  vMerge : Option VerticalMerge := none
  /-- Vertical alignment. -/
  vAlign : Option VerticalAlign := none
  /-- The background colour, in hexadecimal digits. -/
  shading : Option String := none
  deriving Repr, DecidableEq, Inhabited

/-- A cell whose body is made of things of type `β`. -/
structure Cell (β : Type) where
  /-- The formatting. -/
  properties : CellProperties := {}
  /-- The body. -/
  body : List β := []

/-- A row of cells. -/
structure Row (β : Type) where
  /-- The formatting. -/
  properties : RowProperties := {}
  /-- The cells. -/
  cells : List (Cell β) := []

/-- A table whose rows are things of type `ρ`. -/
structure Table (ρ : Type) where
  /-- The formatting. -/
  properties : TableProperties := {}
  /-- The widths of the grid columns in twips. -/
  grid : List UInt32 := []
  /-- The rows. -/
  rows : List ρ := []

/-! ## Documents -/

/-- A paragraph or a table. -/
inductive Element where
  /-- A paragraph. -/
  | paragraph (paragraph : Paragraph)
  /-- A table. -/
  | table (table : Table (Row Element))
  deriving Inhabited

namespace Element

/-- The paragraph, if the element is one. -/
def paragraph? : Element → Option Paragraph
  | .paragraph p => some p
  | .table _ => none

/-- The table, if the element is one. -/
def table? : Element → Option (Table (Row Element))
  | .table t => some t
  | .paragraph _ => none

end Element

/-- A styled document. -/
structure Document where
  /-- The elements, in order. -/
  body : List Element := []
  deriving Inhabited

namespace Document

/-- The paragraphs of the document, those in tables left out. -/
def paragraphs (d : Document) : List Paragraph := d.body.filterMap Element.paragraph?

/-- The tables of the document, those in tables left out. -/
def tables (d : Document) : List (Table (Row Element)) := d.body.filterMap Element.table?

/-- The document with an element added at its end. -/
def add (d : Document) (element : Element) : Document := ⟨d.body ++ [element]⟩

end Document

end StyledTemplate
