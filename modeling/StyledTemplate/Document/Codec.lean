import StyledTemplate.Document.Basic
import StyledTemplate.Json.Record

/-!
# Documents as JSON

Every part of a document is written as a record with all its fields; a choice is written by the name
of its case. Reading accepts what writing produces, lets fields with a default be left out, and
ignores fields it does not know.
-/

namespace StyledTemplate

open Json (recordParts? partD fieldD field nullable)

/-- A text that may be absent, `null` if it is. -/
def Json.ofString? (s : Option String) : Json := (s.map Json.string).getD .null

/-- A number that may be absent, `null` if it is. -/
def Json.ofUInt32? (n : Option UInt32) : Json := (n.map fun n => Json.integer n.toNat).getD .null

namespace Alignment

/-- The alignments and their names. -/
def names : List (String × Alignment) :=
  [("left", .left), ("center", .center), ("right", .right), ("justify", .justify)]

/-- The name of an alignment. -/
def name : Alignment → String
  | .left => "left"
  | .center => "center"
  | .right => "right"
  | .justify => "justify"

/-- Reads an alignment. -/
def ofJson? : Json → Option Alignment := Json.oneOf? names

/-- Writes an alignment that may be absent. -/
def toJson? (a : Option Alignment) : Json := (a.map fun a => Json.string a.name).getD .null

end Alignment

namespace RunProperties

/-- The names of the fields. -/
def fieldNames : List String :=
  ["bold", "italic", "underline", "strike", "font_family", "font_size", "color", "highlight"]

/-- Writes the formatting of a run. -/
def toJson (p : RunProperties) : Json :=
  .object (Fields.ofList [("bold", .bool p.bold), ("italic", .bool p.italic),
    ("underline", .bool p.underline), ("strike", .bool p.strike),
    ("font_family", .ofString? p.fontFamily), ("font_size", .ofUInt32? p.fontSize),
    ("color", .ofString? p.color), ("highlight", .ofString? p.highlight)])

/-- Reads the formatting of a run. -/
def ofJson? (j : Json) : Option RunProperties := do
  let fields ← recordParts? fieldNames 0 j
  return {
    bold := ← fieldD fields "bold" Json.bool? false
    italic := ← fieldD fields "italic" Json.bool? false
    underline := ← fieldD fields "underline" Json.bool? false
    strike := ← fieldD fields "strike" Json.bool? false
    fontFamily := ← fieldD fields "font_family" (nullable Json.string?) none
    fontSize := ← fieldD fields "font_size" (nullable Json.uint32?) none
    color := ← fieldD fields "color" (nullable Json.string?) none
    highlight := ← fieldD fields "highlight" (nullable Json.string?) none }

end RunProperties

namespace ParagraphProperties

/-- The names of the fields. -/
def fieldNames : List String :=
  ["style", "alignment", "spacing_before", "spacing_after", "indent_left", "keep_with_next"]

/-- Writes the formatting of a paragraph. -/
def toJson (p : ParagraphProperties) : Json :=
  .object (Fields.ofList [("style", .ofString? p.style),
    ("alignment", Alignment.toJson? p.alignment),
    ("spacing_before", .ofUInt32? p.spacingBefore), ("spacing_after", .ofUInt32? p.spacingAfter),
    ("indent_left", (p.indentLeft.map fun n => Json.integer n.toInt).getD .null),
    ("keep_with_next", .bool p.keepWithNext)])

/-- Reads the formatting of a paragraph. -/
def ofJson? (j : Json) : Option ParagraphProperties := do
  let fields ← recordParts? fieldNames 0 j
  return {
    style := ← fieldD fields "style" (nullable Json.string?) none
    alignment := ← fieldD fields "alignment" (nullable Alignment.ofJson?) none
    spacingBefore := ← fieldD fields "spacing_before" (nullable Json.uint32?) none
    spacingAfter := ← fieldD fields "spacing_after" (nullable Json.uint32?) none
    indentLeft := ← fieldD fields "indent_left" (nullable Json.int32?) none
    keepWithNext := ← fieldD fields "keep_with_next" Json.bool? false }

end ParagraphProperties

namespace ImageFormat

/-- The formats and their names. -/
def names : List (String × ImageFormat) :=
  [("png", .png), ("jpeg", .jpeg), ("gif", .gif), ("bmp", .bmp)]

/-- The name of a format. -/
def name : ImageFormat → String
  | .png => "png"
  | .jpeg => "jpeg"
  | .gif => "gif"
  | .bmp => "bmp"

/-- Reads a format. -/
def ofJson? : Json → Option ImageFormat := Json.oneOf? names

end ImageFormat

namespace ImagePosition

/-- The positions and their names. -/
def names : List (String × ImagePosition) :=
  [("inline", .inline), ("float_left", .floatLeft), ("float_right", .floatRight)]

/-- The name of a position. -/
def name : ImagePosition → String
  | .inline => "inline"
  | .floatLeft => "float_left"
  | .floatRight => "float_right"

/-- Reads a position. -/
def ofJson? : Json → Option ImagePosition := Json.oneOf? names

end ImagePosition

namespace ImageWrap

/-- The kinds of wrapping and their names. -/
def names : List (String × ImageWrap) :=
  [("none", .none), ("square", .square), ("tight", .tight), ("top_and_bottom", .topAndBottom)]

/-- The name of a kind of wrapping. -/
def name : ImageWrap → String
  | .none => "none"
  | .square => "square"
  | .tight => "tight"
  | .topAndBottom => "top_and_bottom"

/-- Reads a kind of wrapping. -/
def ofJson? : Json → Option ImageWrap := Json.oneOf? names

end ImageWrap

namespace EmbeddedImage

/-- The names of the fields. -/
def fieldNames : List String :=
  ["name", "format", "data", "pixel_width", "pixel_height", "width_mm", "height_mm", "position",
    "wrap", "alignment", "offset_x_mm", "offset_y_mm", "alt_text", "title"]

/-- Writes an image, its bytes as numbers. -/
def toJson (i : EmbeddedImage) : Json :=
  .object (Fields.ofList [("name", .string i.name), ("format", .string i.format.name),
    ("data", .array (i.data.map fun byte => .integer byte.toNat)),
    ("pixel_width", .integer i.pixelWidth.toNat), ("pixel_height", .integer i.pixelHeight.toNat),
    ("width_mm", .float i.widthMm), ("height_mm", .float i.heightMm),
    ("position", .string i.position.name), ("wrap", .string i.wrap.name),
    ("alignment", Alignment.toJson? i.alignment), ("offset_x_mm", .float i.offsetXMm),
    ("offset_y_mm", .float i.offsetYMm), ("alt_text", .ofString? i.altText),
    ("title", .ofString? i.title)])

/-- Reads an image. Of its fields only the optional ones may be left out. -/
def ofJson? (j : Json) : Option EmbeddedImage := do
  let fields ← recordParts? fieldNames fieldNames.length j
  return {
    name := ← field fields "name" Json.string?
    format := ← field fields "format" ImageFormat.ofJson?
    data := ← field fields "data" (Json.array? Json.uint8?)
    pixelWidth := ← field fields "pixel_width" Json.uint32?
    pixelHeight := ← field fields "pixel_height" Json.uint32?
    widthMm := ← field fields "width_mm" Json.float?
    heightMm := ← field fields "height_mm" Json.float?
    position := ← field fields "position" ImagePosition.ofJson?
    wrap := ← field fields "wrap" ImageWrap.ofJson?
    alignment := ← fieldD fields "alignment" (nullable Alignment.ofJson?) none
    offsetXMm := ← field fields "offset_x_mm" Json.float?
    offsetYMm := ← field fields "offset_y_mm" Json.float?
    altText := ← fieldD fields "alt_text" (nullable Json.string?) none
    title := ← fieldD fields "title" (nullable Json.string?) none }

end EmbeddedImage

namespace RunContent

/-- Writes what a run carries. -/
def toJson : RunContent → Json
  | .text s => .object [("text", .string s)]
  | .lineBreak => .string "break"
  | .image picture => .object [("image", picture.toJson)]

/-- Reads what a run carries. -/
def ofJson? (j : Json) : Option RunContent :=
  match Json.case? j with
  | some ("text", some value) => (Json.string? value).map .text
  | some ("image", some value) => (EmbeddedImage.ofJson? value).map .image
  | some ("break", none) => some .lineBreak
  | some ("break", some .null) => some .lineBreak
  | _ => none

end RunContent

namespace Run

/-- Writes a run. -/
def toJson (run : Run) : Json :=
  .object [("content", run.content.toJson), ("properties", run.properties.toJson)]

/-- Reads a run. Its content may not be left out. -/
def ofJson? (j : Json) : Option Run := do
  let fields ← recordParts? ["properties", "content"] 2 j
  return {
    properties := ← fieldD fields "properties" RunProperties.ofJson? {}
    content := ← field fields "content" RunContent.ofJson? }

end Run

namespace Paragraph

/-- Writes a paragraph. -/
def toJson (p : Paragraph) : Json :=
  .object [("properties", p.properties.toJson), ("runs", .array (p.runs.map Run.toJson))]

/-- Reads a paragraph. -/
def ofJson? (j : Json) : Option Paragraph := do
  let fields ← recordParts? ["properties", "runs"] 0 j
  return {
    properties := ← fieldD fields "properties" ParagraphProperties.ofJson? {}
    runs := ← fieldD fields "runs" (Json.array? Run.ofJson?) [] }

end Paragraph

namespace VerticalMerge

/-- The states of merging and their names. -/
def names : List (String × VerticalMerge) := [("restart", .restart), ("continue", .continued)]

/-- The name of a state of merging. -/
def name : VerticalMerge → String
  | .restart => "restart"
  | .continued => "continue"

end VerticalMerge

namespace VerticalAlign

/-- The vertical alignments and their names. -/
def names : List (String × VerticalAlign) :=
  [("top", .top), ("center", .center), ("bottom", .bottom)]

/-- The name of a vertical alignment. -/
def name : VerticalAlign → String
  | .top => "top"
  | .center => "center"
  | .bottom => "bottom"

end VerticalAlign

namespace TableProperties

/-- Writes the formatting of a table. -/
def toJson (p : TableProperties) : Json :=
  .object (Fields.ofList [("style", .ofString? p.style), ("width", .ofUInt32? p.width),
    ("alignment", Alignment.toJson? p.alignment), ("borders", .bool p.borders)])

/-- Reads the formatting of a table. -/
def ofJson? (j : Json) : Option TableProperties := do
  let fields ← recordParts? ["style", "width", "alignment", "borders"] 0 j
  return {
    style := ← fieldD fields "style" (nullable Json.string?) none
    width := ← fieldD fields "width" (nullable Json.uint32?) none
    alignment := ← fieldD fields "alignment" (nullable Alignment.ofJson?) none
    borders := ← fieldD fields "borders" Json.bool? false }

end TableProperties

namespace RowProperties

/-- Writes the formatting of a row. -/
def toJson (p : RowProperties) : Json :=
  .object (Fields.ofList [("height", .ofUInt32? p.height), ("header", .bool p.header),
    ("cant_split", .bool p.cantSplit)])

/-- Reads the formatting of a row. -/
def ofJson? (j : Json) : Option RowProperties := do
  let fields ← recordParts? ["height", "header", "cant_split"] 0 j
  return {
    height := ← fieldD fields "height" (nullable Json.uint32?) none
    header := ← fieldD fields "header" Json.bool? false
    cantSplit := ← fieldD fields "cant_split" Json.bool? false }

end RowProperties

namespace CellProperties

/-- Writes the formatting of a cell. -/
def toJson (p : CellProperties) : Json :=
  .object (Fields.ofList [("width", .ofUInt32? p.width), ("grid_span", .integer p.gridSpan.toNat),
    ("v_merge", (p.vMerge.map fun m => Json.string m.name).getD .null),
    ("v_align", (p.vAlign.map fun a => Json.string a.name).getD .null),
    ("shading", .ofString? p.shading)])

/-- Reads the formatting of a cell. -/
def ofJson? (j : Json) : Option CellProperties := do
  let fields ← recordParts? ["width", "grid_span", "v_merge", "v_align", "shading"] 0 j
  return {
    width := ← fieldD fields "width" (nullable Json.uint32?) none
    gridSpan := ← fieldD fields "grid_span" Json.uint32? 1
    vMerge := ← fieldD fields "v_merge" (nullable (Json.oneOf? VerticalMerge.names)) none
    vAlign := ← fieldD fields "v_align" (nullable (Json.oneOf? VerticalAlign.names)) none
    shading := ← fieldD fields "shading" (nullable Json.string?) none }

end CellProperties

/-! ## Elements -/

mutual

/-- Writes an element. -/
def Element.toJson : Element → Json
  | .paragraph p => .object [("paragraph", p.toJson)]
  | .table t =>
    .object [("table", .object [
      ("grid", .array (t.grid.map fun width => .integer width.toNat)),
      ("properties", t.properties.toJson),
      ("rows", .array (rowsToJson t.rows))])]

/-- Writes the rows of a table. -/
def rowsToJson : List (Row Element) → List Json
  | [] => []
  | row :: rows => row.toJson :: rowsToJson rows

/-- Writes a row. -/
def Row.toJson : Row Element → Json
  | ⟨properties, cells⟩ =>
    .object [("cells", .array (cellsToJson cells)), ("properties", properties.toJson)]

/-- Writes the cells of a row. -/
def cellsToJson : List (Cell Element) → List Json
  | [] => []
  | cell :: cells => cell.toJson :: cellsToJson cells

/-- Writes a cell. -/
def Cell.toJson : Cell Element → Json
  | ⟨properties, body⟩ =>
    .object [("body", .array (bodyToJson body)), ("properties", properties.toJson)]

/-- Writes the elements of a body. -/
def bodyToJson : List Element → List Json
  | [] => []
  | element :: rest => element.toJson :: bodyToJson rest

end

/-- Writes a document. -/
def Document.toJson (d : Document) : Json := .object [("body", .array (bodyToJson d.body))]

mutual

/-- Reads an element. -/
def Element.ofJson? (j : Json) : Option Element :=
  match Json.casePart? j with
  | some ("paragraph", some part) => (Paragraph.ofJson? part.1).map .paragraph
  | some ("table", some part) => do
    let fields ← recordParts? ["properties", "grid", "rows"] 0 part.1
    let properties ← fieldD fields "properties" TableProperties.ofJson? {}
    let grid ← fieldD fields "grid" (Json.array? Json.uint32?) []
    let rows ← partD fields "rows"
      (fun rows => do (← Json.parts? rows.1).mapM fun row => Row.ofJson? row.1) []
    return .table { properties, grid, rows }
  | _ => none
termination_by sizeOf j
decreasing_by
  have := part.2
  have := rows.2
  have := row.2
  omega

/-- Reads a row. -/
def Row.ofJson? (j : Json) : Option (Row Element) := do
  let fields ← recordParts? ["properties", "cells"] 0 j
  let properties ← fieldD fields "properties" RowProperties.ofJson? {}
  let cells ← partD fields "cells"
    (fun cells => do (← Json.parts? cells.1).mapM fun cell => Cell.ofJson? cell.1) []
  return { properties, cells }
termination_by sizeOf j
decreasing_by
  have := cells.2
  have := cell.2
  omega

/-- Reads a cell. Its body is empty if it is left out. -/
def Cell.ofJson? (j : Json) : Option (Cell Element) := do
  let fields ← recordParts? ["properties", "body"] 0 j
  let properties ← fieldD fields "properties" CellProperties.ofJson? {}
  let body ← partD fields "body"
    (fun body => do (← Json.parts? body.1).mapM fun element => Element.ofJson? element.1) []
  return { properties, body }
termination_by sizeOf j
decreasing_by
  have := body.2
  have := element.2
  omega

end

/-- Reads a document. -/
def Document.ofJson? (j : Json) : Option Document := do
  let fields ← recordParts? ["body"] 0 j
  return { body := ← fieldD fields "body" (Json.array? Element.ofJson?) [] }

end StyledTemplate
