import StyledTemplate.Document.Codec
import StyledTemplate.Proofs.Json.Omission

/-!
# Fields of a document that may be left out

Most fields of a written document have a default. `Document.Part` lists what a written document is
made of and which fields of each part may be left out, and `Document.withDefaults` puts its default
in the place of each field that is left out.
-/

namespace StyledTemplate

open Json (Key Places)

/-! ## Where fields may be left out -/

namespace Document

/-- What a part of a written document is. -/
inductive Part where
  /-- A document. -/
  | document
  /-- A paragraph or a table, under the name of its case. -/
  | element
  /-- A paragraph. -/
  | paragraph
  /-- A run. -/
  | run
  /-- What a run carries. -/
  | content
  /-- An image. -/
  | image
  /-- A table. -/
  | table
  /-- A row. -/
  | row
  /-- A cell. -/
  | cell
  /-- Formatting, each of whose fields has a default. -/
  | formatting (names : List String)
  /-- An array of parts of one kind. -/
  | listOf (item : Part)

namespace Part

/-- The fields that may be left out. -/
def optional : Part → List String
  | .document => ["body"]
  | .paragraph => ["properties", "runs"]
  | .run => ["properties"]
  | .image => ["alignment", "alt_text", "title"]
  | .table => ["properties", "grid", "rows"]
  | .row => ["properties", "cells"]
  | .cell => ["properties", "body"]
  | .formatting names => names
  | .element | .content | .listOf _ => []

/-- What a key leads to, if fields may be left out there. -/
def next? : Part → Key → Option Part
  | .document, .field "body" => some (.listOf .element)
  | .element, .field "paragraph" => some .paragraph
  | .element, .field "table" => some .table
  | .paragraph, .field "properties" => some (.formatting ParagraphProperties.fieldNames)
  | .paragraph, .field "runs" => some (.listOf .run)
  | .run, .field "properties" => some (.formatting RunProperties.fieldNames)
  | .run, .field "content" => some .content
  | .content, .field "image" => some .image
  | .table, .field "properties" => some (.formatting ["style", "width", "alignment", "borders"])
  | .table, .field "rows" => some (.listOf .row)
  | .row, .field "properties" => some (.formatting ["height", "header", "cant_split"])
  | .row, .field "cells" => some (.listOf .cell)
  | .cell, .field "properties" =>
    some (.formatting ["width", "grid_span", "v_merge", "v_align", "shading"])
  | .cell, .field "body" => some (.listOf .element)
  | .listOf item, .item _ => some item
  | _, _ => none

/-- Do the keys lead to a field that may be left out? -/
def hasDefault (part : Part) : List Key → Bool
  | [] => false
  | [.field name] => part.optional.contains name
  | key :: rest => (part.next? key).any fun next => next.hasDefault rest

theorem hasDefault_cons_cons (part : Part) (first second : Key) (rest : List Key) :
    part.hasDefault (first :: second :: rest) =
      (part.next? first).any fun next => next.hasDefault (second :: rest) := by
  cases first <;> rfl

/-- Only fields that may be left out are left out. -/
def Allows (part : Part) (omitted : Places) : Prop :=
  ∀ path ≠ [], omitted path = true → part.hasDefault path = true

namespace Allows

variable {part next : Part} {omitted : Places} {key : Key} {name : String}

/-- It is enough to look at the places one by one. -/
theorem ofList {paths : List (List Key)} (h : ∀ path ∈ paths, part.hasDefault path = true) :
    part.Allows (Places.ofList paths) :=
  fun path _ homitted => h path (of_decide_eq_true homitted)

/-- A field that may not be left out is there. -/
theorem kept (h : part.Allows omitted) (hname : part.hasDefault [.field name] = false) :
    omitted [.field name] = false := by
  refine Bool.eq_false_iff.2 fun homitted => ?_
  rw [h _ (List.cons_ne_nil _ _) homitted] at hname
  cases hname

theorem below (h : part.Allows omitted) (hnext : part.next? key = some next) :
    next.Allows (omitted.below key) := by
  intro path hpath homitted
  obtain ⟨second, rest, rfl⟩ := List.exists_cons_of_ne_nil hpath
  have hkeys := h (key :: second :: rest) (List.cons_ne_nil _ _) homitted
  rwa [hasDefault_cons_cons, hnext, Option.any_some] at hkeys

/-- An array whose fields may be left out, item by item. -/
theorem items (h : (listOf part).Allows omitted) (index : Nat) :
    part.Allows (omitted.items index) := by
  have hnext : (listOf part).next? (.item index) = some part := rfl
  exact h.below hnext

end Allows

end Part

end Document

/-! ## Defaults in place of what is left out -/

/-- The formatting of a run with the default of each field that is left out. -/
def RunProperties.withDefaults (omitted : Places) (p : RunProperties) : RunProperties where
  bold := omitted.orDefault "bold" false p.bold
  italic := omitted.orDefault "italic" false p.italic
  underline := omitted.orDefault "underline" false p.underline
  strike := omitted.orDefault "strike" false p.strike
  fontFamily := omitted.orDefault "font_family" none p.fontFamily
  fontSize := omitted.orDefault "font_size" none p.fontSize
  color := omitted.orDefault "color" none p.color
  highlight := omitted.orDefault "highlight" none p.highlight

/-- The formatting of a paragraph with the default of each field that is left out. -/
def ParagraphProperties.withDefaults (omitted : Places) (p : ParagraphProperties) :
    ParagraphProperties where
  style := omitted.orDefault "style" none p.style
  alignment := omitted.orDefault "alignment" none p.alignment
  spacingBefore := omitted.orDefault "spacing_before" none p.spacingBefore
  spacingAfter := omitted.orDefault "spacing_after" none p.spacingAfter
  indentLeft := omitted.orDefault "indent_left" none p.indentLeft
  keepWithNext := omitted.orDefault "keep_with_next" false p.keepWithNext

/-- An image with the default of each field that is left out. -/
def EmbeddedImage.withDefaults (omitted : Places) (i : EmbeddedImage) : EmbeddedImage :=
  { i with
    alignment := omitted.orDefault "alignment" none i.alignment
    altText := omitted.orDefault "alt_text" none i.altText
    title := omitted.orDefault "title" none i.title }

/-- What a run carries, with the default of each field that is left out. -/
def RunContent.withDefaults (omitted : Places) : RunContent → RunContent
  | .image picture => .image (picture.withDefaults (omitted.below (.field "image")))
  | content => content

/-- A run with the default of each field that is left out. -/
def Run.withDefaults (omitted : Places) (run : Run) : Run where
  properties := omitted.orDefault "properties" {}
    (run.properties.withDefaults (omitted.below (.field "properties")))
  content := run.content.withDefaults (omitted.below (.field "content"))

/-- A paragraph with the default of each field that is left out. -/
def Paragraph.withDefaults (omitted : Places) (p : Paragraph) : Paragraph where
  properties := omitted.orDefault "properties" {}
    (p.properties.withDefaults (omitted.below (.field "properties")))
  runs := omitted.orDefault "runs" [] <|
    p.runs.mapIdx fun index run => run.withDefaults ((omitted.below (.field "runs")).items index)

/-- The formatting of a table with the default of each field that is left out. -/
def TableProperties.withDefaults (omitted : Places) (p : TableProperties) : TableProperties where
  style := omitted.orDefault "style" none p.style
  width := omitted.orDefault "width" none p.width
  alignment := omitted.orDefault "alignment" none p.alignment
  borders := omitted.orDefault "borders" false p.borders

/-- The formatting of a row with the default of each field that is left out. -/
def RowProperties.withDefaults (omitted : Places) (p : RowProperties) : RowProperties where
  height := omitted.orDefault "height" none p.height
  header := omitted.orDefault "header" false p.header
  cantSplit := omitted.orDefault "cant_split" false p.cantSplit

/-- The formatting of a cell with the default of each field that is left out: the cell then spans
one column. -/
def CellProperties.withDefaults (omitted : Places) (p : CellProperties) : CellProperties where
  width := omitted.orDefault "width" none p.width
  gridSpan := omitted.orDefault "grid_span" 1 p.gridSpan
  vMerge := omitted.orDefault "v_merge" none p.vMerge
  vAlign := omitted.orDefault "v_align" none p.vAlign
  shading := omitted.orDefault "shading" none p.shading

mutual

/-- An element with the default of each field that is left out. -/
def Element.withDefaults (omitted : Places) : Element → Element
  | .paragraph p => .paragraph (p.withDefaults (omitted.below (.field "paragraph")))
  | .table ⟨properties, grid, rows⟩ =>
    let omitted := omitted.below (.field "table")
    .table {
      properties := omitted.orDefault "properties" {}
        (properties.withDefaults (omitted.below (.field "properties")))
      grid := omitted.orDefault "grid" [] grid
      rows := omitted.orDefault "rows" []
        (rowsWithDefaults (omitted.below (.field "rows")).items rows) }

/-- The rows of a table, each with the default of each field that is left out. -/
def rowsWithDefaults (omitted : Nat → Places) : List (Row Element) → List (Row Element)
  | [] => []
  | row :: rows =>
    row.withDefaults (omitted 0) :: rowsWithDefaults (fun index => omitted (index + 1)) rows

/-- A row with the default of each field that is left out. -/
def Row.withDefaults (omitted : Places) : Row Element → Row Element
  | ⟨properties, cells⟩ => {
      properties := omitted.orDefault "properties" {}
        (properties.withDefaults (omitted.below (.field "properties")))
      cells := omitted.orDefault "cells" []
        (cellsWithDefaults (omitted.below (.field "cells")).items cells) }

/-- The cells of a row, each with the default of each field that is left out. -/
def cellsWithDefaults (omitted : Nat → Places) : List (Cell Element) → List (Cell Element)
  | [] => []
  | cell :: cells =>
    cell.withDefaults (omitted 0) :: cellsWithDefaults (fun index => omitted (index + 1)) cells

/-- A cell with the default of each field that is left out: without its body it is empty. -/
def Cell.withDefaults (omitted : Places) : Cell Element → Cell Element
  | ⟨properties, body⟩ => {
      properties := omitted.orDefault "properties" {}
        (properties.withDefaults (omitted.below (.field "properties")))
      body := omitted.orDefault "body" []
        (bodyWithDefaults (omitted.below (.field "body")).items body) }

/-- The elements of a body, each with the default of each field that is left out. -/
def bodyWithDefaults (omitted : Nat → Places) : List Element → List Element
  | [] => []
  | element :: rest =>
    element.withDefaults (omitted 0) :: bodyWithDefaults (fun index => omitted (index + 1)) rest

end

/-- A document with the default of each field that is left out. -/
def Document.withDefaults (omitted : Places) (d : Document) : Document where
  body := omitted.orDefault "body" [] (bodyWithDefaults (omitted.below (.field "body")).items d.body)

/-! ## Nothing left out -/

@[simp] theorem EmbeddedImage.withDefaults_nowhere (i : EmbeddedImage) :
    i.withDefaults .nowhere = i := rfl

@[simp] theorem RunContent.withDefaults_nowhere (content : RunContent) :
    content.withDefaults .nowhere = content := by
  cases content <;> rfl

@[simp] theorem Run.withDefaults_nowhere (run : Run) : run.withDefaults .nowhere = run := by
  obtain ⟨properties, content⟩ := run
  exact congrArg (Run.mk properties) content.withDefaults_nowhere

@[simp] theorem Paragraph.withDefaults_nowhere (p : Paragraph) : p.withDefaults .nowhere = p := by
  obtain ⟨properties, runs⟩ := p
  have hruns : (runs.mapIdx fun _ run => run.withDefaults .nowhere) = runs :=
    List.mapIdx_eq_iff.2 fun index => by simp
  exact congrArg (Paragraph.mk properties) hruns

mutual

theorem Element.withDefaults_nowhere : (element : Element) →
    element.withDefaults .nowhere = element
  | .paragraph p => congrArg Element.paragraph p.withDefaults_nowhere
  | .table ⟨properties, grid, rows⟩ =>
    congrArg (fun rows => Element.table ⟨properties, grid, rows⟩) (rowsWithDefaults_nowhere rows)

theorem rowsWithDefaults_nowhere : (rows : List (Row Element)) →
    rowsWithDefaults (fun _ => .nowhere) rows = rows
  | [] => rfl
  | row :: rows => congrArg₂ List.cons row.withDefaults_nowhere (rowsWithDefaults_nowhere rows)

theorem Row.withDefaults_nowhere : (row : Row Element) → row.withDefaults .nowhere = row
  | ⟨properties, cells⟩ => congrArg (Row.mk properties) (cellsWithDefaults_nowhere cells)

theorem cellsWithDefaults_nowhere : (cells : List (Cell Element)) →
    cellsWithDefaults (fun _ => .nowhere) cells = cells
  | [] => rfl
  | cell :: cells =>
    congrArg₂ List.cons cell.withDefaults_nowhere (cellsWithDefaults_nowhere cells)

theorem Cell.withDefaults_nowhere : (cell : Cell Element) → cell.withDefaults .nowhere = cell
  | ⟨properties, body⟩ => congrArg (Cell.mk properties) (bodyWithDefaults_nowhere body)

theorem bodyWithDefaults_nowhere : (body : List Element) →
    bodyWithDefaults (fun _ => .nowhere) body = body
  | [] => rfl
  | element :: rest =>
    congrArg₂ List.cons element.withDefaults_nowhere (bodyWithDefaults_nowhere rest)

end

theorem Document.withDefaults_nowhere (d : Document) : d.withDefaults .nowhere = d :=
  congrArg Document.mk (bodyWithDefaults_nowhere d.body)

end StyledTemplate
