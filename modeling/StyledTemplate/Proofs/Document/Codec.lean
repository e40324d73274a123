import StyledTemplate.Proofs.Document.Defaults

/-!
# Documents written as JSON are read back

Writing a document and reading the result gives the document back, and if some of the fields that
have a default are left out of what is written, reading gives the document with these fields at
their defaults (`Document.reads_what_it_writes`). Every record is read field by field, with one
lemma for each kind of record; the lemmas of elements, rows and cells are one mutual induction over
the document.
-/

namespace StyledTemplate

open Json (Key Places recordParts? fieldD nullable)

/-! ## Values that may be absent, and choices -/

@[simp] theorem Json.nullable_ofString? (omitted : Places) (s : Option String) :
    nullable string? ((ofString? s).without omitted) = some s :=
  nullable_without (string?_without omitted) rfl s

@[simp] theorem Json.nullable_ofUInt32? (omitted : Places) (n : Option UInt32) :
    nullable uint32? ((ofUInt32? n).without omitted) = some n :=
  nullable_without (uint32?_without omitted) rfl n

@[simp] theorem Json.nullable_int32? (omitted : Places) (n : Option Int32) :
    nullable int32? (((n.map fun n => integer n.toInt).getD .null).without omitted) = some n :=
  nullable_without (int32?_without omitted) rfl n

@[simp] theorem Alignment.nullable_toJson? (omitted : Places) (a : Option Alignment) :
    nullable ofJson? ((toJson? a).without omitted) = some a :=
  Json.nullable_without (fun a => by cases a <;> rfl) rfl a

@[simp] theorem ImageFormat.ofJson?_name (omitted : Places) (format : ImageFormat) :
    ofJson? ((Json.string format.name).without omitted) = some format := by
  cases format <;> rfl

@[simp] theorem ImagePosition.ofJson?_name (omitted : Places) (position : ImagePosition) :
    ofJson? ((Json.string position.name).without omitted) = some position := by
  cases position <;> rfl

@[simp] theorem ImageWrap.ofJson?_name (omitted : Places) (wrap : ImageWrap) :
    ofJson? ((Json.string wrap.name).without omitted) = some wrap := by
  cases wrap <;> rfl

@[simp] theorem VerticalMerge.nullable_name (omitted : Places) (m : Option VerticalMerge) :
    nullable (Json.oneOf? names)
      (((m.map fun m => Json.string m.name).getD .null).without omitted) = some m :=
  Json.nullable_without (fun m => by cases m <;> rfl) rfl m

@[simp] theorem VerticalAlign.nullable_name (omitted : Places) (a : Option VerticalAlign) :
    nullable (Json.oneOf? names)
      (((a.map fun a => Json.string a.name).getD .null).without omitted) = some a :=
  Json.nullable_without (fun a => by cases a <;> rfl) rfl a

/-! ## Formatting -/

@[simp] theorem RunProperties.ofJson?_without (p : RunProperties) (omitted : Places) :
    ofJson? (p.toJson.without omitted) = some (p.withDefaults omitted) := by
  rw [ofJson?, toJson, Json.without_object]
  generalize hfields : Fields.ofList _ = fields
  -- no two fields have one name, so each is found as it was written
  have hfind := Fields.find?_of_ofList_eq hfields (by simp [Fields.keys])
  refine Json.recordParts?_bind fun parts hparts => ?_
  simp only [Json.fieldD_without hparts, hfind]
  simp [Fields.find?, withDefaults]

@[simp] theorem ParagraphProperties.ofJson?_without (p : ParagraphProperties) (omitted : Places) :
    ofJson? (p.toJson.without omitted) = some (p.withDefaults omitted) := by
  rw [ofJson?, toJson, Json.without_object]
  generalize hfields : Fields.ofList _ = fields
  have hfind := Fields.find?_of_ofList_eq hfields (by simp [Fields.keys])
  refine Json.recordParts?_bind fun parts hparts => ?_
  simp only [Json.fieldD_without hparts, hfind]
  simp [Fields.find?, withDefaults]

@[simp] theorem TableProperties.ofJson?_without (p : TableProperties) (omitted : Places) :
    ofJson? (p.toJson.without omitted) = some (p.withDefaults omitted) := by
  rw [ofJson?, toJson, Json.without_object]
  generalize hfields : Fields.ofList _ = fields
  have hfind := Fields.find?_of_ofList_eq hfields (by simp [Fields.keys])
  refine Json.recordParts?_bind fun parts hparts => ?_
  simp only [Json.fieldD_without hparts, hfind]
  simp [Fields.find?, withDefaults]

@[simp] theorem RowProperties.ofJson?_without (p : RowProperties) (omitted : Places) :
    ofJson? (p.toJson.without omitted) = some (p.withDefaults omitted) := by
  rw [ofJson?, toJson, Json.without_object]
  generalize hfields : Fields.ofList _ = fields
  have hfind := Fields.find?_of_ofList_eq hfields (by simp [Fields.keys])
  refine Json.recordParts?_bind fun parts hparts => ?_
  simp only [Json.fieldD_without hparts, hfind]
  simp [Fields.find?, withDefaults]

@[simp] theorem CellProperties.ofJson?_without (p : CellProperties) (omitted : Places) :
    ofJson? (p.toJson.without omitted) = some (p.withDefaults omitted) := by
  rw [ofJson?, toJson, Json.without_object]
  generalize hfields : Fields.ofList _ = fields
  have hfind := Fields.find?_of_ofList_eq hfields (by simp [Fields.keys])
  refine Json.recordParts?_bind fun parts hparts => ?_
  simp only [Json.fieldD_without hparts, hfind]
  simp [Fields.find?, withDefaults]

/-! ## Runs and paragraphs -/

theorem EmbeddedImage.ofJson?_without (i : EmbeddedImage) {omitted : Places}
    (h : Document.Part.image.Allows omitted) :
    ofJson? (i.toJson.without omitted) = some (i.withDefaults omitted) := by
  rw [ofJson?, toJson, Json.without_object]
  generalize hfields : Fields.ofList _ = fields
  have hfind := Fields.find?_of_ofList_eq hfields (by simp [Fields.keys])
  refine Json.recordParts?_bind fun parts hparts => ?_
  simp (disch := exact h.kept rfl) only [Json.fieldD_without hparts, Json.field_without hparts,
    hfind]
  simp [Fields.find?, Json.array?_without_atoms, withDefaults]

theorem RunContent.ofJson?_without (content : RunContent) {omitted : Places}
    (h : Document.Part.content.Allows omitted) :
    ofJson? (content.toJson.without omitted) = some (content.withDefaults omitted) := by
  cases content with
  | lineBreak => rfl
  | text s =>
    rw [toJson, Json.without_case (h.kept rfl)]
    rfl
  | image picture =>
    have hnext : Document.Part.content.next? (.field "image") = some .image := rfl
    have hpicture := picture.ofJson?_without (h.below hnext)
    have hopen (value : Json) :
        ofJson? (.object [("image", value)]) = (EmbeddedImage.ofJson? value).map .image := rfl
    rw [toJson, Json.without_case (h.kept rfl), hopen, hpicture]
    rfl

theorem Run.ofJson?_without (run : Run) {omitted : Places}
    (h : Document.Part.run.Allows omitted) :
    ofJson? (run.toJson.without omitted) = some (run.withDefaults omitted) := by
  have hnext : Document.Part.run.next? (.field "content") = some .content := rfl
  have hcontent := run.content.ofJson?_without (h.below hnext)
  rw [ofJson?, toJson, Json.without_object]
  refine Json.recordParts?_bind fun parts hparts => ?_
  simp (disch := exact h.kept rfl) only [Json.fieldD_without hparts, Json.field_without hparts]
  simp [Fields.find?, hcontent, withDefaults]

theorem Paragraph.ofJson?_without (p : Paragraph) {omitted : Places}
    (h : Document.Part.paragraph.Allows omitted) :
    ofJson? (p.toJson.without omitted) = some (p.withDefaults omitted) := by
  have hnext : Document.Part.paragraph.next? (.field "runs") = some (.listOf .run) := rfl
  have hread (index : Nat) (run : Run) (_ : run ∈ p.runs) :=
    run.ofJson?_without ((h.below hnext).items index)
  have hruns := Json.mapM_itemsWithout Run.withDefaults _ p.runs hread
  rw [← Json.array?_without] at hruns
  rw [ofJson?, toJson, Json.without_object]
  refine Json.recordParts?_bind fun parts hparts => ?_
  simp only [Json.fieldD_without hparts]
  simp [Fields.find?, hruns, withDefaults]

/-! ## Elements -/

theorem Element.ofJson?_paragraph (value : Json) :
    ofJson? (.object [("paragraph", value)]) = (Paragraph.ofJson? value).map .paragraph := by
  rw [ofJson?]
  rfl

theorem Element.ofJson?_table (value : Json) :
    ofJson? (.object [("table", value)]) =
      (recordParts? ["properties", "grid", "rows"] 0 value).bind fun fields =>
      (fieldD fields "properties" TableProperties.ofJson? {}).bind fun properties =>
      (fieldD fields "grid" (Json.array? Json.uint32?) []).bind fun grid =>
      (fieldD fields "rows" (Json.array? Row.ofJson?) []).bind fun rows =>
        some (.table { properties, grid, rows }) := by
  rw [ofJson?]
  simp only [Json.casePart?, Option.bind_eq_bind, Json.partD_array]
  rfl

theorem Row.ofJson?_eq (j : Json) :
    ofJson? j =
      (recordParts? ["properties", "cells"] 0 j).bind fun fields =>
      (fieldD fields "properties" RowProperties.ofJson? {}).bind fun properties =>
      (fieldD fields "cells" (Json.array? Cell.ofJson?) []).bind fun cells =>
        some { properties, cells } := by
  rw [ofJson?]
  simp only [Option.bind_eq_bind, Json.partD_array]
  rfl

theorem Cell.ofJson?_eq (j : Json) :
    ofJson? j =
      (recordParts? ["properties", "body"] 0 j).bind fun fields =>
      (fieldD fields "properties" CellProperties.ofJson? {}).bind fun properties =>
      (fieldD fields "body" (Json.array? Element.ofJson?) []).bind fun body =>
        some { properties, body } := by
  rw [ofJson?]
  simp only [Option.bind_eq_bind, Json.partD_array]
  rfl

mutual

theorem Element.ofJson?_without (element : Element) (omitted : Places)
    (h : Document.Part.element.Allows omitted) :
    Element.ofJson? (element.toJson.without omitted) = some (element.withDefaults omitted) := by
  cases element with
  | paragraph p =>
    have hnext : Document.Part.element.next? (.field "paragraph") = some .paragraph := rfl
    have hparagraph := p.ofJson?_without (h.below hnext)
    rw [Element.toJson, Json.without_case (h.kept rfl), Element.ofJson?_paragraph, hparagraph]
    rfl
  | table t =>
    -- only the rows have elements in them again; the grid has no fields to leave out
    obtain ⟨properties, grid, rows⟩ := t
    have hnext : Document.Part.element.next? (.field "table") = some .table := rfl
    have hlist : Document.Part.table.next? (.field "rows") = some (.listOf .row) := rfl
    have hrows := rowsOfJson?_without rows _ ((h.below hnext).below hlist).items
    rw [← Json.array?_without] at hrows
    rw [Element.toJson, Json.without_case (h.kept rfl), Element.ofJson?_table, Json.without_object]
    refine Json.recordParts?_bind fun parts hparts => ?_
    simp only [Json.fieldD_without hparts]
    simp [Fields.find?, Json.array?_without_atoms, hrows, Element.withDefaults]

theorem rowsOfJson?_without (rows : List (Row Element)) (omitted : Nat → Places)
    (h : ∀ index, Document.Part.row.Allows (omitted index)) :
    (Json.itemsWithout omitted (rowsToJson rows)).mapM Row.ofJson? =
      some (rowsWithDefaults omitted rows) := by
  cases rows with
  | nil => rfl
  | cons row rest =>
    have hrow := row.ofJson?_without (omitted 0) (h 0)
    have hrest := rowsOfJson?_without rest _ fun index => h (index + 1)
    rw [rowsToJson, Json.itemsWithout, List.mapM_cons, hrow, hrest]
    rfl

theorem Row.ofJson?_without (row : Row Element) (omitted : Places)
    (h : Document.Part.row.Allows omitted) :
    Row.ofJson? (row.toJson.without omitted) = some (row.withDefaults omitted) := by
  obtain ⟨properties, cells⟩ := row
  have hlist : Document.Part.row.next? (.field "cells") = some (.listOf .cell) := rfl
  have hcells := cellsOfJson?_without cells _ (h.below hlist).items
  rw [← Json.array?_without] at hcells
  rw [Row.toJson, Row.ofJson?_eq, Json.without_object]
  refine Json.recordParts?_bind fun parts hparts => ?_
  simp only [Json.fieldD_without hparts]
  simp [Fields.find?, hcells, Row.withDefaults]

theorem cellsOfJson?_without (cells : List (Cell Element)) (omitted : Nat → Places)
    (h : ∀ index, Document.Part.cell.Allows (omitted index)) :
    (Json.itemsWithout omitted (cellsToJson cells)).mapM Cell.ofJson? =
      some (cellsWithDefaults omitted cells) := by
  cases cells with
  | nil => rfl
  | cons cell rest =>
    have hcell := cell.ofJson?_without (omitted 0) (h 0)
    have hrest := cellsOfJson?_without rest _ fun index => h (index + 1)
    rw [cellsToJson, Json.itemsWithout, List.mapM_cons, hcell, hrest]
    rfl

theorem Cell.ofJson?_without (cell : Cell Element) (omitted : Places)
    (h : Document.Part.cell.Allows omitted) :
    Cell.ofJson? (cell.toJson.without omitted) = some (cell.withDefaults omitted) := by
  obtain ⟨properties, body⟩ := cell
  have hlist : Document.Part.cell.next? (.field "body") = some (.listOf .element) := rfl
  have hbody := bodyOfJson?_without body _ (h.below hlist).items
  rw [← Json.array?_without] at hbody
  rw [Cell.toJson, Cell.ofJson?_eq, Json.without_object]
  refine Json.recordParts?_bind fun parts hparts => ?_
  simp only [Json.fieldD_without hparts]
  simp [Fields.find?, hbody, Cell.withDefaults]

theorem bodyOfJson?_without (body : List Element) (omitted : Nat → Places)
    (h : ∀ index, Document.Part.element.Allows (omitted index)) :
    (Json.itemsWithout omitted (bodyToJson body)).mapM Element.ofJson? =
      some (bodyWithDefaults omitted body) := by
  cases body with
  | nil => rfl
  | cons element rest =>
    have helement := element.ofJson?_without (omitted 0) (h 0)
    have hrest := bodyOfJson?_without rest _ fun index => h (index + 1)
    rw [bodyToJson, Json.itemsWithout, List.mapM_cons, helement, hrest]
    rfl

end

/-! ## Documents -/

theorem Document.ofJson?_without (d : Document) {omitted : Places}
    (h : Part.document.Allows omitted) :
    ofJson? (d.toJson.without omitted) = some (d.withDefaults omitted) := by
  have hlist : Part.document.next? (.field "body") = some (.listOf .element) := rfl
  have hbody := bodyOfJson?_without d.body _ (h.below hlist).items
  rw [← Json.array?_without] at hbody
  rw [ofJson?, toJson, Json.without_object]
  refine Json.recordParts?_bind fun parts hparts => ?_
  simp only [Json.fieldD_without hparts]
  simp [Fields.find?, hbody, withDefaults]

/-- Reading what was written for a document gives the document back. If fields that have a default
are left out of what was written, any of them, reading gives the document with just these fields at
their defaults. -/
theorem Document.reads_what_it_writes (d : Document) :
    ofJson? d.toJson = some d ∧
      ∀ omitted : Places, Part.document.Allows omitted →
        ofJson? (d.toJson.without omitted) = some (d.withDefaults omitted) := by
  refine ⟨?_, fun omitted h => d.ofJson?_without h⟩
  have hnowhere : Part.document.Allows .nowhere := fun _ _ homitted => by cases homitted
  have hread := d.ofJson?_without hnowhere
  rwa [Json.without_nowhere, withDefaults_nowhere] at hread

/-- A receipt: a line in bold, and a table of one cell that spans two columns. -/
def Document.receipt : Document where
  body := [
    .paragraph { runs := [.ofText "Receipt" { bold := true }] },
    .table {
      properties := { borders := true }
      grid := [900, 900]
      rows := [{ cells := [{
        properties := { width := some 1800, gridSpan := 2 }
        body := [.paragraph (.ofText "Total")] }] }] }]

/-- The formatting of the line, the span of the cell and its body. -/
def Document.receiptOmissions : List (List Key) :=
  let line := [.field "body", .item 0, .field "paragraph", .field "runs", .item 0]
  let cell :=
    [.field "body", .item 1, .field "table", .field "rows", .item 0, .field "cells", .item 0]
  [line ++ [.field "properties"], cell ++ [.field "properties", .field "grid_span"],
    cell ++ [.field "body"]]

theorem Document.receipt_without_fields :
    Part.document.Allows (.ofList receiptOmissions) ∧
      ofJson? receipt.toJson = some receipt ∧
      ofJson? (receipt.toJson.without (.ofList receiptOmissions)) = some {
        body := [
          .paragraph { runs := [.ofText "Receipt"] },
          .table {
            properties := { borders := true }
            grid := [900, 900]
            rows := [{ cells := [{
              properties := { width := some 1800, gridSpan := 1 }
              body := [] }] }] }] } := by
  have hallows : Part.document.Allows (.ofList receiptOmissions) := .ofList (by decide)
  have hread := reads_what_it_writes receipt
  exact ⟨hallows, hread.1, hread.2 _ hallows⟩

end StyledTemplate
