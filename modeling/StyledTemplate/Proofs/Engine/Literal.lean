import StyledTemplate.Proofs.Directive.Lines
import StyledTemplate.Proofs.Engine.Failures
import StyledTemplate.Proofs.Template.Literal

/-!
# Documents without directives stay as they are

A document without directives is rendered as it was loaded, with all of its runs, tables and
properties, whatever is bound to names and whatever the settings are by then. Only a cell without
anything in it would get an empty paragraph. So a text without directives is rendered as the same
text, less the carriage returns at the ends of its lines (`Engine.render_literal`).
-/

namespace StyledTemplate

/-! ## Cells -/

mutual

/-- The bodies of the cells in an element, at every depth. -/
def Element.cellContents : Element → List (List Element)
  | .paragraph _ => []
  | .table ⟨_, _, rows⟩ => rowsContents rows

/-- The bodies of the cells in the rows of a table. -/
def rowsContents : List (Row Element) → List (List Element)
  | [] => []
  | ⟨_, cells⟩ :: rows => cellsContents cells ++ rowsContents rows

/-- The bodies of some cells, and of the cells within them. -/
def cellsContents : List (Cell Element) → List (List Element)
  | [] => []
  | ⟨_, body⟩ :: cells => body :: bodyContents body ++ cellsContents cells

/-- The bodies of the cells in a body. -/
def bodyContents : List Element → List (List Element)
  | [] => []
  | element :: rest => element.cellContents ++ bodyContents rest

end

/-- The bodies of all cells of a document, at every depth. -/
def Document.cellContents (d : Document) : List (List Element) := bodyContents d.body

/-! ## Rendering -/

theorem elementsOf_map_element (body : List Element) :
    elementsOf (body.map .element) = body := by
  rw [elementsOf]
  induction body with
  | nil => rfl
  | cons element rest ih =>
    rw [List.map_cons, elementsAfter, if_pos rfl, List.nil_append, ih]

/-- A cell that has something in it gets no empty paragraph. -/
theorem cellBodyOf_map_element {body : List Element} (h : body ≠ []) :
    cellBodyOf (body.map .element) = body := by
  rw [cellBodyOf, elementsOf_map_element]
  cases body with
  | nil => exact absurd rfl h
  | cons element rest => rfl

theorem renderBlocks_map_static (scene : Scene) (runs : List Run) :
    renderBlocks scene (runs.map .static) = .ok (runs.map .run) := by
  induction runs with
  | nil =>
    rw [List.map_nil, renderBlocks]
    rfl
  | cons run runs ih =>
    rw [List.map_cons, renderBlocks, renderBlock, ih]
    rfl

section Rendering

variable (scene : Scene)

mutual

theorem renderBlock_literal : ∀ element : Element, (∀ body ∈ element.cellContents, body ≠ []) →
    renderBlock scene element.literal = .ok [.element element]
  | .paragraph p, _ => by
    have hruns : (p.runs.map Fragment.run).filterMap Fragment.run? = p.runs := by
      rw [List.filterMap_map]
      exact List.filterMap_some
    rw [Element.literal, renderBlock, renderBlocks_map_static]
    show Except.ok (assembleParagraph _ _ _ _) = _
    rw [assembleParagraph, if_neg Bool.false_ne_true, hruns]
  | .table ⟨properties, grid, rows⟩, h => by
    rw [Element.cellContents] at h
    rw [Element.literal, renderBlock, renderRows_literalRows rows h]
    rfl

theorem renderRows_literalRows : ∀ rows : List (Row Element),
    (∀ body ∈ rowsContents rows, body ≠ []) → renderRows scene (literalRows rows) = .ok rows
  | [], _ => by rw [literalRows, renderRows]
  | ⟨properties, cells⟩ :: rows, h => by
    rw [rowsContents, List.forall_mem_append] at h
    rw [literalRows, renderRows, renderCells_literalCells cells h.1,
      renderRows_literalRows rows h.2]
    rfl

theorem renderCells_literalCells : ∀ cells : List (Cell Element),
    (∀ body ∈ cellsContents cells, body ≠ []) → renderCells scene (literalCells cells) = .ok cells
  | [], _ => by rw [literalCells, renderCells]
  | ⟨properties, body⟩ :: cells, h => by
    rw [cellsContents, List.forall_mem_append, List.forall_mem_cons] at h
    rw [literalCells, renderCells, renderBlocks_literals_eq body h.1.2,
      renderCells_literalCells cells h.2]
    show Except.ok (Cell.mk properties (cellBodyOf _) :: cells) = _
    rw [cellBodyOf_map_element h.1.1]

/-- The blocks that show a body as it is are rendered as its elements. -/
theorem renderBlocks_literals_eq : ∀ body : List Element,
    (∀ content ∈ bodyContents body, content ≠ []) →
      renderBlocks scene (literals body) = .ok (body.map .element)
  | [], _ => by
    rw [literals, renderBlocks]
    rfl
  | element :: rest, h => by
    rw [bodyContents, List.forall_mem_append] at h
    rw [literals, renderBlocks, renderBlock_literal element h.1, renderBlocks_literals_eq rest h.2]
    rfl

end

theorem renderDocument_literals {d : Document} (h : ∀ body ∈ d.cellContents, body ≠ []) :
    renderDocument scene (literals d.body) = .ok d := by
  rw [renderDocument, renderBlocks_literals_eq scene d.body h]
  show Except.ok (Document.mk (elementsOf _)) = _
  rw [elementsOf_map_element]

end Rendering

/-! ## Texts -/

theorem elementTexts_map_paragraph (ps : List Paragraph) :
    elementTexts (ps.map .paragraph) = ps.map Paragraph.chars := by
  induction ps with
  | nil => rw [List.map_nil, elementTexts, List.map_nil]
  | cons p ps ih => rw [List.map_cons, elementTexts, ih, Element.chars, List.map_cons]

theorem chars_ofText (text : String) : (Paragraph.ofText text).chars = text.toList :=
  List.append_nil _

theorem body_ofText (text : String) :
    (Document.ofText text).body = ((Text.splitOn '\n' text.toList).map fun line =>
      Paragraph.ofText (String.ofList (trimReturns line))).map .paragraph := by
  rw [List.map_map]
  rfl

theorem bodyContents_map_paragraph (ps : List Paragraph) :
    bodyContents (ps.map .paragraph) = [] := by
  induction ps with
  | nil => rw [List.map_nil, bodyContents]
  | cons p ps ih => rw [List.map_cons, bodyContents, ih, Element.cellContents, List.append_nil]

/-- Making lines into paragraphs and back takes the carriage returns off their ends. -/
theorem plainText_ofText (text : String) :
    (Document.ofText text).plainText = String.ofList (dropReturns text.toList) := by
  rw [Document.plainText, bodyText, body_ofText, elementTexts_map_paragraph, List.map_map,
    ← intercalate_trimReturns]
  congr 3
  funext line
  exact (chars_ofText _).trans String.toList_ofList

/-- The paragraphs of a text whose lines have no directives have none. -/
theorem reads_nil_of_isDirectiveFree {strict : Bool} {text : String}
    (h : ∀ line ∈ Text.splitOn '\n' text.toList, IsDirectiveFree strict (trimReturns line)) :
    ∀ p ∈ (Document.ofText text).allParagraphs, p.Reads strict [] := by
  have hbody : (Document.ofText text).allParagraphs =
      (Text.splitOn '\n' text.toList).map fun line =>
        Paragraph.ofText (String.ofList (trimReturns line)) := by
    rw [Document.allParagraphs, body_ofText, bodyParagraphs_map_paragraph]
  rw [hbody, List.forall_mem_map]
  intro line hline
  have htext : runsText (Paragraph.ofText (String.ofList (trimReturns line))).runs =
      trimReturns line := by
    simp [Paragraph.ofText, Run.ofText, runsText_cons, Run.text?, runsText]
  rw [Paragraph.Reads, htext]
  exact isDirectiveFree_iff.1 (h line hline)

/-! ## Loading and rendering -/

namespace Engine

theorem render_of_literals {later : Engine} {name : String} {d : Document}
    (ht : later.template? name = some ⟨name, literals d.body, none, NameMap.empty, d⟩)
    (hcells : ∀ body ∈ d.cellContents, body ≠ []) (bindings : Bindings) :
    later.render name bindings = .ok d := by
  rw [render_of_root ht rfl]
  exact renderDocument_literals _ hcells

/-- A document without directives that can be loaded, and has no empty cells, is rendered as it is,
and a text without directives in any of its lines can be loaded and is rendered as it is but for the
carriage returns at the ends of these: whatever the data, and in whatever engine the template is
kept by then. -/
theorem render_literal (engine : Engine) (name : String) :
    (∀ d t loaded, engine.loadDocument name d = .ok (t, loaded) →
      (∀ p ∈ d.allParagraphs, ∀ token ∈ p.tokens engine.settings.strict,
        token.directive? = none) →
      (∀ body ∈ d.cellContents, body ≠ []) →
        loaded.template? name = some t ∧ ∀ later : Engine, later.template? name = some t →
          ∀ bindings, later.render name bindings = .ok d) ∧
    (∀ text : String, (∀ line ∈ Text.splitOn '\n' text.toList,
        IsDirectiveFree engine.settings.strict (trimReturns line)) →
      ∃ t loaded, engine.load name text = .ok (t, loaded) ∧
        loaded.template? name = some t ∧ ∀ later : Engine, later.template? name = some t →
          ∀ bindings, later.renderText name bindings =
            .ok (String.ofList (dropReturns text.toList))) := by
  constructor
  · intro d t loaded hload hfree hcells
    obtain ⟨hparse, rfl⟩ := loadDocument_ok_iff.1 hload
    obtain rfl := Template.eq_literals_of_ofDocument hparse fun p hp =>
      placedOf_eq_nil_of_forall (hfree p hp)
    refine ⟨template?_register engine _, fun later hlater bindings => ?_⟩
    exact render_of_literals hlater hcells bindings
  · intro text hfree
    have hparse := Template.ofDocument_literals (reads_nil_of_isDirectiveFree hfree) name
    refine ⟨_, _, loadDocument_ok_iff.2 ⟨hparse, rfl⟩, template?_register engine _, ?_⟩
    intro later hlater bindings
    have hcells : ∀ body ∈ (Document.ofText text).cellContents, body ≠ [] := by
      rw [Document.cellContents, body_ofText, bodyContents_map_paragraph]
      exact List.forall_mem_nil _
    rw [renderText, render_of_literals hlater hcells bindings, ← plainText_ofText]
    rfl

/-- A draft with an empty run, braces that make no directive, and a table. -/
def draft : Document where
  body := [.paragraph (.ofRuns [.ofText "Dear \x7b", .ofText "", .ofText "\x7breader"]),
    .table { rows := [{ cells := [{ body := [.paragraph (.ofText "\x7b\x7bto do\x7d\x7d")] }] }] }]

/-- The draft is rendered as it is, and its first line too, less the carriage returns. -/
theorem draft_unchanged :
    (∃ t loaded, (ofSettings {} default).loadDocument "draft" draft = .ok (t, loaded) ∧
      loaded.render "draft" {} = .ok draft) ∧
    (∃ t loaded, (ofSettings {} default).load "line" "Dear \x7b\x7breader\r\r\n" =
        .ok (t, loaded) ∧
      loaded.renderText "line" {} = .ok "Dear \x7b\x7breader\n") := by
  constructor
  · obtain ⟨⟨t, loaded⟩, hload⟩ : ∃ loaded,
        (ofSettings {} default).loadDocument "draft" draft = .ok loaded :=
      exists_of_isSome_toOption (by decide +kernel)
    have hfree : ∀ p ∈ draft.allParagraphs, ∀ token ∈ p.tokens false, token.directive? = none := by
      decide +kernel
    have hcells : ∀ body ∈ draft.cellContents, body ≠ [] := by
      simp [draft, Document.cellContents, bodyContents, Element.cellContents, rowsContents,
        cellsContents]
    obtain ⟨ht, hlater⟩ :=
      (render_literal (ofSettings {} default) "draft").1 draft t loaded hload hfree hcells
    exact ⟨t, loaded, hload, hlater loaded ht {}⟩
  · have htokens : (tokenize false "Dear \x7b\x7breader\r\r\n".toList).toOption =
        some [⟨.text "Dear \x7b\x7breader\r\r\n", 0, 16⟩] := by decide +kernel
    have hfree : IsDirectiveFree false "Dear \x7b\x7breader\r\r\n".toList :=
      ⟨_, toOption_eq_some_iff.1 htokens, by decide⟩
    obtain ⟨t, loaded, hload, ht, hlater⟩ :=
      (render_literal (ofSettings {} default) "line").2 _ (isDirectiveFree_line hfree)
    exact ⟨t, loaded, hload, hlater loaded ht {}⟩

end Engine

end StyledTemplate
