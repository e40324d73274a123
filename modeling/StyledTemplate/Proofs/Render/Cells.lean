import Mathlib.Data.List.Forall2
import StyledTemplate.Proofs.Engine.Literal

/-!
# The cells of rendered tables

No cell of a rendered document is empty, but it need not have a paragraph: only a cell in which
nothing is shown gets an empty one. `cellsShown` lists the cells of a tree of blocks that are shown,
in order, each as often and in the scenes in which it is shown. They are the cells of the rendered
document, and one of these is without a paragraph exactly if its body shows nothing but tables
(`renderDocument_cells`).
-/

namespace StyledTemplate

/-! ## The body of a single cell -/

def Element.isTable : Element → Bool
  | .paragraph _ => false
  | .table _ => true

def Fragment.isTable : Fragment → Bool
  | .run _ => false
  | .value _ => false
  | .element e => e.isTable

/-- A body with a paragraph in it, next to its tables. -/
def HasParagraph (body : List Element) : Prop := ∃ element ∈ body, element.isTable = false

instance (body : List Element) : Decidable (HasParagraph body) :=
  inferInstanceAs (Decidable (∃ element ∈ body, element.isTable = false))

theorem hasParagraph_append (as bs : List Element) :
    HasParagraph (as ++ bs) ↔ HasParagraph as ∨ HasParagraph bs := by
  simp only [HasParagraph, List.mem_append, or_and_right, exists_or]

theorem hasParagraph_cons (element : Element) (rest : List Element) :
    HasParagraph (element :: rest) ↔ element.isTable = false ∨ HasParagraph rest := by
  simp only [HasParagraph, List.exists_mem_cons_iff]

theorem hasParagraph_loose (loose : List Run) :
    HasParagraph (if loose = [] then [] else [.paragraph (.ofRuns loose)]) ↔ loose ≠ [] := by
  split
  · next h => simp [HasParagraph, h]
  · next h => simp [HasParagraph, h, Element.isTable]

theorem hasParagraph_elementsAfter (loose : List Run) (fragments : List Fragment) :
    HasParagraph (elementsAfter loose fragments) ↔
      loose ≠ [] ∨ ∃ fragment ∈ fragments, fragment.isTable = false := by
  induction fragments generalizing loose with
  | nil =>
    rw [elementsAfter, hasParagraph_loose]
    simp
  | cons fragment fragments ih =>
    rw [List.exists_mem_cons_iff]
    cases fragment with
    | run run =>
      rw [elementsAfter, ih]
      simp [Fragment.isTable]
    | value run =>
      rw [elementsAfter, ih]
      simp [Fragment.isTable]
    | element element =>
      rw [elementsAfter, hasParagraph_append, hasParagraph_loose, hasParagraph_cons, ih]
      simp [Fragment.isTable]

theorem elementsAfter_ne_nil {loose : List Run} {fragments : List Fragment}
    (h : loose ≠ [] ∨ fragments ≠ []) : elementsAfter loose fragments ≠ [] := by
  induction fragments generalizing loose with
  | nil =>
    have hloose : loose ≠ [] := h.resolve_right (not_not.2 rfl)
    rw [elementsAfter, if_neg hloose]
    exact List.cons_ne_nil _ _
  | cons fragment fragments ih =>
    cases fragment with
    | run run =>
      rw [elementsAfter]
      exact ih (.inl (by simp))
    | value run =>
      rw [elementsAfter]
      exact ih (.inl (by simp))
    | element element =>
      rw [elementsAfter]
      exact List.append_ne_nil_of_right_ne_nil _ (List.cons_ne_nil _ _)

theorem cellBodyOf_nil : cellBodyOf [] = [.paragraph {}] := rfl

theorem cellBodyOf_eq_elementsOf {fragments : List Fragment} (h : fragments ≠ []) :
    cellBodyOf fragments = elementsOf fragments := by
  have hne : elementsOf fragments ≠ [] := elementsAfter_ne_nil (.inr h)
  rw [cellBodyOf]
  split
  · next hnil => exact absurd hnil hne
  · rfl

theorem cellBodyOf_ne_nil (fragments : List Fragment) : cellBodyOf fragments ≠ [] := by
  by_cases h : fragments = []
  · rw [h, cellBodyOf_nil]
    exact List.cons_ne_nil _ _
  · rw [cellBodyOf_eq_elementsOf h]
    exact elementsAfter_ne_nil (.inr h)

/-- A cell has a paragraph if nothing is shown in it, or something that is no table. -/
theorem hasParagraph_cellBodyOf (fragments : List Fragment) :
    HasParagraph (cellBodyOf fragments) ↔
      fragments = [] ∨ ∃ fragment ∈ fragments, fragment.isTable = false := by
  by_cases h : fragments = []
  · rw [h, cellBodyOf_nil, hasParagraph_cons]
    simp [Element.isTable]
  · rw [cellBodyOf_eq_elementsOf h, elementsOf, hasParagraph_elementsAfter]
    simp [h]

/-! ## The cells that are shown -/

/-- A cell of a template with the scene that it is shown in. -/
structure ShownCell where
  /-- The scene. -/
  scene : Scene
  /-- The blocks of the cell. -/
  body : List Block

/-- The cell is rendered to the given body. -/
def ShownCell.Shows (cell : ShownCell) (content : List Element) : Prop :=
  ∃ fragments, renderBlocks cell.scene cell.body = .ok fragments ∧ content = cellBodyOf fragments

/-- The cells that are shown for each entry of a list. -/
def Scene.eachShown (scene : Scene) (list : String) (cells : Scene → List ShownCell) :
    List ShownCell :=
  let entries := (scene.context.entries list).toOption.getD []
  entries.zipIdx.flatMap fun entry => cells (scene.enter entry.1 entry.2 entries.length)

mutual

/-- The cells of a block that are shown. A paragraph that had no directives shows only runs. -/
def Block.cellsShown (scene : Scene) : Block → List ShownCell
  | .conditional condition thenBlocks elseBlocks _ =>
    if scene.context.holds condition then cellsShown scene thenBlocks
    else
      match elseBlocks with
      | none => []
      | some blocks => cellsShown scene blocks
  | .loop list body _ => scene.eachShown list fun scene => cellsShown scene body
  | .named _ body _ origin => cellsShown (scene.within origin) body
  | .paragraph _ children true => cellsShown scene children
  | .paragraph _ _ false => []
  | .table ⟨_, _, rows⟩ => rowsShown scene rows
  | .text _ _ => []
  | .static _ => []
  | .placeholder _ _ _ => []
  | .image _ _ _ => []
  | .inherits _ _ => []

/-- The cells of some blocks that are shown. -/
def cellsShown (scene : Scene) : List Block → List ShownCell
  | [] => []
  | block :: blocks => block.cellsShown scene ++ cellsShown scene blocks

/-- The cells of some rows that are shown. -/
def rowsShown (scene : Scene) : List (RowBlock Block) → List ShownCell
  | [] => []
  | .static ⟨_, cells⟩ :: rows => rowShown scene cells ++ rowsShown scene rows
  | .loop list ⟨_, cells⟩ _ :: rows =>
    scene.eachShown list (fun scene => rowShown scene cells) ++ rowsShown scene rows

/-- The cells of a row, each followed by the cells in it that are shown. -/
def rowShown (scene : Scene) : List (Cell Block) → List ShownCell
  | [] => []
  | ⟨_, body⟩ :: cells => ⟨scene, body⟩ :: cellsShown scene body ++ rowShown scene cells

end

/-! ## The cells of fragments -/

def Fragment.cellContents : Fragment → List (List Element)
  | .run _ => []
  | .value _ => []
  | .element e => e.cellContents

def fragmentsContents (fragments : List Fragment) : List (List Element) :=
  fragments.flatMap Fragment.cellContents

@[simp] theorem fragmentsContents_nil : fragmentsContents [] = [] := rfl

@[simp] theorem fragmentsContents_cons (fragment : Fragment) (fragments : List Fragment) :
    fragmentsContents (fragment :: fragments) =
      fragment.cellContents ++ fragmentsContents fragments := rfl

@[simp] theorem fragmentsContents_append (as bs : List Fragment) :
    fragmentsContents (as ++ bs) = fragmentsContents as ++ fragmentsContents bs :=
  List.flatMap_append

@[simp] theorem bodyContents_append (as bs : List Element) :
    bodyContents (as ++ bs) = bodyContents as ++ bodyContents bs := by
  induction as with
  | nil => rw [List.nil_append, bodyContents, List.nil_append]
  | cons a as ih => rw [List.cons_append, bodyContents, ih, bodyContents, List.append_assoc]

@[simp] theorem rowsContents_append (as bs : List (Row Element)) :
    rowsContents (as ++ bs) = rowsContents as ++ rowsContents bs := by
  induction as with
  | nil => rw [List.nil_append, rowsContents, List.nil_append]
  | cons a as ih =>
    obtain ⟨properties, cells⟩ := a
    rw [List.cons_append, rowsContents, ih, rowsContents, List.append_assoc]

/-- There are no cells in a paragraph, and so none in paragraphs that runs are put into. -/
theorem fragmentsContents_paragraphOf (merge : Bool) (properties : ParagraphProperties)
    (runs : List Run) (keep : Bool) :
    fragmentsContents (paragraphOf merge properties runs keep) = [] := by
  rw [paragraphOf]
  split
  · rfl
  · rw [fragmentsContents_cons, Fragment.cellContents, Element.cellContents]
    rfl

theorem fragmentsContents_assembleAfter (merge : Bool) (properties : ParagraphProperties)
    (runs : List Run) (keep : Bool) (fragments : List Fragment) :
    fragmentsContents (assembleAfter merge properties runs keep fragments) =
      fragmentsContents fragments := by
  induction fragments generalizing runs keep with
  | nil => rw [assembleAfter, fragmentsContents_paragraphOf, fragmentsContents_nil]
  | cons fragment fragments ih =>
    cases fragment with
    | run run => rw [assembleAfter, ih, fragmentsContents_cons, Fragment.cellContents]; rfl
    | value run => rw [assembleAfter, ih, fragmentsContents_cons, Fragment.cellContents]; rfl
    | element element =>
      rw [assembleAfter, fragmentsContents_append, fragmentsContents_paragraphOf,
        fragmentsContents_cons, ih, fragmentsContents_cons]
      rfl

theorem bodyContents_loose (loose : List Run) :
    bodyContents (if loose = [] then [] else [.paragraph (.ofRuns loose)]) = [] := by
  split
  · rw [bodyContents]
  · rw [bodyContents, Element.cellContents, bodyContents]
    rfl

theorem bodyContents_elementsAfter (loose : List Run) (fragments : List Fragment) :
    bodyContents (elementsAfter loose fragments) = fragmentsContents fragments := by
  induction fragments generalizing loose with
  | nil => rw [elementsAfter, bodyContents_loose, fragmentsContents_nil]
  | cons fragment fragments ih =>
    cases fragment with
    | run run => rw [elementsAfter, ih, fragmentsContents_cons, Fragment.cellContents]; rfl
    | value run => rw [elementsAfter, ih, fragmentsContents_cons, Fragment.cellContents]; rfl
    | element element =>
      rw [elementsAfter, bodyContents_append, bodyContents_loose, bodyContents, ih,
        fragmentsContents_cons, Fragment.cellContents]
      rfl

theorem bodyContents_cellBodyOf (fragments : List Fragment) :
    bodyContents (cellBodyOf fragments) = fragmentsContents fragments := by
  by_cases h : fragments = []
  · rw [h, cellBodyOf_nil, bodyContents, Element.cellContents, bodyContents]
    rfl
  · rw [cellBodyOf_eq_elementsOf h, elementsOf, bodyContents_elementsAfter]

/-! ## Rendering -/

section Rendering

/-- Some cells are rendered to the given bodies, in order. -/
abbrev ShowsAll : List ShownCell → List (List Element) → Prop := List.Forall₂ ShownCell.Shows

/-- Joining what is rendered for the entries of a list joins its cells. -/
theorem showsAll_renderEntries {α : Type} {contents : List α → List (List Element)}
    (hnil : contents [] = []) (happend : ∀ as bs, contents (as ++ bs) = contents as ++ contents bs)
    {render : Scene → Except Error (List α)} {cells : Scene → List ShownCell}
    (hrender : ∀ scene shown, render scene = .ok shown → ShowsAll (cells scene) (contents shown))
    {scene : Scene} {length : Nat} {entries : List Value} {index : Nat} {shown : List α}
    (h : scene.renderEntries render length index entries = .ok shown) :
    ShowsAll ((entries.zipIdx index).flatMap fun entry =>
      cells (scene.enter entry.1 entry.2 length)) (contents shown) := by
  induction entries generalizing index shown with
  | nil =>
    obtain rfl := Except.ok.inj h
    rw [hnil]
    exact .nil
  | cons entry entries ih =>
    rw [Scene.renderEntries] at h
    obtain ⟨first, hfirst, h⟩ := exists_of_bind_eq_ok h
    obtain ⟨rest, hrest, h⟩ := exists_of_bind_eq_ok h
    obtain rfl := Except.ok.inj h
    rw [List.zipIdx_cons, List.flatMap_cons, happend]
    exact List.rel_append (hrender _ first hfirst) (ih hrest)

theorem showsAll_renderLoop {α : Type} {contents : List α → List (List Element)}
    (hnil : contents [] = []) (happend : ∀ as bs, contents (as ++ bs) = contents as ++ contents bs)
    {render : Scene → Except Error (List α)} {cells : Scene → List ShownCell}
    (hrender : ∀ scene shown, render scene = .ok shown → ShowsAll (cells scene) (contents shown))
    {scene : Scene} {list : String} {position : Position} {shown : List α}
    (h : (do
        let entries ← scene.located position (scene.context.entries list)
        scene.renderEntries render entries.length 0 entries) = .ok shown) :
    ShowsAll (scene.eachShown list cells) (contents shown) := by
  obtain ⟨entries, hentries, h⟩ := exists_of_bind_eq_ok h
  have hlist : (scene.context.entries list).toOption.getD [] = entries := by
    rw [mapError_eq_ok_iff.1 hentries]
    rfl
  rw [Scene.eachShown, hlist]
  exact showsAll_renderEntries hnil happend hrender h

mutual

theorem showsAll_renderBlock : ∀ (block : Block) (scene : Scene) (shown : List Fragment),
    renderBlock scene block = .ok shown →
      ShowsAll (block.cellsShown scene) (fragmentsContents shown)
  | .text text style, scene, shown, h => by
    rw [renderBlock] at h
    obtain rfl := Except.ok.inj h
    rw [Block.cellsShown]
    exact .nil
  | .static run, scene, shown, h => by
    rw [renderBlock] at h
    obtain rfl := Except.ok.inj h
    rw [Block.cellsShown]
    exact .nil
  | .placeholder path style position, scene, shown, h => by
    rw [renderBlock] at h
    obtain ⟨text, -, h⟩ := exists_of_bind_eq_ok h
    obtain rfl := Except.ok.inj h
    rw [Block.cellsShown]
    exact .nil
  | .image name style position, scene, shown, h => by
    rw [renderBlock] at h
    obtain ⟨run, -, h⟩ := exists_of_bind_eq_ok h
    obtain rfl := Except.ok.inj h
    rw [Block.cellsShown]
    exact .nil
  | .conditional condition thenBlocks none _, scene, shown, h => by
    rw [renderBlock] at h
    rw [Block.cellsShown]
    split
    · next hholds =>
      rw [if_pos hholds] at h
      exact showsAll_renderBlocks thenBlocks scene shown h
    · next hholds =>
      rw [if_neg hholds] at h
      obtain rfl := Except.ok.inj h
      exact .nil
  | .conditional condition thenBlocks (some elseBlocks) _, scene, shown, h => by
    rw [renderBlock] at h
    rw [Block.cellsShown]
    split
    · next hholds =>
      rw [if_pos hholds] at h
      exact showsAll_renderBlocks thenBlocks scene shown h
    · next hholds =>
      rw [if_neg hholds] at h
      exact showsAll_renderBlocks elseBlocks scene shown h
  | .loop list body position, scene, shown, h => by
    rw [renderBlock] at h
    rw [Block.cellsShown]
    exact showsAll_renderLoop fragmentsContents_nil fragmentsContents_append
      (showsAll_renderBlocks body) h
  | .named _ body _ origin, scene, shown, h => by
    rw [renderBlock] at h
    rw [Block.cellsShown]
    exact showsAll_renderBlocks body (scene.within origin) shown h
  | .inherits _ _, scene, shown, h => by
    rw [renderBlock] at h
    obtain rfl := Except.ok.inj h
    rw [Block.cellsShown]
    exact .nil
  | .paragraph properties children true, scene, shown, h => by
    rw [renderBlock] at h
    obtain ⟨fragments, hfragments, h⟩ := exists_of_bind_eq_ok h
    obtain rfl := Except.ok.inj h
    rw [Block.cellsShown, assembleParagraph, if_pos rfl, fragmentsContents_assembleAfter]
    exact showsAll_renderBlocks children scene fragments hfragments
  | .paragraph properties children false, scene, shown, h => by
    rw [renderBlock] at h
    obtain ⟨fragments, -, h⟩ := exists_of_bind_eq_ok h
    obtain rfl := Except.ok.inj h
    rw [Block.cellsShown, assembleParagraph, if_neg Bool.false_ne_true, fragmentsContents_cons,
      Fragment.cellContents, Element.cellContents]
    exact .nil
  | .table ⟨properties, grid, rows⟩, scene, shown, h => by
    rw [renderBlock] at h
    obtain ⟨shownRows, hrows, h⟩ := exists_of_bind_eq_ok h
    obtain rfl := Except.ok.inj h
    rw [Block.cellsShown, fragmentsContents_cons, Fragment.cellContents, Element.cellContents,
      fragmentsContents_nil, List.append_nil]
    exact showsAll_renderRows rows scene shownRows hrows

theorem showsAll_renderBlocks : ∀ (blocks : List Block) (scene : Scene) (shown : List Fragment),
    renderBlocks scene blocks = .ok shown →
      ShowsAll (cellsShown scene blocks) (fragmentsContents shown)
  | [], scene, shown, h => by
    rw [renderBlocks] at h
    obtain rfl := Except.ok.inj h
    rw [cellsShown]
    exact .nil
  | block :: blocks, scene, shown, h => by
    rw [renderBlocks] at h
    obtain ⟨first, hfirst, h⟩ := exists_of_bind_eq_ok h
    obtain ⟨rest, hrest, h⟩ := exists_of_bind_eq_ok h
    obtain rfl := Except.ok.inj h
    rw [cellsShown, fragmentsContents_append]
    exact List.rel_append (showsAll_renderBlock block scene first hfirst)
      (showsAll_renderBlocks blocks scene rest hrest)

theorem showsAll_renderRows : ∀ (rows : List (RowBlock Block)) (scene : Scene)
    (shown : List (Row Element)), renderRows scene rows = .ok shown →
      ShowsAll (rowsShown scene rows) (rowsContents shown)
  | [], scene, shown, h => by
    rw [renderRows] at h
    obtain rfl := Except.ok.inj h
    rw [rowsShown, rowsContents]
    exact .nil
  | .static ⟨properties, cells⟩ :: rows, scene, shown, h => by
    rw [renderRows] at h
    obtain ⟨first, hfirst, h⟩ := exists_of_bind_eq_ok h
    obtain ⟨rest, hrest, h⟩ := exists_of_bind_eq_ok h
    obtain rfl := Except.ok.inj h
    rw [rowsShown, rowsContents]
    exact List.rel_append (showsAll_renderCells cells scene first hfirst)
      (showsAll_renderRows rows scene rest hrest)
  | .loop list ⟨properties, cells⟩ position :: rows, scene, shown, h => by
    have hrow : ∀ (inner : Scene) (shown : List (Row Element)),
        (do return [⟨properties, ← renderCells inner cells⟩] : Except Error _) = .ok shown →
          ShowsAll (rowShown inner cells) (rowsContents shown) := by
      intro inner shown h
      obtain ⟨contents, hcontents, h⟩ := exists_of_bind_eq_ok h
      obtain rfl := Except.ok.inj h
      rw [rowsContents, rowsContents, List.append_nil]
      exact showsAll_renderCells cells inner contents hcontents
    rw [renderRows, ← bind_assoc] at h
    obtain ⟨first, hfirst, h⟩ := exists_of_bind_eq_ok h
    obtain ⟨rest, hrest, h⟩ := exists_of_bind_eq_ok h
    obtain rfl := Except.ok.inj h
    rw [rowsShown, rowsContents_append]
    have hrows := showsAll_renderLoop (by rw [rowsContents]) rowsContents_append hrow hfirst
    exact List.rel_append hrows (showsAll_renderRows rows scene rest hrest)

theorem showsAll_renderCells : ∀ (cells : List (Cell Block)) (scene : Scene)
    (shown : List (Cell Element)), renderCells scene cells = .ok shown →
      ShowsAll (rowShown scene cells) (cellsContents shown)
  | [], scene, shown, h => by
    rw [renderCells] at h
    obtain rfl := Except.ok.inj h
    rw [rowShown, cellsContents]
    exact .nil
  | ⟨properties, body⟩ :: cells, scene, shown, h => by
    rw [renderCells] at h
    obtain ⟨fragments, hfragments, h⟩ := exists_of_bind_eq_ok h
    obtain ⟨rest, hrest, h⟩ := exists_of_bind_eq_ok h
    obtain rfl := Except.ok.inj h
    rw [rowShown, cellsContents, bodyContents_cellBodyOf]
    have hcell : ShownCell.Shows ⟨scene, body⟩ (cellBodyOf fragments) :=
      ⟨fragments, hfragments, rfl⟩
    have hbody := showsAll_renderBlocks body scene fragments hfragments
    have hrest := showsAll_renderCells cells scene rest hrest
    exact List.rel_append (.cons hcell hbody) hrest

end

theorem showsAll_renderDocument {scene : Scene} {blocks : List Block} {d : Document}
    (h : renderDocument scene blocks = .ok d) :
    ShowsAll (cellsShown scene blocks) d.cellContents := by
  obtain ⟨fragments, hfragments, h⟩ := exists_of_bind_eq_ok h
  obtain rfl := Except.ok.inj h
  rw [Document.cellContents, elementsOf, bodyContents_elementsAfter]
  exact showsAll_renderBlocks blocks scene fragments hfragments

theorem ShownCell.Shows.ne_nil {cell : ShownCell} {content : List Element}
    (h : cell.Shows content) : content ≠ [] := by
  obtain ⟨fragments, -, rfl⟩ := h
  exact cellBodyOf_ne_nil fragments

theorem ShowsAll.ne_nil {cells : List ShownCell} {contents : List (List Element)}
    (h : ShowsAll cells contents) : ∀ content ∈ contents, content ≠ [] := by
  induction h with
  | nil => exact List.forall_mem_nil _
  | cons hcell _ ih => exact List.forall_mem_cons.2 ⟨hcell.ne_nil, ih⟩

/-- The cells of a rendered document are those that are shown, in order. None of them is empty, and
one is without a paragraph exactly if its body shows nothing but tables, and at least one. -/
theorem renderDocument_cells {scene : Scene} {blocks : List Block} {d : Document}
    (h : renderDocument scene blocks = .ok d) :
    (∀ content ∈ d.cellContents, content ≠ []) ∧
      List.Forall₂ (fun cell content => ∃ fragments,
          renderBlocks cell.scene cell.body = .ok fragments ∧
          (¬ HasParagraph content ↔
            fragments ≠ [] ∧ ∀ fragment ∈ fragments, fragment.isTable = true))
        (cellsShown scene blocks) d.cellContents := by
  have hall := showsAll_renderDocument h
  refine ⟨hall.ne_nil, hall.imp fun cell content hshows => ?_⟩
  obtain ⟨fragments, hfragments, rfl⟩ := hshows
  refine ⟨fragments, hfragments, ?_⟩
  rw [hasParagraph_cellBodyOf]
  simp

/-- A cell with a note that is not always shown, and a table. -/
def noteCell : Document :=
  let line (text : String) : Element := .paragraph { runs := [.ofText text] }
  let single (body : List Element) : Element := .table { rows := [{ cells := [{ body }] }] }
  let note := "\x7b\x7b#if note\x7d\x7dNote\x7b\x7b/if\x7d\x7d"
  { body := [single [line note, single [line "inner"]]] }

/-- Without its note, the cell has nothing in it but the table. -/
theorem noteCell_lacks_paragraph : ∃ t engine d,
    (Engine.ofSettings {} default).loadDocument "t" noteCell = .ok (t, engine) ∧
      engine.render "t" {} = .ok d ∧ ∃ content ∈ d.cellContents, ¬ HasParagraph content := by
  have hrun : ((Engine.ofSettings {} default).loadDocument "t" noteCell).toOption.bind
      (fun loaded => (loaded.2.render "t" {}).toOption.map fun d =>
        d.cellContents.map fun content => decide (HasParagraph content)) =
      some [false, true] := by decide +kernel
  obtain ⟨⟨t, engine⟩, hloaded, hrun⟩ := Option.bind_eq_some_iff.1 hrun
  obtain ⟨d, hd, hparagraphs⟩ := Option.map_eq_some_iff.1 hrun
  refine ⟨t, engine, d, toOption_eq_some_iff.1 hloaded, toOption_eq_some_iff.1 hd, ?_⟩
  have hfalse : false ∈ d.cellContents.map fun content => decide (HasParagraph content) := by
    rw [hparagraphs]
    exact List.mem_cons_self
  obtain ⟨content, hcontent, hlacks⟩ := List.mem_map.1 hfalse
  exact ⟨content, hcontent, of_decide_eq_false hlacks⟩

/-- Both cells are shown, and the inner one has a paragraph. -/
theorem noteCell_cells : ∃ t d scene, Template.ofDocument {} "t" noteCell = .ok t ∧
    renderDocument scene t.blocks = .ok d ∧ d.cellContents.length = 2 ∧
      List.Forall₂ (fun cell content => ∃ fragments,
          renderBlocks cell.scene cell.body = .ok fragments ∧
          (¬ HasParagraph content ↔
            fragments ≠ [] ∧ ∀ fragment ∈ fragments, fragment.isTable = true))
        (cellsShown scene t.blocks) d.cellContents := by
  let scene : Scene := (Engine.ofSettings {} default).scene {} "t"
  have hrun : (Template.ofDocument {} "t" noteCell).toOption.bind
      (fun t => (renderDocument scene t.blocks).toOption.map fun d => d.cellContents.length) =
      some 2 := by decide +kernel
  obtain ⟨t, ht, hrun⟩ := Option.bind_eq_some_iff.1 hrun
  obtain ⟨d, hd, hlength⟩ := Option.map_eq_some_iff.1 hrun
  have hrender := toOption_eq_some_iff.1 hd
  exact ⟨t, d, scene, toOption_eq_some_iff.1 ht, hrender, hlength, (renderDocument_cells hrender).2⟩

end Rendering

end StyledTemplate
