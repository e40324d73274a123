import Mathlib.Data.List.Forall2
import StyledTemplate.Proofs.Block.Nodes
import StyledTemplate.Proofs.Render.Loose

/-!
# What is visited when blocks are rendered

Rendering some blocks goes into the branches whose conditions hold and into the bodies of loops once
for each entry. `visitsOf` lists what it comes to there: everything that is shown within a line, and
the paragraphs and tables, each in its scene. Whatever rendering shows is what is shown for each of
these by itself, one after the other (`visitsShow_renderBlocks`).
-/

namespace StyledTemplate

/-- Something that rendering comes to, in the scene in which it does. -/
structure Visit where
  /-- The scene. -/
  scene : Scene
  /-- What is rendered. -/
  block : Block

/-- The scenes in which the body of a loop over a list is rendered. -/
def Scene.entryScenes (scene : Scene) (list : String) : List Scene :=
  let entries := (scene.context.entries list).toOption.getD []
  entries.zipIdx.map fun entry => scene.enter entry.1 entry.2 entries.length

mutual

/-- What rendering a block comes to, on the branches and in the runs through loops that are taken. -/
def Block.visits (scene : Scene) : Block → List Visit
  | .text text style => [⟨scene, .text text style⟩]
  | .static run => [⟨scene, .static run⟩]
  | .placeholder path style position => [⟨scene, .placeholder path style position⟩]
  | .image name style position => [⟨scene, .image name style position⟩]
  | .conditional condition thenBlocks none _ =>
    if scene.context.holds condition then visitsOf scene thenBlocks else []
  | .conditional condition thenBlocks (some elseBlocks) _ =>
    if scene.context.holds condition then visitsOf scene thenBlocks
    else visitsOf scene elseBlocks
  | .loop list body _ => (scene.entryScenes list).flatMap fun inner => visitsOf inner body
  | .named _ body _ origin => visitsOf (scene.within origin) body
  | .inherits _ _ => []
  | .paragraph properties children hasDirectives =>
    [⟨scene, .paragraph properties children hasDirectives⟩]
  | .table table => [⟨scene, .table table⟩]

/-- What rendering some blocks comes to. -/
def visitsOf (scene : Scene) : List Block → List Visit
  | [] => []
  | block :: blocks => block.visits scene ++ visitsOf scene blocks

end

namespace Visit

/-- Has a placeholder for a variable been come to? -/
def isPlaceholder (visit : Visit) : Bool :=
  match visit.block with
  | .placeholder _ _ _ => true
  | _ => false

/-- The run that is shown within a line. -/
inductive ShowsRun : Visit → Run → Prop
  | text (scene text style) : ShowsRun ⟨scene, .text text style⟩ (.ofText text style)
  | static (scene run) : ShowsRun ⟨scene, .static run⟩ run
  | placeholder {scene : Scene} {path text} (style position)
      (htext : scene.context.text path = .ok text) :
      ShowsRun ⟨scene, .placeholder path style position⟩ (.ofText text style)
  | image {scene : Scene} {name style run} (position)
      (himage : scene.imageRun name style = .ok run) :
      ShowsRun ⟨scene, .image name style position⟩ run

/-- The paragraphs and tables that are shown for a paragraph or a table. -/
inductive ShowsElements : Visit → List Element → Prop
  | paragraph {scene : Scene} {properties children hasDirectives elements}
      (h : renderBlock scene (.paragraph properties children hasDirectives) =
        .ok (elements.map .element)) :
      ShowsElements ⟨scene, .paragraph properties children hasDirectives⟩ elements
  | table {scene : Scene} {table elements}
      (h : renderBlock scene (.table table) = .ok (elements.map .element)) :
      ShowsElements ⟨scene, .table table⟩ elements

/-- The fragments that are shown. -/
inductive Shows (visit : Visit) : List Fragment → Prop
  | run {run : Run} (hrun : visit.ShowsRun run) (hplain : visit.isPlaceholder = false) :
      Shows visit [.run run]
  | value {run : Run} (hrun : visit.ShowsRun run) (hplaceholder : visit.isPlaceholder = true) :
      Shows visit [.value run]
  | elements {elements : List Element} (helements : visit.ShowsElements elements) :
      Shows visit (elements.map .element)

theorem ShowsElements.isPlaceholder {visit : Visit} {elements : List Element}
    (h : visit.ShowsElements elements) : visit.isPlaceholder = false := by
  cases h <;> rfl

end Visit

/-! ## What is shown -/

/-- The fragments are what is shown for the visits, one after the other. -/
def VisitsShow (visits : List Visit) (fragments : List Fragment) : Prop :=
  ∃ parts, List.Forall₂ Visit.Shows visits parts ∧ fragments = parts.flatten

namespace VisitsShow

theorem nil : VisitsShow [] [] := ⟨[], .nil, rfl⟩

theorem single {visit : Visit} {fragments : List Fragment} (h : visit.Shows fragments) :
    VisitsShow [visit] fragments := ⟨[fragments], .cons h .nil, by simp⟩

theorem append {visits visits' : List Visit} {fragments fragments' : List Fragment}
    (h : VisitsShow visits fragments) (h' : VisitsShow visits' fragments') :
    VisitsShow (visits ++ visits') (fragments ++ fragments') := by
  obtain ⟨parts, hparts, rfl⟩ := h
  obtain ⟨parts', hparts', rfl⟩ := h'
  exact ⟨parts ++ parts', List.rel_append hparts hparts', List.flatten_append.symm⟩

end VisitsShow

theorem Assembled.exists_elements {fragments : List Fragment} (h : Assembled fragments) :
    ∃ elements : List Element, fragments = elements.map .element := by
  induction fragments with
  | nil => exact ⟨[], rfl⟩
  | cons fragment fragments ih =>
    obtain ⟨hfirst, hrest⟩ := List.forall_mem_cons.1 h
    obtain ⟨elements, rfl⟩ := ih hrest
    cases fragment with
    | run run => cases hfirst
    | value run => cases hfirst
    | element element => exact ⟨element :: elements, rfl⟩

/-- For the entries of a list, one after the other, what is shown in the scene of each. -/
theorem visitsShow_renderEntries {scene : Scene} {render : Scene → Except Error (List Fragment)}
    {visits : Scene → List Visit}
    (hrender : ∀ inner shown, render inner = .ok shown → VisitsShow (visits inner) shown)
    {length : Nat} {entries : List Value} {index : Nat} {shown : List Fragment}
    (h : scene.renderEntries render length index entries = .ok shown) :
    VisitsShow (((entries.zipIdx index).map fun entry =>
      scene.enter entry.1 entry.2 length).flatMap visits) shown := by
  induction entries generalizing index shown with
  | nil =>
    obtain rfl := Except.ok.inj h
    exact .nil
  | cons entry entries ih =>
    rw [Scene.renderEntries] at h
    obtain ⟨first, hfirst, h⟩ := exists_of_bind_eq_ok h
    obtain ⟨rest, hrest, h⟩ := exists_of_bind_eq_ok h
    obtain rfl := Except.ok.inj h
    rw [List.zipIdx_cons, List.map_cons, List.flatMap_cons]
    exact (hrender _ first hfirst).append (ih hrest)

mutual

theorem visitsShow_renderBlock : ∀ (block : Block) (scene : Scene) (shown : List Fragment),
    renderBlock scene block = .ok shown → VisitsShow (block.visits scene) shown
  | .text text style, scene, shown, h => by
    rw [renderBlock] at h
    obtain rfl := Except.ok.inj h
    rw [Block.visits]
    exact .single (.run (.text scene text style) rfl)
  | .static run, scene, shown, h => by
    rw [renderBlock] at h
    obtain rfl := Except.ok.inj h
    rw [Block.visits]
    exact .single (.run (.static scene run) rfl)
  | .placeholder path style position, scene, shown, h => by
    rw [renderBlock] at h
    obtain ⟨text, htext, h⟩ := exists_of_bind_eq_ok h
    obtain rfl := Except.ok.inj h
    have htext := mapError_eq_ok_iff.1 htext
    rw [Block.visits]
    exact .single (.value (.placeholder style position htext) rfl)
  | .image name style position, scene, shown, h => by
    rw [renderBlock] at h
    obtain ⟨run, himage, h⟩ := exists_of_bind_eq_ok h
    obtain rfl := Except.ok.inj h
    have himage := mapError_eq_ok_iff.1 himage
    rw [Block.visits]
    exact .single (.run (.image position himage) rfl)
  | .conditional condition thenBlocks none _, scene, shown, h => by
    rw [renderBlock] at h
    rw [Block.visits]
    by_cases hholds : scene.context.holds condition
    · rw [if_pos hholds] at h ⊢
      exact visitsShow_renderBlocks thenBlocks scene shown h
    · rw [if_neg hholds] at h ⊢
      obtain rfl := Except.ok.inj h
      exact .nil
  | .conditional condition thenBlocks (some elseBlocks) _, scene, shown, h => by
    rw [renderBlock] at h
    rw [Block.visits]
    by_cases hholds : scene.context.holds condition
    · rw [if_pos hholds] at h ⊢
      exact visitsShow_renderBlocks thenBlocks scene shown h
    · rw [if_neg hholds] at h ⊢
      exact visitsShow_renderBlocks elseBlocks scene shown h
  | .loop list body position, scene, shown, h => by
    rw [renderBlock] at h
    obtain ⟨entries, hentries, h⟩ := exists_of_bind_eq_ok h
    have hentries := mapError_eq_ok_iff.1 hentries
    rw [Block.visits, Scene.entryScenes, hentries]
    exact visitsShow_renderEntries (visitsShow_renderBlocks body) h
  | .named _ body _ origin, scene, shown, h => by
    rw [renderBlock] at h
    rw [Block.visits]
    exact visitsShow_renderBlocks body (scene.within origin) shown h
  | .inherits _ _, scene, shown, h => by
    rw [renderBlock] at h
    obtain rfl := Except.ok.inj h
    rw [Block.visits]
    exact .nil
  | .paragraph properties children hasDirectives, scene, shown, h => by
    have hassembled := assembled_renderBlock (.paragraph properties children hasDirectives) none
      (by rw [Block.looseOwners]) scene shown h
    obtain ⟨elements, rfl⟩ := hassembled.exists_elements
    rw [Block.visits]
    exact .single (.elements (.paragraph h))
  | .table table, scene, shown, h => by
    have hassembled := assembled_renderBlock (.table table) none
      (by rw [Block.looseOwners]) scene shown h
    obtain ⟨elements, rfl⟩ := hassembled.exists_elements
    rw [Block.visits]
    exact .single (.elements (.table h))

/-- What rendering blocks shows is what is shown for all that it comes to. -/
theorem visitsShow_renderBlocks : ∀ (blocks : List Block) (scene : Scene) (shown : List Fragment),
    renderBlocks scene blocks = .ok shown → VisitsShow (visitsOf scene blocks) shown
  | [], scene, shown, h => by
    rw [renderBlocks] at h
    obtain rfl := Except.ok.inj h
    rw [visitsOf]
    exact .nil
  | block :: blocks, scene, shown, h => by
    rw [renderBlocks] at h
    obtain ⟨first, hfirst, h⟩ := exists_of_bind_eq_ok h
    obtain ⟨rest, hrest, h⟩ := exists_of_bind_eq_ok h
    obtain rfl := Except.ok.inj h
    rw [visitsOf]
    exact (visitsShow_renderBlock block scene first hfirst).append
      (visitsShow_renderBlocks blocks scene rest hrest)

end

/-! ## What can be visited -/

mutual

theorem Block.visits_subset : ∀ (block : Block) (scene : Scene),
    ∀ visit ∈ block.visits scene, visit.block ∈ block.nodes
  | .text text style, scene, visit, h => by
    rw [Block.visits, List.mem_singleton] at h
    rw [h, Block.nodes]
    exact List.mem_cons_self
  | .static run, scene, visit, h => by
    rw [Block.visits, List.mem_singleton] at h
    rw [h, Block.nodes]
    exact List.mem_cons_self
  | .placeholder path style position, scene, visit, h => by
    rw [Block.visits, List.mem_singleton] at h
    rw [h, Block.nodes]
    exact List.mem_cons_self
  | .image name style position, scene, visit, h => by
    rw [Block.visits, List.mem_singleton] at h
    rw [h, Block.nodes]
    exact List.mem_cons_self
  | .conditional condition thenBlocks none _, scene, visit, h => by
    rw [Block.visits] at h
    rw [Block.nodes]
    split at h
    · exact List.mem_cons_of_mem _ (visitsOf_subset thenBlocks scene visit h)
    · cases h
  | .conditional condition thenBlocks (some elseBlocks) _, scene, visit, h => by
    rw [Block.visits] at h
    rw [Block.nodes]
    refine List.mem_cons_of_mem _ (List.mem_append.2 ?_)
    split at h
    · exact .inl (visitsOf_subset thenBlocks scene visit h)
    · exact .inr (visitsOf_subset elseBlocks scene visit h)
  | .loop list body position, scene, visit, h => by
    rw [Block.visits] at h
    obtain ⟨inner, -, hvisit⟩ := List.mem_flatMap.1 h
    rw [Block.nodes]
    exact List.mem_cons_of_mem _ (visitsOf_subset body inner visit hvisit)
  | .named _ body _ origin, scene, visit, h => by
    rw [Block.visits] at h
    rw [Block.nodes]
    exact List.mem_cons_of_mem _ (visitsOf_subset body (scene.within origin) visit h)
  | .inherits _ _, scene, visit, h => by
    rw [Block.visits] at h
    cases h
  | .paragraph properties children hasDirectives, scene, visit, h => by
    rw [Block.visits, List.mem_singleton] at h
    rw [h, Block.nodes]
    exact List.mem_cons_self
  | .table ⟨properties, grid, rows⟩, scene, visit, h => by
    rw [Block.visits, List.mem_singleton] at h
    rw [h, Block.nodes]
    exact List.mem_cons_self

/-- Rendering blocks comes only to what stands in them. -/
theorem visitsOf_subset : ∀ (blocks : List Block) (scene : Scene),
    ∀ visit ∈ visitsOf scene blocks, visit.block ∈ nodesOf blocks
  | [], scene, visit, h => by
    rw [visitsOf] at h
    cases h
  | block :: blocks, scene, visit, h => by
    rw [visitsOf] at h
    rw [nodesOf_cons, List.mem_append]
    rcases List.mem_append.1 h with hfirst | hrest
    · exact .inl (block.visits_subset scene visit hfirst)
    · exact .inr (visitsOf_subset blocks scene visit hrest)

end

end StyledTemplate
