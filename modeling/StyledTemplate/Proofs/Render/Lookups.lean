import StyledTemplate.Render.Render

/-!
# What rendering looks up

Rendering depends on the data only through what it looks up: the paths of placeholders, conditions
and loops, and the names of images. `lookupsOf` lists them for a tree of blocks. If two scenes answer
all of them alike, then they render the tree alike (`renderDocument_compares`); what "alike" means is
left open, as long as it carries over from the steps of a computation to its result.
-/

namespace StyledTemplate

/-! ## Lookups of a tree -/

/-- Something that is looked up to render a block. -/
inductive Lookup where
  /-- The path of a placeholder, a condition or a loop. -/
  | path (path : String)
  /-- The name of an image. -/
  | image (name : String)

mutual

/-- What is looked up to render a block, whatever the conditions in it turn out to be. -/
def Block.lookups : Block → List Lookup
  | .placeholder path _ _ => [.path path]
  | .image name _ _ => [.image name]
  | .conditional condition thenBlocks none _ => .path condition :: lookupsOf thenBlocks
  | .conditional condition thenBlocks (some elseBlocks) _ =>
    .path condition :: (lookupsOf thenBlocks ++ lookupsOf elseBlocks)
  | .loop list body _ => .path list :: lookupsOf body
  | .named _ body _ _ => lookupsOf body
  | .paragraph _ children _ => lookupsOf children
  | .table ⟨_, _, rows⟩ => rowLookups rows
  | .text _ _ => []
  | .inherits _ _ => []
  | .static _ => []

def lookupsOf : List Block → List Lookup
  | [] => []
  | block :: blocks => block.lookups ++ lookupsOf blocks

def rowLookups : List (RowBlock Block) → List Lookup
  | [] => []
  | .static ⟨_, cells⟩ :: rows => cellLookups cells ++ rowLookups rows
  | .loop list ⟨_, cells⟩ _ :: rows => .path list :: (cellLookups cells ++ rowLookups rows)

def cellLookups : List (Cell Block) → List Lookup
  | [] => []
  | ⟨_, body⟩ :: cells => lookupsOf body ++ cellLookups cells

end

/-! ## Comparing outcomes -/

/-- A way to compare outcomes that carries over from the steps of a computation to its result. -/
structure Comparison (rel : ∀ α : Type, Except Error α → Except Error α → Prop) : Prop where
  /-- An outcome compares to itself. -/
  refl {α : Type} (x : Except Error α) : rel α x x
  /-- If first steps compare, and what follows them does, then so do the computations. -/
  bind {α β : Type} {x y : Except Error α} {f g : α → Except Error β} (hxy : rel α x y)
    (hfg : ∀ a, rel β (f a) (g a)) : rel β (x >>= f) (y >>= g)
  /-- Naming errors anew keeps the comparison. -/
  mapError {α : Type} {x y : Except Error α} (f : Error → Error) (hxy : rel α x y) :
    rel α (x.mapError f) (y.mapError f)

/-- The same outcome. -/
theorem comparison_eq : Comparison fun _ x y => x = y where
  refl _ := rfl
  bind := by
    intro _ _ x y f g hxy hfg
    have hfun : f = g := funext hfg
    rw [hxy, hfun]
  mapError := by
    intro _ x y f hxy
    rw [hxy]

/-- A success stays the same success; a failure may become anything. -/
theorem comparison_ok : Comparison fun _ x y => ∀ a, x = .ok a → y = .ok a where
  refl _ _ h := h
  bind := by
    intro _ _ x y f g hxy hfg b hb
    cases x with
    | error e => cases hb
    | ok a =>
      have hy : y = .ok a := hxy a rfl
      have hg : g a = .ok b := hfg a b hb
      rw [hy]
      exact hg
  mapError := by
    intro _ x y f hxy a ha
    cases x with
    | error e => cases ha
    | ok b =>
      have hb : b = a := Except.ok.inj ha
      have hy : y = .ok b := hxy b rfl
      rw [hy, ← hb]
      rfl

/-! ## Comparing scenes -/

/-- Two scenes that answer certain lookups alike, in whatever loops. -/
structure Scene.Compares (rel : ∀ α : Type, Except Error α → Except Error α → Prop)
    (looks : Lookup → Prop) (scene scene' : Scene) : Prop where
  /-- Errors name the same template. -/
  template : scene.template = scene'.template
  /-- They are within the same loops. -/
  scopes : scene.context.scopes = scene'.context.scopes
  /-- Both merge runs, or neither does. -/
  merge : scene.settings.coalesceRuns = scene'.settings.coalesceRuns
  /-- A path shows comparable texts. -/
  text : ∀ path, looks (.path path) → ∀ scopes,
    rel String (Context.text { scene.context with scopes } path)
      (Context.text { scene'.context with scopes } path)
  /-- A condition holds in both or in neither. -/
  holds : ∀ path, looks (.path path) → ∀ scopes,
    Context.holds { scene.context with scopes } path =
      Context.holds { scene'.context with scopes } path
  /-- A loop goes over comparable entries. -/
  entries : ∀ path, looks (.path path) → ∀ scopes,
    rel (List Value) (Context.entries { scene.context with scopes } path)
      (Context.entries { scene'.context with scopes } path)
  /-- A name shows comparable images. -/
  image : ∀ name, looks (.image name) → ∀ style,
    rel Run (scene.imageRun name style) (scene'.imageRun name style)

section Compare

variable {rel : ∀ α : Type, Except Error α → Except Error α → Prop} {looks : Lookup → Prop}

namespace Scene.Compares

variable {scene scene' : Scene}

theorem enter (h : scene.Compares rel looks scene') (entry : Value) (index length : Nat) :
    (scene.enter entry index length).Compares rel looks (scene'.enter entry index length) where
  template := h.template
  scopes := congrArg (Scope.ofEntry entry index length :: ·) h.scopes
  merge := h.merge
  text := h.text
  holds := h.holds
  entries := h.entries
  image := h.image

theorem within (h : scene.Compares rel looks scene') (origin : Option String) :
    (scene.within origin).Compares rel looks (scene'.within origin) where
  template := congrArg origin.getD h.template
  scopes := h.scopes
  merge := h.merge
  text := h.text
  holds := h.holds
  entries := h.entries
  image := h.image

theorem located {α : Type} {x y : Except Error α} (h : scene.Compares rel looks scene')
    (hrel : Comparison rel) (position : Position) (hxy : rel α x y) :
    rel α (scene.located position x) (scene'.located position y) := by
  unfold Scene.located
  rw [h.template]
  exact hrel.mapError _ hxy

/-- Scenes that compare have the same scopes, so the answers in them compare. -/
theorem context_eq (h : scene.Compares rel looks scene') :
    { scene'.context with scopes := scene.context.scopes } = scene'.context := by
  rw [h.scopes]

theorem text_rel (h : scene.Compares rel looks scene') {path : String}
    (hlook : looks (.path path)) :
    rel String (scene.context.text path) (scene'.context.text path) := by
  have hany := h.text path hlook scene.context.scopes
  rw [h.context_eq] at hany
  exact hany

theorem holds_eq (h : scene.Compares rel looks scene') {path : String}
    (hlook : looks (.path path)) : scene.context.holds path = scene'.context.holds path := by
  have hany := h.holds path hlook scene.context.scopes
  rw [h.context_eq] at hany
  exact hany

theorem entries_rel (h : scene.Compares rel looks scene') {path : String}
    (hlook : looks (.path path)) :
    rel (List Value) (scene.context.entries path) (scene'.context.entries path) := by
  have hany := h.entries path hlook scene.context.scopes
  rw [h.context_eq] at hany
  exact hany

end Scene.Compares

theorem append_rel (hrel : Comparison rel) {α : Type} {x x' y y' : Except Error (List α)}
    (hx : rel _ x x') (hy : rel _ y y') :
    rel (List α)
      (do
        let first ← x
        let rest ← y
        return first ++ rest)
      (do
        let first ← x'
        let rest ← y'
        return first ++ rest) := by
  refine hrel.bind hx fun first => ?_
  exact hrel.bind hy fun rest => hrel.refl _

theorem renderEntries_compares (hrel : Comparison rel) {α : Type}
    {render : Scene → Except Error (List α)}
    (hrender : ∀ scene scene' : Scene, scene.Compares rel looks scene' →
      rel _ (render scene) (render scene'))
    {scene scene' : Scene} (h : scene.Compares rel looks scene') (length : Nat)
    (entries : List Value) (index : Nat) :
    rel _ (scene.renderEntries render length index entries)
      (scene'.renderEntries render length index entries) := by
  induction entries generalizing index with
  | nil => exact hrel.refl _
  | cons entry entries ih =>
    have hfirst := hrender _ _ (h.enter entry index length)
    rw [Scene.renderEntries, Scene.renderEntries]
    exact append_rel hrel hfirst (ih (index + 1))

theorem renderLoop_compares (hrel : Comparison rel) {α : Type}
    {render : Scene → Except Error (List α)}
    (hrender : ∀ scene scene' : Scene, scene.Compares rel looks scene' →
      rel _ (render scene) (render scene'))
    {scene scene' : Scene} (h : scene.Compares rel looks scene') {list : String}
    (hlook : looks (.path list)) (position : Position) :
    rel _
      (do
        let entries ← scene.located position (scene.context.entries list)
        scene.renderEntries render entries.length 0 entries)
      (do
        let entries ← scene'.located position (scene'.context.entries list)
        scene'.renderEntries render entries.length 0 entries) := by
  have hentries := h.located hrel position (h.entries_rel hlook)
  refine hrel.bind hentries fun entries => ?_
  exact renderEntries_compares hrel hrender h entries.length entries 0

/-! ## Comparing what is rendered -/

mutual

theorem renderBlock_compares (hrel : Comparison rel) : ∀ block : Block,
    (∀ l ∈ block.lookups, looks l) → ∀ scene scene' : Scene, scene.Compares rel looks scene' →
    rel _ (renderBlock scene block) (renderBlock scene' block)
  | .text text style, _, scene, scene', _ => by
    rw [renderBlock, renderBlock]
    exact hrel.refl _
  | .static run, _, scene, scene', _ => by
    rw [renderBlock, renderBlock]
    exact hrel.refl _
  | .inherits _ _, _, scene, scene', _ => by
    rw [renderBlock, renderBlock]
    exact hrel.refl _
  | .placeholder path style position, hlooks, scene, scene', h => by
    rw [Block.lookups, List.forall_mem_singleton] at hlooks
    have htext := h.located hrel position (h.text_rel hlooks)
    rw [renderBlock, renderBlock]
    exact hrel.bind htext fun text => hrel.refl _
  | .image name style position, hlooks, scene, scene', h => by
    rw [Block.lookups, List.forall_mem_singleton] at hlooks
    have hrun := h.located hrel position (h.image name hlooks style)
    rw [renderBlock, renderBlock]
    exact hrel.bind hrun fun run => hrel.refl _
  | .conditional condition thenBlocks none _, hlooks, scene, scene', h => by
    rw [Block.lookups, List.forall_mem_cons] at hlooks
    have hholds := h.holds_eq hlooks.1
    rw [renderBlock, renderBlock, hholds]
    split
    · exact renderBlocks_compares hrel thenBlocks hlooks.2 scene scene' h
    · exact hrel.refl _
  | .conditional condition thenBlocks (some elseBlocks) _, hlooks, scene, scene', h => by
    rw [Block.lookups, List.forall_mem_cons, List.forall_mem_append] at hlooks
    have hholds := h.holds_eq hlooks.1
    rw [renderBlock, renderBlock, hholds]
    split
    · exact renderBlocks_compares hrel thenBlocks hlooks.2.1 scene scene' h
    · exact renderBlocks_compares hrel elseBlocks hlooks.2.2 scene scene' h
  | .loop list body position, hlooks, scene, scene', h => by
    rw [Block.lookups, List.forall_mem_cons] at hlooks
    have hbody := renderBlocks_compares hrel body hlooks.2
    rw [renderBlock, renderBlock]
    exact renderLoop_compares hrel hbody h hlooks.1 position
  | .named _ body _ origin, hlooks, scene, scene', h => by
    rw [Block.lookups] at hlooks
    rw [renderBlock, renderBlock]
    exact renderBlocks_compares hrel body hlooks _ _ (h.within origin)
  | .paragraph properties children hasDirectives, hlooks, scene, scene', h => by
    rw [Block.lookups] at hlooks
    have hchildren := renderBlocks_compares hrel children hlooks scene scene' h
    rw [renderBlock, renderBlock, h.merge]
    exact hrel.bind hchildren fun fragments => hrel.refl _
  | .table ⟨properties, grid, rows⟩, hlooks, scene, scene', h => by
    rw [Block.lookups] at hlooks
    have hrows := renderRows_compares hrel rows hlooks scene scene' h
    rw [renderBlock, renderBlock]
    exact hrel.bind hrows fun rows => hrel.refl _

theorem renderBlocks_compares (hrel : Comparison rel) : ∀ blocks : List Block,
    (∀ l ∈ lookupsOf blocks, looks l) → ∀ scene scene' : Scene,
    scene.Compares rel looks scene' →
    rel _ (renderBlocks scene blocks) (renderBlocks scene' blocks)
  | [], _, scene, scene', _ => by
    rw [renderBlocks, renderBlocks]
    exact hrel.refl _
  | block :: blocks, hlooks, scene, scene', h => by
    rw [lookupsOf, List.forall_mem_append] at hlooks
    have hfirst := renderBlock_compares hrel block hlooks.1 scene scene' h
    have hrest := renderBlocks_compares hrel blocks hlooks.2 scene scene' h
    rw [renderBlocks, renderBlocks]
    exact append_rel hrel hfirst hrest

theorem renderRows_compares (hrel : Comparison rel) : ∀ rows : List (RowBlock Block),
    (∀ l ∈ rowLookups rows, looks l) → ∀ scene scene' : Scene,
    scene.Compares rel looks scene' → rel _ (renderRows scene rows) (renderRows scene' rows)
  | [], _, scene, scene', _ => by
    rw [renderRows, renderRows]
    exact hrel.refl _
  | .static ⟨properties, cells⟩ :: rows, hlooks, scene, scene', h => by
    rw [rowLookups, List.forall_mem_append] at hlooks
    have hcells := renderCells_compares hrel cells hlooks.1 scene scene' h
    have hrest := renderRows_compares hrel rows hlooks.2 scene scene' h
    rw [renderRows, renderRows]
    refine hrel.bind hcells fun cells => ?_
    exact hrel.bind hrest fun rest => hrel.refl _
  | .loop list ⟨properties, cells⟩ position :: rows, hlooks, scene, scene', h => by
    rw [rowLookups, List.forall_mem_cons, List.forall_mem_append] at hlooks
    have hrow : ∀ scene scene' : Scene, scene.Compares rel looks scene' →
        rel (List (Row Element)) (do return [⟨properties, ← renderCells scene cells⟩])
          (do return [⟨properties, ← renderCells scene' cells⟩]) := by
      intro scene scene' h
      have hcells := renderCells_compares hrel cells hlooks.2.1 scene scene' h
      exact hrel.bind hcells fun cells => hrel.refl _
    have hrows := renderLoop_compares hrel hrow h hlooks.1 position
    have hrest := renderRows_compares hrel rows hlooks.2.2 scene scene' h
    rw [renderRows, renderRows, ← bind_assoc, ← bind_assoc]
    exact append_rel hrel hrows hrest

theorem renderCells_compares (hrel : Comparison rel) : ∀ cells : List (Cell Block),
    (∀ l ∈ cellLookups cells, looks l) → ∀ scene scene' : Scene,
    scene.Compares rel looks scene' → rel _ (renderCells scene cells) (renderCells scene' cells)
  | [], _, scene, scene', _ => by
    rw [renderCells, renderCells]
    exact hrel.refl _
  | ⟨properties, body⟩ :: cells, hlooks, scene, scene', h => by
    rw [cellLookups, List.forall_mem_append] at hlooks
    have hbody := renderBlocks_compares hrel body hlooks.1 scene scene' h
    have hrest := renderCells_compares hrel cells hlooks.2 scene scene' h
    rw [renderCells, renderCells]
    refine hrel.bind hbody fun fragments => ?_
    exact hrel.bind hrest fun rest => hrel.refl _

end

/-- Scenes that answer all lookups of a tree alike render it alike. -/
theorem renderDocument_compares (hrel : Comparison rel) {blocks : List Block}
    (hlooks : ∀ l ∈ lookupsOf blocks, looks l) {scene scene' : Scene}
    (h : scene.Compares rel looks scene') :
    rel _ (renderDocument scene blocks) (renderDocument scene' blocks) := by
  have hblocks := renderBlocks_compares hrel blocks hlooks scene scene' h
  exact hrel.bind hblocks fun fragments => hrel.refl _

end Compare

end StyledTemplate
