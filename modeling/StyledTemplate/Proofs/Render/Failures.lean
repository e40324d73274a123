import StyledTemplate.Directive.Basic
import StyledTemplate.Proofs.Outcome
import StyledTemplate.Render.Render

/-!
# Failures of rendering

Only three kinds of directives can fail: placeholders and loops for which nothing is bound, in strict
mode, and images that cannot be shown. If rendering fails, then it fails at one of the directives of
the tree, with an error of its kind, wrapped with its place and the template that it stands in
(`renderDocument_fails`).
-/

namespace StyledTemplate

/-! ## Directives that can fail -/

/-- The error is one that the directive may fail with. -/
inductive Directive.Fails (strict : Bool) : Directive → Error → Prop
  | placeholder {path : String} (hstrict : strict = true) :
      Fails strict (.placeholder path) (.variableResolution path)
  | loop {list : String} (hstrict : strict = true) :
      Fails strict (.eachOpen list) (.variableResolution list)
  | image {name reason : String} : Fails strict (.image name) (.imageLoad name reason)

/-- No directive fails with an error that has been wrapped. -/
theorem Directive.Fails.ne_render {strict : Bool} {d : Directive} {source : Error}
    (h : d.Fails strict source) (template : String) (location : Option Position) (e : Error) :
    source ≠ .render template location e := by
  cases h <;> simp

/-- A directive with the template it stands in. -/
structure Site where
  /-- The name of the template. -/
  template : String
  /-- The directive. -/
  directive : Directive
  /-- Its place in the document of the template. -/
  position : Position

mutual

/-- The directives of a block that can fail. The body of a named block may come from another
template. -/
def Block.sites (template : String) : Block → List Site
  | .placeholder path _ position => [⟨template, .placeholder path, position⟩]
  | .image name _ position => [⟨template, .image name, position⟩]
  | .conditional _ thenBlocks none _ => sitesOf template thenBlocks
  | .conditional _ thenBlocks (some elseBlocks) _ =>
    sitesOf template thenBlocks ++ sitesOf template elseBlocks
  | .loop list body position => ⟨template, .eachOpen list, position⟩ :: sitesOf template body
  | .named _ body _ origin => sitesOf (origin.getD template) body
  | .paragraph _ children _ => sitesOf template children
  | .table ⟨_, _, rows⟩ => rowSites template rows
  | .text _ _ => []
  | .inherits _ _ => []
  | .static _ => []

def sitesOf (template : String) : List Block → List Site
  | [] => []
  | block :: blocks => block.sites template ++ sitesOf template blocks

def rowSites (template : String) : List (RowBlock Block) → List Site
  | [] => []
  | .static ⟨_, cells⟩ :: rows => cellSites template cells ++ rowSites template rows
  | .loop list ⟨_, cells⟩ position :: rows =>
    ⟨template, .eachOpen list, position⟩ :: (cellSites template cells ++ rowSites template rows)

def cellSites (template : String) : List (Cell Block) → List Site
  | [] => []
  | ⟨_, body⟩ :: cells => sitesOf template body ++ cellSites template cells

end

/-- The error is that of one of the sites, wrapped with its place. -/
def FailsAt (strict : Bool) (sites : List Site) (e : Error) : Prop :=
  ∃ site ∈ sites, ∃ source, site.directive.Fails strict source ∧
    e = .render site.template (some site.position) source

theorem FailsAt.mono {strict : Bool} {sites sites' : List Site} (h : sites ⊆ sites') (e : Error)
    (hfails : FailsAt strict sites e) : FailsAt strict sites' e := by
  obtain ⟨site, hsite, hsource⟩ := hfails
  exact ⟨site, h hsite, hsource⟩

/-- The loader fails with image errors only. -/
def ImageLoader.Honest (loader : ImageLoader) : Prop :=
  ∀ path, OnlyFails (fun e => ∃ name reason, e = .imageLoad name reason) (loader.load path)

theorem ImageLoader.honest_files (tree : FileTree) (dirs : List String) :
    (ImageLoader.files tree dirs).Honest := by
  intro path
  unfold ImageLoader.load
  dsimp only
  split
  · exact .ok _ _
  · exact .error ⟨_, _, rfl⟩
  · exact .error ⟨_, _, rfl⟩

/-! ## Single directives -/

section Single

variable {scene : Scene} {strict : Bool}

theorem located_fails {α : Type} {x : Except Error α} {d : Directive} {position : Position}
    {sites : List Site} (hx : OnlyFails (d.Fails strict) x)
    (hsite : ⟨scene.template, d, position⟩ ∈ sites) :
    OnlyFails (FailsAt strict sites) (scene.located position x) := by
  refine hx.mapError fun source hsource => ?_
  refine ⟨_, hsite, source, hsource, ?_⟩
  cases hsource <;> rfl

theorem text_fails (context : Context) (path : String) :
    OnlyFails (Directive.Fails context.strict (.placeholder path)) (context.text path) := by
  unfold Context.text
  split
  · exact .ok _ _
  · split
    · next hstrict => exact .error (.placeholder hstrict)
    · exact .ok _ _

theorem entries_fails (context : Context) (list : String) :
    OnlyFails (Directive.Fails context.strict (.eachOpen list)) (context.entries list) := by
  unfold Context.entries
  split
  · exact .ok _ _
  · split
    · next hstrict => exact .error (.loop hstrict)
    · exact .ok _ _

theorem imageBytes_fails (hloader : scene.loader.Honest) (name : String) (source : ImageSource) :
    OnlyFails (Directive.Fails strict (.image name)) (scene.imageBytes name source) := by
  cases source with
  | bytes data => exact .ok _ data
  | path path =>
    refine OnlyFails.mapError (hloader path) fun e he => ?_
    obtain ⟨name', reason, rfl⟩ := he
    exact .image

theorem embed_fails (binding : ImageBinding) (name : String) (data : List UInt8) :
    OnlyFails (Directive.Fails strict (.image name)) (binding.embed name data) := by
  unfold ImageBinding.embed
  split
  · exact .error .image
  · split
    · exact .error .image
    · exact .ok _ _

theorem imageRun_fails (hloader : scene.loader.Honest) (name : String) (style : RunProperties) :
    OnlyFails (Directive.Fails strict (.image name)) (scene.imageRun name style) := by
  unfold Scene.imageRun
  cases scene.context.image? name with
  | none => exact .ok _ _
  | some binding =>
    refine .bind (imageBytes_fails hloader name binding.source) fun data => ?_
    exact .bind (embed_fails binding name data) fun image => .ok _ _

end Single

/-! ## Whole trees -/

theorem append_fails {P : Error → Prop} {α : Type} {x y : Except Error (List α)}
    (hx : OnlyFails P x) (hy : OnlyFails P y) :
    OnlyFails P
      (do
        let first ← x
        let rest ← y
        return first ++ rest) :=
  hx.bind fun _ => hy.bind fun _ => .ok _ _

section Trees

variable {strict : Bool}

/-- What a scene has in all loops and in all templates. -/
structure Scene.Stable (strict : Bool) (scene : Scene) : Prop where
  /-- Whether names have to be bound. -/
  strict : scene.context.strict = strict
  /-- The loader of images tells what it fails to load. -/
  loader : scene.loader.Honest

theorem Scene.Stable.enter {scene : Scene} (h : scene.Stable strict) (entry : Value)
    (index length : Nat) : (scene.enter entry index length).Stable strict :=
  ⟨h.strict, h.loader⟩

theorem Scene.Stable.within {scene : Scene} (h : scene.Stable strict) (origin : Option String) :
    (scene.within origin).Stable strict :=
  ⟨h.strict, h.loader⟩

theorem renderEntries_fails {P : Error → Prop} {α : Type} {template : String}
    {render : Scene → Except Error (List α)}
    (hrender : ∀ scene : Scene, scene.Stable strict → scene.template = template →
      OnlyFails P (render scene)) {scene : Scene} (h : scene.Stable strict)
    (htemplate : scene.template = template) (length : Nat) (entries : List Value) (index : Nat) :
    OnlyFails P (scene.renderEntries render length index entries) := by
  induction entries generalizing index with
  | nil => exact .ok _ _
  | cons entry entries ih =>
    have hfirst := hrender (scene.enter entry index length) (h.enter entry index length) htemplate
    rw [Scene.renderEntries]
    exact append_fails hfirst (ih (index + 1))

theorem renderLoop_fails {α : Type} {render : Scene → Except Error (List α)} (list : String)
    (position : Position) {sites : List Site} {scene : Scene}
    (hrender : ∀ inner : Scene, inner.Stable strict → inner.template = scene.template →
      OnlyFails (FailsAt strict sites) (render inner)) (h : scene.Stable strict) :
    OnlyFails (FailsAt strict (⟨scene.template, .eachOpen list, position⟩ :: sites))
      (do
        let entries ← scene.located position (scene.context.entries list)
        scene.renderEntries render entries.length 0 entries) := by
  have hentries := entries_fails scene.context list
  rw [h.strict] at hentries
  refine (located_fails hentries List.mem_cons_self).bind fun entries => ?_
  have hbody := renderEntries_fails hrender h rfl entries.length entries 0
  exact hbody.mono (FailsAt.mono (List.subset_cons_self _ _))

mutual

theorem renderBlock_fails : ∀ (block : Block) (scene : Scene), scene.Stable strict →
    OnlyFails (FailsAt strict (block.sites scene.template)) (renderBlock scene block)
  | .text text style, scene, _ => by
    rw [renderBlock]
    exact .ok _ _
  | .static run, scene, _ => by
    rw [renderBlock]
    exact .ok _ _
  | .inherits _ _, scene, _ => by
    rw [renderBlock]
    exact .ok _ _
  | .placeholder path style position, scene, h => by
    have htext := text_fails scene.context path
    rw [h.strict] at htext
    rw [renderBlock, Block.sites]
    exact (located_fails htext (List.mem_singleton_self _)).bind fun text => .ok _ _
  | .image name style position, scene, h => by
    have hrun : OnlyFails (Directive.Fails strict (.image name)) (scene.imageRun name style) :=
      imageRun_fails h.loader name style
    rw [renderBlock, Block.sites]
    exact (located_fails hrun (List.mem_singleton_self _)).bind fun run => .ok _ _
  | .conditional condition thenBlocks none _, scene, h => by
    rw [renderBlock, Block.sites]
    split
    · exact renderBlocks_fails thenBlocks scene h
    · exact .ok _ _
  | .conditional condition thenBlocks (some elseBlocks) _, scene, h => by
    rw [renderBlock, Block.sites]
    split
    · have hthen := renderBlocks_fails thenBlocks scene h
      exact hthen.mono (FailsAt.mono (List.subset_append_left _ _))
    · have helse := renderBlocks_fails elseBlocks scene h
      exact helse.mono (FailsAt.mono (List.subset_append_right _ _))
  | .loop list body position, scene, h => by
    rw [renderBlock, Block.sites]
    refine renderLoop_fails list position (fun inner hinner htemplate => ?_) h
    rw [← htemplate]
    exact renderBlocks_fails body inner hinner
  | .named _ body _ origin, scene, h => by
    rw [renderBlock, Block.sites]
    exact renderBlocks_fails body (scene.within origin) (h.within origin)
  | .paragraph properties children hasDirectives, scene, h => by
    rw [renderBlock, Block.sites]
    exact (renderBlocks_fails children scene h).bind fun fragments => .ok _ _
  | .table ⟨properties, grid, rows⟩, scene, h => by
    rw [renderBlock, Block.sites]
    exact (renderRows_fails rows scene h).bind fun rows => .ok _ _

/-- If blocks cannot be rendered, then one of their directives fails. -/
theorem renderBlocks_fails : ∀ (blocks : List Block) (scene : Scene), scene.Stable strict →
    OnlyFails (FailsAt strict (sitesOf scene.template blocks)) (renderBlocks scene blocks)
  | [], scene, _ => by
    rw [renderBlocks]
    exact .ok _ _
  | block :: blocks, scene, h => by
    have hfirst := renderBlock_fails block scene h
    have hrest := renderBlocks_fails blocks scene h
    rw [renderBlocks, sitesOf]
    exact append_fails (hfirst.mono (FailsAt.mono (List.subset_append_left _ _)))
      (hrest.mono (FailsAt.mono (List.subset_append_right _ _)))

theorem renderRows_fails : ∀ (rows : List (RowBlock Block)) (scene : Scene),
    scene.Stable strict →
    OnlyFails (FailsAt strict (rowSites scene.template rows)) (renderRows scene rows)
  | [], scene, _ => by
    rw [renderRows]
    exact .ok _ _
  | .static ⟨properties, cells⟩ :: rows, scene, h => by
    have hcells := renderCells_fails cells scene h
    have hrest := renderRows_fails rows scene h
    rw [renderRows, rowSites]
    refine (hcells.mono (FailsAt.mono (List.subset_append_left _ _))).bind fun cells => ?_
    exact (hrest.mono (FailsAt.mono (List.subset_append_right _ _))).bind fun rest => .ok _ _
  | .loop list ⟨properties, cells⟩ position :: rows, scene, h => by
    have hrow : ∀ inner : Scene, inner.Stable strict → inner.template = scene.template →
        OnlyFails (FailsAt strict (cellSites scene.template cells))
          (do return ([⟨properties, ← renderCells inner cells⟩] : List (Row Element))) := by
      intro inner hinner htemplate
      rw [← htemplate]
      exact (renderCells_fails cells inner hinner).bind fun cells => .ok _ _
    have hrows := renderLoop_fails list position hrow h
    have hrest := renderRows_fails rows scene h
    rw [renderRows, rowSites, ← List.cons_append, ← bind_assoc]
    exact append_fails (hrows.mono (FailsAt.mono (List.subset_append_left _ _)))
      (hrest.mono (FailsAt.mono (List.subset_append_right _ _)))

theorem renderCells_fails : ∀ (cells : List (Cell Block)) (scene : Scene), scene.Stable strict →
    OnlyFails (FailsAt strict (cellSites scene.template cells)) (renderCells scene cells)
  | [], scene, _ => by
    rw [renderCells]
    exact .ok _ _
  | ⟨properties, body⟩ :: cells, scene, h => by
    have hbody := renderBlocks_fails body scene h
    have hrest := renderCells_fails cells scene h
    rw [renderCells, cellSites]
    refine (hbody.mono (FailsAt.mono (List.subset_append_left _ _))).bind fun fragments => ?_
    exact (hrest.mono (FailsAt.mono (List.subset_append_right _ _))).bind fun rest => .ok _ _

end

/-- If a tree cannot be rendered, then one of its directives fails. -/
theorem renderDocument_fails (blocks : List Block) {scene : Scene} (h : scene.Stable strict) :
    OnlyFails (FailsAt strict (sitesOf scene.template blocks)) (renderDocument scene blocks) :=
  (renderBlocks_fails blocks scene h).bind fun _ => .ok _ _

end Trees

end StyledTemplate
