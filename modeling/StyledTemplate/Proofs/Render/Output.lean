import StyledTemplate.Proofs.Inheritance.Steady
import StyledTemplate.Proofs.Render.Atoms
import StyledTemplate.Render.Render

/-!
# What rendering shows

`outputOf` says what blocks show, without any paragraphs, rows or cells being put together: only the
content counts, and an error is the one that was raised first, without its wrapping. Rendering shows
the same.
-/

namespace StyledTemplate

/-! ## The content of blocks -/

namespace Scene

/-- The content of an image: the image, or a marker text. -/
def imageAtoms (scene : Scene) (name : String) (style : RunProperties) :
    Except Error (List Atom) :=
  match scene.context.image? name with
  | none => .ok (textAtoms (scene.settings.missingImageMarker name) style)
  | some binding => do
    let data ← scene.imageBytes name binding.source
    let image ← binding.embed name data
    return [.run ⟨style, .image image⟩]

/-- The content of something that is shown once for each entry of a list. -/
def eachAtoms (scene : Scene) (list : String) (atoms : Scene → Except Error (List Atom)) :
    Except Error (List Atom) := do
  let entries ← scene.context.entries list
  let parts ← entries.zipIdx.mapM fun entry => atoms (scene.enter entry.1 entry.2 entries.length)
  return parts.flatten

end Scene

mutual

/-- The content that a block shows. The name of the template in the scene plays no role. -/
def Block.output (scene : Scene) : Block → Except Error (List Atom)
  | .text text style => .ok (textAtoms text style)
  | .static run => .ok run.atoms
  | .placeholder path style _ => do
    let text ← scene.context.text path
    return textAtoms text style
  | .image name style _ => scene.imageAtoms name style
  | .conditional condition thenBlocks elseBlocks _ =>
    if scene.context.holds condition then outputOf scene thenBlocks
    else
      match elseBlocks with
      | none => .ok []
      | some blocks => outputOf scene blocks
  | .loop list body _ => scene.eachAtoms list fun scene => outputOf scene body
  | .named _ body _ _ => outputOf scene body
  | .inherits _ _ => .ok []
  | .paragraph _ children _ => outputOf scene children
  | .table ⟨_, _, rows⟩ => rowsOutput scene rows

/-- The content that blocks show. -/
def outputOf (scene : Scene) : List Block → Except Error (List Atom)
  | [] => .ok []
  | block :: blocks => do
    let first ← block.output scene
    let rest ← outputOf scene blocks
    return first ++ rest

/-- The content that the rows of a table show. -/
def rowsOutput (scene : Scene) : List (RowBlock Block) → Except Error (List Atom)
  | [] => .ok []
  | .static ⟨_, cells⟩ :: rows => do
    let first ← cellsOutput scene cells
    let rest ← rowsOutput scene rows
    return first ++ rest
  | .loop list ⟨_, cells⟩ _ :: rows => do
    let first ← scene.eachAtoms list fun scene => cellsOutput scene cells
    let rest ← rowsOutput scene rows
    return first ++ rest

/-- The content that the cells of a row show. -/
def cellsOutput (scene : Scene) : List (Cell Block) → Except Error (List Atom)
  | [] => .ok []
  | ⟨_, body⟩ :: cells => do
    let first ← outputOf scene body
    let rest ← cellsOutput scene cells
    return first ++ rest

end

/-! ## Outcomes with the same cause -/

/-- Two outcomes that are related by `R`, or fail for the same cause. -/
inductive Alike {α β : Type} (R : α → β → Prop) : Except Error α → Except Error β → Prop
  | ok {a b} (h : R a b) : Alike R (.ok a) (.ok b)
  | error {e e'} (h : e.rootCause = e'.rootCause) : Alike R (.error e) (.error e')

namespace Alike

variable {α α' β β' : Type} {R : α → β → Prop} {S : α' → β' → Prop} {x : Except Error α}
  {y : Except Error β}

theorem bind {f : α → Except Error α'} {g : β → Except Error β'} (h : Alike R x y)
    (hf : ∀ a b, R a b → Alike S (f a) (g b)) : Alike S (x >>= f) (y >>= g) := by
  cases h with
  | ok h => exact hf _ _ h
  | error h => exact .error h

theorem refl (x : Except Error α) : Alike (· = ·) x x := by
  cases x with
  | ok a => exact .ok rfl
  | error e => exact .error rfl

theorem exists_eq_ok {a : α} (h : Alike R (.ok a) y) : ∃ b, y = .ok b ∧ R a b := by
  cases h with
  | ok h => exact ⟨_, rfl, h⟩

theorem mapError_eq {f : α → β} (h : Alike (fun a b => f a = b) x y) :
    (x.map f).mapError Error.rootCause = y.mapError Error.rootCause := by
  cases h with
  | ok h => rw [← h]; rfl
  | error h => exact congrArg Except.error h

end Alike

theorem Error.rootCause_inTemplate (e : Error) (template : String) (location : Option Position) :
    (e.inTemplate template location).rootCause = e.rootCause := by
  cases e <;> simp [Error.inTemplate, Error.rootCause]

section Scene

variable {α β : Type} {R : α → β → Prop} {x : Except Error α} {y : Except Error β}

theorem Alike.located (h : Alike R x y) (scene : Scene) (position : Position) :
    Alike R (scene.located position x) y := by
  cases h with
  | ok h => exact .ok h
  | error h => exact .error ((Error.rootCause_inTemplate ..).trans h)

/-- An image is shown as one run, and so is the marker for it. -/
theorem imageRun_alike (scene : Scene) (name : String) (style : RunProperties) :
    Alike (fun run atoms => run.atoms = atoms) (scene.imageRun name style)
      (scene.imageAtoms name style) := by
  rw [Scene.imageRun, Scene.imageAtoms]
  cases scene.context.image? name with
  | none => exact .ok rfl
  | some binding =>
    refine .bind (.refl (scene.imageBytes name binding.source)) ?_
    rintro data _ rfl
    refine .bind (.refl (binding.embed name data)) ?_
    rintro image _ rfl
    exact .ok rfl

/-- Joining what is rendered for the entries of a list joins its content. -/
theorem renderEntries_alike {content : List α → List Atom} (hnil : content [] = [])
    (happend : ∀ as bs, content (as ++ bs) = content as ++ content bs) (template : String)
    {render : Scene → Except Error (List α)} {atoms : Scene → Except Error (List Atom)}
    (h : ∀ scene : Scene, Alike (fun as atoms => content as = atoms)
      (render { scene with template }) (atoms scene))
    (scene : Scene) (length : Nat) (entries : List Value) (index : Nat) :
    Alike (fun as parts => content as = parts.flatten)
      (Scene.renderEntries { scene with template } render length index entries)
      ((entries.zipIdx index).mapM fun entry => atoms (scene.enter entry.1 entry.2 length)) := by
  induction entries generalizing index with
  | nil => exact .ok hnil
  | cons entry entries ih =>
    rw [Scene.renderEntries, List.zipIdx_cons, List.mapM_cons]
    refine .bind (h (scene.enter entry index length)) ?_
    intro first atoms hfirst
    refine .bind (ih (index + 1)) ?_
    intro rest parts hrest
    refine .ok ?_
    rw [happend, hfirst, hrest, List.flatten_cons]

theorem eachAtoms_alike {content : List α → List Atom} (hnil : content [] = [])
    (happend : ∀ as bs, content (as ++ bs) = content as ++ content bs) (template : String)
    (render : Scene → Except Error (List α)) {atoms : Scene → Except Error (List Atom)}
    (h : ∀ scene : Scene, Alike (fun as atoms => content as = atoms)
      (render { scene with template }) (atoms scene)) (scene : Scene) (list : String)
    (position : Position) :
    Alike (fun as atoms => content as = atoms)
      (do
        let entries ← Scene.located { scene with template } position (scene.context.entries list)
        Scene.renderEntries { scene with template } render entries.length 0 entries)
      (scene.eachAtoms list atoms) := by
  rw [Scene.eachAtoms]
  refine .bind ((Alike.refl (scene.context.entries list)).located _ position) ?_
  rintro entries _ rfl
  have hentries := renderEntries_alike hnil happend template h scene entries.length entries 0
  rw [← bind_pure (Scene.renderEntries ..)]
  refine .bind hentries ?_
  intro as parts hparts
  exact .ok hparts

end Scene

/-! ## Rendering -/

/-- Rendering runs gives these runs. -/
theorem renderBlocks_static (scene : Scene) {children : List Block}
    (hstatic : ∀ child ∈ children, ∃ run, child = .static run) :
    ∃ runs : List Run, renderBlocks scene children = .ok (runs.map Fragment.run) := by
  induction children with
  | nil => exact ⟨[], by rw [renderBlocks]; rfl⟩
  | cons child children ih =>
    obtain ⟨⟨run, rfl⟩, hrest⟩ := List.forall_mem_cons.1 hstatic
    obtain ⟨runs, hruns⟩ := ih hrest
    exact ⟨run :: runs, by rw [renderBlocks, renderBlock, hruns]; rfl⟩

theorem append_alike {α : Type} {content : List α → List Atom}
    (happend : ∀ as bs, content (as ++ bs) = content as ++ content bs)
    {x x' : Except Error (List α)} {y y' : Except Error (List Atom)}
    (h : Alike (fun as atoms => content as = atoms) x y)
    (h' : Alike (fun as atoms => content as = atoms) x' y') :
    Alike (fun as atoms => content as = atoms)
      (do
        let first ← x
        let rest ← x'
        return first ++ rest)
      (do
        let first ← y
        let rest ← y'
        return first ++ rest) := by
  refine .bind h ?_
  rintro first _ rfl
  refine .bind h' ?_
  rintro rest _ rfl
  exact .ok (happend first rest)

mutual

theorem renderBlock_alike (template : String) : ∀ block : Block,
    (∀ b ∈ block.nodes, b.IsSteady) → ∀ scene : Scene,
    Alike (fun fragments atoms => fragmentsAtoms fragments = atoms)
      (renderBlock { scene with template } block) (block.output scene)
  | .text text style, _, scene => by
    rw [renderBlock, Block.output]
    exact .ok (List.append_nil _)
  | .static run, _, scene => by
    rw [renderBlock, Block.output]
    exact .ok (List.append_nil _)
  | .placeholder path style position, _, scene => by
    rw [renderBlock, Block.output]
    refine .bind ((Alike.refl (scene.context.text path)).located _ position) ?_
    rintro text _ rfl
    exact .ok (List.append_nil _)
  | .image name style position, _, scene => by
    rw [renderBlock, Block.output, ← bind_pure (scene.imageAtoms name style)]
    refine .bind ((imageRun_alike { scene with template } name style).located _ position) ?_
    rintro run _ rfl
    exact .ok (List.append_nil _)
  | .conditional condition thenBlocks none _, h, scene => by
    rw [Block.nodes, List.forall_mem_cons] at h
    rw [renderBlock, Block.output]
    split
    · exact renderBlocks_alike template thenBlocks h.2 scene
    · exact .ok rfl
  | .conditional condition thenBlocks (some elseBlocks) _, h, scene => by
    rw [Block.nodes, List.forall_mem_cons, List.forall_mem_append] at h
    rw [renderBlock, Block.output]
    split
    · exact renderBlocks_alike template thenBlocks h.2.1 scene
    · exact renderBlocks_alike template elseBlocks h.2.2 scene
  | .loop list body position, h, scene => by
    rw [Block.nodes, List.forall_mem_cons] at h
    rw [renderBlock, Block.output]
    exact eachAtoms_alike fragmentsAtoms_nil fragmentsAtoms_append template _
      (renderBlocks_alike template body h.2) scene list position
  | .named _ body _ origin, h, scene => by
    rw [Block.nodes, List.forall_mem_cons] at h
    rw [renderBlock, Block.output]
    exact renderBlocks_alike (origin.getD template) body h.2 scene
  | .inherits _ _, _, scene => by
    rw [renderBlock, Block.output]
    exact .ok rfl
  | .paragraph properties children true, h, scene => by
    rw [Block.nodes, List.forall_mem_cons] at h
    rw [renderBlock, Block.output, ← bind_pure (outputOf scene children)]
    refine .bind (renderBlocks_alike template children h.2 scene) ?_
    rintro fragments _ rfl
    exact .ok (fragmentsAtoms_assembleParagraph ..)
  | .paragraph properties children false, h, scene => by
    rw [Block.nodes, List.forall_mem_cons] at h
    -- There is no element among the fragments that could be lost.
    obtain ⟨runs, hruns⟩ := renderBlocks_static { scene with template } h.1
    have hchildren := renderBlocks_alike template children h.2 scene
    rw [renderBlock, Block.output]
    rw [hruns] at hchildren ⊢
    obtain ⟨atoms, hatoms, hcontent⟩ := hchildren.exists_eq_ok
    rw [hatoms]
    refine .ok ?_
    rw [fragmentsAtoms_assembleParagraph_run, ← hcontent, fragmentsAtoms, List.flatMap_map]
    rfl
  | .table ⟨properties, grid, rows⟩, h, scene => by
    rw [Block.nodes, List.forall_mem_cons] at h
    rw [renderBlock, Block.output, ← bind_pure (rowsOutput scene rows)]
    refine .bind (renderRows_alike template rows h.2 scene) ?_
    rintro shown _ rfl
    refine .ok ?_
    rw [fragmentsAtoms_cons, Fragment.atoms, Element.atoms, fragmentsAtoms_nil, List.append_nil]

theorem renderBlocks_alike (template : String) : ∀ blocks : List Block, Steady blocks →
    ∀ scene : Scene, Alike (fun fragments atoms => fragmentsAtoms fragments = atoms)
      (renderBlocks { scene with template } blocks) (outputOf scene blocks)
  | [], _, scene => by
    rw [renderBlocks, outputOf]
    exact .ok rfl
  | block :: blocks, h, scene => by
    rw [Steady, nodesOf_cons, List.forall_mem_append] at h
    rw [renderBlocks, outputOf]
    exact append_alike fragmentsAtoms_append (renderBlock_alike template block h.1 scene)
      (renderBlocks_alike template blocks h.2 scene)

theorem renderRows_alike (template : String) : ∀ rows : List (RowBlock Block),
    (∀ b ∈ rowNodes rows, b.IsSteady) → ∀ scene : Scene,
    Alike (fun shown atoms => rowsAtoms shown = atoms)
      (renderRows { scene with template } rows) (rowsOutput scene rows)
  | [], _, scene => by
    rw [renderRows, rowsOutput]
    exact .ok (by rw [rowsAtoms])
  | .static ⟨properties, cells⟩ :: rows, h, scene => by
    rw [rowNodes, List.forall_mem_append] at h
    rw [renderRows, rowsOutput]
    refine .bind (renderCells_alike template cells h.1 scene) ?_
    rintro shown _ rfl
    refine .bind (renderRows_alike template rows h.2 scene) ?_
    rintro rest _ rfl
    exact .ok (by rw [rowsAtoms])
  | .loop list ⟨properties, cells⟩ position :: rows, h, scene => by
    rw [rowNodes, List.forall_mem_append] at h
    have hrow : ∀ scene : Scene, Alike (fun shown atoms => rowsAtoms shown = atoms)
        (do return [⟨properties, ← renderCells { scene with template } cells⟩])
        (cellsOutput scene cells) := by
      intro scene
      rw [← bind_pure (cellsOutput scene cells)]
      refine .bind (renderCells_alike template cells h.1 scene) ?_
      rintro shown _ rfl
      refine .ok ?_
      rw [rowsAtoms, rowsAtoms, List.append_nil]
    have hrows := eachAtoms_alike (by rw [rowsAtoms]) rowsAtoms_append template
      (fun scene => do return [⟨properties, ← renderCells scene cells⟩]) hrow scene list position
    rw [renderRows, rowsOutput, ← bind_assoc]
    exact append_alike rowsAtoms_append hrows (renderRows_alike template rows h.2 scene)

theorem renderCells_alike (template : String) : ∀ cells : List (Cell Block),
    (∀ b ∈ cellNodes cells, b.IsSteady) → ∀ scene : Scene,
    Alike (fun shown atoms => cellsAtoms shown = atoms)
      (renderCells { scene with template } cells) (cellsOutput scene cells)
  | [], _, scene => by
    rw [renderCells, cellsOutput]
    exact .ok (by rw [cellsAtoms])
  | ⟨properties, body⟩ :: cells, h, scene => by
    rw [cellNodes, List.forall_mem_append] at h
    rw [renderCells, cellsOutput]
    refine .bind (renderBlocks_alike template body h.1 scene) ?_
    rintro fragments _ rfl
    refine .bind (renderCells_alike template cells h.2 scene) ?_
    rintro rest _ rfl
    exact .ok (by rw [cellsAtoms, bodyAtoms_cellBodyOf])

end

/-- Rendering what a chain of parsed templates shows succeeds if and only if the content of its
blocks can be found, and the document has this content. If it fails, it fails for the same cause. -/
theorem atoms_renderDocument {chain : List Template} (hparsed : ∀ t ∈ chain, t.IsParsed)
    (scene : Scene) :
    ((renderDocument scene (resolveChain chain)).map Document.atoms).mapError Error.rootCause =
      (outputOf scene (resolveChain chain)).mapError Error.rootCause := by
  refine Alike.mapError_eq ?_
  rw [renderDocument, ← bind_pure (outputOf scene _)]
  refine .bind (renderBlocks_alike scene.template _ (steady_resolveChain hparsed) scene) ?_
  rintro fragments _ rfl
  exact .ok (bodyAtoms_elementsOf fragments)

theorem reminder_content : ∃ reminder letter : Template,
    Template.ofDocument {} "reminder" reminderDocument = .ok reminder ∧
    Template.ofDocument {} "letter" letterDocument = .ok letter ∧
    ((renderDocument ⟨"reminder", default, {}, default⟩ (resolveChain [reminder, letter])).map
      Document.atoms).mapError Error.rootCause =
        (outputOf ⟨"reminder", default, {}, default⟩
          (resolveChain [reminder, letter])).mapError Error.rootCause := by
  obtain ⟨reminder, letter, hreminder, hletter⟩ := exists_reminder
  refine ⟨reminder, letter, hreminder, hletter, ?_⟩
  refine atoms_renderDocument ?_ _
  rw [List.forall_mem_cons, List.forall_mem_singleton]
  exact ⟨⟨_, _, _, hreminder⟩, ⟨_, _, _, hletter⟩⟩

example : ((Template.ofDocument {} "reminder" reminderDocument).toOption.bind fun reminder =>
    (Template.ofDocument {} "letter" letterDocument).toOption.bind fun letter =>
      ((renderDocument ⟨"reminder", default, {}, default⟩ (resolveChain [reminder, letter])).map
        Document.atoms).toOption) = some (textAtoms "Hello again, please pay." {}) := by
  decide +kernel

end StyledTemplate
