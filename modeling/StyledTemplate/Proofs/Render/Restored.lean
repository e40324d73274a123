import StyledTemplate.Proofs.Outcome
import StyledTemplate.Render.Render

/-!
# Rendering in a scene that is changed and put back

`visitBlocks` renders blocks in one scene, which is changed on the way: the scope of an entry is
pushed before the body of a loop is rendered and popped behind it, and the template is exchanged for
the one that the body of a named block was taken from. A failure leaves the scene as it is at that
point, so that every part has to undo its own change before it passes a failure on. It does: each
part gives what is rendered in the scene that it finds, and leaves this scene behind, whether it
succeeds or fails (`render_restores`).
-/

namespace StyledTemplate

/-! ## Changing the scene -/

/-- A computation that may change the scene. What it has changed stays changed if it fails. -/
abbrev Staged (α : Type) := ExceptT Error (StateM Scene) α

namespace Staged

variable {α : Type}

/-- Reads something off the scene. -/
def read (f : Scene → Except Error α) : Staged α := do
  liftExcept (f (← get))

/-- Pushes the scope of an entry, and pops it before a failure is passed on. -/
def withEntry (entry : Value) (index length : Nat) (x : Staged α) : Staged α := do
  modify fun scene => scene.enter entry index length
  let result ← observing x
  modify fun scene => { scene with context := scene.context.pop }
  liftExcept result

/-- Does the same for each entry of a list and joins the results. `index` entries of all `length`
come before the given ones. -/
def forEntries (x : Staged (List α)) (length index : Nat) : List Value → Staged (List α)
  | [] => return []
  | entry :: entries => do
    let first ← withEntry entry index length x
    let rest ← forEntries x length (index + 1) entries
    return first ++ rest

/-- Exchanges the template, if another one is given, and puts the one before back in place before a
failure is passed on. -/
def withTemplate (origin : Option String) (x : Staged α) : Staged α :=
  match origin with
  | none => x
  | some origin => do
    let outer := (← get).template
    modify fun scene => scene.within (some origin)
    let result ← observing x
    modify fun scene => { scene with template := outer }
    liftExcept result

end Staged

mutual

/-- Renders a block in the scene that is there. -/
def visitBlock : Block → Staged (List Fragment)
  | .text text style => return [.run (.ofText text style)]
  | .static run => return [.run run]
  | .placeholder path style position => do
    let text ← Staged.read fun scene => scene.located position (scene.context.text path)
    return [.value (.ofText text style)]
  | .image name style position => do
    let run ← Staged.read fun scene => scene.located position (scene.imageRun name style)
    return [.run run]
  | .conditional condition thenBlocks elseBlocks _ => do
    if (← get).context.holds condition then visitBlocks thenBlocks
    else
      match elseBlocks with
      | none => return []
      | some blocks => visitBlocks blocks
  | .loop list body position => do
    let entries ← Staged.read fun scene => scene.located position (scene.context.entries list)
    Staged.forEntries (visitBlocks body) entries.length 0 entries
  | .named _ body _ origin => Staged.withTemplate origin (visitBlocks body)
  | .inherits _ _ => return []
  | .paragraph properties children hasDirectives => do
    let fragments ← visitBlocks children
    Staged.read fun scene =>
      return assembleParagraph scene.settings.coalesceRuns properties hasDirectives fragments
  | .table table => do
    let table ← visitTable table
    return [.element (.table table)]

/-- Renders blocks one after the other. -/
def visitBlocks : List Block → Staged (List Fragment)
  | [] => return []
  | block :: blocks => do
    let first ← visitBlock block
    let rest ← visitBlocks blocks
    return first ++ rest

/-- Renders a table. -/
def visitTable : Table (RowBlock Block) → Staged (Table (Row Element))
  | ⟨properties, grid, rows⟩ => do
    let rows ← visitRows rows
    return ⟨properties, grid, rows⟩

/-- Renders the rows of a table. -/
def visitRows : List (RowBlock Block) → Staged (List (Row Element))
  | [] => return []
  | .static row :: rows => do
    let first ← visitRow row
    let rest ← visitRows rows
    return first :: rest
  | .loop list row position :: rows => do
    let entries ← Staged.read fun scene => scene.located position (scene.context.entries list)
    let first ← Staged.forEntries (do return [← visitRow row]) entries.length 0 entries
    let rest ← visitRows rows
    return first ++ rest

/-- Renders a row. -/
def visitRow : Row Block → Staged (Row Element)
  | ⟨properties, cells⟩ => do
    let cells ← visitCells cells
    return ⟨properties, cells⟩

/-- Renders the cells of a row. -/
def visitCells : List (Cell Block) → Staged (List (Cell Element))
  | [] => return []
  | ⟨properties, body⟩ :: cells => do
    let fragments ← visitBlocks body
    let rest ← visitCells cells
    return ⟨properties, cellBodyOf fragments⟩ :: rest

end

/-! ## What a part gives and leaves behind -/

namespace Staged

variable {α β : Type} {x : Staged α} {f : α → Staged β} {scene left : Scene}

/-- What a computation comes to in a scene, and the scene that it leaves behind. -/
def runIn (x : Staged α) (scene : Scene) : Except Error α × Scene := (ExceptT.run x).run scene

theorem runIn_bind_ok {a : α} (h : x.runIn scene = (.ok a, left)) :
    (x >>= f).runIn scene = (f a).runIn left := by
  rw [runIn, ExceptT.run_bind, StateT.run_bind]
  have hx : (ExceptT.run x).run scene = (.ok a, left) := h
  rw [hx]
  rfl

theorem runIn_bind_error {e : Error} (h : x.runIn scene = (.error e, left)) :
    (x >>= f).runIn scene = (.error e, left) := by
  rw [runIn, ExceptT.run_bind, StateT.run_bind]
  have hx : (ExceptT.run x).run scene = (.error e, left) := h
  rw [hx]
  rfl

/-- A caught failure leaves the scene as the failing computation has left it. -/
theorem runIn_observing {result : Except Error α} (h : x.runIn scene = (result, left)) :
    (observing x).runIn scene = (.ok result, left) := by
  have hx : ((do return .ok (← x) : Staged (Except Error α))).runIn scene =
      (result.map .ok, left) := by
    cases result with
    | error e => exact runIn_bind_error h
    | ok a => exact runIn_bind_ok h
  rw [runIn] at hx
  rw [runIn, observing, ExceptT.run_tryCatch, StateT.run_bind, hx]
  cases result <;> rfl

theorem runIn_modify_bind (g : Scene → Scene) (f : PUnit → Staged β) (scene : Scene) :
    ((modify g : Staged PUnit) >>= f).runIn scene = (f ⟨⟩).runIn (g scene) := rfl

theorem runIn_liftExcept (result : Except Error α) (scene : Scene) :
    (liftExcept result : Staged α).runIn scene = (result, scene) := by
  cases result <;> rfl

end Staged

/-- In each scene the computation comes to what is rendered there, and it leaves the same scene
behind. -/
def Renders {α : Type} (x : Staged α) (render : Scene → Except Error α) : Prop :=
  ∀ scene, x.runIn scene = (render scene, scene)

namespace Renders

variable {α β : Type} {x : Staged α} {render : Scene → Except Error α}

theorem pure (a : α) : Renders (pure a) fun _ => .ok a := fun _ => rfl

theorem bind {f : α → Staged β} {next : α → Scene → Except Error β} (hx : Renders x render)
    (hf : ∀ a, Renders (f a) (next a)) :
    Renders (x >>= f) fun scene => render scene >>= fun a => next a scene := by
  intro scene
  have hscene := hx scene
  dsimp only
  cases hresult : render scene with
  | error e =>
    rw [hresult] at hscene
    exact Staged.runIn_bind_error hscene
  | ok a =>
    rw [hresult] at hscene
    rw [Staged.runIn_bind_ok hscene, hf a scene]
    rfl

theorem get_bind {f : Scene → Staged α}
    (hf : ∀ scene, (f scene).runIn scene = (render scene, scene)) :
    Renders (get >>= f) render := fun scene => hf scene

theorem read (f : Scene → Except Error α) : Renders (Staged.read f) f :=
  get_bind fun scene => Staged.runIn_liftExcept (f scene) scene

/-- The scope of the entry is gone, whatever came of the computation. -/
theorem withEntry (hx : Renders x render) (entry : Value) (index length : Nat) :
    Renders (Staged.withEntry entry index length x) fun scene =>
      render (scene.enter entry index length) := by
  intro scene
  have hinner := Staged.runIn_observing (hx (scene.enter entry index length))
  rw [Staged.withEntry, Staged.runIn_modify_bind, Staged.runIn_bind_ok hinner,
    Staged.runIn_modify_bind, Staged.runIn_liftExcept]
  rfl

theorem withTemplate (hx : Renders x render) (origin : Option String) :
    Renders (Staged.withTemplate origin x) fun scene => render (scene.within origin) := by
  cases origin with
  | none => exact hx
  | some origin =>
    refine get_bind fun scene => ?_
    have hinner := Staged.runIn_observing (hx (scene.within (some origin)))
    rw [Staged.runIn_modify_bind, Staged.runIn_bind_ok hinner, Staged.runIn_modify_bind,
      Staged.runIn_liftExcept]
    rfl

theorem append {x y : Staged (List α)} {render next : Scene → Except Error (List α)}
    (hx : Renders x render) (hy : Renders y next) :
    Renders
      (do
        let first ← x
        let rest ← y
        return first ++ rest)
      fun scene =>
        (do
          let first ← render scene
          let rest ← next scene
          return first ++ rest) :=
  hx.bind fun first => hy.bind fun rest => pure (first ++ rest)

theorem forEntries {x : Staged (List α)} {render : Scene → Except Error (List α)}
    (hx : Renders x render) (length index : Nat) (entries : List Value) :
    Renders (Staged.forEntries x length index entries) fun scene =>
      scene.renderEntries render length index entries := by
  induction entries generalizing index with
  | nil => exact pure []
  | cons entry entries ih =>
    have hfirst := hx.withEntry entry index length
    exact hfirst.append (ih (index + 1))

end Renders

/-! ## Whole trees -/

mutual

theorem visitBlock_runIn : ∀ (block : Block) (scene : Scene),
    (visitBlock block).runIn scene = (renderBlock scene block, scene)
  | .text text style, scene => by
    rw [visitBlock, renderBlock]
    rfl
  | .static run, scene => by
    rw [visitBlock, renderBlock]
    rfl
  | .inherits _ _, scene => by
    rw [visitBlock, renderBlock]
    rfl
  | .placeholder path style position, scene => by
    have htext := Renders.read fun scene => scene.located position (scene.context.text path)
    have hrun := htext.bind fun text => .pure [Fragment.value (.ofText text style)]
    rw [visitBlock, renderBlock]
    exact hrun scene
  | .image name style position, scene => by
    have himage := Renders.read fun scene => scene.located position (scene.imageRun name style)
    have hrun := himage.bind fun run => .pure [Fragment.run run]
    rw [visitBlock, renderBlock]
    exact hrun scene
  | .conditional condition thenBlocks none _, scene => by
    rw [visitBlock, renderBlock]
    show (if scene.context.holds condition then visitBlocks thenBlocks else pure []).runIn scene = _
    split
    · exact visitBlocks_runIn thenBlocks scene
    · rfl
  | .conditional condition thenBlocks (some elseBlocks) _, scene => by
    rw [visitBlock, renderBlock]
    show (if scene.context.holds condition then visitBlocks thenBlocks
      else visitBlocks elseBlocks).runIn scene = _
    split
    · exact visitBlocks_runIn thenBlocks scene
    · exact visitBlocks_runIn elseBlocks scene
  | .loop list body position, scene => by
    have hlist := Renders.read fun scene => scene.located position (scene.context.entries list)
    have hbody : Renders (visitBlocks body) (renderBlocks · body) := visitBlocks_runIn body
    have hloop := hlist.bind fun entries => hbody.forEntries entries.length 0 entries
    rw [visitBlock, renderBlock]
    exact hloop scene
  | .named _ body _ origin, scene => by
    have hbody : Renders (visitBlocks body) (renderBlocks · body) := visitBlocks_runIn body
    rw [visitBlock, renderBlock]
    exact hbody.withTemplate origin scene
  | .paragraph properties children hasDirectives, scene => by
    have hchildren : Renders (visitBlocks children) (renderBlocks · children) :=
      visitBlocks_runIn children
    have hparagraph := hchildren.bind fun fragments => .read fun scene =>
      return assembleParagraph scene.settings.coalesceRuns properties hasDirectives fragments
    rw [visitBlock, renderBlock]
    exact hparagraph scene
  | .table ⟨properties, grid, rows⟩, scene => by
    have hrows : Renders (visitRows rows) (renderRows · rows) := visitRows_runIn rows
    have htable := hrows.bind fun rows => .pure [Fragment.element (.table ⟨properties, grid, rows⟩)]
    rw [visitBlock, renderBlock, visitTable, bind_assoc]
    exact htable scene

theorem visitBlocks_runIn : ∀ (blocks : List Block) (scene : Scene),
    (visitBlocks blocks).runIn scene = (renderBlocks scene blocks, scene)
  | [], scene => by
    rw [visitBlocks, renderBlocks]
    rfl
  | block :: blocks, scene => by
    have hfirst : Renders (visitBlock block) (renderBlock · block) := visitBlock_runIn block
    have hrest : Renders (visitBlocks blocks) (renderBlocks · blocks) := visitBlocks_runIn blocks
    rw [visitBlocks, renderBlocks]
    exact (hfirst.append hrest) scene

theorem visitRows_runIn : ∀ (rows : List (RowBlock Block)) (scene : Scene),
    (visitRows rows).runIn scene = (renderRows scene rows, scene)
  | [], scene => by
    rw [visitRows, renderRows]
    rfl
  | .static ⟨properties, cells⟩ :: rows, scene => by
    have hcells : Renders (visitCells cells) (renderCells · cells) := visitCells_runIn cells
    have hrest : Renders (visitRows rows) (renderRows · rows) := visitRows_runIn rows
    have hrows := hcells.bind fun cells => hrest.bind fun rest =>
      .pure ((⟨properties, cells⟩ : Row Element) :: rest)
    rw [visitRows, renderRows, visitRow, bind_assoc]
    exact hrows scene
  | .loop list ⟨properties, cells⟩ position :: rows, scene => by
    have hlist := Renders.read fun scene => scene.located position (scene.context.entries list)
    have hcells : Renders (visitCells cells) (renderCells · cells) := visitCells_runIn cells
    have hrow : Renders (do return [← visitRow ⟨properties, cells⟩])
        fun scene => (do return [⟨properties, ← renderCells scene cells⟩]) := by
      rw [visitRow, bind_assoc]
      exact hcells.bind fun cells => .pure [(⟨properties, cells⟩ : Row Element)]
    have hrest : Renders (visitRows rows) (renderRows · rows) := visitRows_runIn rows
    have hrows := hlist.bind fun entries => (hrow.forEntries entries.length 0 entries).append hrest
    rw [visitRows, renderRows]
    exact hrows scene

theorem visitCells_runIn : ∀ (cells : List (Cell Block)) (scene : Scene),
    (visitCells cells).runIn scene = (renderCells scene cells, scene)
  | [], scene => by
    rw [visitCells, renderCells]
    rfl
  | ⟨properties, body⟩ :: cells, scene => by
    have hbody : Renders (visitBlocks body) (renderBlocks · body) := visitBlocks_runIn body
    have hrest : Renders (visitCells cells) (renderCells · cells) := visitCells_runIn cells
    have hcells := hbody.bind fun fragments => hrest.bind fun rest =>
      .pure ((⟨properties, cellBodyOf fragments⟩ : Cell Element) :: rest)
    rw [visitCells, renderCells]
    exact hcells scene

end

theorem visitRow_runIn (row : Row Block) (scene : Scene) :
    (visitRow row).runIn scene =
      (do return ⟨row.properties, ← renderCells scene row.cells⟩, scene) := by
  obtain ⟨properties, cells⟩ := row
  have hcells : Renders (visitCells cells) (renderCells · cells) := visitCells_runIn cells
  have hrow := hcells.bind fun cells => .pure (⟨properties, cells⟩ : Row Element)
  rw [visitRow]
  exact hrow scene

theorem visitTable_runIn (table : Table (RowBlock Block)) (scene : Scene) :
    (visitTable table).runIn scene =
      (do return ⟨table.properties, table.grid, ← renderRows scene table.rows⟩, scene) := by
  obtain ⟨properties, grid, rows⟩ := table
  have hrows : Renders (visitRows rows) (renderRows · rows) := visitRows_runIn rows
  have htable := hrows.bind fun rows => .pure (⟨properties, grid, rows⟩ : Table (Row Element))
  rw [visitTable]
  exact htable scene

/-- Parts that are rendered one after the other, each failure being caught, come to what each of
them comes to alone. -/
theorem siblings_runIn (siblings : List (List Block)) (scene : Scene) :
    Staged.runIn (siblings.mapM fun blocks => observing (visitBlocks blocks)) scene =
      (.ok (siblings.map (renderBlocks scene)), scene) := by
  induction siblings with
  | nil => rfl
  | cons blocks siblings ih =>
    have hfirst := Staged.runIn_observing (visitBlocks_runIn blocks scene)
    rw [List.mapM_cons, Staged.runIn_bind_ok hfirst, Staged.runIn_bind_ok ih]
    rfl

/-- Whatever is rendered, and however it ends, a failure at any depth included, the scene is the one
that was there before, with the same scopes and the same template, and the outcome is that of
rendering in this scene. So what is rendered next does not depend on what failed before it. -/
theorem render_restores (scene : Scene) :
    (∀ blocks, (visitBlocks blocks).runIn scene = (renderBlocks scene blocks, scene)) ∧
    (∀ row : Row Block, (visitRow row).runIn scene =
      (do return ⟨row.properties, ← renderCells scene row.cells⟩, scene)) ∧
    (∀ table : Table (RowBlock Block), (visitTable table).runIn scene =
      (do return ⟨table.properties, table.grid, ← renderRows scene table.rows⟩, scene)) ∧
    ∀ siblings : List (List Block),
      Staged.runIn (siblings.mapM fun blocks => observing (visitBlocks blocks)) scene =
        (.ok (siblings.map (renderBlocks scene)), scene) :=
  ⟨fun blocks => visitBlocks_runIn blocks scene, fun row => visitRow_runIn row scene,
    fun table => visitTable_runIn table scene, fun siblings => siblings_runIn siblings scene⟩

end StyledTemplate
