import StyledTemplate.Bindings.Context
import StyledTemplate.Block.Basic
import StyledTemplate.Image.Embed
import StyledTemplate.Image.Loader
import StyledTemplate.Render.Fragment
import StyledTemplate.Settings.Basic

/-!
# Rendering

`renderBlocks` shows a tree of blocks in a scene, which says what the names mean and which template
the blocks come from. An error is wrapped with that template and the place of the directive in it.
-/

namespace StyledTemplate

/-- All that the rendering of a block depends on. -/
structure Scene where
  /-- The name of the template that the block comes from. -/
  template : String
  /-- What names mean. -/
  context : Context
  /-- The settings. -/
  settings : TemplateSettings
  /-- Where the bytes of images come from. -/
  loader : ImageLoader

namespace Scene

/-- An error, wrapped with a place in the template. -/
def located {α : Type} (scene : Scene) (position : Position) (result : Except Error α) :
    Except Error α :=
  result.mapError (·.inTemplate scene.template (some position))

/-- The scene for an entry of a list. -/
def enter (scene : Scene) (entry : Value) (index length : Nat) : Scene :=
  { scene with context := scene.context.enter entry index length }

/-- The scene for a block whose body was taken from `origin`, if it was taken from elsewhere. -/
def within (scene : Scene) (origin : Option String) : Scene :=
  { scene with template := origin.getD scene.template }

/-- The bytes of an image. If an image cannot be loaded, the error is named by the placeholder. -/
def imageBytes (scene : Scene) (name : String) (source : ImageSource) :
    Except Error (List UInt8) :=
  match source with
  | .bytes data => .ok data
  | .path path => (scene.loader.load path).mapError (·.forImage name)

/-- The run that shows an image. If nothing is bound to its name, that is a marker text. -/
def imageRun (scene : Scene) (name : String) (style : RunProperties) : Except Error Run :=
  match scene.context.image? name with
  | none => .ok (.ofText (scene.settings.missingImageMarker name) style)
  | some binding => do
    let data ← scene.imageBytes name binding.source
    let image ← binding.embed name data
    return ⟨style, .image image⟩

/-- Renders something for each entry of a list, in the scene of the entry, and joins the results.
`index` entries of all `length` come before the given ones. -/
def renderEntries {α : Type} (scene : Scene) (render : Scene → Except Error (List α))
    (length index : Nat) : List Value → Except Error (List α)
  | [] => .ok []
  | entry :: entries => do
    let first ← render (scene.enter entry index length)
    let rest ← renderEntries scene render length (index + 1) entries
    return first ++ rest

end Scene

mutual

/-- Renders a block. -/
def renderBlock (scene : Scene) : Block → Except Error (List Fragment)
  | .text text style => .ok [.run (.ofText text style)]
  | .static run => .ok [.run run]
  | .placeholder path style position => do
    let text ← scene.located position (scene.context.text path)
    return [.value (.ofText text style)]
  | .image name style position => do
    let run ← scene.located position (scene.imageRun name style)
    return [.run run]
  | .conditional condition thenBlocks elseBlocks _ =>
    if scene.context.holds condition then renderBlocks scene thenBlocks
    else
      match elseBlocks with
      | none => .ok []
      | some blocks => renderBlocks scene blocks
  | .loop list body position => do
    let entries ← scene.located position (scene.context.entries list)
    scene.renderEntries (fun scene => renderBlocks scene body) entries.length 0 entries
  | .named _ body _ origin => renderBlocks (scene.within origin) body
  | .inherits _ _ => .ok []
  | .paragraph properties children hasDirectives => do
    let fragments ← renderBlocks scene children
    return assembleParagraph scene.settings.coalesceRuns properties hasDirectives fragments
  | .table ⟨properties, grid, rows⟩ => do
    let rows ← renderRows scene rows
    return [.element (.table ⟨properties, grid, rows⟩)]

/-- Renders blocks one after the other. -/
def renderBlocks (scene : Scene) : List Block → Except Error (List Fragment)
  | [] => .ok []
  | block :: blocks => do
    let first ← renderBlock scene block
    let rest ← renderBlocks scene blocks
    return first ++ rest

/-- Renders the rows of a table. -/
def renderRows (scene : Scene) : List (RowBlock Block) → Except Error (List (Row Element))
  | [] => .ok []
  | .static ⟨properties, cells⟩ :: rows => do
    let cells ← renderCells scene cells
    let rest ← renderRows scene rows
    return ⟨properties, cells⟩ :: rest
  | .loop list ⟨properties, cells⟩ position :: rows => do
    let entries ← scene.located position (scene.context.entries list)
    let first ← scene.renderEntries
      (fun scene => do return [⟨properties, ← renderCells scene cells⟩]) entries.length 0 entries
    let rest ← renderRows scene rows
    return first ++ rest

/-- Renders the cells of a row. -/
def renderCells (scene : Scene) : List (Cell Block) → Except Error (List (Cell Element))
  | [] => .ok []
  | ⟨properties, body⟩ :: cells => do
    let fragments ← renderBlocks scene body
    let rest ← renderCells scene cells
    return ⟨properties, cellBodyOf fragments⟩ :: rest

end

/-- Renders a tree of blocks as a document. -/
def renderDocument (scene : Scene) (blocks : List Block) : Except Error Document := do
  let fragments ← renderBlocks scene blocks
  return ⟨elementsOf fragments⟩

end StyledTemplate
