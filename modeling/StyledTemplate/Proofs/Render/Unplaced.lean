import StyledTemplate.Proofs.Block.Unplaced
import StyledTemplate.Proofs.Render.Output

/-!
# Rendering without places

Blocks show the same without their places. Only an error is wrapped with another place then, and its
cause is the same.
-/

namespace StyledTemplate

section Scene

variable {α : Type}

theorem Alike.mapError_rootCause {x y : Except Error α} (h : Alike (· = ·) x y) :
    x.mapError Error.rootCause = y.mapError Error.rootCause := by
  cases h with
  | ok h => rw [h]
  | error h => exact congrArg Except.error h

theorem located_alike (scene : Scene) (position position' : Position) (x : Except Error α) :
    Alike (· = ·) (scene.located position x) (scene.located position' x) := by
  cases x with
  | ok a => exact .ok rfl
  | error e =>
    refine .error ?_
    rw [Error.rootCause_inTemplate, Error.rootCause_inTemplate]

theorem renderEntries_congr_alike {render render' : Scene → Except Error (List α)}
    (h : ∀ scene, Alike (· = ·) (render scene) (render' scene)) (scene : Scene) (length : Nat)
    (entries : List Value) (index : Nat) :
    Alike (· = ·) (scene.renderEntries render length index entries)
      (scene.renderEntries render' length index entries) := by
  induction entries generalizing index with
  | nil => exact .ok rfl
  | cons entry entries ih =>
    rw [Scene.renderEntries, Scene.renderEntries]
    refine .bind (h (scene.enter entry index length)) ?_
    rintro first _ rfl
    refine .bind (ih (index + 1)) ?_
    rintro rest _ rfl
    exact .ok rfl

/-- What is rendered for each entry of a list, wherever the loop stands. -/
theorem renderLoop_congr_alike {render render' : Scene → Except Error (List α)}
    (h : ∀ scene, Alike (· = ·) (render scene) (render' scene)) (scene : Scene) (list : String)
    (position position' : Position) :
    Alike (· = ·)
      (do
        let entries ← scene.located position (scene.context.entries list)
        scene.renderEntries render entries.length 0 entries)
      (do
        let entries ← scene.located position' (scene.context.entries list)
        scene.renderEntries render' entries.length 0 entries) := by
  refine .bind (located_alike scene position position' _) ?_
  rintro entries _ rfl
  exact renderEntries_congr_alike h scene entries.length entries 0

end Scene

mutual

theorem renderBlock_unplaced : ∀ (block : Block) (scene : Scene),
    Alike (· = ·) (renderBlock scene block) (renderBlock scene block.unplaced)
  | .text text style, scene => by
    rw [Block.unplaced]
    exact .refl _
  | .static run, scene => by
    rw [Block.unplaced]
    exact .refl _
  | .placeholder path style position, scene => by
    rw [Block.unplaced, renderBlock, renderBlock]
    refine .bind (located_alike scene position {} _) ?_
    rintro text _ rfl
    exact .ok rfl
  | .image name style position, scene => by
    rw [Block.unplaced, renderBlock, renderBlock]
    refine .bind (located_alike scene position {} _) ?_
    rintro run _ rfl
    exact .ok rfl
  | .conditional condition thenBlocks none _, scene => by
    rw [Block.unplaced, renderBlock, renderBlock]
    split
    · exact renderBlocks_unplaced thenBlocks scene
    · exact .ok rfl
  | .conditional condition thenBlocks (some elseBlocks) _, scene => by
    rw [Block.unplaced, renderBlock, renderBlock]
    split
    · exact renderBlocks_unplaced thenBlocks scene
    · exact renderBlocks_unplaced elseBlocks scene
  | .loop list body position, scene => by
    rw [Block.unplaced, renderBlock, renderBlock]
    exact renderLoop_congr_alike (renderBlocks_unplaced body) scene list position {}
  | .named _ body _ origin, scene => by
    rw [Block.unplaced, renderBlock, renderBlock]
    exact renderBlocks_unplaced body (scene.within origin)
  | .inherits _ _, scene => by
    rw [Block.unplaced, renderBlock, renderBlock]
    exact .ok rfl
  | .paragraph properties children hasDirectives, scene => by
    rw [Block.unplaced, renderBlock, renderBlock]
    refine .bind (renderBlocks_unplaced children scene) ?_
    rintro fragments _ rfl
    exact .ok rfl
  | .table ⟨properties, grid, rows⟩, scene => by
    rw [Block.unplaced, renderBlock, renderBlock]
    refine .bind (renderRows_unplaced rows scene) ?_
    rintro shown _ rfl
    exact .ok rfl

theorem renderBlocks_unplaced : ∀ (blocks : List Block) (scene : Scene),
    Alike (· = ·) (renderBlocks scene blocks) (renderBlocks scene (unplacedBlocks blocks))
  | [], scene => by
    rw [unplacedBlocks]
    exact .refl _
  | block :: blocks, scene => by
    rw [unplacedBlocks, renderBlocks, renderBlocks]
    refine .bind (renderBlock_unplaced block scene) ?_
    rintro first _ rfl
    refine .bind (renderBlocks_unplaced blocks scene) ?_
    rintro rest _ rfl
    exact .ok rfl

theorem renderRows_unplaced : ∀ (rows : List (RowBlock Block)) (scene : Scene),
    Alike (· = ·) (renderRows scene rows) (renderRows scene (unplacedRows rows))
  | [], scene => by
    rw [unplacedRows]
    exact .refl _
  | .static ⟨properties, cells⟩ :: rows, scene => by
    rw [unplacedRows, renderRows, renderRows]
    refine .bind (renderCells_unplaced cells scene) ?_
    rintro shown _ rfl
    refine .bind (renderRows_unplaced rows scene) ?_
    rintro rest _ rfl
    exact .ok rfl
  | .loop list ⟨properties, cells⟩ position :: rows, scene => by
    have hrow : ∀ scene : Scene, Alike (· = ·)
        (do return [(⟨properties, ← renderCells scene cells⟩ : Row Element)])
        (do return [(⟨properties, ← renderCells scene (unplacedCells cells)⟩ : Row Element)]) := by
      intro scene
      refine .bind (renderCells_unplaced cells scene) ?_
      rintro shown _ rfl
      exact .ok rfl
    have hloop := renderLoop_congr_alike hrow scene list position {}
    rw [unplacedRows, renderRows, renderRows, ← bind_assoc, ← bind_assoc]
    refine .bind hloop ?_
    rintro first _ rfl
    refine .bind (renderRows_unplaced rows scene) ?_
    rintro rest _ rfl
    exact .ok rfl

theorem renderCells_unplaced : ∀ (cells : List (Cell Block)) (scene : Scene),
    Alike (· = ·) (renderCells scene cells) (renderCells scene (unplacedCells cells))
  | [], scene => by
    rw [unplacedCells]
    exact .refl _
  | ⟨properties, body⟩ :: cells, scene => by
    rw [unplacedCells, renderCells, renderCells]
    refine .bind (renderBlocks_unplaced body scene) ?_
    rintro fragments _ rfl
    refine .bind (renderCells_unplaced cells scene) ?_
    rintro rest _ rfl
    exact .ok rfl

end

theorem renderDocument_unplaced (scene : Scene) (blocks : List Block) :
    Alike (· = ·) (renderDocument scene blocks)
      (renderDocument scene (unplacedBlocks blocks)) := by
  refine .bind (renderBlocks_unplaced blocks scene) ?_
  rintro fragments _ rfl
  exact .ok rfl

end StyledTemplate
