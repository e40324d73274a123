import StyledTemplate.Block.Builder
import StyledTemplate.Proofs.Document.SpelledRows

/-!
# Spelling blocks out

A tree of blocks is spelled out like a document: each literal block becomes one block for each
character. An unfinished `Builder` is spelled out, too, and the operations on it may as well be done
to what it is spelled out to.
-/

namespace StyledTemplate

/-! ## Trees -/

mutual

/-- The block with one block for each character of literal text. -/
def Block.spell : Block → List Block
  | .text text style => text.toList.map fun c => .text (String.ofList [c]) style
  | .static run => run.spell.map .static
  | .placeholder path style position => [.placeholder path style position]
  | .image name style position => [.image name style position]
  | .conditional condition thenBlocks none position =>
    [.conditional condition (spellBlocks thenBlocks) none position]
  | .conditional condition thenBlocks (some elseBlocks) position =>
    [.conditional condition (spellBlocks thenBlocks) (some (spellBlocks elseBlocks)) position]
  | .loop list body position => [.loop list (spellBlocks body) position]
  | .named id body position origin => [.named id (spellBlocks body) position origin]
  | .inherits parent position => [.inherits parent position]
  | .paragraph properties children hasDirectives =>
    [.paragraph properties (spellBlocks children) hasDirectives]
  | .table ⟨properties, grid, rows⟩ => [.table ⟨properties, grid, spellRowBlocks rows⟩]

def spellBlocks : List Block → List Block
  | [] => []
  | block :: blocks => block.spell ++ spellBlocks blocks

def spellRowBlocks : List (RowBlock Block) → List (RowBlock Block)
  | [] => []
  | .static ⟨properties, cells⟩ :: rows =>
    .static ⟨properties, spellCellBlocks cells⟩ :: spellRowBlocks rows
  | .loop list ⟨properties, cells⟩ position :: rows =>
    .loop list ⟨properties, spellCellBlocks cells⟩ position :: spellRowBlocks rows

def spellCellBlocks : List (Cell Block) → List (Cell Block)
  | [] => []
  | ⟨properties, body⟩ :: cells => ⟨properties, spellBlocks body⟩ :: spellCellBlocks cells

end

@[simp] theorem spellBlocks_nil : spellBlocks [] = [] := by rw [spellBlocks]

@[simp] theorem spellBlocks_cons (block : Block) (blocks : List Block) :
    spellBlocks (block :: blocks) = block.spell ++ spellBlocks blocks := by rw [spellBlocks]

@[simp] theorem spellBlocks_append (as bs : List Block) :
    spellBlocks (as ++ bs) = spellBlocks as ++ spellBlocks bs := by
  induction as with
  | nil => simp
  | cons a as ih => simp [ih]

/-- Runs that are shown as they are may be spelled out before or after. -/
theorem spellBlocks_static (runs : List Run) :
    spellBlocks (runs.map .static) = (spellRuns runs).map .static := by
  induction runs with
  | nil => simp
  | cons run runs ih =>
    rw [List.map_cons, spellBlocks_cons, ih, spellRuns_cons, List.map_append, Block.spell]

/-! ## Unfinished regions -/

/-- The region with what has been read of it spelled out. -/
def Opening.spell : Opening → Opening
  | .condition name thenBlocks none => .condition name (spellBlocks thenBlocks) none
  | .condition name thenBlocks (some elseBlocks) =>
    .condition name (spellBlocks thenBlocks) (some (spellBlocks elseBlocks))
  | .loop list body => .loop list (spellBlocks body)
  | .named id body => .named id (spellBlocks body)

namespace Opening

theorem region_spell (opening : Opening) : opening.spell.region = opening.region := by
  rcases opening with ⟨name, thenBlocks, _ | elseBlocks⟩ | ⟨list, body⟩ | ⟨id, body⟩ <;> rfl

theorem spell_toBlock (position : Position) (opening : Opening) :
    (opening.toBlock position).spell = [opening.spell.toBlock position] := by
  rcases opening with ⟨name, thenBlocks, _ | elseBlocks⟩ | ⟨list, body⟩ | ⟨id, body⟩ <;>
    rw [toBlock, Block.spell] <;> rfl

/-- The region with blocks added at its end. -/
def pushAll (blocks : List Block) : Opening → Opening
  | .condition name thenBlocks none => .condition name (thenBlocks ++ blocks) none
  | .condition name thenBlocks (some elseBlocks) =>
    .condition name thenBlocks (some (elseBlocks ++ blocks))
  | .loop list body => .loop list (body ++ blocks)
  | .named id body => .named id (body ++ blocks)

theorem pushAll_nil (opening : Opening) : opening.pushAll [] = opening := by
  rcases opening with ⟨name, thenBlocks, _ | elseBlocks⟩ | ⟨list, body⟩ | ⟨id, body⟩ <;>
    simp [pushAll]

theorem pushAll_cons (block : Block) (blocks : List Block) (opening : Opening) :
    opening.pushAll (block :: blocks) = (opening.push block).pushAll blocks := by
  rcases opening with ⟨name, thenBlocks, _ | elseBlocks⟩ | ⟨list, body⟩ | ⟨id, body⟩ <;>
    simp [pushAll, push]

theorem spell_push (block : Block) (opening : Opening) :
    (opening.push block).spell = opening.spell.pushAll block.spell := by
  rcases opening with ⟨name, thenBlocks, _ | elseBlocks⟩ | ⟨list, body⟩ | ⟨id, body⟩ <;>
    simp [spell, pushAll, push]

end Opening

def Frame.spell (frame : Frame) : Frame := { frame with opening := frame.opening.spell }

namespace Builder

/-- The builder with all that it has built spelled out. -/
def spell (b : Builder) : Builder :=
  { b with root := spellBlocks b.root, frames := b.frames.map Frame.spell }

/-- Adds blocks to the innermost open region. -/
def pushAll (b : Builder) (blocks : List Block) : Builder := blocks.foldl push b

theorem pushAll_of_root (root : List Block) (baseDepth limit : Nat) (blocks : List Block) :
    pushAll ⟨root, [], baseDepth, limit⟩ blocks = ⟨root ++ blocks, [], baseDepth, limit⟩ := by
  induction blocks generalizing root with
  | nil =>
    rw [List.append_nil]
    rfl
  | cons block blocks ih =>
    have hstep := ih (root ++ [block])
    rw [List.append_assoc, List.singleton_append] at hstep
    exact hstep

theorem pushAll_of_frame (root : List Block) (frame : Frame) (frames : List Frame)
    (baseDepth limit : Nat) (blocks : List Block) :
    pushAll ⟨root, frame :: frames, baseDepth, limit⟩ blocks =
      ⟨root, { frame with opening := frame.opening.pushAll blocks } :: frames, baseDepth,
        limit⟩ := by
  induction blocks generalizing frame with
  | nil =>
    rw [Opening.pushAll_nil]
    rfl
  | cons block blocks ih =>
    have hstep := ih (frame.push block)
    rw [Frame.push, ← Opening.pushAll_cons] at hstep
    exact hstep

theorem spell_push (b : Builder) (block : Block) :
    (b.push block).spell = b.spell.pushAll block.spell := by
  obtain ⟨root, frames, baseDepth, limit⟩ := b
  cases frames with
  | nil =>
    have hpush := pushAll_of_root (spellBlocks root) baseDepth limit block.spell
    refine Eq.trans ?_ hpush.symm
    simp [push, spell]
  | cons frame frames =>
    have hpush := pushAll_of_frame (spellBlocks root) frame.spell (frames.map Frame.spell)
      baseDepth limit block.spell
    refine Eq.trans ?_ hpush.symm
    simp [push, spell, Frame.push, Frame.spell, Opening.spell_push]

theorem spell_push_of_spell {b : Builder} {block block' : Block} (h : block.spell = [block']) :
    (b.push block).spell = b.spell.push block' := by
  rw [spell_push, h]
  rfl

/-- Runs that are not text stay as they are. -/
theorem spell_pushRuns (b : Builder) {runs : List Run} (h : ∀ run ∈ runs, run.text? = none) :
    (b.pushRuns runs).spell = b.spell.pushRuns runs := by
  induction runs generalizing b with
  | nil => rfl
  | cons run runs ih =>
    rw [List.forall_mem_cons] at h
    have hrun : (Block.static run).spell = [.static run] := by
      rw [Block.spell, Run.spell_of_text?_eq_none h.1]
      rfl
    have hrest := ih (b.push (.static run)) h.2
    rw [spell_push_of_spell hrun] at hrest
    exact hrest

theorem depth_spell (b : Builder) : b.spell.depth = b.depth := by simp [spell, depth]

theorem openRegion_spell (b : Builder) (opening : Opening) (opener : String)
    (position : Position) :
    b.spell.openRegion opening.spell opener position =
      (b.openRegion opening opener position).map spell := by
  unfold openRegion
  rw [depth_spell]
  cases hcheck : checkDepth b.depth b.limit position with
  | error e =>
    have hcheck' : checkDepth b.depth b.spell.limit position = .error e := hcheck
    rw [hcheck']
    rfl
  | ok _ =>
    have hcheck' : checkDepth b.depth b.spell.limit position = .ok () := hcheck
    rw [hcheck']
    rfl

theorem otherwise_spell (b : Builder) (position : Position) :
    b.spell.otherwise position = (b.otherwise position).map spell := by
  obtain ⟨root, frames, baseDepth, limit⟩ := b
  rcases frames with _ | ⟨⟨⟨name, thenBlocks, _ | elseBlocks⟩ | ⟨list, body⟩ | ⟨id, body⟩,
    opener, start⟩, frames⟩ <;>
    simp [otherwise, spell, Frame.spell, Opening.spell, Except.map]

theorem close_spell (b : Builder) (region : Region) (position : Position) :
    b.spell.close region position = (b.close region position).map spell := by
  obtain ⟨root, frames, baseDepth, limit⟩ := b
  cases frames with
  | nil => rfl
  | cons frame frames =>
    have hregion : frame.spell.opening.region = frame.opening.region :=
      frame.opening.region_spell
    have hblock : frame.toBlock.spell = [frame.spell.toBlock] := Opening.spell_toBlock _ _
    have hpush := spell_push_of_spell (b := ⟨root, frames, baseDepth, limit⟩) hblock
    show (if frame.spell.opening.region = region then _ else _) =
      (if frame.opening.region = region then _ else _ : Except ParseError Builder).map spell
    rw [hregion]
    split
    · exact congrArg Except.ok hpush.symm
    · rfl

theorem finish_spell (b : Builder) : b.spell.finish = b.finish.map spellBlocks := by
  obtain ⟨root, frames, baseDepth, limit⟩ := b
  cases frames with
  | nil => rfl
  | cons frame frames => rfl

end Builder

end StyledTemplate
