import StyledTemplate.Proofs.Block.Marks
import StyledTemplate.Proofs.Block.Spelling

/-!
# Blocks without their places

The places of the directives matter for error messages only. Trees of blocks that are the same
without their places show the same, and a builder goes the same way whatever the places are: each
operation on it may as well be done to the builder without its places.

A builder can be mounted on another one, so that what it builds ends up in the innermost open region
of the other one. Directives that a builder takes do the same when it is mounted, as long as the
regions of both together are not nested too deeply.
-/

namespace StyledTemplate

/-! ## Trees -/

mutual

/-- The block with all places set to the start of the template. -/
def Block.unplaced : Block → Block
  | .text text style => .text text style
  | .placeholder path style _ => .placeholder path style {}
  | .image name style _ => .image name style {}
  | .conditional condition thenBlocks none _ =>
    .conditional condition (unplacedBlocks thenBlocks) none {}
  | .conditional condition thenBlocks (some elseBlocks) _ =>
    .conditional condition (unplacedBlocks thenBlocks) (some (unplacedBlocks elseBlocks)) {}
  | .loop list body _ => .loop list (unplacedBlocks body) {}
  | .named id body _ origin => .named id (unplacedBlocks body) {} origin
  | .inherits parent _ => .inherits parent {}
  | .paragraph properties children hasDirectives =>
    .paragraph properties (unplacedBlocks children) hasDirectives
  | .table ⟨properties, grid, rows⟩ => .table ⟨properties, grid, unplacedRows rows⟩
  | .static run => .static run

def unplacedBlocks : List Block → List Block
  | [] => []
  | block :: blocks => block.unplaced :: unplacedBlocks blocks

def unplacedRows : List (RowBlock Block) → List (RowBlock Block)
  | [] => []
  | .static ⟨properties, cells⟩ :: rows =>
    .static ⟨properties, unplacedCells cells⟩ :: unplacedRows rows
  | .loop list ⟨properties, cells⟩ _ :: rows =>
    .loop list ⟨properties, unplacedCells cells⟩ {} :: unplacedRows rows

def unplacedCells : List (Cell Block) → List (Cell Block)
  | [] => []
  | ⟨properties, body⟩ :: cells => ⟨properties, unplacedBlocks body⟩ :: unplacedCells cells

end

@[simp] theorem unplacedBlocks_nil : unplacedBlocks [] = [] := by rw [unplacedBlocks]

@[simp] theorem unplacedBlocks_cons (block : Block) (blocks : List Block) :
    unplacedBlocks (block :: blocks) = block.unplaced :: unplacedBlocks blocks := by
  rw [unplacedBlocks]

@[simp] theorem unplacedBlocks_append (as bs : List Block) :
    unplacedBlocks (as ++ bs) = unplacedBlocks as ++ unplacedBlocks bs := by
  induction as with
  | nil => simp
  | cons a as ih => simp [ih]

/-! ## Unfinished regions -/

/-- The region with what has been read of it, without places. -/
def Opening.unplaced : Opening → Opening
  | .condition name thenBlocks none => .condition name (unplacedBlocks thenBlocks) none
  | .condition name thenBlocks (some elseBlocks) =>
    .condition name (unplacedBlocks thenBlocks) (some (unplacedBlocks elseBlocks))
  | .loop list body => .loop list (unplacedBlocks body)
  | .named id body => .named id (unplacedBlocks body)

namespace Opening

theorem region_unplaced (opening : Opening) : opening.unplaced.region = opening.region := by
  rcases opening with ⟨name, thenBlocks, _ | elseBlocks⟩ | ⟨list, body⟩ | ⟨id, body⟩ <;> rfl

theorem unplaced_push (block : Block) (opening : Opening) :
    (opening.push block).unplaced = opening.unplaced.push block.unplaced := by
  rcases opening with ⟨name, thenBlocks, _ | elseBlocks⟩ | ⟨list, body⟩ | ⟨id, body⟩ <;>
    simp [unplaced, push]

theorem unplaced_toBlock (position : Position) (opening : Opening) :
    (opening.toBlock position).unplaced = opening.unplaced.toBlock {} := by
  rcases opening with ⟨name, thenBlocks, _ | elseBlocks⟩ | ⟨list, body⟩ | ⟨id, body⟩ <;>
    rw [toBlock, Block.unplaced] <;> rfl

end Opening

def Frame.unplaced (frame : Frame) : Frame :=
  { opening := frame.opening.unplaced, opener := frame.opener, position := {} }

namespace Builder

/-- The builder with all that it has built, without places. -/
def unplaced (b : Builder) : Builder :=
  { b with root := unplacedBlocks b.root, frames := b.frames.map Frame.unplaced }

theorem limit_unplaced (b : Builder) : b.unplaced.limit = b.limit := rfl

theorem depth_unplaced (b : Builder) : b.unplaced.depth = b.depth := by simp [unplaced, depth]

theorem nest_eq_nil_iff {b : Builder} : b.nest = [] ↔ b.unplaced.frames = [] := by
  simp [nest, unplaced]

theorem unplaced_push (b : Builder) (block : Block) :
    (b.push block).unplaced = b.unplaced.push block.unplaced := by
  obtain ⟨root, _ | ⟨frame, frames⟩, baseDepth, limit⟩ := b
  · simp [push, unplaced]
  · simp [push, unplaced, Frame.push, Frame.unplaced, Opening.unplaced_push]

/-! ## Directives without their places -/

theorem toOption_openRegion_unplaced (b : Builder) (opening : Opening) (opener : String)
    (position : Position) :
    (b.unplaced.openRegion opening.unplaced opener {}).toOption =
      (b.openRegion opening opener position).toOption.map unplaced := by
  unfold openRegion checkDepth
  rw [depth_unplaced, limit_unplaced]
  split <;> rfl

theorem toOption_otherwise_unplaced (b : Builder) (position : Position) :
    (b.unplaced.otherwise {}).toOption = (b.otherwise position).toOption.map unplaced := by
  obtain ⟨root, frames, baseDepth, limit⟩ := b
  rcases frames with _ | ⟨⟨⟨name, thenBlocks, _ | elseBlocks⟩ | ⟨list, body⟩ | ⟨id, body⟩,
    opener, start⟩, frames⟩ <;>
    simp [otherwise, unplaced, Frame.unplaced, Opening.unplaced, Except.toOption]

theorem toOption_close_unplaced (b : Builder) (region : Region) (position : Position) :
    (b.unplaced.close region {}).toOption = (b.close region position).toOption.map unplaced := by
  obtain ⟨root, _ | ⟨frame, frames⟩, baseDepth, limit⟩ := b
  · rfl
  · have hregion : frame.unplaced.opening.region = frame.opening.region :=
      frame.opening.region_unplaced
    have hblock : frame.toBlock.unplaced = frame.unplaced.toBlock :=
      frame.opening.unplaced_toBlock _
    have hpush := unplaced_push ⟨root, frames, baseDepth, limit⟩ frame.toBlock
    rw [hblock] at hpush
    show (if frame.unplaced.opening.region = region then _ else _ : Except _ Builder).toOption =
      (if frame.opening.region = region then _ else _ : Except ParseError Builder).toOption.map _
    rw [hregion]
    split
    · exact congrArg some hpush.symm
    · rfl

/-- Places play no role for what a directive does. -/
theorem toOption_apply_unplaced (b : Builder) (opener : String) (style : RunProperties)
    (position : Position) (d : Directive) :
    (b.unplaced.apply opener style {} d).toOption =
      (b.apply opener style position d).toOption.map unplaced := by
  have hpush : ∀ block : Block, some (b.unplaced.push block.unplaced) =
      some (b.push block).unplaced := fun block => congrArg some (b.unplaced_push block).symm
  cases d with
  | inherits parent => exact hpush (.inherits parent position)
  | placeholder path => exact hpush (.placeholder path style position)
  | image name => exact hpush (.image name style position)
  | ifOpen condition => exact b.toOption_openRegion_unplaced (.condition condition [] none) ..
  | otherwise => exact b.toOption_otherwise_unplaced position
  | ifClose => exact b.toOption_close_unplaced .condition position
  | eachOpen list => exact b.toOption_openRegion_unplaced (.loop list []) ..
  | eachClose => exact b.toOption_close_unplaced .loop position
  | blockOpen id => exact b.toOption_openRegion_unplaced (.named id []) ..
  | blockClose => exact b.toOption_close_unplaced .named position

section Apply

variable {b b' : Builder} {opener : String} {style : RunProperties} {position : Position}
  {d : Directive}

theorem unplaced_of_apply (h : b.apply opener style position d = .ok b') :
    b.unplaced.apply opener style {} d = .ok b'.unplaced := by
  rw [← toOption_eq_some_iff, toOption_apply_unplaced b opener style position d, h]
  rfl

theorem exists_of_apply_unplaced (position : Position)
    (h : b.unplaced.apply opener style {} d = .ok b') :
    ∃ c, b.apply opener style position d = .ok c ∧ c.unplaced = b' := by
  rw [← toOption_eq_some_iff, toOption_apply_unplaced b opener style position d] at h
  obtain ⟨c, hc, hsame⟩ := Option.map_eq_some_iff.1 h
  exact ⟨c, toOption_eq_some_iff.1 hc, hsame⟩

end Apply

/-! ## Mounted builders -/

theorem limit_pushAll (b : Builder) (blocks : List Block) : (b.pushAll blocks).limit = b.limit := by
  induction blocks generalizing b with
  | nil => rfl
  | cons block blocks ih => exact (ih _).trans (limit_push _ _)

theorem depth_pushAll (b : Builder) (blocks : List Block) : (b.pushAll blocks).depth = b.depth := by
  induction blocks generalizing b with
  | nil => rfl
  | cons block blocks ih => exact (ih _).trans (depth_push _ _)

/-- The builder with another one mounted on it: what the other one has built goes into the innermost
open region, and its open regions stand on top. -/
def mount (outer b : Builder) : Builder :=
  { outer.pushAll b.root with frames := b.frames ++ (outer.pushAll b.root).frames }

theorem limit_mount (outer b : Builder) : (outer.mount b).limit = outer.limit :=
  limit_pushAll outer b.root

theorem depth_mount (outer b : Builder) :
    (outer.mount b).depth = outer.depth + b.frames.length := by
  have houter : (outer.pushAll b.root).baseDepth + (outer.pushAll b.root).frames.length =
      outer.depth := outer.depth_pushAll b.root
  show (outer.pushAll b.root).baseDepth + (b.frames ++ (outer.pushAll b.root).frames).length = _
  rw [List.length_append]
  omega

/-- A finished builder leaves its blocks behind. -/
theorem mount_of_frames_eq_nil (outer : Builder) {b : Builder} (h : b.frames = []) :
    outer.mount b = outer.pushAll b.root := by
  rw [mount, h]
  rfl

theorem mount_push (outer b : Builder) (block : Block) :
    outer.mount (b.push block) = (outer.mount b).push block := by
  obtain ⟨root, _ | ⟨frame, frames⟩, baseDepth, limit⟩ := b
  · have hroot : outer.pushAll (root ++ [block]) = (outer.pushAll root).push block :=
      List.foldl_append
    exact hroot
  · rfl

theorem mount_otherwise (outer : Builder) {b b' : Builder} {position : Position}
    (h : b.otherwise position = .ok b') :
    (outer.mount b).otherwise position = .ok (outer.mount b') := by
  obtain ⟨root, frames, baseDepth, limit⟩ := b
  rcases frames with _ | ⟨⟨⟨name, thenBlocks, _ | elseBlocks⟩ | ⟨list, body⟩ | ⟨id, body⟩,
    opener, start⟩, frames⟩ <;> simp only [otherwise, reduceCtorEq] at h
  obtain rfl := Except.ok.inj h
  rfl

theorem mount_close (outer : Builder) {b b' : Builder} {region : Region} {position : Position}
    (h : b.close region position = .ok b') :
    (outer.mount b).close region position = .ok (outer.mount b') := by
  obtain ⟨root, _ | ⟨frame, frames⟩, baseDepth, limit⟩ := b
  · cases h
  · simp only [close] at h
    split at h
    · next hregion =>
      obtain rfl := Except.ok.inj h
      rw [mount_push]
      exact if_pos hregion
    · cases h

/-- A directive does the same to a mounted builder, if it does not open one region too many. -/
theorem mount_apply {outer b b' : Builder} {opener : String} {style : RunProperties}
    {position : Position} {d : Directive} (h : b.apply opener style position d = .ok b')
    (hbelow : d.isOpener = true → (outer.mount b).depth < (outer.mount b).limit) :
    (outer.mount b).apply opener style position d = .ok (outer.mount b') := by
  have hpush : ∀ block : Block, b.push block = b' →
      .ok ((outer.mount b).push block) = (.ok (outer.mount b') : Except ParseError Builder) := by
    rintro block rfl
    rw [mount_push]
  have hopen : ∀ opening : Opening, d.isOpener = true →
      b.openRegion opening opener position = .ok b' →
        (outer.mount b).openRegion opening opener position = .ok (outer.mount b') := by
    intro opening hd hb
    obtain ⟨-, rfl⟩ := openRegion_ok_iff.1 hb
    exact openRegion_ok_iff.2 ⟨hbelow hd, rfl⟩
  cases d with
  | inherits parent => exact hpush _ (Except.ok.inj h)
  | placeholder path => exact hpush _ (Except.ok.inj h)
  | image name => exact hpush _ (Except.ok.inj h)
  | ifOpen condition => exact hopen _ rfl h
  | otherwise => exact mount_otherwise outer h
  | ifClose => exact mount_close outer h
  | eachOpen list => exact hopen _ rfl h
  | eachClose => exact mount_close outer h
  | blockOpen id => exact hopen _ rfl h
  | blockClose => exact mount_close outer h

end Builder

end StyledTemplate
