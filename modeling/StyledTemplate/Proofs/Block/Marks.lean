import StyledTemplate.Block.Builder
import StyledTemplate.Proofs.Directive.Grammar

/-!
# The directives of a tree of blocks

`marksOf` reads a tree of blocks back as the sequence of directives it was built from, each with the
place that the tree keeps for it. The same reading of an unfinished `Builder` grows at its end only:
each operation adds the mark of its directive, and moves on the stack of open regions just as
`nestAfter?` does.
-/

namespace StyledTemplate

/-! ## Marks -/

/-- A directive of a template as a tree of blocks keeps it. -/
structure Mark where
  /-- The directive. -/
  directive : Directive
  /-- The place of the directive. The tree keeps none for what closes or splits a region. -/
  position : Option Position := none
  /-- Is the directive one of the two that make a row repeated? -/
  ofRow : Bool := false
  deriving Repr, DecidableEq

/-- Does a tree of blocks keep the place of the directive? -/
def Directive.keepsPlace (d : Directive) : Bool := d.isLeaf || d.isOpener

/-- The mark of a directive that is read at a place. -/
def Directive.mark (d : Directive) (position : Position) : Mark where
  directive := d
  position := if d.keepsPlace then some position else none

mutual

/-- The marks of a block, in document order. -/
def Block.marks : Block → List Mark
  | .text _ _ => []
  | .static _ => []
  | .placeholder path _ position => [{ directive := .placeholder path, position }]
  | .image name _ position => [{ directive := .image name, position }]
  | .conditional condition thenBlocks none position =>
    { directive := .ifOpen condition, position } :: marksOf thenBlocks ++
      [{ directive := .ifClose }]
  | .conditional condition thenBlocks (some elseBlocks) position =>
    { directive := .ifOpen condition, position } :: marksOf thenBlocks ++
      { directive := .otherwise } :: marksOf elseBlocks ++ [{ directive := .ifClose }]
  | .loop list body position =>
    { directive := .eachOpen list, position } :: marksOf body ++ [{ directive := .eachClose }]
  | .named id body position _ =>
    { directive := .blockOpen id, position } :: marksOf body ++ [{ directive := .blockClose }]
  | .inherits parent position => [{ directive := .inherits parent, position }]
  | .paragraph _ children _ => marksOf children
  | .table ⟨_, _, rows⟩ => rowMarks rows

/-- The marks of some blocks. -/
def marksOf : List Block → List Mark
  | [] => []
  | block :: blocks => block.marks ++ marksOf blocks

/-- The marks of the rows of a table. -/
def rowMarks : List (RowBlock Block) → List Mark
  | [] => []
  | .static ⟨_, cells⟩ :: rows => cellMarks cells ++ rowMarks rows
  | .loop list ⟨_, cells⟩ position :: rows =>
    { directive := .eachOpen list, position, ofRow := true } :: cellMarks cells ++
      { directive := .eachClose, ofRow := true } :: rowMarks rows

/-- The marks of the cells of a row. -/
def cellMarks : List (Cell Block) → List Mark
  | [] => []
  | ⟨_, body⟩ :: cells => marksOf body ++ cellMarks cells

end

@[simp] theorem marksOf_nil : marksOf [] = [] := by rw [marksOf]

@[simp] theorem marksOf_cons (block : Block) (blocks : List Block) :
    marksOf (block :: blocks) = block.marks ++ marksOf blocks := by rw [marksOf]

@[simp] theorem marksOf_append (as bs : List Block) :
    marksOf (as ++ bs) = marksOf as ++ marksOf bs := by
  induction as with
  | nil => simp
  | cons a as ih => simp [ih]

/-- Runs that are shown as they are hold no directives. -/
theorem marksOf_static (runs : List Run) : marksOf (runs.map Block.static) = [] := by
  induction runs with
  | nil => simp
  | cons run runs ih => simp [ih, Block.marks]

/-! ## Unfinished regions -/

namespace Opening

/-- The marks of an unfinished region that was opened at a place. -/
def marks (position : Position) : Opening → List Mark
  | .condition name thenBlocks none =>
    { directive := .ifOpen name, position } :: marksOf thenBlocks
  | .condition name thenBlocks (some elseBlocks) =>
    { directive := .ifOpen name, position } :: marksOf thenBlocks ++
      { directive := .otherwise } :: marksOf elseBlocks
  | .loop list body => { directive := .eachOpen list, position } :: marksOf body
  | .named id body => { directive := .blockOpen id, position } :: marksOf body

/-- What decides how the region may go on. -/
def openRegion : Opening → OpenRegion
  | .condition _ _ elseBlocks => .condition elseBlocks.isSome
  | .loop _ _ => .loop
  | .named _ _ => .named

theorem marks_push (block : Block) (position : Position) (opening : Opening) :
    (opening.push block).marks position = opening.marks position ++ block.marks := by
  rcases opening with ⟨name, thenBlocks, _ | elseBlocks⟩ | ⟨list, body⟩ | ⟨id, body⟩ <;>
    simp [push, marks]

theorem openRegion_push (block : Block) (opening : Opening) :
    (opening.push block).openRegion = opening.openRegion := by
  rcases opening with ⟨name, thenBlocks, _ | elseBlocks⟩ | ⟨list, body⟩ | ⟨id, body⟩ <;> rfl

end Opening

/-- The directive that closes a region. -/
def Region.closeDirective : Region → Directive
  | .condition => .ifClose
  | .loop => .eachClose
  | .named => .blockClose

/-- A tree of blocks keeps no place for what closes a region. -/
theorem Region.mark_closeDirective (region : Region) (position : Position) :
    region.closeDirective.mark position = { directive := region.closeDirective } := by
  cases region <;> rfl

/-- Closing a region adds the mark of the directive that closes it. -/
theorem Opening.marks_toBlock (position : Position) (opening : Opening) :
    (opening.toBlock position).marks =
      opening.marks position ++ [{ directive := opening.region.closeDirective }] := by
  rcases opening with ⟨name, thenBlocks, _ | elseBlocks⟩ | ⟨list, body⟩ | ⟨id, body⟩ <;>
    simp [Opening.toBlock, Block.marks, Opening.marks, Opening.region, Region.closeDirective]

namespace Builder

/-- The open regions, innermost first. -/
def nest (b : Builder) : List OpenRegion := b.frames.map fun frame => frame.opening.openRegion

/-- The marks of everything that has been fed to the builder. -/
def marks (b : Builder) : List Mark :=
  marksOf b.root ++ b.frames.reverse.flatMap fun frame => frame.opening.marks frame.position

theorem depth_eq (b : Builder) : b.depth = b.baseDepth + b.nest.length := by
  simp [depth, nest]

/-! ## Adding blocks -/

@[simp] theorem baseDepth_push (b : Builder) (block : Block) :
    (b.push block).baseDepth = b.baseDepth := by
  unfold push
  split <;> rfl

@[simp] theorem limit_push (b : Builder) (block : Block) : (b.push block).limit = b.limit := by
  unfold push
  split <;> rfl

@[simp] theorem nest_push (b : Builder) (block : Block) : (b.push block).nest = b.nest := by
  unfold push
  split
  · rfl
  · next frame frames hframes =>
    simp [nest, hframes, Frame.push, Opening.openRegion_push]

@[simp] theorem depth_push (b : Builder) (block : Block) : (b.push block).depth = b.depth := by
  rw [depth_eq, depth_eq, nest_push, baseDepth_push]

@[simp] theorem marks_push (b : Builder) (block : Block) :
    (b.push block).marks = b.marks ++ block.marks := by
  unfold push
  split
  · next hframes => simp [marks, hframes]
  · next frame frames hframes =>
    simp [marks, hframes, Frame.push, Opening.marks_push]

@[simp] theorem baseDepth_pushRuns (b : Builder) (runs : List Run) :
    (b.pushRuns runs).baseDepth = b.baseDepth := by
  induction runs generalizing b with
  | nil => rfl
  | cons run runs ih => exact (ih _).trans (baseDepth_push _ _)

@[simp] theorem limit_pushRuns (b : Builder) (runs : List Run) :
    (b.pushRuns runs).limit = b.limit := by
  induction runs generalizing b with
  | nil => rfl
  | cons run runs ih => exact (ih _).trans (limit_push _ _)

@[simp] theorem nest_pushRuns (b : Builder) (runs : List Run) :
    (b.pushRuns runs).nest = b.nest := by
  induction runs generalizing b with
  | nil => rfl
  | cons run runs ih => exact (ih _).trans (nest_push _ _)

@[simp] theorem marks_pushRuns (b : Builder) (runs : List Run) :
    (b.pushRuns runs).marks = b.marks := by
  induction runs generalizing b with
  | nil => rfl
  | cons run runs ih =>
    refine (ih _).trans ?_
    rw [marks_push, Block.marks, List.append_nil]

/-! ## Feeding directives -/

/-- Feeds a directive to the builder, where a declaration of the parent is one to keep. -/
def apply (opener : String) (style : RunProperties) (position : Position) (b : Builder) :
    Directive → Except ParseError Builder
  | .inherits parent => .ok (b.push (.inherits parent position))
  | .placeholder path => .ok (b.push (.placeholder path style position))
  | .image name => .ok (b.push (.image name style position))
  | .ifOpen condition => b.openRegion (.condition condition [] none) opener position
  | .otherwise => b.otherwise position
  | .ifClose => b.close .condition position
  | .eachOpen list => b.openRegion (.loop list []) opener position
  | .eachClose => b.close .loop position
  | .blockOpen id => b.openRegion (.named id []) opener position
  | .blockClose => b.close .named position

/-- How a builder looks after it has been fed a directive. -/
structure Applied (b : Builder) (d : Directive) (position : Position) (b' : Builder) : Prop where
  /-- The open regions are those that the directive leaves open. -/
  nest : nestAfter? b.nest d = some b'.nest
  /-- The mark of the directive has been added. -/
  marks : b'.marks = b.marks ++ [d.mark position]
  /-- The regions around the builder are the same. -/
  baseDepth : b'.baseDepth = b.baseDepth
  /-- The limit is the same. -/
  limit : b'.limit = b.limit
  /-- A region has been opened only below the limit. -/
  below : d.isOpener → b.depth < b.limit

theorem checkDepth_ok_iff {depth limit : Nat} {position : Position} :
    checkDepth depth limit position = .ok () ↔ depth < limit := by
  unfold checkDepth
  split <;> simp [*]

theorem openRegion_ok_iff {b b' : Builder} {opening : Opening} {opener : String}
    {position : Position} : b.openRegion opening opener position = .ok b' ↔
      b.depth < b.limit ∧ { b with frames := ⟨opening, opener, position⟩ :: b.frames } = b' := by
  unfold openRegion checkDepth
  split
  · next h => simp [bind, Except.bind, pure, Except.pure, h]
  · next h => simp [bind, Except.bind, h]

theorem marks_openRegion (b : Builder) (opening : Opening) (opener : String)
    (position : Position) : marks { b with frames := ⟨opening, opener, position⟩ :: b.frames } =
      b.marks ++ opening.marks position := by
  simp [marks]

theorem Applied.openRegion {b b' : Builder} {opening : Opening} {opener : String}
    {position : Position} {d : Directive}
    (h : b.openRegion opening opener position = .ok b')
    (hnest : nestAfter? b.nest d = some (opening.openRegion :: b.nest))
    (hmarks : opening.marks position = [d.mark position]) : Applied b d position b' := by
  obtain ⟨hlt, rfl⟩ := openRegion_ok_iff.1 h
  exact ⟨hnest, by rw [marks_openRegion, hmarks], rfl, rfl, fun _ => hlt⟩

theorem Applied.otherwise {b b' : Builder} {position : Position}
    (h : b.otherwise position = .ok b') : Applied b .otherwise position b' := by
  obtain ⟨root, frames, baseDepth, limit⟩ := b
  rcases frames with _ | ⟨⟨⟨name, thenBlocks, _ | elseBlocks⟩ | ⟨list, body⟩ | ⟨id, body⟩,
    opener, start⟩, frames⟩ <;> simp only [Builder.otherwise, reduceCtorEq] at h
  obtain rfl := Except.ok.inj h
  exact ⟨rfl, by simp [Builder.marks, Opening.marks, Directive.mark, Directive.keepsPlace,
    Directive.isLeaf, Directive.isOpener], rfl, rfl, nofun⟩

theorem nestAfter?_closeDirective (opening : Opening) (nest : List OpenRegion) :
    nestAfter? (opening.openRegion :: nest) opening.region.closeDirective = some nest := by
  cases opening <;> rfl

theorem region_of_nestAfter? {region : Region} {opening : Opening} {nest : List OpenRegion}
    (h : (nestAfter? (opening.openRegion :: nest) region.closeDirective).isSome) :
    opening.region = region := by
  cases region <;> cases opening <;> first | rfl | simp [Opening.openRegion,
    Region.closeDirective, nestAfter?] at h

theorem Applied.close {b b' : Builder} (region : Region) {position : Position}
    (h : b.close region position = .ok b') :
    Applied b region.closeDirective position b' := by
  obtain ⟨root, frames, baseDepth, limit⟩ := b
  cases frames with
  | nil => simp [Builder.close] at h
  | cons frame frames =>
    simp only [Builder.close] at h
    split at h
    · next hregion =>
      obtain rfl := Except.ok.inj h
      subst hregion
      refine ⟨?_, ?_, ?_, ?_, ?_⟩
      · rw [nest_push]
        exact nestAfter?_closeDirective _ _
      · rw [marks_push, Frame.toBlock, Opening.marks_toBlock]
        simp [Builder.marks, Region.mark_closeDirective]
      · exact baseDepth_push _ _
      · exact limit_push _ _
      · cases frame.opening <;> nofun
    · simp at h

/-- Feeding a directive has the effect that `Applied` describes. -/
theorem applied_of_apply {b b' : Builder} {opener : String} {style : RunProperties}
    {position : Position} {d : Directive} (h : b.apply opener style position d = .ok b') :
    Applied b d position b' := by
  cases d with
  | inherits parent =>
    obtain rfl := Except.ok.inj h
    exact ⟨(congrArg some (nest_push _ _)).symm, marks_push _ _, baseDepth_push _ _,
      limit_push _ _, nofun⟩
  | placeholder path =>
    obtain rfl := Except.ok.inj h
    exact ⟨(congrArg some (nest_push _ _)).symm, marks_push _ _, baseDepth_push _ _,
      limit_push _ _, nofun⟩
  | image name =>
    obtain rfl := Except.ok.inj h
    exact ⟨(congrArg some (nest_push _ _)).symm, marks_push _ _, baseDepth_push _ _,
      limit_push _ _, nofun⟩
  | ifOpen condition => exact .openRegion h rfl (by simp [Opening.marks]; rfl)
  | otherwise => exact .otherwise h
  | ifClose => exact Applied.close .condition h
  | eachOpen list => exact .openRegion h rfl (by simp [Opening.marks]; rfl)
  | eachClose => exact Applied.close .loop h
  | blockOpen id => exact .openRegion h rfl (by simp [Opening.marks]; rfl)
  | blockClose => exact Applied.close .named h

theorem exists_close {b : Builder} (region : Region) {position : Position}
    (h : (nestAfter? b.nest region.closeDirective).isSome) :
    ∃ b', b.close region position = .ok b' := by
  obtain ⟨root, frames, baseDepth, limit⟩ := b
  cases frames with
  | nil => cases region <;> simp [nest, Region.closeDirective, nestAfter?] at h
  | cons frame frames => exact ⟨_, if_pos (region_of_nestAfter? h)⟩

theorem exists_otherwise {b : Builder} {position : Position}
    (h : (nestAfter? b.nest .otherwise).isSome) : ∃ b', b.otherwise position = .ok b' := by
  obtain ⟨root, frames, baseDepth, limit⟩ := b
  rcases frames with _ | ⟨⟨⟨name, thenBlocks, _ | elseBlocks⟩ | ⟨list, body⟩ | ⟨id, body⟩,
    opener, start⟩, frames⟩ <;> simp [nest, Opening.openRegion, nestAfter?] at h
  exact ⟨_, rfl⟩

/-- A directive can be fed if it fits the innermost region and does not open one too many. -/
theorem exists_apply {b : Builder} (opener : String) (style : RunProperties)
    (position : Position) {d : Directive} (hnest : (nestAfter? b.nest d).isSome)
    (hbelow : d.isOpener → b.depth < b.limit) :
    ∃ b', b.apply opener style position d = .ok b' := by
  cases d with
  | inherits parent => exact ⟨_, rfl⟩
  | placeholder path => exact ⟨_, rfl⟩
  | image name => exact ⟨_, rfl⟩
  | ifOpen condition => exact ⟨_, openRegion_ok_iff.2 ⟨hbelow rfl, rfl⟩⟩
  | otherwise => exact exists_otherwise hnest
  | ifClose => exact exists_close .condition hnest
  | eachOpen list => exact ⟨_, openRegion_ok_iff.2 ⟨hbelow rfl, rfl⟩⟩
  | eachClose => exact exists_close .loop hnest
  | blockOpen id => exact ⟨_, openRegion_ok_iff.2 ⟨hbelow rfl, rfl⟩⟩
  | blockClose => exact exists_close .named hnest

/-- The blocks are finished exactly if no region is open. -/
theorem finish_ok_iff {b : Builder} {blocks : List Block} :
    b.finish = .ok blocks ↔ b.nest = [] ∧ b.root = blocks := by
  unfold finish
  split
  · next hframes => simp [nest, hframes]
  · next hframes => simp [nest, hframes]

/-- The finished blocks have the marks of the builder. -/
theorem marks_of_finish {b : Builder} {blocks : List Block} (h : b.finish = .ok blocks) :
    marksOf blocks = b.marks := by
  obtain ⟨hnest, rfl⟩ := finish_ok_iff.1 h
  have hframes : b.frames = [] := List.map_eq_nil_iff.1 hnest
  simp [marks, hframes]

end Builder

end StyledTemplate
