import StyledTemplate.Block.Basic

/-!
# Building the tree of blocks

The blocks of a body are built from a sequence of directives with a stack of open regions. An
opening directive pushes a frame, a closing one pops the innermost frame, which has to be of its
kind, and anything else goes into the innermost frame.
-/

namespace StyledTemplate

/-- The kinds of regions that directives open and close. -/
inductive Region where
  /-- A condition. -/
  | condition
  /-- A loop. -/
  | loop
  /-- A named block. -/
  | named
  deriving Repr, DecidableEq

/-- The text of the directive that closes a region. -/
def Region.closer : Region → String
  | .condition => "\x7b\x7b/if\x7d\x7d"
  | .loop => "\x7b\x7b/each\x7d\x7d"
  | .named => "\x7b\x7b/block\x7d\x7d"

/-- What has been read of an open region. -/
inductive Opening where
  /-- A condition. Its second branch is there once the alternative has been read. -/
  | condition (name : String) (thenBlocks : List Block) (elseBlocks : Option (List Block))
  /-- A loop. -/
  | loop (list : String) (body : List Block)
  /-- A named block. -/
  | named (id : String) (body : List Block)

namespace Opening

/-- The kind of the region. -/
def region : Opening → Region
  | .condition _ _ _ => .condition
  | .loop _ _ => .loop
  | .named _ _ => .named

/-- The region with a block added at its end. -/
def push (block : Block) : Opening → Opening
  | .condition name thenBlocks none => .condition name (thenBlocks ++ [block]) none
  | .condition name thenBlocks (some elseBlocks) =>
    .condition name thenBlocks (some (elseBlocks ++ [block]))
  | .loop list body => .loop list (body ++ [block])
  | .named id body => .named id (body ++ [block])

/-- The block that the region becomes once it is closed. -/
def toBlock (position : Position) : Opening → Block
  | .condition name thenBlocks elseBlocks => .conditional name thenBlocks elseBlocks position
  | .loop list body => .loop list body position
  | .named id body => .named id body position none

end Opening

/-- An open region and the directive that opened it. -/
structure Frame where
  /-- What has been read of the region. -/
  opening : Opening
  /-- The text of the directive that opened it. -/
  opener : String
  /-- The place of that directive. -/
  position : Position

namespace Frame

/-- The frame with a block added at the end of its region. -/
def push (block : Block) (frame : Frame) : Frame :=
  { frame with opening := frame.opening.push block }

/-- The block that the frame becomes once it is closed. -/
def toBlock (frame : Frame) : Block := frame.opening.toBlock frame.position

end Frame

/-- Checks that one more region may be opened below `depth` others. -/
def checkDepth (depth limit : Nat) (position : Position) : Except ParseError Unit :=
  if depth < limit then .ok () else .error { fault := .nestingTooDeep limit, position }

/-- The blocks built so far. -/
structure Builder where
  /-- The blocks outside of all open regions. -/
  root : List Block := []
  /-- The open regions, innermost first. -/
  frames : List Frame := []
  /-- The number of regions that are open around these blocks. -/
  baseDepth : Nat
  /-- How many regions may be open at once. -/
  limit : Nat

namespace Builder

/-- The number of open regions, those around these blocks included. -/
def depth (b : Builder) : Nat := b.baseDepth + b.frames.length

/-- Adds a block to the innermost open region. -/
def push (b : Builder) (block : Block) : Builder :=
  match b.frames with
  | [] => { b with root := b.root ++ [block] }
  | frame :: frames => { b with frames := frame.push block :: frames }

/-- Adds runs that are shown as they are. -/
def pushRuns (b : Builder) (runs : List Run) : Builder :=
  runs.foldl (fun b run => b.push (.static run)) b

/-- Opens a region. -/
def openRegion (b : Builder) (opening : Opening) (opener : String) (position : Position) :
    Except ParseError Builder := do
  checkDepth b.depth b.limit position
  return { b with frames := ⟨opening, opener, position⟩ :: b.frames }

/-- Goes on to the second branch of the innermost region. -/
def otherwise (b : Builder) (position : Position) : Except ParseError Builder :=
  match b.frames with
  | ⟨.condition name thenBlocks none, opener, start⟩ :: frames =>
    .ok { b with frames := ⟨.condition name thenBlocks (some []), opener, start⟩ :: frames }
  | ⟨.condition _ _ (some _), _, _⟩ :: _ => .error { fault := .duplicateElse, position }
  | _ => .error { fault := .unexpectedElse, position }

/-- Closes the innermost region. -/
def close (b : Builder) (region : Region) (position : Position) : Except ParseError Builder :=
  match b.frames with
  | [] => .error { fault := .unmatchedCloser region.closer, position }
  | frame :: frames =>
    if frame.opening.region = region then
      .ok (push { b with frames } frame.toBlock)
    else
      .error
        { fault := .mismatchedCloser frame.opening.region.closer region.closer, position }

/-- The finished blocks, if every region has been closed. -/
def finish (b : Builder) : Except ParseError (List Block) :=
  match b.frames with
  | [] => .ok b.root
  | frame :: _ =>
    .error { fault := .unclosedDirective frame.opener, position := frame.position }

end Builder

end StyledTemplate
