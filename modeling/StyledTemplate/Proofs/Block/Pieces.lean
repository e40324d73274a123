import StyledTemplate.Proofs.Block.Marks
import StyledTemplate.Proofs.Block.Spelling
import StyledTemplate.Proofs.Document.RowContent

/-!
# The pieces of a tree of blocks

`piecesOf` reads a tree of blocks as a sequence of pieces: the content of its leaves, and between
it the directives that the tree was built from. Spelling the tree out does not change them
(`piecesOf_spellBlocks`), and feeding a directive to a `Builder` adds its piece at the end
(`Builder.pieces_of_apply`).
-/

namespace StyledTemplate

/-! ## Trees -/

/-- A piece of a tree of blocks. -/
inductive Piece where
  /-- A piece of content. -/
  | atom (atom : Atom)
  /-- A directive, and the formatting of what is shown in its place. -/
  | directive (mark : Mark) (style : Option RunProperties)
  deriving DecidableEq

/-- The piece of a directive at a place. What is shown in the place of a directive has the
formatting of the text that the directive starts with. -/
def Directive.piece (d : Directive) (position : Position) (style : Option RunProperties) : Piece :=
  .directive (d.mark position) (if d.isStructural then none else style)

mutual

/-- The pieces of a block, in document order. -/
def Block.pieces : Block → List Piece
  | .text text style => (textAtoms text style).map .atom
  | .static run => run.atoms.map .atom
  | .placeholder path style position =>
    [.directive { directive := .placeholder path, position } (some style)]
  | .image name style position => [.directive { directive := .image name, position } (some style)]
  | .conditional condition thenBlocks none position =>
    .directive { directive := .ifOpen condition, position } none :: piecesOf thenBlocks ++
      [.directive { directive := .ifClose } none]
  | .conditional condition thenBlocks (some elseBlocks) position =>
    .directive { directive := .ifOpen condition, position } none :: piecesOf thenBlocks ++
      .directive { directive := .otherwise } none :: piecesOf elseBlocks ++
        [.directive { directive := .ifClose } none]
  | .loop list body position =>
    .directive { directive := .eachOpen list, position } none :: piecesOf body ++
      [.directive { directive := .eachClose } none]
  | .named id body position _ =>
    .directive { directive := .blockOpen id, position } none :: piecesOf body ++
      [.directive { directive := .blockClose } none]
  | .inherits parent position => [.directive { directive := .inherits parent, position } none]
  | .paragraph _ children _ => piecesOf children
  | .table ⟨_, _, rows⟩ => rowPieces rows

/-- The pieces of some blocks. -/
def piecesOf : List Block → List Piece
  | [] => []
  | block :: blocks => block.pieces ++ piecesOf blocks

/-- The pieces of the rows of a table. -/
def rowPieces : List (RowBlock Block) → List Piece
  | [] => []
  | .static ⟨_, cells⟩ :: rows => cellPieces cells ++ rowPieces rows
  | .loop list ⟨_, cells⟩ position :: rows =>
    .directive { directive := .eachOpen list, position, ofRow := true } none :: cellPieces cells ++
      .directive { directive := .eachClose, ofRow := true } none :: rowPieces rows

/-- The pieces of the cells of a row. -/
def cellPieces : List (Cell Block) → List Piece
  | [] => []
  | ⟨_, body⟩ :: cells => piecesOf body ++ cellPieces cells

end

@[simp] theorem piecesOf_nil : piecesOf [] = [] := by rw [piecesOf]

@[simp] theorem piecesOf_cons (block : Block) (blocks : List Block) :
    piecesOf (block :: blocks) = block.pieces ++ piecesOf blocks := by rw [piecesOf]

@[simp] theorem piecesOf_append (as bs : List Block) :
    piecesOf (as ++ bs) = piecesOf as ++ piecesOf bs := by
  induction as with
  | nil => simp
  | cons a as ih => simp [ih]

/-- Runs that are shown as they are hold nothing but content. -/
theorem piecesOf_static (runs : List Run) :
    piecesOf (runs.map Block.static) = (runsAtoms runs).map .atom := by
  induction runs with
  | nil => simp
  | cons run runs ih =>
    rw [List.map_cons, piecesOf_cons, ih, Block.pieces, runsAtoms_cons, List.map_append]

/-! ## Spelling out -/

theorem piecesOf_chars (cs : List Char) (style : RunProperties) :
    piecesOf (cs.map fun c => .text (String.ofList [c]) style) =
      (charAtoms cs style).map .atom := by
  induction cs with
  | nil => simp [charAtoms]
  | cons c cs ih =>
    have hchar : (Block.text (String.ofList [c]) style).pieces = [.atom (.char c style)] := by
      simp [Block.pieces, textAtoms]
    rw [List.map_cons, piecesOf_cons, ih, hchar]
    rfl

theorem runsAtoms_spell (run : Run) : runsAtoms run.spell = run.atoms := by
  have htwice := runsAtoms_spellRuns [run]
  rw [spellRuns_cons, spellRuns_nil, List.append_nil] at htwice
  rw [htwice, runsAtoms_cons, runsAtoms_nil, List.append_nil]

mutual

theorem Block.piecesOf_spell : ∀ block : Block, piecesOf block.spell = block.pieces
  | .text text style => by
    rw [Block.spell, piecesOf_chars, Block.pieces]
    rfl
  | .static run => by rw [Block.spell, piecesOf_static, runsAtoms_spell, Block.pieces]
  | .placeholder _ _ _ => by simp [Block.spell]
  | .image _ _ _ => by simp [Block.spell]
  | .conditional _ thenBlocks none _ => by
    simp [Block.spell, Block.pieces, piecesOf_spellBlocks thenBlocks]
  | .conditional _ thenBlocks (some elseBlocks) _ => by
    simp [Block.spell, Block.pieces, piecesOf_spellBlocks thenBlocks,
      piecesOf_spellBlocks elseBlocks]
  | .loop _ body _ => by simp [Block.spell, Block.pieces, piecesOf_spellBlocks body]
  | .named _ body _ _ => by simp [Block.spell, Block.pieces, piecesOf_spellBlocks body]
  | .inherits _ _ => by simp [Block.spell]
  | .paragraph _ children _ => by simp [Block.spell, Block.pieces, piecesOf_spellBlocks children]
  | .table ⟨_, _, rows⟩ => by simp [Block.spell, Block.pieces, rowPieces_spellRowBlocks rows]

/-- Spelling blocks out does not change their pieces. -/
theorem piecesOf_spellBlocks :
    ∀ blocks : List Block, piecesOf (spellBlocks blocks) = piecesOf blocks
  | [] => by rw [spellBlocks_nil]
  | block :: blocks => by
    rw [spellBlocks_cons, piecesOf_append, piecesOf_cons, block.piecesOf_spell,
      piecesOf_spellBlocks blocks]

theorem rowPieces_spellRowBlocks :
    ∀ rows : List (RowBlock Block), rowPieces (spellRowBlocks rows) = rowPieces rows
  | [] => by rw [spellRowBlocks]
  | .static ⟨_, cells⟩ :: rows => by
    rw [spellRowBlocks, rowPieces, rowPieces, cellPieces_spellCellBlocks cells,
      rowPieces_spellRowBlocks rows]
  | .loop _ ⟨_, cells⟩ _ :: rows => by
    rw [spellRowBlocks, rowPieces, rowPieces, cellPieces_spellCellBlocks cells,
      rowPieces_spellRowBlocks rows]

theorem cellPieces_spellCellBlocks :
    ∀ cells : List (Cell Block), cellPieces (spellCellBlocks cells) = cellPieces cells
  | [] => by rw [spellCellBlocks]
  | ⟨_, body⟩ :: cells => by
    rw [spellCellBlocks, cellPieces, cellPieces, piecesOf_spellBlocks body,
      cellPieces_spellCellBlocks cells]

end

/-! ## Unfinished regions -/

namespace Opening

/-- The pieces of an unfinished region that was opened at a place. -/
def pieces (position : Position) : Opening → List Piece
  | .condition name thenBlocks none =>
    .directive { directive := .ifOpen name, position } none :: piecesOf thenBlocks
  | .condition name thenBlocks (some elseBlocks) =>
    .directive { directive := .ifOpen name, position } none :: piecesOf thenBlocks ++
      .directive { directive := .otherwise } none :: piecesOf elseBlocks
  | .loop list body => .directive { directive := .eachOpen list, position } none :: piecesOf body
  | .named id body => .directive { directive := .blockOpen id, position } none :: piecesOf body

theorem pieces_push (block : Block) (position : Position) (opening : Opening) :
    (opening.push block).pieces position = opening.pieces position ++ block.pieces := by
  rcases opening with ⟨name, thenBlocks, _ | elseBlocks⟩ | ⟨list, body⟩ | ⟨id, body⟩ <;>
    simp [push, pieces]

/-- Closing a region adds the piece of the directive that closes it. -/
theorem pieces_toBlock (position place : Position) (style : Option RunProperties)
    (opening : Opening) : (opening.toBlock position).pieces =
      opening.pieces position ++ [opening.region.closeDirective.piece place style] := by
  rcases opening with ⟨name, thenBlocks, _ | elseBlocks⟩ | ⟨list, body⟩ | ⟨id, body⟩ <;>
    simp [toBlock, Block.pieces, pieces, region, Region.closeDirective, Directive.piece,
      Directive.mark, Directive.keepsPlace, Directive.isLeaf, Directive.isOpener,
      Directive.isStructural]

end Opening

namespace Builder

/-- The pieces of everything that has been fed to the builder. -/
def pieces (b : Builder) : List Piece :=
  piecesOf b.root ++ b.frames.reverse.flatMap fun frame => frame.opening.pieces frame.position

@[simp] theorem pieces_push (b : Builder) (block : Block) :
    (b.push block).pieces = b.pieces ++ block.pieces := by
  obtain ⟨root, frames, baseDepth, limit⟩ := b
  cases frames with
  | nil => simp [push, pieces]
  | cons frame frames => simp [push, pieces, Frame.push, Opening.pieces_push]

/-! ## Feeding directives -/

section Feeding

variable {b b' : Builder} {position : Position} {style : RunProperties}

theorem pieces_of_openRegion {opening : Opening} {opener : String}
    (h : b.openRegion opening opener position = .ok b') :
    b'.pieces = b.pieces ++ opening.pieces position := by
  obtain ⟨-, rfl⟩ := openRegion_ok_iff.1 h
  simp [pieces]

theorem pieces_of_otherwise (h : b.otherwise position = .ok b') :
    b'.pieces = b.pieces ++ [Directive.otherwise.piece position (some style)] := by
  obtain ⟨root, frames, baseDepth, limit⟩ := b
  rcases frames with _ | ⟨⟨⟨name, thenBlocks, _ | elseBlocks⟩ | ⟨list, body⟩ | ⟨id, body⟩,
    opener, start⟩, frames⟩ <;> simp only [Builder.otherwise, reduceCtorEq] at h
  obtain rfl := Except.ok.inj h
  simp [pieces, Opening.pieces, Directive.piece, Directive.mark, Directive.keepsPlace,
    Directive.isLeaf, Directive.isOpener, Directive.isStructural]

theorem pieces_of_close {region : Region} (h : b.close region position = .ok b') :
    b'.pieces = b.pieces ++ [region.closeDirective.piece position (some style)] := by
  obtain ⟨root, frames, baseDepth, limit⟩ := b
  cases frames with
  | nil => simp [Builder.close] at h
  | cons frame frames =>
    simp only [Builder.close] at h
    split at h
    · next hregion =>
      obtain rfl := Except.ok.inj h
      subst hregion
      rw [pieces_push, Frame.toBlock, Opening.pieces_toBlock _ position (some style)]
      simp [pieces]
    · cases h

/-- Feeding a directive adds its piece. -/
theorem pieces_of_apply {opener : String} {d : Directive}
    (h : b.apply opener style position d = .ok b') :
    b'.pieces = b.pieces ++ [d.piece position (some style)] := by
  cases d with
  | inherits parent =>
    obtain rfl := Except.ok.inj h
    rw [pieces_push, Block.pieces]
    rfl
  | placeholder path =>
    obtain rfl := Except.ok.inj h
    rw [pieces_push, Block.pieces]
    rfl
  | image name =>
    obtain rfl := Except.ok.inj h
    rw [pieces_push, Block.pieces]
    rfl
  | ifOpen condition =>
    rw [pieces_of_openRegion h, Opening.pieces, piecesOf_nil]
    rfl
  | otherwise => exact pieces_of_otherwise h
  | ifClose => exact pieces_of_close h
  | eachOpen list =>
    rw [pieces_of_openRegion h, Opening.pieces, piecesOf_nil]
    rfl
  | eachClose => exact pieces_of_close h
  | blockOpen id =>
    rw [pieces_of_openRegion h, Opening.pieces, piecesOf_nil]
    rfl
  | blockClose => exact pieces_of_close h

end Feeding

/-- The finished blocks have the pieces of the builder. -/
theorem pieces_of_finish {b : Builder} {blocks : List Block} (h : b.finish = .ok blocks) :
    piecesOf blocks = b.pieces := by
  obtain ⟨hnest, rfl⟩ := finish_ok_iff.1 h
  have hframes : b.frames = [] := List.map_eq_nil_iff.1 hnest
  simp [pieces, hframes]

end Builder

end StyledTemplate
