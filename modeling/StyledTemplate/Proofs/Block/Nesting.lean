import StyledTemplate.Proofs.Block.Marks

/-!
# How deep a tree of blocks is nested

`nestingOf` counts the conditions, loops, named blocks and repeated rows around each other on the
deepest path of a tree. It is the number of regions that are open at the deepest place of the
directives of the tree (`deepest_marksOf`).
-/

namespace StyledTemplate

mutual

/-- How deep regions are nested in a block, itself included. -/
def Block.nesting : Block → Nat
  | .text _ _ => 0
  | .placeholder _ _ _ => 0
  | .image _ _ _ => 0
  | .conditional _ thenBlocks none _ => nestingOf thenBlocks + 1
  | .conditional _ thenBlocks (some elseBlocks) _ =>
    max (nestingOf thenBlocks) (nestingOf elseBlocks) + 1
  | .loop _ body _ => nestingOf body + 1
  | .named _ body _ _ => nestingOf body + 1
  | .inherits _ _ => 0
  | .paragraph _ children _ => nestingOf children
  | .table ⟨_, _, rows⟩ => rowNesting rows
  | .static _ => 0

/-- How deep regions are nested in a tree. -/
def nestingOf : List Block → Nat
  | [] => 0
  | block :: blocks => max block.nesting (nestingOf blocks)

/-- How deep regions are nested in the rows of a table. A row that is repeated is one itself. -/
def rowNesting : List (RowBlock Block) → Nat
  | [] => 0
  | .static ⟨_, cells⟩ :: rows => max (cellNesting cells) (rowNesting rows)
  | .loop _ ⟨_, cells⟩ _ :: rows => max (cellNesting cells + 1) (rowNesting rows)

/-- How deep regions are nested in the cells of a row. -/
def cellNesting : List (Cell Block) → Nat
  | [] => 0
  | ⟨_, body⟩ :: cells => max (nestingOf body) (cellNesting cells)

end

/-! ## Depth along marks -/

/-- Reading the marks with `depth` regions open leads to `after` of them, with `top` at the deepest
place on the way. -/
structure Climbs (ms : List Mark) (depth after top : Nat) : Prop where
  /-- The depth at the end. -/
  after : depthAfterAll depth (ms.map Mark.directive) = after
  /-- The depth at the deepest place. -/
  top : deepest depth (ms.map Mark.directive) = top

namespace Climbs

variable {as bs ms : List Mark} {depth mid after top top' : Nat}

theorem nil (depth : Nat) : Climbs [] depth depth depth := ⟨rfl, rfl⟩

/-- Some marks are read behind others. -/
theorem append (ha : Climbs as depth mid top) (hb : Climbs bs mid after top') :
    Climbs (as ++ bs) depth after (max top top') where
  after := by rw [List.map_append, depthAfterAll_append, ha.after, hb.after]
  top := by rw [List.map_append, deepest_append, ha.after, ha.top, hb.top]

theorem single (m : Mark) (depth : Nat) :
    Climbs [m] depth (m.directive.depthAfter depth)
      (max depth (m.directive.depthAfter depth)) := ⟨rfl, rfl⟩

theorem le_top (h : Climbs ms depth after top) : depth ≤ top := h.top ▸ le_deepest _ _

/-- A region around some marks is as deep as these in it. -/
theorem region (opener closer : Mark)
    (hopen : ∀ depth, opener.directive.depthAfter depth = depth + 1)
    (hclose : ∀ depth, closer.directive.depthAfter depth = depth - 1)
    (h : Climbs ms (depth + 1) (depth + 1) top) :
    Climbs (opener :: ms ++ [closer]) depth depth top := by
  have hopener := single opener depth
  have hcloser := single closer (depth + 1)
  rw [hopen] at hopener
  rw [hclose, Nat.add_sub_cancel] at hcloser
  have hall := (hopener.append h).append hcloser
  have hle := h.le_top
  have htop : max (max (max depth (depth + 1)) top) (max (depth + 1) depth) = top := by omega
  exact htop ▸ hall

end Climbs

/-- The marks leave as many regions open as before, from each depth, and go `n` deeper in
between. -/
def Spans (ms : List Mark) (n : Nat) : Prop := ∀ depth, Climbs ms depth depth (depth + n)

namespace Spans

variable {as bs ms : List Mark} {m n : Nat}

theorem nil : Spans [] 0 := fun depth => .nil depth

theorem append (ha : Spans as m) (hb : Spans bs n) : Spans (as ++ bs) (max m n) := by
  intro depth
  rw [← Nat.add_max_add_left]
  exact (ha depth).append (hb depth)

/-- A mark that opens and closes nothing. -/
theorem single {m : Mark} (h : ∀ depth, m.directive.depthAfter depth = depth) : Spans [m] 0 := by
  intro depth
  have hone := Climbs.single m depth
  rwa [h, Nat.max_self] at hone

/-- A region around some marks. -/
theorem region (opener closer : Mark)
    (hopen : ∀ depth, opener.directive.depthAfter depth = depth + 1)
    (hclose : ∀ depth, closer.directive.depthAfter depth = depth - 1) (h : Spans ms n) :
    Spans (opener :: ms ++ [closer]) (n + 1) := by
  intro depth
  rw [Nat.add_comm n, ← Nat.add_assoc]
  exact .region opener closer hopen hclose (h (depth + 1))

end Spans

mutual

theorem Block.spans_marks : ∀ block : Block, Spans block.marks block.nesting
  | .text _ _ => by
    rw [Block.marks, Block.nesting]
    exact .nil
  | .static _ => by
    rw [Block.marks, Block.nesting]
    exact .nil
  | .placeholder _ _ _ => by
    rw [Block.marks, Block.nesting]
    exact .single fun _ => rfl
  | .image _ _ _ => by
    rw [Block.marks, Block.nesting]
    exact .single fun _ => rfl
  | .inherits _ _ => by
    rw [Block.marks, Block.nesting]
    exact .single fun _ => rfl
  | .conditional _ thenBlocks none _ => by
    rw [Block.marks, Block.nesting]
    exact .region _ _ (fun _ => rfl) (fun _ => rfl) (spans_marksOf thenBlocks)
  | .conditional condition thenBlocks (some elseBlocks) position => by
    -- the alternative stands between the branches and neither opens nor closes anything
    have hsplit : Spans [{ directive := .otherwise }] 0 := .single fun _ => rfl
    have hbranches := (spans_marksOf thenBlocks).append (hsplit.append (spans_marksOf elseBlocks))
    rw [Nat.zero_max] at hbranches
    have hregion := Spans.region { directive := .ifOpen condition, position := some position }
      { directive := .ifClose } (fun _ => rfl) (fun _ => rfl) hbranches
    rw [Block.marks, Block.nesting]
    simpa using hregion
  | .loop _ body _ => by
    rw [Block.marks, Block.nesting]
    exact .region _ _ (fun _ => rfl) (fun _ => rfl) (spans_marksOf body)
  | .named _ body _ _ => by
    rw [Block.marks, Block.nesting]
    exact .region _ _ (fun _ => rfl) (fun _ => rfl) (spans_marksOf body)
  | .paragraph _ children _ => by
    rw [Block.marks, Block.nesting]
    exact spans_marksOf children
  | .table ⟨_, _, rows⟩ => by
    rw [Block.marks, Block.nesting]
    exact spans_rowMarks rows

/-- The marks of a tree go as deep as its blocks. -/
theorem spans_marksOf : ∀ blocks : List Block, Spans (marksOf blocks) (nestingOf blocks)
  | [] => by
    rw [marksOf, nestingOf]
    exact .nil
  | block :: blocks => by
    rw [marksOf, nestingOf]
    exact block.spans_marks.append (spans_marksOf blocks)

theorem spans_rowMarks : ∀ rows : List (RowBlock Block), Spans (rowMarks rows) (rowNesting rows)
  | [] => by
    rw [rowMarks, rowNesting]
    exact .nil
  | .static ⟨_, cells⟩ :: rows => by
    rw [rowMarks, rowNesting]
    exact (spans_cellMarks cells).append (spans_rowMarks rows)
  | .loop list ⟨_, cells⟩ position :: rows => by
    have hrow := Spans.region
      { directive := .eachOpen list, position := some position, ofRow := true }
      { directive := .eachClose, ofRow := true } (fun _ => rfl) (fun _ => rfl)
      (spans_cellMarks cells)
    have hall := hrow.append (spans_rowMarks rows)
    rw [List.append_assoc] at hall
    rw [rowMarks, rowNesting]
    exact hall

theorem spans_cellMarks : ∀ cells : List (Cell Block), Spans (cellMarks cells) (cellNesting cells)
  | [] => by
    rw [cellMarks, cellNesting]
    exact .nil
  | ⟨_, body⟩ :: cells => by
    rw [cellMarks, cellNesting]
    exact (spans_marksOf body).append (spans_cellMarks cells)

end

/-- The directives of a tree go as deep as its blocks. -/
theorem deepest_marksOf (blocks : List Block) :
    deepest 0 ((marksOf blocks).map Mark.directive) = nestingOf blocks := by
  rw [(spans_marksOf blocks 0).top, Nat.zero_add]

end StyledTemplate
