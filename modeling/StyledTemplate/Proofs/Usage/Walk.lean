import StyledTemplate.Proofs.Block.Marks
import StyledTemplate.Usage.Basic

/-!
# Walking through a tree

The usage of a tree of blocks is put together from what its directives record, one after the other
and each at its place, and from what is noted of tables and their repeated rows. So a relation
between the usage before a part of the tree and the one behind it holds for every walk through a tree
(`FollowsUse.useBlocks`) if it holds for a single directive and for what is noted of tables, and if it
composes.
-/

namespace StyledTemplate

/-- What a directive records at a place. -/
def Usage.record (u : Usage) (place : Place) : Directive → Usage
  | .placeholder path => u.mention place false path
  | .image name => { u with images := u.images.add name }
  | .ifOpen condition => u.mention place true condition
  | .eachOpen list => u.mentionList place list
  | .blockOpen id => { u with namedBlocks := u.namedBlocks.add id }
  | .otherwise | .ifClose | .eachClose | .blockClose | .inherits _ => u

/-- A relation between the usage before a part of a tree and the one behind it that follows the marks
of the part. -/
structure FollowsUse (R : Usage → List Mark → Usage → Prop) : Prop where
  /-- Where there is nothing, nothing changes. -/
  refl (u : Usage) : R u [] u
  /-- Two parts are gone through one after the other. -/
  trans {u v w : Usage} {ms ns : List Mark} (h : R u ms v) (h' : R v ns w) : R u (ms ++ ns) w
  /-- A directive records something at some place. -/
  record (u : Usage) (place : Place) (mark : Mark) : R u [mark] (u.record place mark.directive)
  /-- A table is noted before its rows. -/
  table (u : Usage) (rows columns : Nat) : R u [] (u.addTable rows columns)
  /-- A repeated row is noted before its list. -/
  rowLoop (u : Usage) (index row : Nat) (list : String) : R u [] (u.addRowLoop index row list)

namespace FollowsUse

variable {R : Usage → List Mark → Usage → Prop}

mutual

theorem use (hR : FollowsUse R) : ∀ (block : Block) (place : Place) (u : Usage),
    R u block.marks (block.use place u)
  | .placeholder path _ position, place, u => by
    rw [Block.use, Block.marks]
    exact hR.record u place _
  | .image name _ position, place, u => by
    rw [Block.use, Block.marks]
    exact hR.record u place _
  | .conditional condition thenBlocks none position, place, u => by
    have hopen := hR.record u place { directive := .ifOpen condition, position }
    have hthen := hR.trans hopen (hR.useBlocks thenBlocks place _)
    rw [Block.use, Block.marks]
    exact hR.trans hthen (hR.record _ place { directive := .ifClose })
  | .conditional condition thenBlocks (some elseBlocks) position, place, u => by
    have hopen := hR.record u place { directive := .ifOpen condition, position }
    have hthen := hR.trans hopen (hR.useBlocks thenBlocks place _)
    have hsplit := hR.record
      (StyledTemplate.useBlocks place thenBlocks (u.mention place true condition)) place
      { directive := .otherwise }
    have helse := hR.trans hthen (hR.trans hsplit (hR.useBlocks elseBlocks place _))
    rw [Block.use, Block.marks]
    exact hR.trans helse (hR.record _ place { directive := .ifClose })
  | .loop list body position, place, u => by
    have hopen := hR.record u place { directive := .eachOpen list, position }
    have hbody := hR.trans hopen (hR.useBlocks body (place.within list) _)
    rw [Block.use, Block.marks]
    exact hR.trans hbody (hR.record _ place { directive := .eachClose })
  | .named id body position _, place, u => by
    have hopen := hR.record u place { directive := .blockOpen id, position }
    have hbody := hR.trans hopen (hR.useBlocks body place _)
    rw [Block.use, Block.marks]
    exact hR.trans hbody (hR.record _ place { directive := .blockClose })
  | .inherits parent position, place, u => by
    rw [Block.use, Block.marks]
    exact hR.record u place _
  | .paragraph _ children _, place, u => by
    rw [Block.use, Block.marks]
    exact hR.useBlocks children place u
  | .table ⟨_, grid, rows⟩, place, u => by
    rw [Block.use, Block.marks]
    exact hR.trans (hR.table u rows.length grid.length) (hR.useRows rows place _ 0 _)
  | .text _ _, place, u => by
    rw [Block.use, Block.marks]
    exact hR.refl u
  | .static _, place, u => by
    rw [Block.use, Block.marks]
    exact hR.refl u

theorem useBlocks (hR : FollowsUse R) : ∀ (blocks : List Block) (place : Place) (u : Usage),
    R u (marksOf blocks) (StyledTemplate.useBlocks place blocks u)
  | [], place, u => by
    rw [StyledTemplate.useBlocks, marksOf]
    exact hR.refl u
  | block :: blocks, place, u => by
    rw [StyledTemplate.useBlocks, marksOf]
    exact hR.trans (hR.use block place u) (hR.useBlocks blocks place _)

theorem useRows (hR : FollowsUse R) : ∀ (rows : List (RowBlock Block)) (place : Place)
    (index row : Nat) (u : Usage),
    R u (rowMarks rows) (StyledTemplate.useRows place index row rows u)
  | [], place, index, row, u => by
    rw [StyledTemplate.useRows, rowMarks]
    exact hR.refl u
  | .static ⟨_, cells⟩ :: rows, place, index, row, u => by
    rw [StyledTemplate.useRows, rowMarks]
    exact hR.trans (hR.useCells cells place u) (hR.useRows rows place index (row + 1) _)
  | .loop list ⟨_, cells⟩ position :: rows, place, index, row, u => by
    have hopen := hR.trans (hR.rowLoop u index row list) (hR.record _
      { place with table := some index } { directive := .eachOpen list, position, ofRow := true })
    have hcells := hR.trans hopen
      (hR.useCells cells (Place.within { place with table := some index } list) _)
    have hclose := hR.record (StyledTemplate.useCells
      (Place.within { place with table := some index } list) cells
      ((u.addRowLoop index row list).mentionList { place with table := some index } list)) place
      { directive := .eachClose, ofRow := true }
    rw [StyledTemplate.useRows, rowMarks]
    exact hR.trans hcells (hR.trans hclose (hR.useRows rows place index (row + 1) _))

theorem useCells (hR : FollowsUse R) : ∀ (cells : List (Cell Block)) (place : Place) (u : Usage),
    R u (cellMarks cells) (StyledTemplate.useCells place cells u)
  | [], place, u => by
    rw [StyledTemplate.useCells, cellMarks]
    exact hR.refl u
  | ⟨_, body⟩ :: cells, place, u => by
    rw [StyledTemplate.useCells, cellMarks]
    exact hR.trans (hR.useBlocks body place u) (hR.useCells cells place _)

end

end FollowsUse

end StyledTemplate
