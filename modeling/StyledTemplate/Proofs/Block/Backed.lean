import StyledTemplate.Proofs.Block.Marks
import StyledTemplate.Proofs.Block.Nodes

/-!
# Literals without characters

A literal without characters shows nothing, but a paragraph is made for it where it stands alone
among the elements of a body. In a backed tree it never does: each of these literals stands right
behind another literal. A builder keeps to that if it is only given such a literal where it has just
been given another one.
-/

namespace StyledTemplate

/-! ## Blocks -/

namespace Block

def isLiteral : Block → Bool
  | .text _ _ => true
  | .static _ => true
  | _ => false

/-- Is the block a literal without characters? -/
def isEmptyText : Block → Bool
  | .text s _ => s == ""
  | .static run => run.isEmptyText
  | _ => false

end Block

/-- Each literal without characters stands right behind another literal. `behind` tells whether the
first block does. -/
def Backed (behind : Bool) : List Block → Prop
  | [] => True
  | block :: blocks => (block.isEmptyText = true → behind = true) ∧ Backed block.isLiteral blocks

/-- Is the last block a literal? `behind` tells what is the case if there is none. -/
def endsLiteral (behind : Bool) : List Block → Bool
  | [] => behind
  | block :: blocks => endsLiteral block.isLiteral blocks

theorem Backed.mono {behind : Bool} {blocks : List Block} (h : Backed behind blocks) :
    Backed true blocks := by
  cases blocks with
  | nil => trivial
  | cons block blocks => exact ⟨fun _ => rfl, h.2⟩

theorem endsLiteral_concat (behind : Bool) (blocks : List Block) (block : Block) :
    endsLiteral behind (blocks ++ [block]) = block.isLiteral := by
  induction blocks generalizing behind with
  | nil => rfl
  | cons first blocks ih => exact ih first.isLiteral

theorem Backed.concat {behind : Bool} {blocks : List Block} {block : Block}
    (h : Backed behind blocks)
    (hblock : block.isEmptyText = true → endsLiteral behind blocks = true) :
    Backed behind (blocks ++ [block]) := by
  induction blocks generalizing behind with
  | nil => exact ⟨hblock, trivial⟩
  | cons first blocks ih => exact ⟨h.1, ih h.2 hblock⟩

/-- Runs that are shown as they are stand behind each other. -/
theorem backed_static (runs : List Run) : Backed true (runs.map .static) := by
  induction runs with
  | nil => trivial
  | cons run runs ih => exact ⟨fun _ => rfl, ih⟩

/-! ## Trees -/

/-- The lists of blocks right below the block are backed. The runs of a paragraph are never
elements of a body, so there may be anything in front. -/
def Block.IsBacked : Block → Prop
  | .conditional _ thenBlocks none _ => Backed false thenBlocks
  | .conditional _ thenBlocks (some elseBlocks) _ => Backed false thenBlocks ∧ Backed false elseBlocks
  | .loop _ body _ => Backed false body
  | .named _ body _ _ => Backed false body
  | .paragraph _ children _ => Backed true children
  | .table ⟨_, _, rows⟩ => ∀ row ∈ rows, ∀ cell ∈ row.row.cells, Backed false cell.body
  | _ => True

/-- The blocks are backed at every depth. -/
structure BackedTree (blocks : List Block) : Prop where
  /-- The blocks themselves are backed. -/
  top : Backed false blocks
  /-- So is every block within them. -/
  nodes : ∀ node ∈ nodesOf blocks, node.IsBacked

theorem backedTree_nil : BackedTree [] := ⟨trivial, by simp⟩

theorem BackedTree.concat {blocks : List Block} {block : Block} (h : BackedTree blocks)
    (hnodes : ∀ node ∈ block.nodes, node.IsBacked)
    (hempty : block.isEmptyText = true → endsLiteral false blocks = true) :
    BackedTree (blocks ++ [block]) := by
  refine ⟨h.top.concat hempty, ?_⟩
  rw [nodesOf_append, List.forall_mem_append, nodesOf_cons, nodesOf_nil, List.append_nil]
  exact ⟨h.nodes, hnodes⟩

/-! ## Builders -/

/-- What has been read of an open region is backed. -/
def Opening.IsBacked : Opening → Prop
  | .condition _ thenBlocks none => BackedTree thenBlocks
  | .condition _ thenBlocks (some elseBlocks) => BackedTree thenBlocks ∧ BackedTree elseBlocks
  | .loop _ body => BackedTree body
  | .named _ body => BackedTree body

/-- Has a literal been read last? -/
def Opening.atLiteral : Opening → Bool
  | .condition _ thenBlocks none => endsLiteral false thenBlocks
  | .condition _ _ (some elseBlocks) => endsLiteral false elseBlocks
  | .loop _ body => endsLiteral false body
  | .named _ body => endsLiteral false body

theorem Opening.IsBacked.push {opening : Opening} {block : Block} (h : opening.IsBacked)
    (hnodes : ∀ node ∈ block.nodes, node.IsBacked)
    (hempty : block.isEmptyText = true → opening.atLiteral = true) :
    (opening.push block).IsBacked := by
  rcases opening with ⟨name, thenBlocks, _ | elseBlocks⟩ | ⟨list, body⟩ | ⟨id, body⟩
  · exact BackedTree.concat h hnodes hempty
  · exact ⟨h.1, BackedTree.concat h.2 hnodes hempty⟩
  · exact BackedTree.concat h hnodes hempty
  · exact BackedTree.concat h hnodes hempty

theorem Opening.atLiteral_push (block : Block) (opening : Opening) :
    (opening.push block).atLiteral = block.isLiteral := by
  rcases opening with ⟨name, thenBlocks, _ | elseBlocks⟩ | ⟨list, body⟩ | ⟨id, body⟩ <;>
    exact endsLiteral_concat _ _ _

theorem Opening.IsBacked.toBlock {opening : Opening} (h : opening.IsBacked)
    (position : Position) : ∀ node ∈ (opening.toBlock position).nodes, node.IsBacked := by
  rcases opening with ⟨name, thenBlocks, _ | elseBlocks⟩ | ⟨list, body⟩ | ⟨id, body⟩
  · rw [Opening.toBlock, Block.nodes, List.forall_mem_cons]
    exact ⟨h.top, h.nodes⟩
  · rw [Opening.toBlock, Block.nodes, List.forall_mem_cons, List.forall_mem_append]
    exact ⟨⟨h.1.top, h.2.top⟩, h.1.nodes, h.2.nodes⟩
  · rw [Opening.toBlock, Block.nodes, List.forall_mem_cons]
    exact ⟨h.top, h.nodes⟩
  · rw [Opening.toBlock, Block.nodes, List.forall_mem_cons]
    exact ⟨h.top, h.nodes⟩

namespace Builder

/-- All that a builder has built is backed. -/
structure IsBacked (b : Builder) : Prop where
  /-- The blocks outside of all open regions are backed. -/
  root : BackedTree b.root
  /-- What has been read of each open region is backed. -/
  frames : ∀ frame ∈ b.frames, frame.opening.IsBacked

/-- Has the builder been given a literal last? -/
def atLiteral (b : Builder) : Bool :=
  match b.frames with
  | [] => endsLiteral false b.root
  | frame :: _ => frame.opening.atLiteral

theorem isBacked_empty (baseDepth limit : Nat) : IsBacked { baseDepth, limit } :=
  ⟨backedTree_nil, by simp⟩

section Push

variable {b b' : Builder} {block : Block}

theorem IsBacked.push (h : b.IsBacked) (hnodes : ∀ node ∈ block.nodes, node.IsBacked)
    (hempty : block.isEmptyText = true → b.atLiteral = true) : (b.push block).IsBacked := by
  obtain ⟨root, frames, baseDepth, limit⟩ := b
  cases frames with
  | nil => exact ⟨h.root.concat hnodes hempty, h.frames⟩
  | cons frame frames =>
    have hframes := List.forall_mem_cons.1 h.frames
    exact ⟨h.root, List.forall_mem_cons.2 ⟨hframes.1.push hnodes hempty, hframes.2⟩⟩

theorem atLiteral_push (b : Builder) (block : Block) :
    (b.push block).atLiteral = block.isLiteral := by
  obtain ⟨root, frames, baseDepth, limit⟩ := b
  cases frames with
  | nil => exact endsLiteral_concat _ _ _
  | cons frame frames => exact Opening.atLiteral_push _ _

theorem IsBacked.pushText (h : b.IsBacked) (text : String) (style : RunProperties)
    (hempty : text = "" → b.atLiteral = true) : (b.push (.text text style)).IsBacked := by
  refine h.push ?_ fun htext => hempty (by simpa [Block.isEmptyText] using htext)
  rw [Block.nodes, List.forall_mem_singleton]
  trivial

theorem IsBacked.pushRuns (h : b.IsBacked) {runs : List Run}
    (hruns : ∀ run ∈ runs, run.text? = none) : (b.pushRuns runs).IsBacked := by
  induction runs generalizing b with
  | nil => exact h
  | cons run runs ih =>
    rw [List.forall_mem_cons] at hruns
    have hnodes : ∀ node ∈ (Block.static run).nodes, node.IsBacked := by
      rw [Block.nodes, List.forall_mem_singleton]
      trivial
    have hempty : (Block.static run).isEmptyText = false := by
      simp [Block.isEmptyText, Run.isEmptyText, hruns.1]
    exact ih (h.push hnodes (by simp [hempty])) hruns.2

theorem atLiteral_pushRuns (h : b.atLiteral = true) (runs : List Run) :
    (b.pushRuns runs).atLiteral = true := by
  induction runs generalizing b with
  | nil => exact h
  | cons run runs ih => exact ih (atLiteral_push _ _)

theorem IsBacked.openRegion {opening : Opening} {opener : String} {position : Position}
    (h : b.IsBacked) (hopening : opening.IsBacked)
    (hresult : b.openRegion opening opener position = .ok b') : b'.IsBacked := by
  obtain ⟨-, rfl⟩ := openRegion_ok_iff.1 hresult
  exact ⟨h.root, List.forall_mem_cons.2 ⟨hopening, h.frames⟩⟩

theorem IsBacked.close {region : Region} {position : Position} (h : b.IsBacked)
    (hresult : b.close region position = .ok b') : b'.IsBacked := by
  obtain ⟨root, frames, baseDepth, limit⟩ := b
  cases frames with
  | nil => simp [Builder.close] at hresult
  | cons frame frames =>
    simp only [Builder.close] at hresult
    split at hresult
    · obtain rfl := Except.ok.inj hresult
      have hframes := List.forall_mem_cons.1 h.frames
      have hempty : frame.toBlock.isEmptyText = false := by
        rcases frame with ⟨⟨name, thenBlocks, elseBlocks⟩ | ⟨list, body⟩ | ⟨id, body⟩, _, _⟩ <;> rfl
      have hrest : IsBacked ⟨root, frames, baseDepth, limit⟩ := ⟨h.root, hframes.2⟩
      exact hrest.push (hframes.1.toBlock _) (by simp [hempty])
    · simp at hresult

theorem IsBacked.otherwise {position : Position} (h : b.IsBacked)
    (hresult : b.otherwise position = .ok b') : b'.IsBacked := by
  obtain ⟨root, frames, baseDepth, limit⟩ := b
  rcases frames with _ | ⟨⟨⟨name, thenBlocks, _ | elseBlocks⟩ | ⟨list, body⟩ | ⟨id, body⟩,
    opener, start⟩, frames⟩ <;> simp only [Builder.otherwise, reduceCtorEq] at hresult
  obtain rfl := Except.ok.inj hresult
  have hframes := List.forall_mem_cons.1 h.frames
  exact ⟨h.root, List.forall_mem_cons.2 ⟨⟨hframes.1, backedTree_nil⟩, hframes.2⟩⟩

theorem IsBacked.finish {blocks : List Block} (h : b.IsBacked)
    (hresult : b.finish = .ok blocks) : BackedTree blocks := by
  obtain ⟨-, rfl⟩ := finish_ok_iff.1 hresult
  exact h.root

end Push

end Builder

end StyledTemplate
