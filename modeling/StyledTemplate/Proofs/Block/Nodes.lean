import StyledTemplate.Block.Basic

/-!
# The nodes of a tree of blocks

`nodesOf` lists all blocks of a tree, each before those within it. A tree that comes from the parser
is fresh: no body in it has been taken from another template. It is also steady: a paragraph without
directives has nothing but runs that are shown as they are, and inheritance does not change that.
-/

namespace StyledTemplate

mutual

/-- A block and all blocks within it. -/
def Block.nodes : Block → List Block
  | .text text style => [.text text style]
  | .placeholder path style position => [.placeholder path style position]
  | .image name style position => [.image name style position]
  | .conditional condition thenBlocks none position =>
    .conditional condition thenBlocks none position :: nodesOf thenBlocks
  | .conditional condition thenBlocks (some elseBlocks) position =>
    .conditional condition thenBlocks (some elseBlocks) position ::
      (nodesOf thenBlocks ++ nodesOf elseBlocks)
  | .loop list body position => .loop list body position :: nodesOf body
  | .named id body position origin => .named id body position origin :: nodesOf body
  | .inherits parent position => [.inherits parent position]
  | .paragraph properties children hasDirectives =>
    .paragraph properties children hasDirectives :: nodesOf children
  | .table ⟨properties, grid, rows⟩ => .table ⟨properties, grid, rows⟩ :: rowNodes rows
  | .static run => [.static run]

/-- All blocks of a tree. -/
def nodesOf : List Block → List Block
  | [] => []
  | block :: blocks => block.nodes ++ nodesOf blocks

/-- All blocks in the rows of a table. -/
def rowNodes : List (RowBlock Block) → List Block
  | [] => []
  | .static ⟨_, cells⟩ :: rows => cellNodes cells ++ rowNodes rows
  | .loop _ ⟨_, cells⟩ _ :: rows => cellNodes cells ++ rowNodes rows

/-- All blocks in the cells of a row. -/
def cellNodes : List (Cell Block) → List Block
  | [] => []
  | ⟨_, body⟩ :: cells => nodesOf body ++ cellNodes cells

end

@[simp] theorem nodesOf_nil : nodesOf [] = [] := by rw [nodesOf]

@[simp] theorem nodesOf_cons (block : Block) (blocks : List Block) :
    nodesOf (block :: blocks) = block.nodes ++ nodesOf blocks := by rw [nodesOf]

@[simp] theorem nodesOf_append (as bs : List Block) :
    nodesOf (as ++ bs) = nodesOf as ++ nodesOf bs := by
  induction as with
  | nil => simp
  | cons a as ih => simp [ih]

theorem nodesOf_static (runs : List Run) :
    nodesOf (runs.map Block.static) = runs.map Block.static := by
  induction runs with
  | nil => simp
  | cons run runs ih => simp [ih, Block.nodes]

/-- With each block, `nodes` has all blocks within it. -/
def Closed (nodes : List Block) : Prop := ∀ node ∈ nodes, node.nodes ⊆ nodes

theorem Closed.append {as bs : List Block} (ha : Closed as) (hb : Closed bs) :
    Closed (as ++ bs) := by
  intro node h
  rcases List.mem_append.1 h with h | h
  · exact List.subset_append_of_subset_left _ (ha node h)
  · exact List.subset_append_of_subset_right _ (hb node h)

theorem Closed.of_within {block : Block} {within : List Block}
    (hnodes : block.nodes = block :: within) (hwithin : Closed within) : Closed block.nodes := by
  intro node h
  rw [hnodes] at h
  rcases List.mem_cons.1 h with rfl | h
  · exact List.Subset.refl _
  · rw [hnodes]
    exact List.subset_cons_of_subset _ (hwithin node h)

theorem closed_nil : Closed [] := by simp [Closed]

mutual

theorem Block.closed_nodes : ∀ block : Block, Closed block.nodes
  | .named _ body _ _ => .of_within (by rw [Block.nodes]) (closed_nodesOf body)
  | .conditional _ thenBlocks none _ =>
    .of_within (by rw [Block.nodes]) (closed_nodesOf thenBlocks)
  | .conditional _ thenBlocks (some elseBlocks) _ =>
    .of_within (by rw [Block.nodes])
      ((closed_nodesOf thenBlocks).append (closed_nodesOf elseBlocks))
  | .loop _ body _ => .of_within (by rw [Block.nodes]) (closed_nodesOf body)
  | .paragraph _ children _ => .of_within (by rw [Block.nodes]) (closed_nodesOf children)
  | .table ⟨_, _, rows⟩ => .of_within (by rw [Block.nodes]) (closed_rowNodes rows)
  | .text _ _ => .of_within (by rw [Block.nodes]) closed_nil
  | .placeholder _ _ _ => .of_within (by rw [Block.nodes]) closed_nil
  | .image _ _ _ => .of_within (by rw [Block.nodes]) closed_nil
  | .inherits _ _ => .of_within (by rw [Block.nodes]) closed_nil
  | .static _ => .of_within (by rw [Block.nodes]) closed_nil

theorem closed_nodesOf : ∀ blocks : List Block, Closed (nodesOf blocks)
  | [] => by
    rw [nodesOf]
    exact closed_nil
  | block :: blocks => by
    rw [nodesOf]
    exact block.closed_nodes.append (closed_nodesOf blocks)

theorem closed_rowNodes : ∀ rows : List (RowBlock Block), Closed (rowNodes rows)
  | [] => by
    rw [rowNodes]
    exact closed_nil
  | .static ⟨_, cells⟩ :: rows => by
    rw [rowNodes]
    exact (closed_cellNodes cells).append (closed_rowNodes rows)
  | .loop _ ⟨_, cells⟩ _ :: rows => by
    rw [rowNodes]
    exact (closed_cellNodes cells).append (closed_rowNodes rows)

theorem closed_cellNodes : ∀ cells : List (Cell Block), Closed (cellNodes cells)
  | [] => by
    rw [cellNodes]
    exact closed_nil
  | ⟨_, body⟩ :: cells => by
    rw [cellNodes]
    exact (closed_nodesOf body).append (closed_cellNodes cells)

end

/-- Does a paragraph without directives have nothing but runs that are shown as they are? -/
def Block.IsSteady : Block → Prop
  | .paragraph _ children false => ∀ child ∈ children, ∃ run, child = .static run
  | _ => True

/-- Has the body of a named block not been taken from another template? -/
def Block.IsOriginal : Block → Prop
  | .named _ _ _ origin => origin = none
  | _ => True

/-- The blocks are as the parser leaves them. -/
def Fresh (blocks : List Block) : Prop :=
  ∀ block ∈ nodesOf blocks, block.IsSteady ∧ block.IsOriginal

theorem fresh_nil : Fresh [] := by simp [Fresh]

theorem fresh_append_iff {as bs : List Block} : Fresh (as ++ bs) ↔ Fresh as ∧ Fresh bs := by
  rw [Fresh, nodesOf_append, List.forall_mem_append]
  rfl

/-- A block is fresh if it is so by itself and the blocks within it are. -/
theorem fresh_of_nodes {block : Block} {within : List Block}
    (hnodes : block.nodes = block :: within)
    (hblock : block.IsSteady ∧ block.IsOriginal)
    (hwithin : ∀ b ∈ within, b.IsSteady ∧ b.IsOriginal) : Fresh [block] := by
  rw [Fresh, nodesOf_cons, nodesOf_nil, List.append_nil, hnodes, List.forall_mem_cons]
  exact ⟨hblock, hwithin⟩

end StyledTemplate
