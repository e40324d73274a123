import StyledTemplate.Inheritance.Resolve
import StyledTemplate.Proofs.Block.Nodes
import StyledTemplate.Proofs.Fields

/-!
# Which definition of a named block counts

Of several named blocks of one name the last one counts, and of several templates the one nearest to
the start of the chain. Listed from the far end of the chain to the near one, the last definition of
all is the one that counts (`lastValue?_allDefinitions`). In that list the named blocks within a
body come behind it (`ordered_allDefinitions`), so the definitions that count for them come behind
it, too: this is why a body is never put into itself.
-/

namespace StyledTemplate

/-! ## Definitions that count -/

/-- The body that counts for a named block, and the name of the template it is taken from: the last
definition in the first template that has one. -/
def definition? (descendants : List Template) (id : String) : Option Override :=
  descendants.findSome? fun t =>
    (lastValue? (definitions t.blocks) id).map fun body => ⟨t.name, body⟩

theorem definition?_cons (t : Template) (ts : List Template) (id : String) :
    definition? (t :: ts) id =
      ((lastValue? (definitions t.blocks) id).map fun body => ⟨t.name, body⟩).or
        (definition? ts id) := by
  rw [definition?, List.findSome?_cons]
  cases lastValue? (definitions t.blocks) id <;> rfl

/-- The overrides of some templates are the definitions that count. -/
theorem find?_overridesOf (descendants : List Template) (id : String) :
    (overridesOf descendants).find? id = definition? descendants id := by
  induction descendants with
  | nil => rfl
  | cons t ts ih =>
    have hstep : overridesOf (t :: ts) = (overridesOf ts).insertAll t.overrides := rfl
    rw [hstep, NameMap.find?_insertAll, ih, definition?_cons, Template.overrides, lastValue?_map]

/-- The definitions of all templates, those of the last one first. -/
def allDefinitions (descendants : List Template) : List (String × List Block) :=
  descendants.reverse.flatMap fun t => definitions t.blocks

/-- The last definition of all counts. -/
theorem lastValue?_allDefinitions (descendants : List Template) (id : String) :
    lastValue? (allDefinitions descendants) id =
      (definition? descendants id).map Override.body := by
  induction descendants with
  | nil => rfl
  | cons t ts ih =>
    have hstep : allDefinitions (t :: ts) = allDefinitions ts ++ definitions t.blocks := by
      simp [allDefinitions]
    rw [hstep, lastValue?_append, ih, definition?_cons, Option.map_or, Option.map_map]
    congr 1
    cases lastValue? (definitions t.blocks) id <;> rfl

/-! ## Definitions are nodes -/

/-- The name and the body of a named block. -/
def Block.definition? : Block → Option (String × List Block)
  | .named id body _ _ => some (id, body)
  | _ => none

mutual

theorem Block.definitions_eq_filterMap : ∀ block : Block,
    block.definitions = block.nodes.filterMap Block.definition?
  | .named id body position origin => by
    have h : (Block.named id body position origin).definition? = some (id, body) := rfl
    rw [Block.definitions, Block.nodes, List.filterMap_cons_some h,
      definitions_eq_filterMap body]
  | .conditional _ thenBlocks none _ => by
    rw [Block.definitions, Block.nodes, List.filterMap_cons_none rfl,
      definitions_eq_filterMap thenBlocks]
  | .conditional _ thenBlocks (some elseBlocks) _ => by
    rw [Block.definitions, Block.nodes, List.filterMap_cons_none rfl, List.filterMap_append,
      definitions_eq_filterMap thenBlocks, definitions_eq_filterMap elseBlocks]
  | .loop _ body _ => by
    rw [Block.definitions, Block.nodes, List.filterMap_cons_none rfl,
      definitions_eq_filterMap body]
  | .paragraph _ children _ => by
    rw [Block.definitions, Block.nodes, List.filterMap_cons_none rfl,
      definitions_eq_filterMap children]
  | .table ⟨_, _, rows⟩ => by
    rw [Block.definitions, Block.nodes, List.filterMap_cons_none rfl,
      rowDefinitions_eq_filterMap rows]
  | .text _ _ => by rw [Block.definitions, Block.nodes]; rfl
  | .placeholder _ _ _ => by rw [Block.definitions, Block.nodes]; rfl
  | .image _ _ _ => by rw [Block.definitions, Block.nodes]; rfl
  | .inherits _ _ => by rw [Block.definitions, Block.nodes]; rfl
  | .static _ => by rw [Block.definitions, Block.nodes]; rfl

/-- The definitions of a tree are its named blocks. -/
theorem definitions_eq_filterMap : ∀ blocks : List Block,
    definitions blocks = (nodesOf blocks).filterMap Block.definition?
  | [] => by rw [definitions, nodesOf]; rfl
  | block :: blocks => by
    rw [definitions, nodesOf, List.filterMap_append, block.definitions_eq_filterMap,
      definitions_eq_filterMap blocks]

theorem rowDefinitions_eq_filterMap : ∀ rows : List (RowBlock Block),
    rowDefinitions rows = (rowNodes rows).filterMap Block.definition?
  | [] => by rw [rowDefinitions, rowNodes]; rfl
  | .static ⟨_, cells⟩ :: rows => by
    rw [rowDefinitions, rowNodes, List.filterMap_append, cellDefinitions_eq_filterMap cells,
      rowDefinitions_eq_filterMap rows]
  | .loop _ ⟨_, cells⟩ _ :: rows => by
    rw [rowDefinitions, rowNodes, List.filterMap_append, cellDefinitions_eq_filterMap cells,
      rowDefinitions_eq_filterMap rows]

theorem cellDefinitions_eq_filterMap : ∀ cells : List (Cell Block),
    cellDefinitions cells = (cellNodes cells).filterMap Block.definition?
  | [] => by rw [cellDefinitions, cellNodes]; rfl
  | ⟨_, body⟩ :: cells => by
    rw [cellDefinitions, cellNodes, List.filterMap_append, definitions_eq_filterMap body,
      cellDefinitions_eq_filterMap cells]

end

/-! ## Definitions within definitions -/

/-- Behind each body there is a definition for every named block within it. -/
def Ordered : List (String × List Block) → Prop
  | [] => True
  | (_, body) :: rest =>
    (∀ id ∈ (definitions body).map Prod.fst, id ∈ rest.map Prod.fst) ∧ Ordered rest

theorem Ordered.append {as bs : List (String × List Block)} (ha : Ordered as) (hb : Ordered bs) :
    Ordered (as ++ bs) := by
  induction as with
  | nil => exact hb
  | cons a as ih =>
    obtain ⟨id, body⟩ := a
    refine ⟨?_, ih ha.2⟩
    intro name hname
    have hmem := List.mem_append_left (bs.map Prod.fst) (ha.1 name hname)
    rwa [← List.map_append] at hmem

theorem Ordered.of_append {as bs : List (String × List Block)} (h : Ordered (as ++ bs)) :
    Ordered bs := by
  induction as with
  | nil => exact h
  | cons a as ih => exact ih h.2

mutual

theorem ordered_block : ∀ block : Block, Ordered block.definitions
  | .named id body _ _ => by
    rw [Block.definitions]
    exact ⟨fun _ h => h, ordered_definitions body⟩
  | .conditional _ thenBlocks none _ => by
    rw [Block.definitions]
    exact ordered_definitions thenBlocks
  | .conditional _ thenBlocks (some elseBlocks) _ => by
    rw [Block.definitions]
    exact (ordered_definitions thenBlocks).append (ordered_definitions elseBlocks)
  | .loop _ body _ => by
    rw [Block.definitions]
    exact ordered_definitions body
  | .paragraph _ children _ => by
    rw [Block.definitions]
    exact ordered_definitions children
  | .table ⟨_, _, rows⟩ => by
    rw [Block.definitions]
    exact ordered_rowDefinitions rows
  | .text _ _ => by rw [Block.definitions]; trivial
  | .placeholder _ _ _ => by rw [Block.definitions]; trivial
  | .image _ _ _ => by rw [Block.definitions]; trivial
  | .inherits _ _ => by rw [Block.definitions]; trivial
  | .static _ => by rw [Block.definitions]; trivial

/-- The named blocks of a tree are listed before those within them. -/
theorem ordered_definitions : ∀ blocks : List Block, Ordered (definitions blocks)
  | [] => by rw [definitions]; trivial
  | block :: blocks => by
    rw [definitions]
    exact (ordered_block block).append (ordered_definitions blocks)

theorem ordered_rowDefinitions : ∀ rows : List (RowBlock Block), Ordered (rowDefinitions rows)
  | [] => by rw [rowDefinitions]; trivial
  | .static ⟨_, cells⟩ :: rows => by
    rw [rowDefinitions]
    exact (ordered_cellDefinitions cells).append (ordered_rowDefinitions rows)
  | .loop _ ⟨_, cells⟩ _ :: rows => by
    rw [rowDefinitions]
    exact (ordered_cellDefinitions cells).append (ordered_rowDefinitions rows)

theorem ordered_cellDefinitions : ∀ cells : List (Cell Block), Ordered (cellDefinitions cells)
  | [] => by rw [cellDefinitions]; trivial
  | ⟨_, body⟩ :: cells => by
    rw [cellDefinitions]
    exact (ordered_definitions body).append (ordered_cellDefinitions cells)

end

theorem ordered_allDefinitions (descendants : List Template) :
    Ordered (allDefinitions descendants) := by
  induction descendants with
  | nil => trivial
  | cons t ts ih =>
    have hstep : allDefinitions (t :: ts) = allDefinitions ts ++ definitions t.blocks := by
      simp [allDefinitions]
    rw [hstep]
    exact ih.append (ordered_definitions t.blocks)

end StyledTemplate
