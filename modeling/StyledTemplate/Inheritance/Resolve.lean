import StyledTemplate.Inheritance.Chain

/-!
# Resolving inheritance

A template with ancestors shows the blocks of the last ancestor, in which each named block is
replaced by the block of that name in the template nearest to the start of the chain that has one.
Blocks for which the last ancestor has no counterpart are not shown.

A replacement is searched for further named blocks itself, except for those within which it stands,
so that no block is replaced within itself and resolving comes to an end.
-/

namespace StyledTemplate

mutual

/-- The named blocks within a block, in document order, each before those within it. -/
def Block.definitions : Block → List (String × List Block)
  | .named id body _ _ => (id, body) :: definitions body
  | .conditional _ thenBlocks none _ => definitions thenBlocks
  | .conditional _ thenBlocks (some elseBlocks) _ =>
    definitions thenBlocks ++ definitions elseBlocks
  | .loop _ body _ => definitions body
  | .paragraph _ children _ => definitions children
  | .table ⟨_, _, rows⟩ => rowDefinitions rows
  | .text _ _ => []
  | .placeholder _ _ _ => []
  | .image _ _ _ => []
  | .inherits _ _ => []
  | .static _ => []

/-- The named blocks within some blocks. -/
def definitions : List Block → List (String × List Block)
  | [] => []
  | block :: blocks => block.definitions ++ definitions blocks

/-- The named blocks within the rows of a table. -/
def rowDefinitions : List (RowBlock Block) → List (String × List Block)
  | [] => []
  | .static ⟨_, cells⟩ :: rows => cellDefinitions cells ++ rowDefinitions rows
  | .loop _ ⟨_, cells⟩ _ :: rows => cellDefinitions cells ++ rowDefinitions rows

/-- The named blocks within the cells of a row. -/
def cellDefinitions : List (Cell Block) → List (String × List Block)
  | [] => []
  | ⟨_, body⟩ :: cells => definitions body ++ cellDefinitions cells

end

/-- The bodies of the named blocks within some blocks; of several of one name the last one
counts. -/
def namedBodies (blocks : List Block) : NameMap (List Block) := NameMap.ofList (definitions blocks)

/-- A body for a named block, and the template it is taken from. -/
structure Override where
  /-- The name of the template. -/
  owner : String
  /-- The body. -/
  body : List Block

/-- The bodies for named blocks that a template gives. -/
def Template.overrides (t : Template) : List (String × Override) :=
  (definitions t.blocks).map fun definition => (definition.1, ⟨t.name, definition.2⟩)

/-- The bodies for named blocks that templates give, nearest first; the nearest one wins. -/
def overridesOf (descendants : List Template) : NameMap Override :=
  descendants.foldr (fun t overrides => overrides.insertAll t.overrides) NameMap.empty

mutual

/-- Replaces the named blocks within a block. `replace` gives the replacement for a block, if it has
one, and `active` are the names of the blocks around it. -/
def substituteBlock (replace : List String → String → Option Override) (active : List String) :
    Block → Block
  | .named id body position origin =>
    match replace active id with
    | some override => .named id override.body position (some override.owner)
    | none => .named id (substituteBlocks replace (id :: active) body) position origin
  | .conditional condition thenBlocks none position =>
    .conditional condition (substituteBlocks replace active thenBlocks) none position
  | .conditional condition thenBlocks (some elseBlocks) position =>
    .conditional condition (substituteBlocks replace active thenBlocks)
      (some (substituteBlocks replace active elseBlocks)) position
  | .loop list body position => .loop list (substituteBlocks replace active body) position
  | .paragraph properties children hasDirectives =>
    .paragraph properties (substituteBlocks replace active children) hasDirectives
  | .table ⟨properties, grid, rows⟩ =>
    .table ⟨properties, grid, substituteRows replace active rows⟩
  | .text text style => .text text style
  | .placeholder path style position => .placeholder path style position
  | .image name style position => .image name style position
  | .inherits parent position => .inherits parent position
  | .static run => .static run

/-- Replaces the named blocks within some blocks. -/
def substituteBlocks (replace : List String → String → Option Override) (active : List String) :
    List Block → List Block
  | [] => []
  | block :: blocks =>
    substituteBlock replace active block :: substituteBlocks replace active blocks

/-- Replaces the named blocks within the rows of a table. -/
def substituteRows (replace : List String → String → Option Override) (active : List String) :
    List (RowBlock Block) → List (RowBlock Block)
  | [] => []
  | .static ⟨properties, cells⟩ :: rows =>
    .static ⟨properties, substituteCells replace active cells⟩ ::
      substituteRows replace active rows
  | .loop list ⟨properties, cells⟩ position :: rows =>
    .loop list ⟨properties, substituteCells replace active cells⟩ position ::
      substituteRows replace active rows

/-- Replaces the named blocks within the cells of a row. -/
def substituteCells (replace : List String → String → Option Override) (active : List String) :
    List (Cell Block) → List (Cell Block)
  | [] => []
  | ⟨properties, body⟩ :: cells =>
    ⟨properties, substituteBlocks replace active body⟩ :: substituteCells replace active cells

end

/-- The replacement for the block `id`, if `overrides` have one and the block does not stand within
another one of its name. Replacements are nested at most `depth` deep. -/
def replacement (overrides : NameMap Override) :
    (depth : Nat) → (active : List String) → (id : String) → Option Override
  | 0, _, _ => none
  | depth + 1, active, id =>
    if id ∈ active then none
    else (overrides.find? id).map fun override =>
      { override with
        body := substituteBlocks (replacement overrides depth) (id :: active) override.body }

/-- Replaces the named blocks for which there are overrides. No more replacements can be nested than
there are overrides, because each stands within blocks of other names. -/
def substitute (overrides : NameMap Override) (blocks : List Block) : List Block :=
  substituteBlocks (replacement overrides overrides.size) [] blocks

/-- The blocks that the first template of a chain shows. -/
def resolveChain (chain : List Template) : List Block :=
  match chain.reverse with
  | [] => []
  | [root] => root.blocks
  | root :: _ => substitute (overridesOf chain.dropLast) root.blocks

/-- The blocks that a template shows. -/
def resolve (registry : Registry) (template : Template) : Except Error (List Block) :=
  (chain registry template).map resolveChain

end StyledTemplate
