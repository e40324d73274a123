import StyledTemplate.Proofs.Inheritance.Definitions
import StyledTemplate.Proofs.Template.Fresh

/-!
# Inheritance replaces every named block that has a definition

`Resolves` says what a chain shows without saying how it is computed: every named block with a
definition that counts is replaced by it, at any depth and within replacements too, and everything
else stays. Nothing is said there about blocks within themselves. That resolving comes to an end is
a consequence of the order of the definitions: each replacement is taken from further behind in the
list of all of them, so it is never needed within itself and there are never too many around it.
-/

namespace StyledTemplate

mutual

/-- What is shown for a block, where `defs` are the definitions that count. -/
inductive BlockResolves (defs : String → Option Override) : Block → Block → Prop
  | replaced {id body position origin override shown} (hdef : defs id = some override)
      (hbody : Resolves defs override.body shown) :
      BlockResolves defs (.named id body position origin)
        (.named id shown position (some override.owner))
  | kept {id body position origin shown} (hdef : defs id = none)
      (hbody : Resolves defs body shown) :
      BlockResolves defs (.named id body position origin) (.named id shown position none)
  | whenTrue {condition thenBlocks shown position} (hthen : Resolves defs thenBlocks shown) :
      BlockResolves defs (.conditional condition thenBlocks none position)
        (.conditional condition shown none position)
  | branches {condition thenBlocks elseBlocks shownThen shownElse position}
      (hthen : Resolves defs thenBlocks shownThen) (helse : Resolves defs elseBlocks shownElse) :
      BlockResolves defs (.conditional condition thenBlocks (some elseBlocks) position)
        (.conditional condition shownThen (some shownElse) position)
  | loop {list body shown position} (hbody : Resolves defs body shown) :
      BlockResolves defs (.loop list body position) (.loop list shown position)
  | paragraph {properties children shown hasDirectives} (hchildren : Resolves defs children shown) :
      BlockResolves defs (.paragraph properties children hasDirectives)
        (.paragraph properties shown hasDirectives)
  | table {properties grid rows shown} (hrows : RowsResolve defs rows shown) :
      BlockResolves defs (.table ⟨properties, grid, rows⟩) (.table ⟨properties, grid, shown⟩)
  | text (text style) : BlockResolves defs (.text text style) (.text text style)
  | placeholder (path style position) :
      BlockResolves defs (.placeholder path style position) (.placeholder path style position)
  | image (name style position) :
      BlockResolves defs (.image name style position) (.image name style position)
  | inherits (parent position) :
      BlockResolves defs (.inherits parent position) (.inherits parent position)
  | static (run) : BlockResolves defs (.static run) (.static run)

/-- What is shown for some blocks. -/
inductive Resolves (defs : String → Option Override) : List Block → List Block → Prop
  | nil : Resolves defs [] []
  | cons {block blocks shown shownRest} (hblock : BlockResolves defs block shown)
      (hrest : Resolves defs blocks shownRest) :
      Resolves defs (block :: blocks) (shown :: shownRest)

/-- What is shown for the rows of a table. -/
inductive RowsResolve (defs : String → Option Override) :
    List (RowBlock Block) → List (RowBlock Block) → Prop
  | nil : RowsResolve defs [] []
  | once {properties cells rows shown shownRest} (hcells : CellsResolve defs cells shown)
      (hrest : RowsResolve defs rows shownRest) :
      RowsResolve defs (.static ⟨properties, cells⟩ :: rows)
        (.static ⟨properties, shown⟩ :: shownRest)
  | loop {list properties cells position rows shown shownRest}
      (hcells : CellsResolve defs cells shown) (hrest : RowsResolve defs rows shownRest) :
      RowsResolve defs (.loop list ⟨properties, cells⟩ position :: rows)
        (.loop list ⟨properties, shown⟩ position :: shownRest)

/-- What is shown for the cells of a row. -/
inductive CellsResolve (defs : String → Option Override) :
    List (Cell Block) → List (Cell Block) → Prop
  | nil : CellsResolve defs [] []
  | cons {properties body cells shown shownRest} (hbody : Resolves defs body shown)
      (hrest : CellsResolve defs cells shownRest) :
      CellsResolve defs (⟨properties, body⟩ :: cells) (⟨properties, shown⟩ :: shownRest)

end

section Unique

variable {defs : String → Option Override}

mutual

theorem BlockResolves.unique : ∀ {block a b : Block},
    BlockResolves defs block a → BlockResolves defs block b → a = b
  | _, _, _, .replaced hdef ha, .replaced hdef' hb => by
    obtain rfl := Option.some.inj (hdef.symm.trans hdef')
    rw [ha.unique hb]
  | _, _, _, .replaced hdef _, .kept hdef' _ => absurd (hdef.symm.trans hdef') nofun
  | _, _, _, .kept hdef _, .replaced hdef' _ => absurd (hdef.symm.trans hdef') nofun
  | _, _, _, .kept _ ha, .kept _ hb => by rw [ha.unique hb]
  | _, _, _, .whenTrue ha, .whenTrue hb => by rw [ha.unique hb]
  | _, _, _, .branches ha ha', .branches hb hb' => by rw [ha.unique hb, ha'.unique hb']
  | _, _, _, .loop ha, .loop hb => by rw [ha.unique hb]
  | _, _, _, .paragraph ha, .paragraph hb => by rw [ha.unique hb]
  | _, _, _, .table ha, .table hb => by rw [ha.unique hb]
  | _, _, _, .text _ _, .text _ _ => rfl
  | _, _, _, .placeholder _ _ _, .placeholder _ _ _ => rfl
  | _, _, _, .image _ _ _, .image _ _ _ => rfl
  | _, _, _, .inherits _ _, .inherits _ _ => rfl
  | _, _, _, .static _, .static _ => rfl

/-- The definitions determine what is shown. -/
theorem Resolves.unique : ∀ {blocks as bs : List Block},
    Resolves defs blocks as → Resolves defs blocks bs → as = bs
  | _, _, _, .nil, .nil => rfl
  | _, _, _, .cons ha has, .cons hb hbs => by rw [ha.unique hb, has.unique hbs]

theorem RowsResolve.unique : ∀ {rows as bs : List (RowBlock Block)},
    RowsResolve defs rows as → RowsResolve defs rows bs → as = bs
  | _, _, _, .nil, .nil => rfl
  | _, _, _, .once ha has, .once hb hbs => by rw [ha.unique hb, has.unique hbs]
  | _, _, _, .loop ha has, .loop hb hbs => by rw [ha.unique hb, has.unique hbs]

theorem CellsResolve.unique : ∀ {cells as bs : List (Cell Block)},
    CellsResolve defs cells as → CellsResolve defs cells bs → as = bs
  | _, _, _, .nil, .nil => rfl
  | _, _, _, .cons ha has, .cons hb hbs => by rw [ha.unique hb, has.unique hbs]

end

end Unique

/-! ## Substituting -/

section Substitute

variable {defs : String → Option Override} {replace : List String → String → Option Override}
  {names : List String}

/-- Is a named block from the parser, and among `names` if it has a definition? -/
def Block.IsReplaceable (defs : String → Option Override) (names : List String) : Block → Prop
  | .named id _ _ origin => origin = none ∧ (defs id ≠ none → id ∈ names)
  | _ => True

/-- What a substitution needs to replace the blocks called `names`, where none of them stands around
the blocks it works on: each is replaced by what is shown for its definition, and no block without a
definition is replaced. -/
structure Replaces (defs : String → Option Override)
    (replace : List String → String → Option Override) (names : List String) : Prop where
  /-- The names have definitions. -/
  defined : ∀ id ∈ names, defs id ≠ none
  /-- A block of one of the names shows what its definition does. -/
  replaced : ∀ active id override, (∀ a ∈ active, a ∉ names) → id ∈ names →
    defs id = some override → ∃ shown, Resolves defs override.body shown ∧
      replace active id = some { override with body := shown }
  /-- A block without a definition is not replaced. -/
  kept : ∀ active id, defs id = none → replace active id = none

mutual

theorem Replaces.substituteBlock (h : Replaces defs replace names) (active : List String)
    (hactive : ∀ a ∈ active, a ∉ names) : ∀ block : Block,
    (∀ b ∈ block.nodes, b.IsReplaceable defs names) →
    BlockResolves defs block (substituteBlock replace active block)
  | .named id body position origin, hnodes => by
    rw [Block.nodes, List.forall_mem_cons] at hnodes
    obtain ⟨⟨rfl, hlisted⟩, hbody⟩ := hnodes
    rw [StyledTemplate.substituteBlock]
    cases hdef : defs id with
    | some override =>
      have hid : id ∈ names := hlisted (by simp [hdef])
      obtain ⟨shown, hshown, hreplace⟩ := h.replaced active id override hactive hid hdef
      have hnamed : BlockResolves defs (.named id body position none)
          (.named id shown position (some override.owner)) := .replaced hdef hshown
      rw [hreplace]
      exact hnamed
    | none =>
      rw [h.kept active id hdef]
      have hid : ∀ a ∈ id :: active, a ∉ names := by
        rw [List.forall_mem_cons]
        exact ⟨fun hmem => h.defined id hmem hdef, hactive⟩
      exact .kept hdef (h.substituteBlocks (id :: active) hid body hbody)
  | .conditional _ thenBlocks none _, hnodes => by
    rw [Block.nodes, List.forall_mem_cons] at hnodes
    rw [StyledTemplate.substituteBlock]
    exact .whenTrue (h.substituteBlocks active hactive thenBlocks hnodes.2)
  | .conditional _ thenBlocks (some elseBlocks) _, hnodes => by
    rw [Block.nodes, List.forall_mem_cons, List.forall_mem_append] at hnodes
    rw [StyledTemplate.substituteBlock]
    exact .branches (h.substituteBlocks active hactive thenBlocks hnodes.2.1)
      (h.substituteBlocks active hactive elseBlocks hnodes.2.2)
  | .loop _ body _, hnodes => by
    rw [Block.nodes, List.forall_mem_cons] at hnodes
    rw [StyledTemplate.substituteBlock]
    exact .loop (h.substituteBlocks active hactive body hnodes.2)
  | .paragraph _ children _, hnodes => by
    rw [Block.nodes, List.forall_mem_cons] at hnodes
    rw [StyledTemplate.substituteBlock]
    exact .paragraph (h.substituteBlocks active hactive children hnodes.2)
  | .table ⟨_, _, rows⟩, hnodes => by
    rw [Block.nodes, List.forall_mem_cons] at hnodes
    rw [StyledTemplate.substituteBlock]
    exact .table (h.substituteRows active hactive rows hnodes.2)
  | .text _ _, _ => by rw [StyledTemplate.substituteBlock]; exact .text ..
  | .placeholder _ _ _, _ => by rw [StyledTemplate.substituteBlock]; exact .placeholder ..
  | .image _ _ _, _ => by rw [StyledTemplate.substituteBlock]; exact .image ..
  | .inherits _ _, _ => by rw [StyledTemplate.substituteBlock]; exact .inherits ..
  | .static _, _ => by rw [StyledTemplate.substituteBlock]; exact .static ..

/-- A substitution gives what is shown for the blocks. -/
theorem Replaces.substituteBlocks (h : Replaces defs replace names) (active : List String)
    (hactive : ∀ a ∈ active, a ∉ names) : ∀ blocks : List Block,
    (∀ b ∈ nodesOf blocks, b.IsReplaceable defs names) →
    Resolves defs blocks (substituteBlocks replace active blocks)
  | [], _ => by rw [StyledTemplate.substituteBlocks]; exact .nil
  | block :: blocks, hnodes => by
    rw [nodesOf, List.forall_mem_append] at hnodes
    rw [StyledTemplate.substituteBlocks]
    exact .cons (h.substituteBlock active hactive block hnodes.1)
      (h.substituteBlocks active hactive blocks hnodes.2)

theorem Replaces.substituteRows (h : Replaces defs replace names) (active : List String)
    (hactive : ∀ a ∈ active, a ∉ names) : ∀ rows : List (RowBlock Block),
    (∀ b ∈ rowNodes rows, b.IsReplaceable defs names) →
    RowsResolve defs rows (substituteRows replace active rows)
  | [], _ => by rw [StyledTemplate.substituteRows]; exact .nil
  | .static ⟨_, cells⟩ :: rows, hnodes => by
    rw [rowNodes, List.forall_mem_append] at hnodes
    rw [StyledTemplate.substituteRows]
    exact .once (h.substituteCells active hactive cells hnodes.1)
      (h.substituteRows active hactive rows hnodes.2)
  | .loop _ ⟨_, cells⟩ _ :: rows, hnodes => by
    rw [rowNodes, List.forall_mem_append] at hnodes
    rw [StyledTemplate.substituteRows]
    exact .loop (h.substituteCells active hactive cells hnodes.1)
      (h.substituteRows active hactive rows hnodes.2)

theorem Replaces.substituteCells (h : Replaces defs replace names) (active : List String)
    (hactive : ∀ a ∈ active, a ∉ names) : ∀ cells : List (Cell Block),
    (∀ b ∈ cellNodes cells, b.IsReplaceable defs names) →
    CellsResolve defs cells (substituteCells replace active cells)
  | [], _ => by rw [StyledTemplate.substituteCells]; exact .nil
  | ⟨_, body⟩ :: cells, hnodes => by
    rw [cellNodes, List.forall_mem_append] at hnodes
    rw [StyledTemplate.substituteCells]
    exact .cons (h.substituteBlocks active hactive body hnodes.1)
      (h.substituteCells active hactive cells hnodes.2)

end

end Substitute

end StyledTemplate
