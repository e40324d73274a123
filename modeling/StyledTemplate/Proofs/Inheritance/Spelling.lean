import StyledTemplate.Proofs.Inheritance.Ancestors
import StyledTemplate.Proofs.Inheritance.Owners
import StyledTemplate.Proofs.Template.SpelledBody

/-!
# Inheritance of templates that are spelled out

Templates that are spelled out have the same parents, and what a chain of them shows is what the
chain shows, spelled out (`resolveChain_spell`). The literals without characters that it shows still
stand behind other literals.
-/

namespace StyledTemplate

/-! ## Definitions -/

def spellDefinition (definition : String × List Block) : String × List Block :=
  (definition.1, spellBlocks definition.2)

theorem definitions_append (as bs : List Block) :
    definitions (as ++ bs) = definitions as ++ definitions bs := by
  rw [definitions_eq_filterMap, nodesOf_append, List.filterMap_append, ← definitions_eq_filterMap,
    ← definitions_eq_filterMap]

theorem definitions_singleton (block : Block) : definitions [block] = block.definitions := by
  rw [definitions, definitions, List.append_nil]

theorem definitions_literals {α : Type} {literal : α → Block}
    (h : ∀ a, (literal a).definitions = []) (as : List α) : definitions (as.map literal) = [] := by
  induction as with
  | nil => rw [List.map_nil, definitions]
  | cons a as ih => rw [List.map_cons, definitions, h, ih, List.append_nil]

mutual

theorem Block.definitions_spell : ∀ block : Block,
    definitions block.spell = block.definitions.map spellDefinition
  | .text text style => by
    rw [Block.spell, definitions_literals fun c => by rw [Block.definitions], Block.definitions]
    rfl
  | .static run => by
    rw [Block.spell, definitions_literals fun run => by rw [Block.definitions], Block.definitions]
    rfl
  | .placeholder _ _ _ => by
    rw [Block.spell, definitions_singleton, Block.definitions]
    rfl
  | .image _ _ _ => by
    rw [Block.spell, definitions_singleton, Block.definitions]
    rfl
  | .inherits _ _ => by
    rw [Block.spell, definitions_singleton, Block.definitions]
    rfl
  | .conditional _ thenBlocks none _ => by
    rw [Block.spell, definitions_singleton, Block.definitions, Block.definitions]
    exact definitions_spell thenBlocks
  | .conditional _ thenBlocks (some elseBlocks) _ => by
    rw [Block.spell, definitions_singleton, Block.definitions, Block.definitions, List.map_append,
      definitions_spell thenBlocks, definitions_spell elseBlocks]
  | .loop _ body _ => by
    rw [Block.spell, definitions_singleton, Block.definitions, Block.definitions]
    exact definitions_spell body
  | .named id body _ _ => by
    rw [Block.spell, definitions_singleton, Block.definitions, Block.definitions, List.map_cons,
      definitions_spell body]
    rfl
  | .paragraph _ children _ => by
    rw [Block.spell, definitions_singleton, Block.definitions, Block.definitions]
    exact definitions_spell children
  | .table ⟨_, _, rows⟩ => by
    rw [Block.spell, definitions_singleton, Block.definitions, Block.definitions]
    exact rowDefinitions_spell rows

/-- Blocks that are spelled out define the same names, with bodies that are spelled out. -/
theorem definitions_spell : ∀ blocks : List Block,
    definitions (spellBlocks blocks) = (definitions blocks).map spellDefinition
  | [] => by
    rw [spellBlocks, definitions]
    rfl
  | block :: blocks => by
    rw [spellBlocks, definitions_append, definitions, List.map_append, block.definitions_spell,
      definitions_spell blocks]

theorem rowDefinitions_spell : ∀ rows : List (RowBlock Block),
    rowDefinitions (spellRowBlocks rows) = (rowDefinitions rows).map spellDefinition
  | [] => by
    rw [spellRowBlocks, rowDefinitions]
    rfl
  | .static ⟨_, cells⟩ :: rows => by
    rw [spellRowBlocks, rowDefinitions, rowDefinitions, List.map_append,
      cellDefinitions_spell cells, rowDefinitions_spell rows]
  | .loop _ ⟨_, cells⟩ _ :: rows => by
    rw [spellRowBlocks, rowDefinitions, rowDefinitions, List.map_append,
      cellDefinitions_spell cells, rowDefinitions_spell rows]

theorem cellDefinitions_spell : ∀ cells : List (Cell Block),
    cellDefinitions (spellCellBlocks cells) = (cellDefinitions cells).map spellDefinition
  | [] => by
    rw [spellCellBlocks, cellDefinitions]
    rfl
  | ⟨_, body⟩ :: cells => by
    rw [spellCellBlocks, cellDefinitions, cellDefinitions, List.map_append, definitions_spell body,
      cellDefinitions_spell cells]

end

def Override.spell (override : Override) : Override :=
  { override with body := spellBlocks override.body }

theorem definition?_spell (descendants : List Template) (id : String) :
    definition? (descendants.map Template.spell) id =
      (definition? descendants id).map Override.spell := by
  induction descendants with
  | nil => rfl
  | cons t ts ih =>
    have hlast : lastValue? (definitions t.spell.blocks) id =
        (lastValue? (definitions t.blocks) id).map spellBlocks := by
      have hmap := lastValue?_map spellBlocks (definitions t.blocks) id
      have hdefs := definitions_spell t.blocks
      exact (congrArg (lastValue? · id) hdefs).trans hmap
    rw [List.map_cons, definition?_cons, definition?_cons, ih, hlast, Option.map_or, Option.map_map,
      Option.map_map]
    rfl

/-! ## Resolving -/

section Resolves

variable {defs : String → Option Override}

theorem Resolves.append {as bs as' bs' : List Block} (ha : Resolves defs as as')
    (hb : Resolves defs bs bs') : Resolves defs (as ++ bs) (as' ++ bs') := by
  induction as generalizing as' with
  | nil =>
    cases ha
    exact hb
  | cons a as ih =>
    cases ha with
    | cons hblock hrest => exact .cons hblock (ih hrest)

theorem Resolves.singleton {block shown : Block} (h : BlockResolves defs block shown) :
    Resolves defs [block] [shown] := .cons h .nil

theorem Resolves.literals {α : Type} {literal : α → Block}
    (h : ∀ a, BlockResolves defs (literal a) (literal a)) (as : List α) :
    Resolves defs (as.map literal) (as.map literal) := by
  induction as with
  | nil => exact .nil
  | cons a as ih => exact .cons (h a) ih

mutual

theorem BlockResolves.spell : ∀ {block shown : Block}, BlockResolves defs block shown →
    Resolves (fun id => (defs id).map Override.spell) block.spell shown.spell
  | _, _, @BlockResolves.replaced _ id body position origin override shown hdef hbody => by
    have hdef' : (defs id).map Override.spell = some override.spell := by
      rw [hdef]
      rfl
    have hreplaced : BlockResolves (fun id => (defs id).map Override.spell)
        (.named id (spellBlocks body) position origin)
        (.named id (spellBlocks shown) position (some override.spell.owner)) :=
      .replaced hdef' hbody.spell
    rw [Block.spell, Block.spell]
    exact .singleton hreplaced
  | _, _, @BlockResolves.kept _ id body position origin shown hdef hbody => by
    have hdef' : (defs id).map Override.spell = none := by
      rw [hdef]
      rfl
    rw [Block.spell, Block.spell]
    exact .singleton (.kept hdef' hbody.spell)
  | _, _, .whenTrue hthen => by
    rw [Block.spell, Block.spell]
    exact .singleton (.whenTrue hthen.spell)
  | _, _, .branches hthen helse => by
    rw [Block.spell, Block.spell]
    exact .singleton (.branches hthen.spell helse.spell)
  | _, _, .loop hbody => by
    rw [Block.spell, Block.spell]
    exact .singleton (.loop hbody.spell)
  | _, _, .paragraph hchildren => by
    rw [Block.spell, Block.spell]
    exact .singleton (.paragraph hchildren.spell)
  | _, _, .table hrows => by
    rw [Block.spell, Block.spell]
    exact .singleton (.table hrows.spell)
  | _, _, .text text style => by
    rw [Block.spell]
    exact .literals (fun c => .text _ style) text.toList
  | _, _, .placeholder path style position => by
    rw [Block.spell]
    exact .singleton (.placeholder path style position)
  | _, _, .image name style position => by
    rw [Block.spell]
    exact .singleton (.image name style position)
  | _, _, .inherits parent position => by
    rw [Block.spell]
    exact .singleton (.inherits parent position)
  | _, _, .static run => by
    rw [Block.spell]
    exact .literals (fun run => .static run) run.spell

/-- What is shown for blocks that are spelled out is what is shown for the blocks, spelled out. -/
theorem Resolves.spell : ∀ {blocks shown : List Block}, Resolves defs blocks shown →
    Resolves (fun id => (defs id).map Override.spell) (spellBlocks blocks) (spellBlocks shown)
  | _, _, .nil => by
    rw [spellBlocks]
    exact .nil
  | _, _, .cons hblock hrest => by
    rw [spellBlocks, spellBlocks]
    exact hblock.spell.append hrest.spell

theorem RowsResolve.spell : ∀ {rows shown : List (RowBlock Block)}, RowsResolve defs rows shown →
    RowsResolve (fun id => (defs id).map Override.spell) (spellRowBlocks rows) (spellRowBlocks shown)
  | _, _, .nil => by
    rw [spellRowBlocks]
    exact .nil
  | _, _, .once hcells hrest => by
    rw [spellRowBlocks, spellRowBlocks]
    exact .once hcells.spell hrest.spell
  | _, _, .loop hcells hrest => by
    rw [spellRowBlocks, spellRowBlocks]
    exact .loop hcells.spell hrest.spell

theorem CellsResolve.spell : ∀ {cells shown : List (Cell Block)}, CellsResolve defs cells shown →
    CellsResolve (fun id => (defs id).map Override.spell) (spellCellBlocks cells)
      (spellCellBlocks shown)
  | _, _, .nil => by
    rw [spellCellBlocks]
    exact .nil
  | _, _, .cons hbody hrest => by
    rw [spellCellBlocks, spellCellBlocks]
    exact .cons hbody.spell hrest.spell

end

end Resolves

/-! ## Literals without characters -/

section Backed

variable {defs : String → Option Override}

theorem BlockResolves.isLiteral_eq {block shown : Block} (h : BlockResolves defs block shown) :
    shown.isLiteral = block.isLiteral ∧ shown.isEmptyText = block.isEmptyText := by
  cases h <;> exact ⟨rfl, rfl⟩

theorem Resolves.backed {behind : Bool} {blocks shown : List Block}
    (h : Resolves defs blocks shown) (hblocks : Backed behind blocks) : Backed behind shown := by
  induction blocks generalizing behind shown with
  | nil =>
    cases h
    exact hblocks
  | cons block blocks ih =>
    cases h with
    | cons hblock hrest =>
      obtain ⟨hliteral, hempty⟩ := hblock.isLiteral_eq
      rw [Backed, hliteral, hempty]
      exact ⟨hblocks.1, ih hrest hblocks.2⟩

theorem CellsResolve.backed {cells shown : List (Cell Block)} (h : CellsResolve defs cells shown)
    (hcells : ∀ cell ∈ cells, Backed false cell.body) : ∀ cell ∈ shown, Backed false cell.body := by
  induction cells generalizing shown with
  | nil =>
    cases h
    exact hcells
  | cons cell cells ih =>
    cases h with
    | cons hbody hrest =>
      rw [List.forall_mem_cons] at hcells ⊢
      exact ⟨hbody.backed hcells.1, ih hrest hcells.2⟩

theorem RowsResolve.backed {rows shown : List (RowBlock Block)} (h : RowsResolve defs rows shown)
    (hrows : ∀ row ∈ rows, ∀ cell ∈ row.row.cells, Backed false cell.body) :
    ∀ row ∈ shown, ∀ cell ∈ row.row.cells, Backed false cell.body := by
  induction rows generalizing shown with
  | nil =>
    cases h
    exact hrows
  | cons row rows ih =>
    rw [List.forall_mem_cons] at hrows
    cases h with
    | once hcells hrest =>
      exact List.forall_mem_cons.2 ⟨hcells.backed hrows.1, ih hrest hrows.2⟩
    | loop hcells hrest =>
      exact List.forall_mem_cons.2 ⟨hcells.backed hrows.1, ih hrest hrows.2⟩

mutual

theorem BlockResolves.backed_nodes (hdefs : ∀ id override, defs id = some override →
    BackedTree override.body) : ∀ {block shown : Block}, BlockResolves defs block shown →
    (∀ node ∈ block.nodes, node.IsBacked) → ∀ node ∈ shown.nodes, node.IsBacked
  | _, _, .replaced hdef hbody, _ => by
    rw [Block.nodes, List.forall_mem_cons]
    have hoverride := hdefs _ _ hdef
    exact ⟨hbody.backed hoverride.top, hbody.backed_nodes hdefs hoverride.nodes⟩
  | _, _, .kept _ hbody, h => by
    rw [Block.nodes, List.forall_mem_cons] at h ⊢
    exact ⟨hbody.backed h.1, hbody.backed_nodes hdefs h.2⟩
  | _, _, .whenTrue hthen, h => by
    rw [Block.nodes, List.forall_mem_cons] at h ⊢
    exact ⟨hthen.backed h.1, hthen.backed_nodes hdefs h.2⟩
  | _, _, .branches hthen helse, h => by
    rw [Block.nodes, List.forall_mem_cons, List.forall_mem_append] at h ⊢
    exact ⟨⟨hthen.backed h.1.1, helse.backed h.1.2⟩, hthen.backed_nodes hdefs h.2.1,
      helse.backed_nodes hdefs h.2.2⟩
  | _, _, .loop hbody, h => by
    rw [Block.nodes, List.forall_mem_cons] at h ⊢
    exact ⟨hbody.backed h.1, hbody.backed_nodes hdefs h.2⟩
  | _, _, .paragraph hchildren, h => by
    rw [Block.nodes, List.forall_mem_cons] at h ⊢
    exact ⟨hchildren.backed h.1, hchildren.backed_nodes hdefs h.2⟩
  | _, _, .table hrows, h => by
    rw [Block.nodes, List.forall_mem_cons] at h ⊢
    exact ⟨hrows.backed h.1, hrows.backed_nodes hdefs h.2⟩
  | _, _, .text _ _, h => h
  | _, _, .placeholder _ _ _, h => h
  | _, _, .image _ _ _, h => h
  | _, _, .inherits _ _, h => h
  | _, _, .static _, h => h

theorem Resolves.backed_nodes (hdefs : ∀ id override, defs id = some override →
    BackedTree override.body) : ∀ {blocks shown : List Block}, Resolves defs blocks shown →
    (∀ node ∈ nodesOf blocks, node.IsBacked) → ∀ node ∈ nodesOf shown, node.IsBacked
  | _, _, .nil, h => h
  | _, _, .cons hblock hrest, h => by
    rw [nodesOf_cons, List.forall_mem_append] at h ⊢
    exact ⟨hblock.backed_nodes hdefs h.1, hrest.backed_nodes hdefs h.2⟩

theorem RowsResolve.backed_nodes (hdefs : ∀ id override, defs id = some override →
    BackedTree override.body) : ∀ {rows shown : List (RowBlock Block)},
    RowsResolve defs rows shown →
    (∀ node ∈ rowNodes rows, node.IsBacked) → ∀ node ∈ rowNodes shown, node.IsBacked
  | _, _, .nil, h => h
  | _, _, .once hcells hrest, h => by
    rw [rowNodes, List.forall_mem_append] at h ⊢
    exact ⟨hcells.backed_nodes hdefs h.1, hrest.backed_nodes hdefs h.2⟩
  | _, _, .loop hcells hrest, h => by
    rw [rowNodes, List.forall_mem_append] at h ⊢
    exact ⟨hcells.backed_nodes hdefs h.1, hrest.backed_nodes hdefs h.2⟩

theorem CellsResolve.backed_nodes (hdefs : ∀ id override, defs id = some override →
    BackedTree override.body) : ∀ {cells shown : List (Cell Block)},
    CellsResolve defs cells shown →
    (∀ node ∈ cellNodes cells, node.IsBacked) → ∀ node ∈ cellNodes shown, node.IsBacked
  | _, _, .nil, h => h
  | _, _, .cons hbody hrest, h => by
    rw [cellNodes, List.forall_mem_append] at h ⊢
    exact ⟨hbody.backed_nodes hdefs h.1, hrest.backed_nodes hdefs h.2⟩

end

end Backed

/-! ## Chains -/

theorem Template.IsParsed.spell {t : Template} (h : t.IsParsed) : t.spell.IsParsed := by
  obtain ⟨settings, name, d, hd⟩ := h
  refine ⟨settings, name, d.spell, ?_⟩
  rw [ofDocument_spell, hd]
  rfl

theorem Template.IsParsed.backedTree {t : Template} (h : t.IsParsed) : BackedTree t.blocks := by
  obtain ⟨settings, name, d, hd⟩ := h
  exact backedTree_of_ofDocument hd

section Chains

variable {descendants : List Template} {root : Template}

theorem backedTree_of_definition? (hparsed : ∀ t ∈ descendants, t.IsParsed) (id : String)
    (override : Override) (h : definition? descendants id = some override) :
    BackedTree override.body := by
  obtain ⟨t, ht, -, hmem⟩ := exists_of_definition? h
  rw [definitions_eq_filterMap, List.mem_filterMap] at hmem
  obtain ⟨node, hnode, hdefinition⟩ := hmem
  have hbacked := (hparsed t ht).backedTree.nodes
  cases node <;> simp only [Block.definition?, reduceCtorEq] at hdefinition
  obtain ⟨rfl, rfl⟩ := Prod.mk.inj (Option.some.inj hdefinition)
  refine ⟨hbacked _ hnode, fun inner hinner => hbacked inner ?_⟩
  refine closed_nodesOf t.blocks _ hnode ?_
  rw [Block.nodes]
  exact List.mem_cons_of_mem _ hinner

theorem backedTree_resolveChain (hparsed : ∀ t ∈ descendants ++ [root], t.IsParsed) :
    BackedTree (resolveChain (descendants ++ [root])) := by
  have hresolves := resolves_chain hparsed
  rw [List.forall_mem_append, List.forall_mem_singleton] at hparsed
  have hdefs := backedTree_of_definition? hparsed.1
  have hroot := hparsed.2.backedTree
  exact ⟨hresolves.backed hroot.top, hresolves.backed_nodes hdefs hroot.nodes⟩

/-- A chain of templates that are spelled out shows what the chain shows, spelled out. -/
theorem resolveChain_spell (hparsed : ∀ t ∈ descendants ++ [root], t.IsParsed) :
    resolveChain ((descendants ++ [root]).map Template.spell) =
      spellBlocks (resolveChain (descendants ++ [root])) := by
  have hspelled : ∀ t ∈ (descendants ++ [root]).map Template.spell, t.IsParsed :=
    List.forall_mem_map.2 fun t ht => (hparsed t ht).spell
  have hdefs : definition? (descendants.map Template.spell) =
      fun id => (definition? descendants id).map Override.spell :=
    funext (definition?_spell descendants)
  have hone := (resolves_chain hparsed).spell
  rw [← hdefs] at hone
  rw [List.map_append, List.map_singleton] at hspelled ⊢
  exact (resolves_chain hspelled).unique hone

end Chains

/-! ## Following parents -/

/-- The registries have the same templates, up to how runs are split. -/
def Registry.Alike (registry registry' : Registry) : Prop :=
  ∀ name, (registry.find? name).map Template.spell = (registry'.find? name).map Template.spell

theorem matches_ancestors {registry registry' : Registry} (h : registry.Alike registry')
    (visited : List String) {t t' : Template} (ht : t.spell = t'.spell) :
    Matches (fun ts ts' => ts.map Template.spell = ts'.map Template.spell)
      (ancestors registry visited t) (ancestors registry' visited t') := by
  induction visited, t using ancestors.induct registry generalizing t' with
  | case1 visited t hparent =>
    have hparent' : t'.parent = none := (congrArg Template.parent ht).symm.trans hparent
    rw [ancestors_of_root hparent, ancestors_of_root hparent']
    exact .ok rfl
  | case2 visited t parent hparent hvisited =>
    have hparent' : t'.parent = some parent := (congrArg Template.parent ht).symm.trans hparent
    rw [ancestors_of_visited hparent hvisited, ancestors_of_visited hparent' hvisited]
    exact .error _
  | case3 visited t parent hparent hnew hmissing =>
    have hparent' : t'.parent = some parent := (congrArg Template.parent ht).symm.trans hparent
    have hmissing' : registry'.find? parent = none := by
      have hsame := h parent
      rw [hmissing] at hsame
      exact Option.map_eq_none_iff.1 hsame.symm
    rw [ancestors_of_missing hparent hnew hmissing, ancestors_of_missing hparent' hnew hmissing']
    exact .error _
  | case4 visited t parent hparent hnew next hfound ih =>
    have hparent' : t'.parent = some parent := (congrArg Template.parent ht).symm.trans hparent
    have hsame := h parent
    rw [hfound] at hsame
    obtain ⟨next', hfound', hnext⟩ := Option.map_eq_some_iff.1 hsame.symm
    have hname : next'.name = next.name :=
      (Registry.name_of_find? hfound').trans (Registry.name_of_find? hfound).symm
    rw [ancestors_of_found hparent hnew hfound, ancestors_of_found hparent' hnew hfound', hname]
    refine (ih hnext.symm).bind fun ts ts' hts => ?_
    exact .ok (by rw [List.map_cons, List.map_cons, hnext, hts])

/-- The chains of templates that differ in how runs are split differ only in that, too. -/
theorem matches_chain {registry registry' : Registry} (h : registry.Alike registry')
    {t t' : Template} (ht : t.spell = t'.spell) :
    Matches (fun ts ts' => ts.map Template.spell = ts'.map Template.spell) (chain registry t)
      (chain registry' t') := by
  have hnames : t.spell.name = t'.spell.name := congrArg Template.name ht
  have hname : t.name = t'.name := hnames
  unfold chain
  rw [hname]
  refine (matches_ancestors h [t'.name] ht).bind fun ts ts' hts => ?_
  exact .ok (by rw [List.map_cons, List.map_cons, ht, hts])

end StyledTemplate
