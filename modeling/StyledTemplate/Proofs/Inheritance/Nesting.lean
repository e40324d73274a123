import StyledTemplate.Proofs.Engine.Reached
import StyledTemplate.Proofs.Template.Nesting

/-!
# How deep inherited templates are nested

The limit on nesting holds for each template by itself. A chain puts bodies of its templates into
each other, and each name that it replaces may take the tree deeper by the body that counts for it.
No name is replaced within itself, so with a limit `limit` and `k` names that have definitions the
tree that a chain shows is at most `limit + k * (limit - 1)` deep (`Engine.Reached.nesting_shown_le`), and
it can be as deep as that.
-/

namespace StyledTemplate

/-! ## Definitions -/

mutual

theorem Block.nesting_definition_lt : ∀ block : Block, ∀ definition ∈ block.definitions,
    nestingOf definition.2 < block.nesting
  | .named id body _ _, definition, h => by
    rw [Block.definitions, List.mem_cons] at h
    rw [Block.nesting]
    rcases h with rfl | h
    · exact Nat.lt_succ_self _
    · exact Nat.lt_succ_of_lt (nesting_definition_lt body definition h)
  | .conditional _ thenBlocks none _, definition, h => by
    rw [Block.definitions] at h
    rw [Block.nesting]
    exact Nat.lt_succ_of_lt (nesting_definition_lt thenBlocks definition h)
  | .conditional _ thenBlocks (some elseBlocks) _, definition, h => by
    rw [Block.definitions, List.mem_append] at h
    rw [Block.nesting]
    rcases h with h | h
    · have hthen := nesting_definition_lt thenBlocks definition h
      omega
    · have helse := nesting_definition_lt elseBlocks definition h
      omega
  | .loop _ body _, definition, h => by
    rw [Block.definitions] at h
    rw [Block.nesting]
    exact Nat.lt_succ_of_lt (nesting_definition_lt body definition h)
  | .paragraph _ children _, definition, h => by
    rw [Block.definitions] at h
    rw [Block.nesting]
    exact nesting_definition_lt children definition h
  | .table ⟨_, _, rows⟩, definition, h => by
    rw [Block.definitions] at h
    rw [Block.nesting]
    exact nesting_rowDefinition_lt rows definition h
  | .text _ _, definition, h => by rw [Block.definitions] at h; cases h
  | .placeholder _ _ _, definition, h => by rw [Block.definitions] at h; cases h
  | .image _ _ _, definition, h => by rw [Block.definitions] at h; cases h
  | .inherits _ _, definition, h => by rw [Block.definitions] at h; cases h
  | .static _, definition, h => by rw [Block.definitions] at h; cases h

/-- A named block is a level of its own, so its body is not as deep as the tree around it. -/
theorem nesting_definition_lt : ∀ blocks : List Block, ∀ definition ∈ definitions blocks,
    nestingOf definition.2 < nestingOf blocks
  | [], definition, h => by rw [definitions] at h; cases h
  | block :: blocks, definition, h => by
    rw [definitions, List.mem_append] at h
    rw [nestingOf]
    rcases h with h | h
    · have hblock := block.nesting_definition_lt definition h
      omega
    · have hblocks := nesting_definition_lt blocks definition h
      omega

theorem nesting_rowDefinition_lt : ∀ rows : List (RowBlock Block),
    ∀ definition ∈ rowDefinitions rows, nestingOf definition.2 < rowNesting rows
  | [], definition, h => by rw [rowDefinitions] at h; cases h
  | .static ⟨_, cells⟩ :: rows, definition, h => by
    rw [rowDefinitions, List.mem_append] at h
    rw [rowNesting]
    rcases h with h | h
    · have hcells := nesting_cellDefinition_lt cells definition h
      omega
    · have hrows := nesting_rowDefinition_lt rows definition h
      omega
  | .loop _ ⟨_, cells⟩ _ :: rows, definition, h => by
    rw [rowDefinitions, List.mem_append] at h
    rw [rowNesting]
    rcases h with h | h
    · have hcells := nesting_cellDefinition_lt cells definition h
      omega
    · have hrows := nesting_rowDefinition_lt rows definition h
      omega

theorem nesting_cellDefinition_lt : ∀ cells : List (Cell Block),
    ∀ definition ∈ cellDefinitions cells, nestingOf definition.2 < cellNesting cells
  | [], definition, h => by rw [cellDefinitions] at h; cases h
  | ⟨_, body⟩ :: cells, definition, h => by
    rw [cellDefinitions, List.mem_append] at h
    rw [cellNesting]
    rcases h with h | h
    · have hbody := nesting_definition_lt body definition h
      omega
    · have hcells := nesting_cellDefinition_lt cells definition h
      omega

end

/-! ## Replacing named blocks -/

section Resolves

variable {defs : String → Option Override} {names : List String} {extra : Nat}

/-- Whatever one of the names is replaced by is at most `extra` deep. -/
def ShownWithin (defs : String → Option Override) (names : List String) (extra : Nat) : Prop :=
  ∀ id ∈ names, ∀ override shown, defs id = some override → Resolves defs override.body shown →
    nestingOf shown ≤ extra

mutual

theorem nesting_block_le (h : ShownWithin defs names extra) : ∀ (block : Block) {shown : Block},
    (∀ b ∈ block.nodes, b.IsReplaceable defs names) → BlockResolves defs block shown →
    shown.nesting ≤ block.nesting + extra
  | .named id body _ _, _, hnodes, hblock => by
    rw [Block.nodes, List.forall_mem_cons] at hnodes
    cases hblock with
    | replaced hdef hbody =>
      have hid : id ∈ names := hnodes.1.2 (by simp [hdef])
      have hshown := h id hid _ _ hdef hbody
      rw [Block.nesting, Block.nesting]
      omega
    | kept hdef hbody =>
      have hshown := nesting_blocks_le h body hnodes.2 hbody
      rw [Block.nesting, Block.nesting]
      omega
  | .conditional _ thenBlocks none _, _, hnodes, hblock => by
    rw [Block.nodes, List.forall_mem_cons] at hnodes
    cases hblock with
    | whenTrue hthen =>
      have hshown := nesting_blocks_le h thenBlocks hnodes.2 hthen
      rw [Block.nesting, Block.nesting]
      omega
  | .conditional _ thenBlocks (some elseBlocks) _, _, hnodes, hblock => by
    rw [Block.nodes, List.forall_mem_cons, List.forall_mem_append] at hnodes
    cases hblock with
    | branches hthen helse =>
      have hshownThen := nesting_blocks_le h thenBlocks hnodes.2.1 hthen
      have hshownElse := nesting_blocks_le h elseBlocks hnodes.2.2 helse
      rw [Block.nesting, Block.nesting]
      omega
  | .loop _ body _, _, hnodes, hblock => by
    rw [Block.nodes, List.forall_mem_cons] at hnodes
    cases hblock with
    | loop hbody =>
      have hshown := nesting_blocks_le h body hnodes.2 hbody
      rw [Block.nesting, Block.nesting]
      omega
  | .paragraph _ children _, _, hnodes, hblock => by
    rw [Block.nodes, List.forall_mem_cons] at hnodes
    cases hblock with
    | paragraph hchildren =>
      rw [Block.nesting, Block.nesting]
      exact nesting_blocks_le h children hnodes.2 hchildren
  | .table ⟨_, _, rows⟩, _, hnodes, hblock => by
    rw [Block.nodes, List.forall_mem_cons] at hnodes
    cases hblock with
    | table hrows =>
      rw [Block.nesting, Block.nesting]
      exact nesting_rows_le h rows hnodes.2 hrows
  | .text _ _, _, _, hblock => by cases hblock; exact Nat.le_add_right _ _
  | .placeholder _ _ _, _, _, hblock => by cases hblock; exact Nat.le_add_right _ _
  | .image _ _ _, _, _, hblock => by cases hblock; exact Nat.le_add_right _ _
  | .inherits _ _, _, _, hblock => by cases hblock; exact Nat.le_add_right _ _
  | .static _, _, _, hblock => by cases hblock; exact Nat.le_add_right _ _

/-- Replacing the names takes a tree deeper by no more than what they are replaced by. -/
theorem nesting_blocks_le (h : ShownWithin defs names extra) :
    ∀ (blocks : List Block) {shown : List Block},
    (∀ b ∈ nodesOf blocks, b.IsReplaceable defs names) → Resolves defs blocks shown →
    nestingOf shown ≤ nestingOf blocks + extra
  | [], _, _, hblocks => by cases hblocks; exact Nat.le_add_right _ _
  | block :: blocks, _, hnodes, hblocks => by
    cases hblocks with
    | cons hblock hrest =>
      rw [nodesOf, List.forall_mem_append] at hnodes
      have hshown := nesting_block_le h block hnodes.1 hblock
      have hshownRest := nesting_blocks_le h blocks hnodes.2 hrest
      rw [nestingOf, nestingOf]
      omega

theorem nesting_rows_le (h : ShownWithin defs names extra) :
    ∀ (rows : List (RowBlock Block)) {shown : List (RowBlock Block)},
    (∀ b ∈ rowNodes rows, b.IsReplaceable defs names) → RowsResolve defs rows shown →
    rowNesting shown ≤ rowNesting rows + extra
  | [], _, _, hrows => by cases hrows; exact Nat.le_add_right _ _
  | .static ⟨_, cells⟩ :: rows, _, hnodes, hrows => by
    cases hrows with
    | once hcells hrest =>
      rw [rowNodes, List.forall_mem_append] at hnodes
      have hshown := nesting_cells_le h cells hnodes.1 hcells
      have hshownRest := nesting_rows_le h rows hnodes.2 hrest
      rw [rowNesting, rowNesting]
      omega
  | .loop _ ⟨_, cells⟩ _ :: rows, _, hnodes, hrows => by
    cases hrows with
    | loop hcells hrest =>
      rw [rowNodes, List.forall_mem_append] at hnodes
      have hshown := nesting_cells_le h cells hnodes.1 hcells
      have hshownRest := nesting_rows_le h rows hnodes.2 hrest
      rw [rowNesting, rowNesting]
      omega

theorem nesting_cells_le (h : ShownWithin defs names extra) :
    ∀ (cells : List (Cell Block)) {shown : List (Cell Block)},
    (∀ b ∈ cellNodes cells, b.IsReplaceable defs names) → CellsResolve defs cells shown →
    cellNesting shown ≤ cellNesting cells + extra
  | [], _, _, hcells => by cases hcells; exact Nat.le_add_right _ _
  | ⟨_, body⟩ :: cells, _, hnodes, hcells => by
    cases hcells with
    | cons hbody hrest =>
      rw [cellNodes, List.forall_mem_append] at hnodes
      have hshown := nesting_blocks_le h body hnodes.1 hbody
      have hshownRest := nesting_cells_le h cells hnodes.2 hrest
      rw [cellNesting, cellNesting]
      omega

end

end Resolves

/-! ## Chains -/

section Chain

variable {descendants : List Template} {step : Nat}

/-- A body is at most `step` deep, and there are at most `k` names that it can take deeper. -/
theorem shownWithin_rest (hfresh : ∀ t ∈ descendants, Fresh t.blocks)
    (hstep : ∀ definition ∈ allDefinitions descendants, nestingOf definition.2 ≤ step) (k : Nat) :
    ∀ rest, rest <:+ allDefinitions descendants →
    (overridden (overridesOf descendants) (rest.map Prod.fst)).length ≤ k →
    ShownWithin (definition? descendants) (rest.map Prod.fst) (k * step) := by
  -- `rest` is what may still be replaced, as in `replaces_replacement`
  induction k with
  | zero =>
    intro rest hsuffix hk id hid override shown hdef hshown
    obtain ⟨pre, post, hrest, hpost⟩ := exists_eq_append_of_definition? hsuffix hid hdef
    have hlt := length_overridden_rest_lt hrest hpost (Option.ne_none_iff_exists'.2 ⟨_, hdef⟩)
    omega
  | succ k ih =>
    intro rest hsuffix hk id hid override shown hdef hshown
    obtain ⟨pre, post, hrest, hpost⟩ := exists_eq_append_of_definition? hsuffix hid hdef
    have hlt := length_overridden_rest_lt hrest hpost (Option.ne_none_iff_exists'.2 ⟨_, hdef⟩)
    have hbehind : (id, override.body) :: post <:+ allDefinitions descendants :=
      .trans ⟨pre, hrest.symm⟩ hsuffix
    have hwithin := ih post (.trans (List.suffix_cons _ _) hbehind) (by omega)
    have hbody := hstep (id, override.body) (hbehind.subset List.mem_cons_self)
    have hnodes := isReplaceable_of_suffix hfresh hbehind
    calc nestingOf shown ≤ nestingOf override.body + k * step :=
          nesting_blocks_le hwithin override.body hnodes hshown
      _ ≤ step + k * step := Nat.add_le_add_right hbody _
      _ = (k + 1) * step := by rw [Nat.add_mul, Nat.one_mul, Nat.add_comm]

theorem length_overridden_le (overrides : NameMap Override) (names : List String) :
    (overridden overrides names).length ≤ overrides.size := by
  refine Nat.le_trans (List.length_filter_le _ _) ?_
  rw [NameMap.keys, Fields.keys, List.length_map]
  exact Nat.le_refl _

/-- What a chain shows is deeper than its last template by at most `step` for each name that the
other templates define, where no definition is deeper than `step`. -/
theorem nesting_resolveChain_le {root : Template}
    (hfresh : ∀ t ∈ descendants ++ [root], Fresh t.blocks)
    (hstep : ∀ definition ∈ allDefinitions descendants, nestingOf definition.2 ≤ step) :
    nestingOf (resolveChain (descendants ++ [root])) ≤
      nestingOf root.blocks + (overridesOf descendants).size * step := by
  by_cases hne : descendants = []
  · subst hne
    exact Nat.le_add_right _ _
  · have hresolves := resolves_resolveChain hne hfresh
    rw [List.forall_mem_append, List.forall_mem_singleton] at hfresh
    have hwithin := shownWithin_rest hfresh.1 hstep _ _ (List.suffix_refl _)
      (length_overridden_le _ _)
    refine nesting_blocks_le hwithin root.blocks ?_ hresolves
    exact isReplaceable_of_listed hfresh.2 fun id _ hdef => definition?_ne_none_iff.1 hdef

end Chain

/-! ## Engines -/

/-- The parser holds the limit of the settings. -/
theorem Template.nesting_le_of_ofDocument {settings : TemplateSettings} {name : String}
    {d : Document} {t : Template} (h : ofDocument settings name d = .ok t) :
    nestingOf t.blocks ≤ settings.maxNestingDepth.toNat := by
  rw [nesting_of_ofDocument h]
  exact (fits_of_ofDocument h).1.deep

/-- No template is nested deeper than `limit`. -/
def Registry.NestedWithin (limit : Nat) (registry : Registry) : Prop :=
  ∀ field ∈ registry.entries, nestingOf field.2.blocks ≤ limit

namespace Engine

/-- Nothing that is done to an engine changes the limit on nesting. -/
theorem Step.maxNestingDepth_eq {engine engine' : Engine} (hstep : Step engine engine') :
    engine'.settings.maxNestingDepth = engine.settings.maxNestingDepth := by
  cases hstep with
  | load hload =>
    obtain ⟨document, -, -, rfl⟩ := loadFrom_ok_iff.1 hload
    rfl
  | remove name => rfl
  | clear => rfl
  | setStrict strict => rfl
  | setLoader loader => rfl
  | setFiles files => rfl

theorem Step.nestedWithin {engine engine' : Engine} (hstep : Step engine engine')
    (h : engine.templates.NestedWithin engine.settings.maxNestingDepth.toNat) :
    engine'.templates.NestedWithin engine.settings.maxNestingDepth.toNat := by
  intro field hfield
  cases hstep with
  | load hload =>
    obtain ⟨document, -, hdocument, rfl⟩ := loadFrom_ok_iff.1 hload
    rcases Fields.mem_insert hfield with rfl | hold
    · exact Template.nesting_le_of_ofDocument hdocument
    · exact h field hold
  | remove name => exact h field (List.mem_filter.1 hfield).1
  | clear => cases hfield
  | setStrict strict => exact h field hfield
  | setLoader loader => exact h field hfield
  | setFiles files => exact h field hfield

/-- All templates of an engine are nested within its limit. -/
theorem Reached.nestedWithin {engine : Engine} (hreached : engine.Reached) :
    engine.templates.NestedWithin engine.settings.maxNestingDepth.toNat := by
  induction hreached with
  | start settings files =>
    intro field hfield
    cases hfield
  | step hreached hstep ih =>
    rw [hstep.maxNestingDepth_eq]
    exact hstep.nestedWithin ih

/-- Whatever is done to an engine, each template of a chain is nested within the limit by itself,
and what the chain shows is at most so much deeper as bodies of all names that are defined below its
last template can take it. -/
theorem Reached.nesting_shown_le {engine : Engine} (hreached : engine.Reached) {name : String}
    {t : Template} (ht : engine.template? name = some t) {ts : List Template}
    (hchain : chain engine.templates t = .ok ts) :
    (∀ member ∈ ts, nestingOf member.blocks ≤ engine.settings.maxNestingDepth.toNat) ∧
      nestingOf (resolveChain ts) ≤ engine.settings.maxNestingDepth.toNat +
        (overridesOf ts.dropLast).size * (engine.settings.maxNestingDepth.toNat - 1) := by
  have hwithin : ∀ name t, engine.templates.find? name = some t →
      nestingOf t.blocks ≤ engine.settings.maxNestingDepth.toNat :=
    fun name t hfind => hreached.nestedWithin (name, t) (Fields.mem_of_find? hfind)
  have hmembers := forall_mem_chain hwithin (hwithin name t ht) hchain
  have hparsed := hreached.sound.isParsed_of_chain (hreached.sound.of_find? ht) hchain
  refine ⟨hmembers, ?_⟩
  obtain ⟨descendants, root, rfl⟩ := exists_chain_eq_concat hchain
  rw [List.forall_mem_append, List.forall_mem_singleton] at hmembers
  have hstep : ∀ definition ∈ allDefinitions descendants,
      nestingOf definition.2 ≤ engine.settings.maxNestingDepth.toNat - 1 := by
    intro definition hdefinition
    obtain ⟨member, hmember, hdefinition⟩ := List.mem_flatMap.1 hdefinition
    have hlt := nesting_definition_lt member.blocks definition hdefinition
    have hle := hmembers.1 member (List.mem_reverse.1 hmember)
    omega
  rw [List.dropLast_concat]
  refine Nat.le_trans (nesting_resolveChain_le (fun t ht => (hparsed t ht).fresh) hstep) ?_
  exact Nat.add_le_add_right hmembers.2 _

/-- Orders, with a place for what is listed of each. -/
def ordersText : String := "\n".intercalate
  ["\x7b\x7b#each orders\x7d\x7d", "\x7b\x7b#block details\x7d\x7d", "\x7b\x7b/block\x7d\x7d",
    "\x7b\x7b/each\x7d\x7d"]

/-- Orders of which the lines are listed. -/
def orderLinesText : String := "\n".intercalate
  ["\x7b\x7bextends orders\x7d\x7d", "\x7b\x7b#block details\x7d\x7d", "\x7b\x7b#each lines\x7d\x7d",
    "\x7b\x7bthis\x7d\x7d", "\x7b\x7b/each\x7d\x7d", "\x7b\x7b/block\x7d\x7d"]

theorem exists_orderLines : ∃ (engine : Engine) (t : Template) (ts : List Template), engine.Reached ∧
    engine.settings.maxNestingDepth = 2 ∧ engine.template? "lines" = some t ∧
    chain engine.templates t = .ok ts ∧ (overridesOf ts.dropLast).size = 1 ∧
    nestingOf (resolveChain ts) = 3 := by
  let loads : List (String × Source) :=
    [("orders", .text ordersText), ("lines", .text orderLinesText)]
  have hrun : ((ofSettings { maxNestingDepth := 2 } default).loadAll loads).toOption.bind
      (fun loaded => (loaded.2.template? "lines").bind fun t =>
        (chain loaded.2.templates t).toOption.map fun ts =>
          ((overridesOf ts.dropLast).size, nestingOf (resolveChain ts))) = some (1, 3) := by
    decide +kernel
  obtain ⟨⟨loaded, engine⟩, hloaded, hrun⟩ := Option.bind_eq_some_iff.1 hrun
  obtain ⟨t, ht, hrun⟩ := Option.bind_eq_some_iff.1 hrun
  obtain ⟨ts, hts, hnesting⟩ := Option.map_eq_some_iff.1 hrun
  obtain ⟨hsize, hnesting⟩ := Prod.mk.inj hnesting
  have hload := toOption_eq_some_iff.1 hloaded
  have hsettings := (unchanged_of_loadAll hload).1
  exact ⟨engine, t, ts, (Reached.start _ _).loadAll hload, by rw [hsettings]; rfl, ht,
    toOption_eq_some_iff.1 hts, hsize, hnesting⟩

/-- Each of the two templates is nested twice, and together they are nested once more. -/
theorem orderLines_deeper_than_limit : ∃ (engine : Engine) (t : Template) (ts : List Template),
    engine.Reached ∧ engine.template? "lines" = some t ∧ chain engine.templates t = .ok ts ∧
      engine.settings.maxNestingDepth.toNat = 2 ∧ nestingOf (resolveChain ts) = 3 := by
  obtain ⟨engine, t, ts, hreached, hlimit, ht, hts, -, hnesting⟩ := exists_orderLines
  exact ⟨engine, t, ts, hreached, ht, hts, by rw [hlimit]; rfl, hnesting⟩

/-- One name is replaced, and the bound is reached. -/
theorem orderLines_nesting_le : ∃ (engine : Engine) (t : Template) (ts : List Template),
    engine.Reached ∧ engine.template? "lines" = some t ∧ chain engine.templates t = .ok ts ∧
      nestingOf (resolveChain ts) = 2 + 1 * (2 - 1) ∧
      nestingOf (resolveChain ts) ≤ engine.settings.maxNestingDepth.toNat +
        (overridesOf ts.dropLast).size * (engine.settings.maxNestingDepth.toNat - 1) := by
  obtain ⟨engine, t, ts, hreached, -, ht, hts, -, hnesting⟩ := exists_orderLines
  exact ⟨engine, t, ts, hreached, ht, hts, hnesting, (hreached.nesting_shown_le ht hts).2⟩

end Engine

end StyledTemplate
