import StyledTemplate.Proofs.Inheritance.ResolveChain

/-!
# Inheritance leaves paragraphs without directives alone

A paragraph without directives has nothing but runs that are shown as they are. Replacing named
blocks does not change it, so no paragraph of this kind ever gets an element into it.
-/

namespace StyledTemplate

/-- Has every paragraph without directives nothing but runs? -/
def Steady (blocks : List Block) : Prop := ∀ b ∈ nodesOf blocks, b.IsSteady

section Steady

variable {defs : String → Option Override}

theorem Resolves.eq_of_static {children shown : List Block}
    (hstatic : ∀ child ∈ children, ∃ run, child = .static run)
    (h : Resolves defs children shown) : shown = children := by
  induction children generalizing shown with
  | nil =>
    cases h
    rfl
  | cons child children ih =>
    obtain ⟨⟨run, rfl⟩, hrest⟩ := List.forall_mem_cons.1 hstatic
    cases h with
    | cons hblock hshown =>
      cases hblock
      rw [ih hrest hshown]

mutual

theorem BlockResolves.steady (hdefs : ∀ id override, defs id = some override →
    Steady override.body) : ∀ {block shown : Block}, BlockResolves defs block shown →
    (∀ b ∈ block.nodes, b.IsSteady) → ∀ b ∈ shown.nodes, b.IsSteady
  | _, _, .replaced hdef hbody, _ => by
    rw [Block.nodes, List.forall_mem_cons]
    exact ⟨trivial, hbody.steady hdefs (hdefs _ _ hdef)⟩
  | _, _, .kept _ hbody, h => by
    rw [Block.nodes, List.forall_mem_cons] at h ⊢
    exact ⟨trivial, hbody.steady hdefs h.2⟩
  | _, _, .whenTrue hthen, h => by
    rw [Block.nodes, List.forall_mem_cons] at h ⊢
    exact ⟨trivial, hthen.steady hdefs h.2⟩
  | _, _, .branches hthen helse, h => by
    rw [Block.nodes, List.forall_mem_cons, List.forall_mem_append] at h ⊢
    exact ⟨trivial, hthen.steady hdefs h.2.1, helse.steady hdefs h.2.2⟩
  | _, _, .loop hbody, h => by
    rw [Block.nodes, List.forall_mem_cons] at h ⊢
    exact ⟨trivial, hbody.steady hdefs h.2⟩
  | _, _, @BlockResolves.paragraph _ _ _ _ hasDirectives hchildren, h => by
    rw [Block.nodes, List.forall_mem_cons] at h ⊢
    refine ⟨?_, hchildren.steady hdefs h.2⟩
    cases hasDirectives with
    | true => trivial
    | false =>
      have hstatic : ∀ child ∈ _, ∃ run, child = Block.static run := h.1
      rw [hchildren.eq_of_static hstatic]
      exact hstatic
  | _, _, .table hrows, h => by
    rw [Block.nodes, List.forall_mem_cons] at h ⊢
    exact ⟨trivial, hrows.steady hdefs h.2⟩
  | _, _, .text _ _, h => h
  | _, _, .placeholder _ _ _, h => h
  | _, _, .image _ _ _, h => h
  | _, _, .inherits _ _, h => h
  | _, _, .static _, h => h

/-- What is shown for steady blocks is steady. -/
theorem Resolves.steady (hdefs : ∀ id override, defs id = some override →
    Steady override.body) : ∀ {blocks shown : List Block}, Resolves defs blocks shown →
    Steady blocks → Steady shown
  | _, _, .nil, h => h
  | _, _, .cons hblock hrest, h => by
    rw [Steady, nodesOf_cons, List.forall_mem_append] at h ⊢
    exact ⟨hblock.steady hdefs h.1, hrest.steady hdefs h.2⟩

theorem RowsResolve.steady (hdefs : ∀ id override, defs id = some override →
    Steady override.body) : ∀ {rows shown : List (RowBlock Block)}, RowsResolve defs rows shown →
    (∀ b ∈ rowNodes rows, b.IsSteady) → ∀ b ∈ rowNodes shown, b.IsSteady
  | _, _, .nil, h => h
  | _, _, .once hcells hrest, h => by
    rw [rowNodes, List.forall_mem_append] at h ⊢
    exact ⟨hcells.steady hdefs h.1, hrest.steady hdefs h.2⟩
  | _, _, .loop hcells hrest, h => by
    rw [rowNodes, List.forall_mem_append] at h ⊢
    exact ⟨hcells.steady hdefs h.1, hrest.steady hdefs h.2⟩

theorem CellsResolve.steady (hdefs : ∀ id override, defs id = some override →
    Steady override.body) : ∀ {cells shown : List (Cell Block)}, CellsResolve defs cells shown →
    (∀ b ∈ cellNodes cells, b.IsSteady) → ∀ b ∈ cellNodes shown, b.IsSteady
  | _, _, .nil, h => h
  | _, _, .cons hbody hrest, h => by
    rw [cellNodes, List.forall_mem_append] at h ⊢
    exact ⟨hbody.steady hdefs h.1, hrest.steady hdefs h.2⟩

end

end Steady

theorem Fresh.steady {blocks : List Block} (h : Fresh blocks) : Steady blocks :=
  fun b hb => (h b hb).1

/-- The definitions that count in fresh templates are steady. -/
theorem steady_of_definition? {descendants : List Template}
    (hfresh : ∀ t ∈ descendants, Fresh t.blocks) (id : String) (override : Override)
    (h : definition? descendants id = some override) : Steady override.body := by
  have hlast := lastValue?_allDefinitions descendants id
  rw [h] at hlast
  obtain ⟨pre, post, hall, -⟩ := lastValue?_eq_some_iff.1 hlast
  have hmem : (id, override.body) ∈ allDefinitions descendants := by
    rw [hall]
    exact List.mem_append_right _ List.mem_cons_self
  exact (fresh_of_mem_allDefinitions hfresh hmem).steady

/-- What a chain of parsed templates shows is steady. -/
theorem steady_resolveChain {chain : List Template} (hparsed : ∀ t ∈ chain, t.IsParsed) :
    Steady (resolveChain chain) := by
  have hfresh : ∀ t ∈ chain, Fresh t.blocks := fun t ht => (hparsed t ht).fresh
  rcases List.eq_nil_or_concat chain with rfl | ⟨descendants, root, rfl⟩
  · exact fresh_nil.steady
  · rw [List.concat_eq_append] at hfresh ⊢
    have hsplit := hfresh
    rw [List.forall_mem_append, List.forall_mem_singleton] at hsplit
    by_cases hne : descendants = []
    · subst hne
      exact hsplit.2.steady
    · exact (resolves_resolveChain hne hfresh).steady (steady_of_definition? hsplit.1)
        hsplit.2.steady

end StyledTemplate
