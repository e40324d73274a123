import StyledTemplate.Proofs.Inheritance.ResolveChain
import StyledTemplate.Proofs.Render.Failures
import StyledTemplate.Proofs.Template.Places

/-!
# Which template a directive of a chain comes from

A named block whose body has been replaced keeps the name of the template that the body was taken
from. Read by these names, each directive that a chain shows stands, at its place, in the template
that it is attributed to (`owned_of_mem_sites_resolveChain`), however the templates are nested in
each other.
-/

namespace StyledTemplate

/-! ## Marks of a part of a tree -/

mutual

theorem Block.marks_subset_of_mem_nodes {node : Block} : ∀ block : Block, node ∈ block.nodes →
    node.marks ⊆ block.marks
  | .named id body position origin, h => by
    rw [Block.nodes, List.mem_cons] at h
    rcases h with rfl | h
    · exact List.Subset.refl _
    · have hbody := marks_subset_of_mem_nodesOf body h
      intro m hm
      simp [Block.marks, hbody hm]
  | .conditional condition thenBlocks none position, h => by
    rw [Block.nodes, List.mem_cons] at h
    rcases h with rfl | h
    · exact List.Subset.refl _
    · have hthen := marks_subset_of_mem_nodesOf thenBlocks h
      intro m hm
      simp [Block.marks, hthen hm]
  | .conditional condition thenBlocks (some elseBlocks) position, h => by
    rw [Block.nodes, List.mem_cons, List.mem_append] at h
    rcases h with rfl | h | h
    · exact List.Subset.refl _
    · have hthen := marks_subset_of_mem_nodesOf thenBlocks h
      intro m hm
      simp [Block.marks, hthen hm]
    · have helse := marks_subset_of_mem_nodesOf elseBlocks h
      intro m hm
      simp [Block.marks, helse hm]
  | .loop list body position, h => by
    rw [Block.nodes, List.mem_cons] at h
    rcases h with rfl | h
    · exact List.Subset.refl _
    · have hbody := marks_subset_of_mem_nodesOf body h
      intro m hm
      simp [Block.marks, hbody hm]
  | .paragraph properties children hasDirectives, h => by
    rw [Block.nodes, List.mem_cons] at h
    rcases h with rfl | h
    · exact List.Subset.refl _
    · rw [Block.marks]
      exact marks_subset_of_mem_nodesOf children h
  | .table ⟨properties, grid, rows⟩, h => by
    rw [Block.nodes, List.mem_cons] at h
    rcases h with rfl | h
    · exact List.Subset.refl _
    · rw [Block.marks]
      exact marks_subset_of_mem_rowNodes rows h
  | .text _ _, h => by
    rw [Block.nodes, List.mem_singleton] at h
    rw [h]
    exact List.Subset.refl _
  | .placeholder _ _ _, h => by
    rw [Block.nodes, List.mem_singleton] at h
    rw [h]
    exact List.Subset.refl _
  | .image _ _ _, h => by
    rw [Block.nodes, List.mem_singleton] at h
    rw [h]
    exact List.Subset.refl _
  | .inherits _ _, h => by
    rw [Block.nodes, List.mem_singleton] at h
    rw [h]
    exact List.Subset.refl _
  | .static _, h => by
    rw [Block.nodes, List.mem_singleton] at h
    rw [h]
    exact List.Subset.refl _

/-- The marks of a block are marks of each tree that it is a node of. -/
theorem marks_subset_of_mem_nodesOf {node : Block} : ∀ blocks : List Block, node ∈ nodesOf blocks →
    node.marks ⊆ marksOf blocks
  | [], h => by simp at h
  | block :: blocks, h => by
    rw [nodesOf, List.mem_append] at h
    rw [marksOf]
    rcases h with h | h
    · exact List.subset_append_of_subset_left _ (Block.marks_subset_of_mem_nodes block h)
    · exact List.subset_append_of_subset_right _ (marks_subset_of_mem_nodesOf blocks h)

theorem marks_subset_of_mem_rowNodes {node : Block} : ∀ rows : List (RowBlock Block),
    node ∈ rowNodes rows → node.marks ⊆ rowMarks rows
  | [], h => by simp [rowNodes] at h
  | .static ⟨properties, cells⟩ :: rows, h => by
    rw [rowNodes, List.mem_append] at h
    rw [rowMarks]
    rcases h with h | h
    · exact List.subset_append_of_subset_left _ (marks_subset_of_mem_cellNodes cells h)
    · exact List.subset_append_of_subset_right _ (marks_subset_of_mem_rowNodes rows h)
  | .loop list ⟨properties, cells⟩ position :: rows, h => by
    rw [rowNodes, List.mem_append] at h
    rcases h with h | h
    · have hcells := marks_subset_of_mem_cellNodes cells h
      intro m hm
      simp [rowMarks, hcells hm]
    · have hrows := marks_subset_of_mem_rowNodes rows h
      intro m hm
      simp [rowMarks, hrows hm]

theorem marks_subset_of_mem_cellNodes {node : Block} : ∀ cells : List (Cell Block),
    node ∈ cellNodes cells → node.marks ⊆ cellMarks cells
  | [], h => by simp [cellNodes] at h
  | ⟨properties, body⟩ :: cells, h => by
    rw [cellNodes, List.mem_append] at h
    rw [cellMarks]
    rcases h with h | h
    · exact List.subset_append_of_subset_left _ (marks_subset_of_mem_nodesOf body h)
    · exact List.subset_append_of_subset_right _ (marks_subset_of_mem_cellNodes cells h)

end

/-- What stands in a definition stands in the tree that has the definition. -/
theorem marksOf_subset_of_mem_definitions {blocks body : List Block} {id : String}
    (h : (id, body) ∈ definitions blocks) : marksOf body ⊆ marksOf blocks := by
  rw [definitions_eq_filterMap, List.mem_filterMap] at h
  obtain ⟨node, hnode, hdef⟩ := h
  have hmarks := marks_subset_of_mem_nodesOf blocks hnode
  have hbody : marksOf body ⊆ node.marks := by
    cases node <;> simp only [Block.definition?, reduceCtorEq] at hdef
    obtain ⟨rfl, rfl⟩ := Prod.mk.inj (Option.some.inj hdef)
    intro m hm
    simp [Block.marks, hm]
  exact List.Subset.trans hbody hmarks

/-! ## Sites of a resolved tree -/

/-- The directive of the site is one of the marks, with its place. -/
def Site.Among (site : Site) (marks : List Mark) : Prop :=
  ∃ m ∈ marks, m.directive = site.directive ∧ m.position = some site.position

theorem Site.Among.mono {site : Site} {marks marks' : List Mark} (h : site.Among marks)
    (hsub : marks ⊆ marks') : site.Among marks' := by
  obtain ⟨m, hm, hsame⟩ := h
  exact ⟨m, hsub hm, hsame⟩

/-- The site stands in the template that it is attributed to: in `template`, whose marks are given,
or in the template that one of the definitions is taken from. -/
def Site.Owned (defs : String → Option Override) (template : String) (marks : List Mark)
    (site : Site) : Prop :=
  (site.template = template ∧ site.Among marks) ∨
    ∃ id override, defs id = some override ∧ site.template = override.owner ∧
      site.Among (marksOf override.body)

section Owned

variable {defs : String → Option Override} {template : String}

theorem Site.Owned.mono {site : Site} {marks marks' : List Mark}
    (h : site.Owned defs template marks) (hsub : marks ⊆ marks') :
    site.Owned defs template marks' := by
  rcases h with ⟨htemplate, hamong⟩ | htaken
  · exact .inl ⟨htemplate, hamong.mono hsub⟩
  · exact .inr htaken

/-- What stands in a definition is taken from it. -/
theorem Site.Owned.of_definition {site : Site} {id : String} {override : Override}
    {marks : List Mark} (hdef : defs id = some override)
    (h : site.Owned defs override.owner (marksOf override.body)) :
    site.Owned defs template marks := by
  rcases h with ⟨howner, hamong⟩ | htaken
  · exact .inr ⟨id, override, hdef, howner, hamong⟩
  · exact .inr htaken

theorem Site.owned_of_mark {marks : List Mark} {m : Mark} (hm : m ∈ marks) {position : Position}
    (hposition : m.position = some position) :
    Site.Owned defs template marks ⟨template, m.directive, position⟩ :=
  .inl ⟨rfl, m, hm, rfl, hposition⟩

mutual

theorem BlockResolves.owned {template : String} : ∀ {block shown : Block},
    BlockResolves defs block shown →
    ∀ site ∈ shown.sites template, site.Owned defs template block.marks
  | _, _, .replaced hdef hbody => by
    intro site hsite
    rw [Block.sites] at hsite
    exact (hbody.owned site hsite).of_definition hdef
  | .named id body position _, _, .kept hdef hbody => by
    intro site hsite
    rw [Block.sites] at hsite
    refine (hbody.owned site hsite).mono fun m hm => ?_
    simp [Block.marks, hm]
  | _, _, .whenTrue hthen => by
    intro site hsite
    rw [Block.sites] at hsite
    refine (hthen.owned site hsite).mono fun m hm => ?_
    simp [Block.marks, hm]
  | _, _, .branches hthen helse => by
    intro site hsite
    rw [Block.sites, List.mem_append] at hsite
    rcases hsite with hsite | hsite
    · refine (hthen.owned site hsite).mono fun m hm => ?_
      simp [Block.marks, hm]
    · refine (helse.owned site hsite).mono fun m hm => ?_
      simp [Block.marks, hm]
  | .loop list body position, _, .loop hbody => by
    intro site hsite
    rw [Block.sites, List.mem_cons] at hsite
    rcases hsite with rfl | hsite
    · exact Site.owned_of_mark (m := { directive := .eachOpen list, position })
        (by simp [Block.marks]) rfl
    · refine (hbody.owned site hsite).mono fun m hm => ?_
      simp [Block.marks, hm]
  | _, _, .paragraph hchildren => by
    intro site hsite
    rw [Block.sites] at hsite
    rw [Block.marks]
    exact hchildren.owned site hsite
  | _, _, .table hrows => by
    intro site hsite
    rw [Block.sites] at hsite
    rw [Block.marks]
    exact hrows.owned site hsite
  | _, _, .text _ _ => by simp [Block.sites]
  | _, _, .placeholder path _ position => by
    intro site hsite
    rw [Block.sites, List.mem_singleton] at hsite
    subst hsite
    exact Site.owned_of_mark (m := { directive := .placeholder path, position })
      (by simp [Block.marks]) rfl
  | _, _, .image name _ position => by
    intro site hsite
    rw [Block.sites, List.mem_singleton] at hsite
    subst hsite
    exact Site.owned_of_mark (m := { directive := .image name, position })
      (by simp [Block.marks]) rfl
  | _, _, .inherits _ _ => by simp [Block.sites]
  | _, _, .static _ => by simp [Block.sites]

/-- What is shown for some blocks stands in the templates that it is attributed to. -/
theorem Resolves.owned {template : String} : ∀ {blocks shown : List Block},
    Resolves defs blocks shown →
    ∀ site ∈ sitesOf template shown, site.Owned defs template (marksOf blocks)
  | _, _, .nil => by simp [sitesOf]
  | _, _, .cons hblock hrest => by
    intro site hsite
    rw [sitesOf, List.mem_append] at hsite
    rw [marksOf]
    rcases hsite with hsite | hsite
    · exact (hblock.owned site hsite).mono (List.subset_append_left _ _)
    · exact (hrest.owned site hsite).mono (List.subset_append_right _ _)

theorem RowsResolve.owned {template : String} : ∀ {rows shown : List (RowBlock Block)},
    RowsResolve defs rows shown →
    ∀ site ∈ rowSites template shown, site.Owned defs template (rowMarks rows)
  | _, _, .nil => by simp [rowSites]
  | _, _, .once hcells hrest => by
    intro site hsite
    rw [rowSites, List.mem_append] at hsite
    rw [rowMarks]
    rcases hsite with hsite | hsite
    · exact (hcells.owned site hsite).mono (List.subset_append_left _ _)
    · exact (hrest.owned site hsite).mono (List.subset_append_right _ _)
  | .loop list _ position :: _, _, .loop hcells hrest => by
    intro site hsite
    rw [rowSites, List.mem_cons, List.mem_append] at hsite
    rcases hsite with rfl | hsite | hsite
    · exact Site.owned_of_mark (m := { directive := .eachOpen list, position, ofRow := true })
        (by simp [rowMarks]) rfl
    · refine (hcells.owned site hsite).mono fun m hm => ?_
      simp [rowMarks, hm]
    · refine (hrest.owned site hsite).mono fun m hm => ?_
      simp [rowMarks, hm]

theorem CellsResolve.owned {template : String} : ∀ {cells shown : List (Cell Block)},
    CellsResolve defs cells shown →
    ∀ site ∈ cellSites template shown, site.Owned defs template (cellMarks cells)
  | _, _, .nil => by simp [cellSites]
  | _, _, .cons hbody hrest => by
    intro site hsite
    rw [cellSites, List.mem_append] at hsite
    rw [cellMarks]
    rcases hsite with hsite | hsite
    · exact (hbody.owned site hsite).mono (List.subset_append_left _ _)
    · exact (hrest.owned site hsite).mono (List.subset_append_right _ _)

end

end Owned

/-! ## Trees without definitions -/

mutual

theorem BlockResolves.self : ∀ block : Block, (∀ b ∈ block.nodes, b.IsOriginal) →
    BlockResolves (fun _ => none) block block
  | .named id body position origin, h => by
    rw [Block.nodes, List.forall_mem_cons] at h
    obtain ⟨horigin, hbody⟩ := h
    obtain rfl : origin = none := horigin
    exact .kept rfl (Resolves.self body hbody)
  | .conditional _ thenBlocks none _, h => by
    rw [Block.nodes, List.forall_mem_cons] at h
    exact .whenTrue (Resolves.self thenBlocks h.2)
  | .conditional _ thenBlocks (some elseBlocks) _, h => by
    rw [Block.nodes, List.forall_mem_cons, List.forall_mem_append] at h
    exact .branches (Resolves.self thenBlocks h.2.1)
      (Resolves.self elseBlocks h.2.2)
  | .loop _ body _, h => by
    rw [Block.nodes, List.forall_mem_cons] at h
    exact .loop (Resolves.self body h.2)
  | .paragraph _ children _, h => by
    rw [Block.nodes, List.forall_mem_cons] at h
    exact .paragraph (Resolves.self children h.2)
  | .table ⟨_, _, rows⟩, h => by
    rw [Block.nodes, List.forall_mem_cons] at h
    exact .table (RowsResolve.self rows h.2)
  | .text _ _, _ => .text _ _
  | .placeholder _ _ _, _ => .placeholder _ _ _
  | .image _ _ _, _ => .image _ _ _
  | .inherits _ _, _ => .inherits _ _
  | .static _, _ => .static _

/-- Without definitions the blocks of a parsed template are shown as they are. -/
theorem Resolves.self : ∀ blocks : List Block, (∀ b ∈ nodesOf blocks, b.IsOriginal) →
    Resolves (fun _ => none) blocks blocks
  | [], _ => .nil
  | block :: blocks, h => by
    rw [nodesOf, List.forall_mem_append] at h
    exact .cons (BlockResolves.self block h.1) (Resolves.self blocks h.2)

theorem RowsResolve.self : ∀ rows : List (RowBlock Block),
    (∀ b ∈ rowNodes rows, b.IsOriginal) → RowsResolve (fun _ => none) rows rows
  | [], _ => .nil
  | .static ⟨_, cells⟩ :: rows, h => by
    rw [rowNodes, List.forall_mem_append] at h
    exact .once (CellsResolve.self cells h.1) (RowsResolve.self rows h.2)
  | .loop _ ⟨_, cells⟩ _ :: rows, h => by
    rw [rowNodes, List.forall_mem_append] at h
    exact .loop (CellsResolve.self cells h.1) (RowsResolve.self rows h.2)

theorem CellsResolve.self : ∀ cells : List (Cell Block),
    (∀ b ∈ cellNodes cells, b.IsOriginal) → CellsResolve (fun _ => none) cells cells
  | [], _ => .nil
  | ⟨_, body⟩ :: cells, h => by
    rw [cellNodes, List.forall_mem_append] at h
    exact .cons (Resolves.self body h.1) (CellsResolve.self cells h.2)

end

/-! ## What a chain shows -/

theorem exists_of_definition? {descendants : List Template} {id : String} {override : Override}
    (h : definition? descendants id = some override) :
    ∃ t ∈ descendants, override.owner = t.name ∧ (id, override.body) ∈ definitions t.blocks := by
  obtain ⟨t, ht, hlast⟩ := List.exists_of_findSome?_eq_some h
  obtain ⟨body, hbody, rfl⟩ := Option.map_eq_some_iff.1 hlast
  obtain ⟨pre, post, hsplit, -⟩ := lastValue?_eq_some_iff.1 hbody
  refine ⟨t, ht, rfl, ?_⟩
  rw [hsplit]
  exact List.mem_append_right _ List.mem_cons_self

theorem mem_places_of_among {t : Template} {site : Site} (h : site.Among (marksOf t.blocks)) :
    (site.directive, site.position) ∈ t.places := by
  obtain ⟨m, hm, hdirective, hposition⟩ := h
  refine List.mem_filterMap.2 ⟨m, hm, ?_⟩
  rw [hposition, Option.map_some, hdirective]

/-- What a chain of parsed templates shows resolves the blocks of the last one, be it the only one or
not. -/
theorem resolves_chain {descendants : List Template} {root : Template}
    (hparsed : ∀ t ∈ descendants ++ [root], t.IsParsed) :
    Resolves (definition? descendants) root.blocks (resolveChain (descendants ++ [root])) := by
  have hfresh : ∀ t ∈ descendants ++ [root], Fresh t.blocks := fun t ht => (hparsed t ht).fresh
  by_cases hne : descendants = []
  · subst hne
    have hroot := hfresh root (by simp)
    exact Resolves.self root.blocks fun b hb => (hroot b hb).2
  · exact resolves_resolveChain hne hfresh

/-- Each directive that a chain shows has its place in the template of the chain that it is
attributed to. -/
theorem owned_of_mem_sites_resolveChain {descendants : List Template} {root : Template}
    (hparsed : ∀ t ∈ descendants ++ [root], t.IsParsed) {site : Site}
    (hsite : site ∈ sitesOf root.name (resolveChain (descendants ++ [root]))) :
    ∃ t ∈ descendants ++ [root], t.name = site.template ∧
      (site.directive, site.position) ∈ t.places := by
  have howned := (resolves_chain hparsed).owned site hsite
  rcases howned with ⟨htemplate, hamong⟩ | ⟨id, override, hdef, howner, hamong⟩
  · have hplaces := mem_places_of_among hamong
    exact ⟨root, by simp, htemplate.symm, hplaces⟩
  · obtain ⟨t, ht, hname, hbody⟩ := exists_of_definition? hdef
    have hmarks := hamong.mono (marksOf_subset_of_mem_definitions hbody)
    have hplaces := mem_places_of_among hmarks
    refine ⟨t, List.mem_append_left _ ht, ?_, hplaces⟩
    rw [howner, hname]

end StyledTemplate
