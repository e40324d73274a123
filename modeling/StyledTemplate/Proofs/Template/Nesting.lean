import StyledTemplate.Proofs.Block.Nesting
import StyledTemplate.Proofs.Template.Parsing

/-!
# How deep templates are nested

Conditions, loops, named blocks and repeated rows are nested in the tree of blocks of a template
just as deep as the directives of its document open them: `nestingOf t.blocks` is `itemsDeepest` of
the outline, the number that the parser holds against its limit (`Template.nesting_of_ofDocument`).
-/

namespace StyledTemplate

/-! ## Declarations of the parent -/

theorem Directive.depthAfter_of_isInherits {d : Directive} (h : d.isInherits = true) (depth : Nat) :
    d.depthAfter depth = depth := by
  obtain ⟨parent, rfl⟩ := exists_parent h
  rfl

/-- Leaving declarations out makes no difference to the depth. -/
theorem deepest_keptMarks (begun : Bool) (depth : Nat) (ms : List Mark) :
    deepest depth ((keptMarks begun ms).map Mark.directive) =
      deepest depth (ms.map Mark.directive) := by
  induction ms generalizing begun depth with
  | nil => rfl
  | cons m ms ih =>
    rw [keptMarks]
    split
    · next h =>
      rw [Bool.and_eq_true] at h
      rw [ih, List.map_cons, deepest, Directive.depthAfter_of_isInherits h.2]
      exact (Nat.max_eq_right (le_deepest _ _)).symm
    · rw [List.map_cons, List.map_cons, deepest, deepest, ih]

/-! ## Outlines -/

theorem climbs_map_mark (ordinal depth : Nat) (ds : List Placed) :
    Climbs (ds.map (Placed.mark ordinal)) depth (depthAfterAll depth (directivesOf ds))
      (deepest depth (directivesOf ds)) := by
  have hdirectives : (ds.map (Placed.mark ordinal)).map Mark.directive = directivesOf ds := by
    rw [List.map_map]
    rfl
  exact ⟨by rw [hdirectives], by rw [hdirectives]⟩

mutual

/-- The marks of a body with well-nested paragraphs and cells go as deep as its outline says. -/
theorem climbs_itemsMarks : ∀ items : List Item,
    (∀ ds, .inline ds ∈ items → WellNested (directivesOf ds)) →
    (∀ body ∈ itemsCellBodies items, BodyNested body) → ∀ n depth,
      Climbs (itemsMarks n items) depth (depthAfterAll depth (aloneDirectives items))
        (itemsDeepest depth items)
  | [], _, _, n, depth => by
    rw [itemsMarks, itemsDeepest]
    exact .nil depth
  | .alone d :: items, hinline, hcells, n, depth => by
    rw [itemsCellBodies, Item.cellBodies, List.nil_append] at hcells
    have hrest := climbs_itemsMarks items (fun ds hds => hinline ds (List.mem_cons_of_mem _ hds))
      hcells (n + Item.count (.alone d)) (d.directive.depthAfter depth)
    have hall := (Climbs.single (d.mark n) depth).append hrest
    have htop : max (max depth (d.directive.depthAfter depth))
        (itemsDeepest (d.directive.depthAfter depth) items) =
          max depth (itemsDeepest (d.directive.depthAfter depth) items) := by
      rw [Nat.max_assoc, Nat.max_eq_right hrest.le_top]
    rw [itemsMarks, Item.marks, itemsDeepest]
    exact htop ▸ hall
  | .inline ds :: items, hinline, hcells, n, depth => by
    rw [itemsCellBodies, Item.cellBodies, List.nil_append] at hcells
    have hrest := climbs_itemsMarks items (fun ds hds => hinline ds (List.mem_cons_of_mem _ hds))
      hcells (n + Item.count (.inline ds)) depth
    have hone := climbs_map_mark n depth ds
    rw [(hinline ds List.mem_cons_self).depthAfterAll] at hone
    rw [itemsMarks, Item.marks, itemsDeepest]
    exact hone.append hrest
  | .table rows :: items, hinline, hcells, n, depth => by
    rw [itemsCellBodies, Item.cellBodies, List.forall_mem_append] at hcells
    have hrest := climbs_itemsMarks items (fun ds hds => hinline ds (List.mem_cons_of_mem _ hds))
      hcells.2 (n + Item.count (.table rows)) depth
    have hone := climbs_rowsMarks rows hcells.1 n depth
    rw [itemsMarks, Item.marks, itemsDeepest]
    exact hone.append hrest

theorem climbs_rowsMarks : ∀ rows : List (Option String × List (List Item)),
    (∀ body ∈ rowsCellBodies rows, BodyNested body) → ∀ n depth,
      Climbs (rowsMarks n rows) depth depth (rowsDeepest depth rows)
  | [], _, n, depth => by
    rw [rowsMarks, rowsDeepest]
    exact .nil depth
  | (none, cells) :: rows, hcells, n, depth => by
    rw [rowsCellBodies, List.forall_mem_append] at hcells
    rw [rowsMarks, rowsDeepest]
    exact (climbs_cellsMarks cells hcells.1 n depth).append (climbs_rowsMarks rows hcells.2 _ depth)
  | (some list, cells) :: rows, hcells, n, depth => by
    rw [rowsCellBodies, List.forall_mem_append] at hcells
    have hrow := Climbs.region (rowOpen n list) rowClose (fun _ => rfl) (fun _ => rfl)
      (climbs_cellsMarks cells hcells.1 n (depth + 1))
    have hall := hrow.append (climbs_rowsMarks rows hcells.2 (n + cellsCount cells) depth)
    rw [List.append_assoc] at hall
    rw [rowsMarks, rowsDeepest]
    exact hall

theorem climbs_cellsMarks : ∀ cells : List (List Item),
    (∀ body ∈ cellsCellBodies cells, BodyNested body) → ∀ n depth,
      Climbs (cellsMarks n cells) depth depth (cellsDeepest depth cells)
  | [], _, n, depth => by
    rw [cellsMarks, cellsDeepest]
    exact .nil depth
  | body :: cells, hcells, n, depth => by
    rw [cellsCellBodies, List.forall_mem_append, List.forall_mem_cons] at hcells
    obtain ⟨⟨hbody, hwithin⟩, hcells⟩ := hcells
    have hone := climbs_itemsMarks body hbody.inline hwithin n depth
    rw [hbody.alone.depthAfterAll] at hone
    rw [cellsMarks, cellsDeepest]
    exact hone.append (climbs_cellsMarks cells hcells _ depth)

end

/-! ## Templates -/

/-- The blocks of a template are nested as deep as the outline of its document is. -/
theorem Template.nesting_of_ofDocument {settings : TemplateSettings} {name : String} {d : Document}
    {t : Template} (h : ofDocument settings name d = .ok t) :
    nestingOf t.blocks = itemsDeepest 0 (outline settings.strict d.body) := by
  obtain ⟨hfits, -, hmarks⟩ := fits_of_ofDocument h
  have hlines := (outlineMarks settings.strict d.body hfits.splits).1 0
  have hclimbs := climbs_itemsMarks _ hfits.inline hfits.bodies 0 0
  rw [← deepest_marksOf, hmarks, ← keptMarks_map_mark, deepest_keptMarks, ← hclimbs.top, hlines]
  rfl

end StyledTemplate
