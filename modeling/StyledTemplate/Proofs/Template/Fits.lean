import StyledTemplate.Proofs.Template.Outline

/-!
# Which bodies the parser takes

What a body has to satisfy for the parser to get through it, apart from the directives that its own
paragraphs stand for: those are read by the builder around it. Each condition on a body, on rows and
on cells is one on their parts.
-/

namespace StyledTemplate

/-! ## Texts that can be read -/

/-- The text of the paragraph can be split into tokens. -/
def Paragraph.Splits (strict : Bool) (p : Paragraph) : Prop :=
  ∃ tokens, tokenize strict (runsText p.runs) = .ok tokens

theorem Paragraph.Reads.splits {strict : Bool} {p : Paragraph} {ds : List Placed}
    (h : p.Reads strict ds) : p.Splits strict := by
  rw [Reads, ← placedOf_tokenize, Option.map_eq_some_iff] at h
  obtain ⟨tokens, htokens, -⟩ := h
  rw [Splits]
  cases hresult : tokenize strict (runsText p.runs) with
  | error e => simp [hresult, Except.toOption] at htokens
  | ok tokens => exact ⟨tokens, rfl⟩

theorem mem_of_outerParagraphs? {row : Row Element} {first last : Paragraph}
    (h : row.outerParagraphs? = some (first, last)) :
    first ∈ cellsParagraphs row.cells ∧ last ∈ cellsParagraphs row.cells := by
  have hshape := outerShape_of_outerParagraphs? h
  generalize row.cells = cells at hshape
  cases hshape with
  | single properties hlast => simp [hlast]
  | cell properties mid => simp
  | cells properties properties' rest front mid => simp

/-- The markers of a row can be looked for if its texts can be read. -/
theorem exists_rowMarkers? {strict : Bool} {row : Row Element}
    (h : ∀ p ∈ cellsParagraphs row.cells, p.Splits strict) :
    ∃ markers, rowMarkers? strict row = .ok markers := by
  unfold rowMarkers?
  split
  · exact ⟨none, rfl⟩
  · next first last houter =>
    obtain ⟨hfirst, hlast⟩ := mem_of_outerParagraphs? houter
    obtain ⟨firstTokens, hfirst⟩ := h first hfirst
    obtain ⟨lastTokens, hlast⟩ := h last hlast
    rw [hfirst, hlast]
    simp only [bind, Except.bind]
    split
    · split
      · split <;> exact ⟨_, rfl⟩
      · exact ⟨none, rfl⟩
    · exact ⟨none, rfl⟩

theorem splits_unlessDropped {strict : Bool} {p : Paragraph} (h : p.Splits strict) (drop : Bool) :
    ∀ q ∈ unlessDropped drop p, q.Splits strict := by
  intro q hq
  cases drop with
  | true => simp [unlessDropped] at hq
  | false =>
    obtain rfl : q = p := by simpa [unlessDropped] using hq
    exact h

/-- The texts of a repeated row can be read with its markers exactly if they can be without them. -/
theorem splits_withoutMarkers_iff {strict : Bool} {row : Row Element} {markers : RowMarkers}
    (h : rowMarkers? strict row = .ok (some markers)) :
    (∀ p ∈ cellsParagraphs (row.withoutMarkers markers).cells, p.Splits strict) ↔
      ∀ p ∈ cellsParagraphs row.cells, p.Splits strict := by
  rw [cellsParagraphs_eq, cellsParagraphs_eq, ← Row.elements, ← Row.elements]
  cases unmarked_of_rowMarkers? h with
  | together hsource hrest _ _ _ hreads hleaves =>
    rw [hsource, hrest]
    simp [hreads.splits, hleaves.splits]
  | apart hsource hrest hfirst hfirst' _ hlast hlast' _ =>
    have hleft := splits_unlessDropped hfirst'.splits (row.dropsOpener markers)
    have hright := splits_unlessDropped hlast'.splits (row.dropsCloser markers)
    rw [hsource, hrest]
    simp only [List.cons_append, bodyParagraphs_cons, bodyParagraphs_append, bodyParagraphs_nil,
      paragraphs_paragraph, bodyParagraphs_map_paragraph, List.forall_mem_append,
      List.forall_mem_cons, List.nil_append, List.append_nil]
    constructor
    · rintro ⟨⟨_, hmid⟩, _⟩
      exact ⟨hfirst.splits, hmid, hlast.splits, List.forall_mem_nil _⟩
    · rintro ⟨_, hmid, _⟩
      exact ⟨⟨hleft, hmid⟩, hright⟩

/-! ## Depth -/

theorem le_itemsDeepest (depth : Nat) (items : List Item) : depth ≤ itemsDeepest depth items := by
  induction items with
  | nil => simp [itemsDeepest]
  | cons item items ih =>
    cases item with
    | alone d =>
      rw [itemsDeepest]
      exact Nat.le_max_left _ _
    | inline ds =>
      rw [itemsDeepest]
      exact Nat.le_trans ih (Nat.le_max_right _ _)
    | table rows =>
      rw [itemsDeepest]
      exact Nat.le_trans ih (Nat.le_max_right _ _)

theorem le_cellsDeepest (depth : Nat) (cells : List (List Item)) :
    depth ≤ cellsDeepest depth cells := by
  cases cells with
  | nil => simp [cellsDeepest]
  | cons body cells =>
    rw [cellsDeepest]
    exact Nat.le_trans (le_itemsDeepest _ _) (Nat.le_max_left _ _)

/-- The first item of a body counts by itself, and those behind it at the depth that it leaves. -/
theorem itemsDeepest_cons_le_iff {depth limit : Nat} {item : Item} {items : List Item} :
    itemsDeepest depth (item :: items) ≤ limit ↔ itemsDeepest depth [item] ≤ limit ∧
      itemsDeepest (depthAfterAll depth (aloneDirectives [item])) items ≤ limit := by
  have hle := le_itemsDeepest (depthAfterAll depth (aloneDirectives [item])) items
  cases item <;>
    simp only [itemsDeepest, depthAfterAll, aloneDirectives, List.foldl_cons, List.foldl_nil,
      Nat.max_le] at hle ⊢ <;> omega

/-! ## Conditions -/

/-- The directives of a body are well nested: those in each of its paragraphs, and those that its
paragraphs stand for. -/
structure BodyNested (items : List Item) : Prop where
  /-- Those in a paragraph that does not stand for one. -/
  inline : ∀ ds, .inline ds ∈ items → WellNested (directivesOf ds)
  /-- Those that paragraphs stand for. -/
  alone : WellNested (aloneDirectives items)

/-- The parser gets through a body, where `depth` regions are open before it and at most `limit` may
be. -/
structure BodyFits (strict : Bool) (limit depth : Nat) (body : List Element) : Prop where
  /-- Its texts can be read. -/
  splits : ∀ p ∈ bodyParagraphs body, p.Splits strict
  /-- The directives in each paragraph are well nested. -/
  inline : ∀ ds, .inline ds ∈ outline strict body → WellNested (directivesOf ds)
  /-- The bodies of the cells in it are well nested. -/
  bodies : ∀ items ∈ itemsCellBodies (outline strict body), BodyNested items
  /-- Nowhere too many regions are open. -/
  deep : itemsDeepest depth (outline strict body) ≤ limit

/-- The parser gets through some rows. -/
structure RowsFit (strict : Bool) (limit depth : Nat) (rows : List (Row Element)) : Prop where
  /-- Their texts can be read. -/
  splits : ∀ p ∈ rowsParagraphs rows, p.Splits strict
  /-- The bodies of their cells are well nested. -/
  bodies : ∀ items ∈ rowsCellBodies (outlineRows strict rows), BodyNested items
  /-- Nowhere too many regions are open. -/
  deep : rowsDeepest depth (outlineRows strict rows) ≤ limit

/-- The parser gets through some cells. -/
structure CellsFit (strict : Bool) (limit depth : Nat) (cells : List (Cell Element)) : Prop where
  /-- Their texts can be read. -/
  splits : ∀ p ∈ cellsParagraphs cells, p.Splits strict
  /-- Their bodies are well nested. -/
  bodies : ∀ items ∈ cellsCellBodies (outlineCells strict cells), BodyNested items
  /-- Nowhere too many regions are open. -/
  deep : cellsDeepest depth (outlineCells strict cells) ≤ limit

section Parts

variable {strict : Bool} {limit depth : Nat}

theorem bodyFits_nil_iff : BodyFits strict limit depth [] ↔ depth ≤ limit := by
  constructor
  · intro h
    simpa [itemsDeepest] using h.deep
  · intro h
    exact ⟨by simp, by simp, by simp [itemsCellBodies], by simpa [itemsDeepest] using h⟩

theorem bodyFits_paragraph_iff {p : Paragraph} {rest : List Element} :
    BodyFits strict limit depth (.paragraph p :: rest) ↔
      (p.Splits strict ∧
        (∀ ds, p.item strict = .inline ds → WellNested (directivesOf ds)) ∧
        itemsDeepest depth [p.item strict] ≤ limit) ∧
      BodyFits strict limit (depthAfterAll depth (aloneDirectives [p.item strict])) rest := by
  have hcells : (p.item strict).cellBodies = [] := by
    rw [Paragraph.item]
    split <;> rw [Item.cellBodies]
  constructor
  · intro h
    have hsplits := h.splits
    have hinline := h.inline
    have hbodies := h.bodies
    have hdeep := h.deep
    rw [outline_paragraph] at hinline hbodies hdeep
    rw [bodyParagraphs_cons, paragraphs_paragraph, List.singleton_append, List.forall_mem_cons]
      at hsplits
    rw [itemsCellBodies, hcells, List.nil_append] at hbodies
    obtain ⟨hone, hrest⟩ := itemsDeepest_cons_le_iff.1 hdeep
    exact ⟨⟨hsplits.1, fun ds hds => hinline ds (by simp [hds]), hone⟩, hsplits.2,
      fun ds hds => hinline ds (List.mem_cons_of_mem _ hds), hbodies, hrest⟩
  · rintro ⟨⟨hsplits, hinline, hone⟩, hrest⟩
    refine ⟨?_, ?_, ?_, ?_⟩
    · rw [bodyParagraphs_cons, paragraphs_paragraph, List.singleton_append, List.forall_mem_cons]
      exact ⟨hsplits, hrest.splits⟩
    · rw [outline_paragraph]
      intro ds hds
      rcases List.mem_cons.1 hds with hds | hds
      · exact hinline ds hds.symm
      · exact hrest.inline ds hds
    · rw [outline_paragraph, itemsCellBodies, hcells, List.nil_append]
      exact hrest.bodies
    · rw [outline_paragraph]
      exact itemsDeepest_cons_le_iff.2 ⟨hone, hrest.deep⟩

theorem bodyFits_table_iff {t : Table (Row Element)} {rest : List Element} :
    BodyFits strict limit depth (.table t :: rest) ↔
      RowsFit strict limit depth t.rows ∧ BodyFits strict limit depth rest := by
  constructor
  · intro h
    have hsplits := h.splits
    have hinline := h.inline
    have hbodies := h.bodies
    have hdeep := h.deep
    rw [outline_table] at hinline hbodies hdeep
    rw [bodyParagraphs_cons, paragraphs_table, List.forall_mem_append] at hsplits
    rw [itemsCellBodies, Item.cellBodies, List.forall_mem_append] at hbodies
    rw [itemsDeepest, Nat.max_le] at hdeep
    exact ⟨⟨hsplits.1, hbodies.1, hdeep.1⟩, hsplits.2,
      fun ds hds => hinline ds (List.mem_cons_of_mem _ hds), hbodies.2, hdeep.2⟩
  · rintro ⟨hrows, hrest⟩
    refine ⟨?_, ?_, ?_, ?_⟩
    · rw [bodyParagraphs_cons, paragraphs_table, List.forall_mem_append]
      exact ⟨hrows.splits, hrest.splits⟩
    · rw [outline_table]
      intro ds hds
      rcases List.mem_cons.1 hds with hds | hds
      · cases hds
      · exact hrest.inline ds hds
    · rw [outline_table, itemsCellBodies, Item.cellBodies, List.forall_mem_append]
      exact ⟨hrows.bodies, hrest.bodies⟩
    · rw [outline_table, itemsDeepest, Nat.max_le]
      exact ⟨hrows.deep, hrest.deep⟩

theorem rowsFit_nil_iff : RowsFit strict limit depth [] ↔ depth ≤ limit := by
  constructor
  · intro h
    simpa [rowsDeepest] using h.deep
  · intro h
    exact ⟨by simp, by simp [rowsCellBodies], by simpa [rowsDeepest] using h⟩

theorem rowsFit_once_iff {row : Row Element} {rows : List (Row Element)}
    (h : rowMarkers? strict row = .ok none) :
    RowsFit strict limit depth (row :: rows) ↔
      CellsFit strict limit depth row.cells ∧ RowsFit strict limit depth rows := by
  constructor
  · intro hfit
    have hsplits := hfit.splits
    have hbodies := hfit.bodies
    have hdeep := hfit.deep
    rw [outlineRows_once h] at hbodies hdeep
    rw [rowsParagraphs_cons, List.forall_mem_append] at hsplits
    rw [rowsCellBodies, List.forall_mem_append] at hbodies
    rw [rowsDeepest, Nat.max_le] at hdeep
    exact ⟨⟨hsplits.1, hbodies.1, hdeep.1⟩, hsplits.2, hbodies.2, hdeep.2⟩
  · rintro ⟨hcells, hrows⟩
    refine ⟨?_, ?_, ?_⟩
    · rw [rowsParagraphs_cons, List.forall_mem_append]
      exact ⟨hcells.splits, hrows.splits⟩
    · rw [outlineRows_once h, rowsCellBodies, List.forall_mem_append]
      exact ⟨hcells.bodies, hrows.bodies⟩
    · rw [outlineRows_once h, rowsDeepest, Nat.max_le]
      exact ⟨hcells.deep, hrows.deep⟩

theorem rowsFit_repeated_iff {row : Row Element} {rows : List (Row Element)}
    {markers : RowMarkers} (h : rowMarkers? strict row = .ok (some markers)) :
    RowsFit strict limit depth (row :: rows) ↔
      CellsFit strict limit (depth + 1) (row.withoutMarkers markers).cells ∧
        RowsFit strict limit depth rows := by
  constructor
  · intro hfit
    have hsplits := hfit.splits
    have hbodies := hfit.bodies
    have hdeep := hfit.deep
    rw [outlineRows_repeated h] at hbodies hdeep
    rw [rowsParagraphs_cons, List.forall_mem_append, ← splits_withoutMarkers_iff h] at hsplits
    rw [rowsCellBodies, List.forall_mem_append] at hbodies
    rw [rowsDeepest, Nat.max_le] at hdeep
    exact ⟨⟨hsplits.1, hbodies.1, hdeep.1⟩, hsplits.2, hbodies.2, hdeep.2⟩
  · rintro ⟨hcells, hrows⟩
    refine ⟨?_, ?_, ?_⟩
    · rw [rowsParagraphs_cons, List.forall_mem_append, ← splits_withoutMarkers_iff h]
      exact ⟨hcells.splits, hrows.splits⟩
    · rw [outlineRows_repeated h, rowsCellBodies, List.forall_mem_append]
      exact ⟨hcells.bodies, hrows.bodies⟩
    · rw [outlineRows_repeated h, rowsDeepest, Nat.max_le]
      exact ⟨hcells.deep, hrows.deep⟩

theorem cellsFit_nil_iff : CellsFit strict limit depth [] ↔ depth ≤ limit := by
  constructor
  · intro h
    simpa [cellsDeepest] using h.deep
  · intro h
    exact ⟨by simp, by simp [cellsCellBodies], by simpa [cellsDeepest] using h⟩

theorem cellsFit_cons_iff {cell : Cell Element} {cells : List (Cell Element)} :
    CellsFit strict limit depth (cell :: cells) ↔
      (BodyFits strict limit depth cell.body ∧
        WellNested (aloneDirectives (outline strict cell.body))) ∧
      CellsFit strict limit depth cells := by
  constructor
  · intro h
    have hsplits := h.splits
    have hbodies := h.bodies
    have hdeep := h.deep
    rw [outlineCells_cons] at hbodies hdeep
    rw [cellsParagraphs_cons, List.forall_mem_append] at hsplits
    rw [cellsCellBodies, List.forall_mem_append, List.forall_mem_cons] at hbodies
    rw [cellsDeepest, Nat.max_le] at hdeep
    obtain ⟨⟨hbody, hwithin⟩, hrest⟩ := hbodies
    exact ⟨⟨⟨hsplits.1, hbody.inline, hwithin, hdeep.1⟩, hbody.alone⟩, hsplits.2, hrest, hdeep.2⟩
  · rintro ⟨⟨hbody, halone⟩, hcells⟩
    refine ⟨?_, ?_, ?_⟩
    · rw [cellsParagraphs_cons, List.forall_mem_append]
      exact ⟨hbody.splits, hcells.splits⟩
    · rw [outlineCells_cons, cellsCellBodies, List.forall_mem_append, List.forall_mem_cons]
      exact ⟨⟨⟨hbody.inline, halone⟩, hbody.bodies⟩, hcells.bodies⟩
    · rw [outlineCells_cons, cellsDeepest, Nat.max_le]
      exact ⟨hbody.deep, hcells.deep⟩

end Parts

end StyledTemplate
