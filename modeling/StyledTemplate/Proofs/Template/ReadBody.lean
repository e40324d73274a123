import StyledTemplate.Proofs.Template.ReadParagraph

/-!
# Feeding bodies and tables to the parser

The parser gets through a body exactly if the body fits and the directives of its own paragraphs fit
the open regions. What it has added then are the marks of the body, less the declarations of a
parent that come too late. Both directions are shown by induction along the recursion of the parser,
for bodies, rows and cells together.
-/

namespace StyledTemplate

/-! ## The steps of the parser -/

section Steps

variable (settings : TemplateSettings)

theorem feedBody_nil (b : Builder) (s : Progress) : feedBody settings b [] s = .ok (b, s) := by
  rw [feedBody]
  rfl

theorem feedBody_paragraph (b : Builder) (p : Paragraph) (rest : List Element) :
    feedBody settings b (.paragraph p :: rest) =
      feedParagraph settings b p >>= fun b => feedBody settings b rest := by
  rw [feedBody]

theorem feedBody_table (b : Builder) (t : Table (Row Element)) (rest : List Element) :
    feedBody settings b (.table t :: rest) =
      parseRows settings b.depth t.rows >>= fun rows =>
        feedBody settings (b.push (.table ⟨t.properties, t.grid, rows⟩)) rest := by
  rw [feedBody]

theorem parseRows_nil (depth : Nat) (s : Progress) :
    parseRows settings depth [] s = .ok ([], s) := by
  rw [parseRows]
  rfl

/-- The markers of a row are read first. -/
theorem exists_of_parseRows_cons {depth : Nat} {row : Row Element} {rows : List (Row Element)}
    {s : Progress} {result : List (RowBlock Block) × Progress}
    (h : parseRows settings depth (row :: rows) s = .ok result) :
    ∃ markers, rowMarkers? settings.strict row = .ok markers := by
  rw [parseRows] at h
  rw [stateT_get_bind] at h
  obtain ⟨markers, hmarkers, -⟩ := exists_of_lift_bind_eq_ok h
  exact ⟨markers, mapError_eq_ok_iff.1 hmarkers⟩

theorem parseRows_once {row : Row Element} (h : rowMarkers? settings.strict row = .ok none)
    (depth : Nat) (rows : List (Row Element)) (s : Progress) :
    parseRows settings depth (row :: rows) s =
      (parseCells settings depth row.cells >>= fun cells =>
        parseRows settings depth rows >>= fun rest =>
          pure (.static ⟨row.properties, cells⟩ :: rest)) s := by
  have hmarkers : markersOf settings.strict s.paragraph row = .ok none := mapError_eq_ok_iff.2 h
  rw [parseRows, stateT_get_bind]
  exact (lift_bind_eq_ok hmarkers).trans rfl

theorem parseRows_repeated {row : Row Element} {markers : RowMarkers}
    (h : rowMarkers? settings.strict row = .ok (some markers)) (depth : Nat)
    (rows : List (Row Element)) (s : Progress) :
    parseRows settings depth (row :: rows) s =
      (liftM (checkDepth depth settings.maxNestingDepth.toNat { paragraph := s.paragraph }) >>=
        fun _ => parseCells settings (depth + 1) (row.withoutMarkers markers).cells >>= fun cells =>
        parseRows settings depth rows >>= fun rest =>
          pure (.loop markers.list ⟨row.properties, cells⟩ { paragraph := s.paragraph } :: rest))
        s := by
  have hmarkers : markersOf settings.strict s.paragraph row = .ok (some markers) :=
    mapError_eq_ok_iff.2 h
  rw [parseRows, stateT_get_bind]
  exact (lift_bind_eq_ok hmarkers).trans rfl

/-- An error in the markers of a row is one of the paragraph that the row begins with. -/
theorem parseRows_error {row : Row Element} {e : ParseError}
    (h : rowMarkers? settings.strict row = .error e) (depth : Nat) (rows : List (Row Element))
    (s : Progress) :
    parseRows settings depth (row :: rows) s = .error (e.atParagraph s.paragraph) := by
  have hmarkers : markersOf settings.strict s.paragraph row =
      .error (e.atParagraph s.paragraph) := by
    rw [markersOf, h]
    rfl
  rw [parseRows, stateT_get_bind]
  exact lift_bind_eq_error hmarkers

theorem parseCells_nil (depth : Nat) (s : Progress) :
    parseCells settings depth [] s = .ok ([], s) := by
  rw [parseCells]
  rfl

theorem parseCells_cons (depth : Nat) (cell : Cell Element) (cells : List (Cell Element)) :
    parseCells settings depth (cell :: cells) =
      feedBody settings { baseDepth := depth, limit := settings.maxNestingDepth.toNat }
          cell.body >>= fun b =>
        liftM b.finish >>= fun body =>
        parseCells settings depth cells >>= fun rest =>
          pure (⟨cell.properties, body⟩ :: rest) := by
  rw [parseCells]

end Steps

/-! ## What has been read -/

/-- If the parser gets through a body, then the body fits, and the parser has added its marks. -/
def FeedBodyReads (settings : TemplateSettings) (b : Builder) (body : List Element) : Prop :=
  b.limit = settings.maxNestingDepth.toNat → b.depth ≤ settings.maxNestingDepth.toNat →
    ∀ s b' s', feedBody settings b body s = .ok (b', s') →
      BodyFits settings.strict settings.maxNestingDepth.toNat b.depth body ∧
      Advances b s (aloneDirectives (outline settings.strict body))
        (itemsMarks s.paragraph (outline settings.strict body))
        (itemsCount (outline settings.strict body)) b' s'

/-- If the parser gets through some rows, then they fit, and the parser has added their marks. -/
def ParseRowsReads (settings : TemplateSettings) (depth : Nat) (rows : List (Row Element)) : Prop :=
  depth ≤ settings.maxNestingDepth.toNat →
    ∀ s blocks s', parseRows settings depth rows s = .ok (blocks, s') →
      RowsFit settings.strict settings.maxNestingDepth.toNat depth rows ∧
      Adds s (rowsMarks s.paragraph (outlineRows settings.strict rows))
        (rowsCount (outlineRows settings.strict rows)) (rowMarks blocks) s'

/-- If the parser gets through some cells, then they fit, and the parser has added their marks. -/
def ParseCellsReads (settings : TemplateSettings) (depth : Nat) (cells : List (Cell Element)) :
    Prop :=
  depth ≤ settings.maxNestingDepth.toNat →
    ∀ s blocks s', parseCells settings depth cells s = .ok (blocks, s') →
      CellsFit settings.strict settings.maxNestingDepth.toNat depth cells ∧
      Adds s (cellsMarks s.paragraph (outlineCells settings.strict cells))
        (cellsCount (outlineCells settings.strict cells)) (cellMarks blocks) s'

theorem aloneDirectives_cons (item : Item) (items : List Item) :
    aloneDirectives (item :: items) = aloneDirectives [item] ++ aloneDirectives items := by
  cases item <;> rfl

section Reads

variable {settings : TemplateSettings}

theorem feedBodyReads_nil (b : Builder) : FeedBodyReads settings b [] := by
  intro hlimit hdepth s b' s' h
  rw [feedBody_nil] at h
  obtain ⟨rfl, rfl⟩ := Prod.mk.inj (Except.ok.inj h)
  refine ⟨bodyFits_nil_iff.2 hdepth, ?_⟩
  rw [outline_nil, itemsMarks, itemsCount]
  exact .refl b s

theorem feedBodyReads_paragraph {b : Builder} {p : Paragraph} {rest : List Element}
    (ih : ∀ b : Builder, FeedBodyReads settings b rest) :
    FeedBodyReads settings b (.paragraph p :: rest) := by
  intro hlimit hdepth s b' s' h
  rw [feedBody_paragraph] at h
  obtain ⟨b₁, s₁, hp, h⟩ := exists_of_stateT_bind_eq_ok h
  have hsplits := tokenize_of_feedParagraph hp
  obtain ⟨hone, hnested, hdeep⟩ := advances_of_feedParagraph (hlimit ▸ hdepth) hlimit hp
  obtain ⟨hlimit₁, hdepth₁, hcount⟩ := within_of_feedParagraph hlimit hdepth hp
  rw [hlimit] at hdeep
  obtain ⟨hfits, hrest⟩ := ih b₁ hlimit₁ hdepth₁ s₁ b' s' h
  rw [hone.depth] at hfits
  refine ⟨bodyFits_paragraph_iff.2 ⟨⟨hsplits, hnested, hdeep⟩, hfits⟩, ?_⟩
  have hboth := hone.trans hrest
  rw [hcount, itemsMarks, itemsMarks, List.append_nil] at hboth
  rw [outline_paragraph, aloneDirectives_cons, itemsMarks, itemsCount, Paragraph.count_item]
  exact hboth

theorem feedBodyReads_table {b : Builder} {t : Table (Row Element)} {rest : List Element}
    (ihRows : ParseRowsReads settings b.depth t.rows)
    (ih : ∀ rows : List (RowBlock Block),
      FeedBodyReads settings (b.push (.table ⟨t.properties, t.grid, rows⟩)) rest) :
    FeedBodyReads settings b (.table t :: rest) := by
  intro hlimit hdepth s b' s' h
  rw [feedBody_table] at h
  obtain ⟨rows, s₁, hrows, h⟩ := exists_of_stateT_bind_eq_ok h
  obtain ⟨hfitsRows, hadds⟩ := ihRows hdepth s rows s₁ hrows
  have hone : Advances b s [] (rowsMarks s.paragraph (outlineRows settings.strict t.rows))
      (rowsCount (outlineRows settings.strict t.rows))
      (b.push (.table ⟨t.properties, t.grid, rows⟩)) s₁ :=
    .push b (by rw [Block.marks]; exact hadds)
  obtain ⟨hfits, hrest⟩ := ih rows (hone.limit.trans hlimit) (hone.depth.symm ▸ hdepth) s₁ b' s' h
  rw [hone.depth] at hfits
  refine ⟨bodyFits_table_iff.2 ⟨hfitsRows, hfits⟩, ?_⟩
  have hboth := hone.trans hrest
  rw [hadds.paragraph] at hboth
  rw [outline_table, aloneDirectives, itemsMarks, itemsCount, Item.marks, Item.count]
  exact hboth

theorem parseRowsReads_nil (depth : Nat) : ParseRowsReads settings depth [] := by
  intro hdepth s blocks s' h
  rw [parseRows_nil] at h
  obtain ⟨rfl, rfl⟩ := Prod.mk.inj (Except.ok.inj h)
  refine ⟨rowsFit_nil_iff.2 hdepth, ?_⟩
  rw [outlineRows_nil, rowsMarks, rowsCount, rowMarks]
  exact .refl s

theorem parseRowsReads_cons {depth : Nat} {row : Row Element} {rows : List (Row Element)}
    (ihRows : ParseRowsReads settings depth rows)
    (ihRepeated : ∀ markers : RowMarkers,
      ParseCellsReads settings (depth + 1) (row.withoutMarkers markers).cells)
    (ihOnce : ParseCellsReads settings depth row.cells) :
    ParseRowsReads settings depth (row :: rows) := by
  intro hdepth s blocks s' h
  obtain ⟨markers, hmarkers⟩ := exists_of_parseRows_cons settings h
  cases markers with
  | none =>
    rw [parseRows_once settings hmarkers] at h
    obtain ⟨cells, s₁, hcells, h⟩ := exists_of_stateT_bind_eq_ok h
    obtain ⟨rest, s₂, hrest, h⟩ := exists_of_stateT_bind_eq_ok h
    obtain ⟨rfl, rfl⟩ := Prod.mk.inj (Except.ok.inj h)
    obtain ⟨hfitsCells, haddsCells⟩ := ihOnce hdepth s cells s₁ hcells
    obtain ⟨hfitsRows, haddsRows⟩ := ihRows hdepth s₁ rest s₂ hrest
    refine ⟨(rowsFit_once_iff hmarkers).2 ⟨hfitsCells, hfitsRows⟩, ?_⟩
    rw [haddsCells.paragraph] at haddsRows
    rw [outlineRows_once hmarkers, rowsMarks, rowsCount, rowMarks]
    exact haddsCells.trans haddsRows
  | some markers =>
    rw [parseRows_repeated settings hmarkers] at h
    obtain ⟨⟨⟩, hcheck, h⟩ := exists_of_lift_bind_eq_ok h
    obtain ⟨cells, s₁, hcells, h⟩ := exists_of_stateT_bind_eq_ok h
    obtain ⟨rest, s₂, hrest, h⟩ := exists_of_stateT_bind_eq_ok h
    obtain ⟨rfl, rfl⟩ := Prod.mk.inj (Except.ok.inj h)
    have hbelow := Builder.checkDepth_ok_iff.1 hcheck
    obtain ⟨hfitsCells, haddsCells⟩ := ihRepeated markers hbelow s cells s₁ hcells
    obtain ⟨hfitsRows, haddsRows⟩ := ihRows hdepth s₁ rest s₂ hrest
    refine ⟨(rowsFit_repeated_iff hmarkers).2 ⟨hfitsCells, hfitsRows⟩, ?_⟩
    rw [haddsCells.paragraph] at haddsRows
    rw [outlineRows_repeated hmarkers, rowsMarks, rowsCount, rowMarks]
    -- the two markers stand around the marks of the cells
    have hopen := Adds.marker
      (m := ⟨.eachOpen markers.list, some { paragraph := s.paragraph }, true⟩) rfl rfl s
    have hclose := Adds.marker (m := ⟨.eachClose, none, true⟩) rfl rfl s₁
    have hall := (hopen.trans haddsCells).trans (hclose.trans haddsRows)
    rw [Nat.zero_add, Nat.zero_add] at hall
    exact hall

theorem parseCellsReads_nil (depth : Nat) : ParseCellsReads settings depth [] := by
  intro hdepth s blocks s' h
  rw [parseCells_nil] at h
  obtain ⟨rfl, rfl⟩ := Prod.mk.inj (Except.ok.inj h)
  refine ⟨cellsFit_nil_iff.2 hdepth, ?_⟩
  rw [outlineCells_nil, cellsMarks, cellsCount, cellMarks]
  exact .refl s

theorem parseCellsReads_cons {depth : Nat} {cell : Cell Element} {cells : List (Cell Element)}
    (ihBody : FeedBodyReads settings
      { baseDepth := depth, limit := settings.maxNestingDepth.toNat } cell.body)
    (ihCells : ParseCellsReads settings depth cells) :
    ParseCellsReads settings depth (cell :: cells) := by
  intro hdepth s blocks s' h
  rw [parseCells_cons] at h
  obtain ⟨b, s₁, hbody, h⟩ := exists_of_stateT_bind_eq_ok h
  obtain ⟨body, hfinish, h⟩ := exists_of_lift_bind_eq_ok h
  obtain ⟨rest, s₂, hrest, h⟩ := exists_of_stateT_bind_eq_ok h
  obtain ⟨rfl, rfl⟩ := Prod.mk.inj (Except.ok.inj h)
  obtain ⟨hfits, hadvances⟩ := ihBody rfl hdepth s b s₁ hbody
  obtain ⟨hfitsCells, haddsCells⟩ := ihCells hdepth s₁ rest s₂ hrest
  obtain ⟨added, hadds, hmarks⟩ := hadvances.adds
  have hnest := hadvances.nest
  rw [(Builder.finish_ok_iff.1 hfinish).1] at hnest
  refine ⟨cellsFit_cons_iff.2 ⟨⟨hfits, nestAfterAll?_eq_nil_iff.1 hnest⟩, hfitsCells⟩, ?_⟩
  have hbodyMarks : marksOf body = added := (Builder.marks_of_finish hfinish).trans hmarks
  rw [hadds.paragraph] at haddsCells
  rw [outlineCells_cons, cellsMarks, cellsCount, cellMarks, hbodyMarks]
  exact hadds.trans haddsCells

/-- Whatever the parser gets through fits, and its marks have been added. -/
theorem parserReads (settings : TemplateSettings) :
    (∀ b body, FeedBodyReads settings b body) ∧ (∀ depth rows, ParseRowsReads settings depth rows) ∧
      ∀ depth cells, ParseCellsReads settings depth cells :=
  feedBody.mutual_induct settings (FeedBodyReads settings) (ParseRowsReads settings)
    (ParseCellsReads settings) feedBodyReads_nil (fun _ _ _ => feedBodyReads_paragraph)
    (fun _ _ _ => feedBodyReads_table) parseRowsReads_nil
    (fun _ _ _ ihRows ihRepeated ihOnce => parseRowsReads_cons ihRows ihRepeated ihOnce)
    parseCellsReads_nil (fun _ _ _ ihBody ihCells => parseCellsReads_cons ihBody ihCells)

theorem feedBodyReads (settings : TemplateSettings) (b : Builder) (body : List Element) :
    FeedBodyReads settings b body := (parserReads settings).1 b body

end Reads

/-! ## What can be read -/

/-- Out of strict mode the parser gets through a body that fits, if the directives of its own
paragraphs fit the open regions. -/
def FeedBodySucceeds (settings : TemplateSettings) (b : Builder) (body : List Element) : Prop :=
  b.limit = settings.maxNestingDepth.toNat →
    BodyFits settings.strict settings.maxNestingDepth.toNat b.depth body →
    (nestAfterAll? b.nest (aloneDirectives (outline settings.strict body))).isSome →
    ∀ s, ∃ b' s', feedBody settings b body s = .ok (b', s')

/-- Out of strict mode the parser gets through rows that fit. -/
def ParseRowsSucceeds (settings : TemplateSettings) (depth : Nat) (rows : List (Row Element)) :
    Prop :=
  RowsFit settings.strict settings.maxNestingDepth.toNat depth rows →
    ∀ s, ∃ blocks s', parseRows settings depth rows s = .ok (blocks, s')

/-- Out of strict mode the parser gets through cells that fit. -/
def ParseCellsSucceeds (settings : TemplateSettings) (depth : Nat) (cells : List (Cell Element)) :
    Prop :=
  CellsFit settings.strict settings.maxNestingDepth.toNat depth cells →
    ∀ s, ∃ blocks s', parseCells settings depth cells s = .ok (blocks, s')

section Succeeds

variable {settings : TemplateSettings}

theorem feedBodySucceeds_nil (b : Builder) : FeedBodySucceeds settings b [] :=
  fun _ _ _ s => ⟨b, s, feedBody_nil settings b s⟩

theorem feedBodySucceeds_paragraph (hstrict : settings.strict = false) {b : Builder}
    {p : Paragraph} {rest : List Element} (ih : ∀ b : Builder, FeedBodySucceeds settings b rest) :
    FeedBodySucceeds settings b (.paragraph p :: rest) := by
  intro hlimit hfits hnest s
  obtain ⟨⟨⟨tokens, htokens⟩, hnested, hdeep⟩, hfitsRest⟩ := bodyFits_paragraph_iff.1 hfits
  rw [outline_paragraph, aloneDirectives_cons, nestAfterAll?_append] at hnest
  obtain ⟨next, hnext⟩ := Option.isSome_iff_exists.1 hnest
  obtain ⟨nest, hp, hnext⟩ := Option.bind_eq_some_iff.1 hnext
  rw [← hlimit] at hdeep
  obtain ⟨b₁, s₁, hfeed⟩ := exists_feedParagraph hstrict hlimit htokens
    (Option.isSome_of_eq_some hp) hnested hdeep s
  have hdepth : b.depth ≤ b.limit := Nat.le_trans (le_itemsDeepest _ _) hdeep
  obtain ⟨hone, -⟩ := advances_of_feedParagraph hdepth hlimit hfeed
  have hnest₁ : nest = b₁.nest := Option.some.inj (hp.symm.trans hone.nest)
  rw [← hone.depth] at hfitsRest
  rw [hnest₁] at hnext
  obtain ⟨b', s', hrest⟩ := ih b₁ (hone.limit.trans hlimit) hfitsRest
    (Option.isSome_of_eq_some hnext) s₁
  exact ⟨b', s', by rw [feedBody_paragraph, stateT_bind_eq_ok hfeed, hrest]⟩

theorem feedBodySucceeds_table {b : Builder} {t : Table (Row Element)} {rest : List Element}
    (ihRows : ParseRowsSucceeds settings b.depth t.rows)
    (ih : ∀ rows : List (RowBlock Block),
      FeedBodySucceeds settings (b.push (.table ⟨t.properties, t.grid, rows⟩)) rest) :
    FeedBodySucceeds settings b (.table t :: rest) := by
  intro hlimit hfits hnest s
  obtain ⟨hfitsRows, hfitsRest⟩ := bodyFits_table_iff.1 hfits
  obtain ⟨rows, s₁, hrows⟩ := ihRows hfitsRows s
  obtain ⟨b', s', hrest⟩ := ih rows ((Builder.limit_push _ _).trans hlimit)
    ((Builder.depth_push _ _).symm ▸ hfitsRest)
    (by rw [Builder.nest_push]; rw [outline_table] at hnest; exact hnest) s₁
  exact ⟨b', s', by rw [feedBody_table, stateT_bind_eq_ok hrows, hrest]⟩

theorem parseRowsSucceeds_cons {depth : Nat} {row : Row Element} {rows : List (Row Element)}
    (ihRows : ParseRowsSucceeds settings depth rows)
    (ihRepeated : ∀ markers : RowMarkers,
      ParseCellsSucceeds settings (depth + 1) (row.withoutMarkers markers).cells)
    (ihOnce : ParseCellsSucceeds settings depth row.cells) :
    ParseRowsSucceeds settings depth (row :: rows) := by
  intro hfits s
  have hsplits := hfits.splits
  rw [rowsParagraphs_cons, List.forall_mem_append] at hsplits
  obtain ⟨_ | markers, hmarkers⟩ := exists_rowMarkers? hsplits.1
  · obtain ⟨hfitsCells, hfitsRows⟩ := (rowsFit_once_iff hmarkers).1 hfits
    obtain ⟨cells, s₁, hcells⟩ := ihOnce hfitsCells s
    obtain ⟨rest, s₂, hrest⟩ := ihRows hfitsRows s₁
    refine ⟨.static ⟨row.properties, cells⟩ :: rest, s₂, ?_⟩
    rw [parseRows_once settings hmarkers, stateT_bind_eq_ok hcells, stateT_bind_eq_ok hrest]
    rfl
  · obtain ⟨hfitsCells, hfitsRows⟩ := (rowsFit_repeated_iff hmarkers).1 hfits
    obtain ⟨cells, s₁, hcells⟩ := ihRepeated markers hfitsCells s
    obtain ⟨rest, s₂, hrest⟩ := ihRows hfitsRows s₁
    have hcheck : checkDepth depth settings.maxNestingDepth.toNat { paragraph := s.paragraph } =
        .ok () := Builder.checkDepth_ok_iff.2 (Nat.le_trans (le_cellsDeepest _ _) hfitsCells.deep)
    refine ⟨.loop markers.list ⟨row.properties, cells⟩ { paragraph := s.paragraph } :: rest, s₂, ?_⟩
    rw [parseRows_repeated settings hmarkers, lift_bind_eq_ok hcheck, stateT_bind_eq_ok hcells,
      stateT_bind_eq_ok hrest]
    rfl

theorem parseCellsSucceeds_cons {depth : Nat} {cell : Cell Element} {cells : List (Cell Element)}
    (ihBody : FeedBodySucceeds settings
      { baseDepth := depth, limit := settings.maxNestingDepth.toNat } cell.body)
    (ihCells : ParseCellsSucceeds settings depth cells) :
    ParseCellsSucceeds settings depth (cell :: cells) := by
  intro hfits s
  obtain ⟨⟨hfitsBody, hnested⟩, hfitsCells⟩ := cellsFit_cons_iff.1 hfits
  obtain ⟨b, s₁, hbody⟩ := ihBody rfl hfitsBody
    (Option.isSome_of_eq_some (hnested.nestAfterAll? _)) s
  have hdepth : Builder.depth { baseDepth := depth, limit := settings.maxNestingDepth.toNat } ≤
      settings.maxNestingDepth.toNat := Nat.le_trans (le_itemsDeepest _ _) hfitsBody.deep
  have hnest := (feedBodyReads settings _ cell.body rfl hdepth s b s₁ hbody).2.nest
  rw [hnested.nestAfterAll?] at hnest
  have hfinish := Builder.finish_ok_iff.2 ⟨(Option.some.inj hnest).symm, rfl⟩
  obtain ⟨rest, s₂, hrest⟩ := ihCells hfitsCells s₁
  refine ⟨⟨cell.properties, b.root⟩ :: rest, s₂, ?_⟩
  rw [parseCells_cons, stateT_bind_eq_ok hbody, lift_bind_eq_ok hfinish, stateT_bind_eq_ok hrest]
  rfl

/-- Out of strict mode the parser gets through whatever fits. -/
theorem feedBodySucceeds (hstrict : settings.strict = false) (b : Builder) (body : List Element) :
    FeedBodySucceeds settings b body :=
  (feedBody.mutual_induct settings (FeedBodySucceeds settings) (ParseRowsSucceeds settings)
    (ParseCellsSucceeds settings) feedBodySucceeds_nil
    (fun _ _ _ => feedBodySucceeds_paragraph hstrict) (fun _ _ _ => feedBodySucceeds_table)
    (fun depth _ s => ⟨[], s, parseRows_nil settings depth s⟩)
    (fun _ _ _ ihRows ihRepeated ihOnce => parseRowsSucceeds_cons ihRows ihRepeated ihOnce)
    (fun depth _ s => ⟨[], s, parseCells_nil settings depth s⟩)
    (fun _ _ _ ihBody ihCells => parseCellsSucceeds_cons ihBody ihCells)).1 b body

end Succeeds

end StyledTemplate
