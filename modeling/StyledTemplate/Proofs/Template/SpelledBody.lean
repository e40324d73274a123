import StyledTemplate.Proofs.Document.SpelledRows
import StyledTemplate.Proofs.Template.Parsing
import StyledTemplate.Proofs.Template.SpelledText

/-!
# Parsing documents that are spelled out

The parser goes through a document and through the document spelled out in step: it fails with the
same errors, and the tree of blocks it builds of the one is spelled out to what it builds of the
other (`Template.ofDocument_spell`).
-/

namespace StyledTemplate

/-- The second builder has built what the first one's blocks are spelled out to. -/
structure Builder.Spelled (b b' : Builder) : Prop where
  /-- The second builder is the first one, spelled out. -/
  eq : b' = b.spell
  /-- All that the first one has built is backed. -/
  backed : b.IsBacked

/-- The first block, which shows more than empty text, is spelled out to the second one. -/
structure Block.Spelled (block block' : Block) : Prop where
  /-- The block is spelled out to the other one. -/
  eq : block.spell = [block']
  /-- All blocks within it are backed. -/
  nodes : ∀ node ∈ block.nodes, node.IsBacked
  /-- It shows more than empty text. -/
  shows : block.isEmptyText = false

theorem Builder.spelled_empty (baseDepth limit : Nat) :
    Builder.Spelled { baseDepth, limit } { baseDepth, limit } where
  eq := by
    rw [spell, spellBlocks_nil]
    rfl
  backed := isBacked_empty baseDepth limit

theorem Builder.Spelled.push {b b' : Builder} (hb : b.Spelled b') {block block' : Block}
    (h : block.Spelled block') : (b.push block).Spelled (b'.push block') where
  eq := by rw [hb.eq, spell_push_of_spell h.eq]
  backed := hb.backed.push h.nodes (by simp [h.shows])

/-! ## Directives -/

section Directives

variable {b b' : Builder}

theorem matches_openRegion (hb : b.Spelled b') (opening : Opening)
    (hspell : opening.spell = opening) (hopening : opening.IsBacked) (opener : String)
    (position : Position) :
    Matches Builder.Spelled (b.openRegion opening opener position)
      (b'.openRegion opening opener position) := by
  obtain rfl := hb.eq
  have heq := Builder.openRegion_spell b opening opener position
  rw [hspell] at heq
  exact .of_map heq fun _ hresult => ⟨rfl, hb.backed.openRegion hopening hresult⟩

theorem matches_otherwise (hb : b.Spelled b') (position : Position) :
    Matches Builder.Spelled (b.otherwise position) (b'.otherwise position) := by
  obtain rfl := hb.eq
  exact .of_map (Builder.otherwise_spell b position) fun _ hresult =>
    ⟨rfl, hb.backed.otherwise hresult⟩

theorem matches_close (hb : b.Spelled b') (region : Region) (position : Position) :
    Matches Builder.Spelled (b.close region position) (b'.close region position) := by
  obtain rfl := hb.eq
  exact .of_map (Builder.close_spell b region position) fun _ hresult =>
    ⟨rfl, hb.backed.close hresult⟩

theorem matches_finish (hb : b.Spelled b') :
    Matches (fun blocks blocks' => blocks' = spellBlocks blocks ∧ BackedTree blocks) b.finish
      b'.finish := by
  obtain rfl := hb.eq
  exact .of_map (Builder.finish_spell b) fun _ hresult => ⟨rfl, hb.backed.finish hresult⟩

theorem matches_noted {x y : Except ParseError Builder} (h : Matches Builder.Spelled x y) :
    MatchesT Builder.Spelled (noteDirective >>= fun _ => (liftM x : Parser Builder))
      (noteDirective >>= fun _ => liftM y) :=
  (MatchesT.refl noteDirective).bind fun _ _ _ => .lift h

/-- A block that stands for a single directive is spelled out to itself. -/
theorem Block.spelled_placeholder (path : String) (style : RunProperties) (position : Position) :
    (Block.placeholder path style position).Spelled (.placeholder path style position) where
  eq := by rw [Block.spell]
  nodes := by
    rw [Block.nodes, List.forall_mem_singleton]
    trivial
  shows := rfl

theorem Block.spelled_image (name : String) (style : RunProperties) (position : Position) :
    (Block.image name style position).Spelled (.image name style position) where
  eq := by rw [Block.spell]
  nodes := by
    rw [Block.nodes, List.forall_mem_singleton]
    trivial
  shows := rfl

theorem Block.spelled_inherits (parent : String) (position : Position) :
    (Block.inherits parent position).Spelled (.inherits parent position) where
  eq := by rw [Block.spell]
  nodes := by
    rw [Block.nodes, List.forall_mem_singleton]
    trivial
  shows := rfl

theorem matches_declareParent (hb : b.Spelled b') (strict : Bool) (parent : String)
    (position : Position) :
    MatchesT Builder.Spelled (declareParent strict parent position b)
      (declareParent strict parent position b') := by
  intro s
  unfold declareParent
  rw [stateT_get_bind, stateT_get_bind]
  split
  · exact .ok ⟨hb.push (Block.spelled_inherits parent position), rfl⟩
  · split
    · exact .error _
    · exact .ok ⟨hb, rfl⟩

/-- A directive does the same to a builder and to the builder spelled out. -/
theorem matches_applyDirective (hb : b.Spelled b') (strict : Bool) (opener : String)
    (style : RunProperties) (position : Position) (d : Directive) :
    MatchesT Builder.Spelled (applyDirective strict opener style position b d)
      (applyDirective strict opener style position b' d) := by
  have hnil : spellBlocks [] = [] := spellBlocks_nil
  cases d with
  | inherits parent => exact matches_declareParent hb strict parent position
  | placeholder path =>
    refine (MatchesT.refl noteDirective).bind fun _ _ _ => ?_
    refine (MatchesT.refl (notePlaceholder path)).bind fun _ _ _ => ?_
    exact .pure (hb.push (Block.spelled_placeholder path style position))
  | image name =>
    refine (MatchesT.refl noteDirective).bind fun _ _ _ => ?_
    exact .pure (hb.push (Block.spelled_image name style position))
  | ifOpen condition =>
    have hspell : Opening.spell (.condition condition [] none) = .condition condition [] none := by
      rw [Opening.spell, hnil]
    exact matches_noted (matches_openRegion hb _ hspell backedTree_nil opener position)
  | otherwise => exact matches_noted (matches_otherwise hb position)
  | ifClose => exact matches_noted (matches_close hb .condition position)
  | eachOpen list =>
    have hspell : Opening.spell (.loop list []) = .loop list [] := by rw [Opening.spell, hnil]
    exact matches_noted (matches_openRegion hb _ hspell backedTree_nil opener position)
  | eachClose => exact matches_noted (matches_close hb .loop position)
  | blockOpen id =>
    have hspell : Opening.spell (.named id []) = .named id [] := by rw [Opening.spell, hnil]
    exact matches_noted (matches_openRegion hb _ hspell backedTree_nil opener position)
  | blockClose => exact matches_noted (matches_close hb .named position)

end Directives

/-! ## Paragraphs -/

section Paragraphs

variable {b b' : Builder} {runs : List Run}

theorem Builder.Spelled.pushRuns (hb : b.Spelled b') {anchors : List Anchor}
    (hanchors : anchors ⊆ anchorsFrom 0 runs) :
    (b.pushRuns (anchors.map Anchor.run)).Spelled (b'.pushRuns (anchors.map Anchor.run)) := by
  have hother : ∀ run ∈ anchors.map Anchor.run, run.text? = none := by
    rw [List.forall_mem_map]
    exact fun a ha => (behind_of_mem_anchorsFrom (hanchors ha)).2
  exact ⟨by rw [hb.eq, spell_pushRuns b hother], hb.backed.pushRuns hother⟩

theorem matches_pushTokens (strict : Bool) (ordinal : Nat) (hb : b.Spelled b')
    {anchors : List Anchor} (hanchors : anchors ⊆ anchorsFrom 0 runs) {tokens : List Token}
    (hcovers : ∀ token ∈ tokens, ∃ before part after,
      token.Covers (runsText runs) before part after) :
    MatchesT Builder.Spelled (pushTokens strict ordinal (.ofRuns runs) b anchors tokens)
      (pushTokens strict ordinal (.ofRuns (spellRuns runs)) b' anchors tokens) := by
  have htext : (RunMap.ofRuns (spellRuns runs)).text = runsText runs := runsText_spellRuns runs
  induction tokens generalizing b b' anchors with
  | nil => exact .pure (hb.pushRuns hanchors)
  | cons token tokens ih =>
    obtain ⟨⟨before, part, after, htoken⟩, hrest⟩ := List.forall_mem_cons.1 hcovers
    obtain ⟨kind, start, stop⟩ := token
    cases kind with
    | text literal =>
      obtain ⟨later, last, hone, hspelled, hbacked, hlater⟩ :=
        exists_pushText htoken hb.backed hanchors
      have hpush : pushText (RunMap.ofRuns runs).text start stop b anchors
          (RunMap.ofRuns runs).spans = (last, later) := hone
      have hpush' : pushText (RunMap.ofRuns (spellRuns runs)).text start stop b' anchors
          (RunMap.ofRuns (spellRuns runs)).spans = (last.spell, later) := by
        rw [htext, hb.eq]
        exact hspelled
      rw [pushTokens_text, pushTokens_text, hpush, hpush']
      exact ih ⟨rfl, hbacked⟩ (List.Subset.trans hlater hanchors) hrest
    | directive d =>
      rw [pushTokens_directive, pushTokens_directive, htext, styleAt_spellRuns,
        List.span_eq_takeWhile_dropWhile]
      have hnow := hb.pushRuns (List.Subset.trans
        (List.takeWhile_prefix (fun a : Anchor => decide (a.offset < stop))).subset hanchors)
      have hlater := List.Subset.trans
        (List.dropWhile_suffix (fun a : Anchor => decide (a.offset < stop))).subset hanchors
      refine (matches_applyDirective hnow strict _ _ _ d).bind fun b₁ b₁' hb₁ => ?_
      exact ih hb₁ hlater hrest

/-- A paragraph is read as a block that is spelled out to what the paragraph spelled out is read
as. -/
theorem matches_parseParagraph (settings : TemplateSettings) (p : Paragraph) {tokens : List Token}
    (hcovers : ∀ token ∈ tokens, ∃ before part after,
      token.Covers (runsText p.runs) before part after) (ordinal depth : Nat) :
    MatchesT Block.Spelled (parseParagraph settings p (.ofRuns p.runs) tokens ordinal depth)
      (parseParagraph settings p.spell (.ofRuns p.spell.runs) tokens ordinal depth) := by
  unfold parseParagraph
  by_cases hany : tokens.any fun token => token.directive?.isSome
  · rw [if_pos hany, if_pos hany]
    have hempty := Builder.spelled_empty depth settings.maxNestingDepth.toNat
    have hanchors : (RunMap.ofRuns p.spell.runs).anchors = anchorsFrom 0 p.runs :=
      anchorsFrom_spellRuns 0 p.runs
    have hpush := matches_pushTokens settings.strict ordinal hempty (List.Subset.refl _) hcovers
    rw [hanchors]
    refine hpush.bind fun b b' hb => ?_
    refine (MatchesT.lift (matches_finish hb)).bind ?_
    rintro blocks _ ⟨rfl, hblocks⟩
    refine .pure ⟨by rw [Block.spell]; rfl, ?_, rfl⟩
    rw [Block.nodes, List.forall_mem_cons]
    exact ⟨hblocks.top.mono, hblocks.nodes⟩
  · rw [if_neg hany, if_neg hany]
    refine .pure ⟨?_, ?_, rfl⟩
    · rw [Block.spell, spellBlocks_static]
      rfl
    · rw [Block.nodes, nodesOf_static, List.forall_mem_cons, List.forall_mem_map]
      exact ⟨backed_static p.runs, fun run _ => trivial⟩

/-- A paragraph does the same to the builder of its body and to that builder spelled out. -/
theorem matches_feedParagraph (settings : TemplateSettings) (hb : b.Spelled b') (p : Paragraph) :
    MatchesT Builder.Spelled (feedParagraph settings b p) (feedParagraph settings b' p.spell) := by
  have htext : (RunMap.ofRuns p.spell.runs).text = (RunMap.ofRuns p.runs).text :=
    runsText_spellRuns p.runs
  have hanchors : (RunMap.ofRuns p.spell.runs).anchors = (RunMap.ofRuns p.runs).anchors :=
    anchorsFrom_spellRuns 0 p.runs
  have hdepth : b'.depth = b.depth := by rw [hb.eq, Builder.depth_spell]
  have htokens : ∀ ordinal, Matches (fun tokens tokens' => tokens = tokens' ∧
      ∀ token ∈ tokens, ∃ before part after, token.Covers (runsText p.runs) before part after)
      (tokensOf settings.strict ordinal (RunMap.ofRuns p.runs).text)
      (tokensOf settings.strict ordinal (RunMap.ofRuns p.spell.runs).text) := by
    intro ordinal
    rw [htext]
    cases hresult : tokensOf settings.strict ordinal (RunMap.ofRuns p.runs).text with
    | error e => exact .error e
    | ok tokens => exact .ok ⟨rfl, exists_part_of_tokenize (tokensOf_ok_iff.1 hresult)⟩
  intro s
  unfold feedParagraph
  rw [stateT_get_bind, stateT_get_bind]
  refine MatchesT.bind (MatchesT.refl _) (fun _ _ _ => ?_) s
  refine (MatchesT.lift (htokens s.paragraph)).bind ?_
  rintro tokens _ ⟨rfl, hcovers⟩
  have halone : standalone? (.ofRuns p.spell.runs) tokens =
      standalone? (.ofRuns p.runs) tokens := by
    rw [standalone?, hanchors, standalone?]
  dsimp only
  rw [halone]
  cases standalone? (.ofRuns p.runs) tokens with
  | some found =>
    dsimp only
    rw [htext]
    exact matches_applyDirective hb _ _ _ _ _
  | none =>
    dsimp only
    rw [hdepth]
    refine (matches_parseParagraph settings p hcovers _ _).bind fun block block' hblock => ?_
    exact .pure (hb.push hblock)

end Paragraphs

/-! ## Bodies and tables -/

/-- The first cells are spelled out to the second ones. -/
structure CellsSpelled (cells cells' : List (Cell Block)) : Prop where
  /-- The cells are spelled out to the others. -/
  eq : cells' = spellCellBlocks cells
  /-- The blocks of each cell are backed. -/
  backed : ∀ cell ∈ cells, Backed false cell.body
  /-- So are all blocks within them. -/
  nodes : ∀ node ∈ cellNodes cells, node.IsBacked

/-- The first rows are spelled out to the second ones. -/
structure RowsSpelled (rows rows' : List (RowBlock Block)) : Prop where
  /-- The rows are spelled out to the others. -/
  eq : rows' = spellRowBlocks rows
  /-- The blocks of each cell are backed. -/
  backed : ∀ row ∈ rows, ∀ cell ∈ row.row.cells, Backed false cell.body
  /-- So are all blocks within them. -/
  nodes : ∀ node ∈ rowNodes rows, node.IsBacked

theorem cellsSpelled_nil : CellsSpelled [] [] where
  eq := by rw [spellCellBlocks]
  backed := by simp
  nodes := by simp [cellNodes]

theorem CellsSpelled.cons {cells cells' : List (Cell Block)} (h : CellsSpelled cells cells')
    (properties : CellProperties) {body : List Block} (hbody : BackedTree body) :
    CellsSpelled (⟨properties, body⟩ :: cells) (⟨properties, spellBlocks body⟩ :: cells') where
  eq := by rw [spellCellBlocks, h.eq]
  backed := List.forall_mem_cons.2 ⟨hbody.top, h.backed⟩
  nodes := by
    rw [cellNodes, List.forall_mem_append]
    exact ⟨hbody.nodes, h.nodes⟩

theorem rowsSpelled_nil : RowsSpelled [] [] where
  eq := by rw [spellRowBlocks]
  backed := by simp
  nodes := by simp [rowNodes]

theorem RowsSpelled.static {rows rows' : List (RowBlock Block)} (h : RowsSpelled rows rows')
    (properties : RowProperties) {cells cells' : List (Cell Block)}
    (hcells : CellsSpelled cells cells') :
    RowsSpelled (.static ⟨properties, cells⟩ :: rows) (.static ⟨properties, cells'⟩ :: rows') where
  eq := by rw [spellRowBlocks, hcells.eq, h.eq]
  backed := List.forall_mem_cons.2 ⟨hcells.backed, h.backed⟩
  nodes := by
    rw [rowNodes, List.forall_mem_append]
    exact ⟨hcells.nodes, h.nodes⟩

theorem RowsSpelled.loop {rows rows' : List (RowBlock Block)} (h : RowsSpelled rows rows')
    (list : String) (properties : RowProperties) {cells cells' : List (Cell Block)}
    (hcells : CellsSpelled cells cells') (position : Position) :
    RowsSpelled (.loop list ⟨properties, cells⟩ position :: rows)
      (.loop list ⟨properties, cells'⟩ position :: rows') where
  eq := by rw [spellRowBlocks, hcells.eq, h.eq]
  backed := List.forall_mem_cons.2 ⟨hcells.backed, h.backed⟩
  nodes := by
    rw [rowNodes, List.forall_mem_append]
    exact ⟨hcells.nodes, h.nodes⟩

theorem RowsSpelled.table {rows rows' : List (RowBlock Block)} (h : RowsSpelled rows rows')
    (properties : TableProperties) (grid : List UInt32) :
    (Block.table ⟨properties, grid, rows⟩).Spelled (.table ⟨properties, grid, rows'⟩) where
  eq := by rw [Block.spell, h.eq]
  nodes := by
    rw [Block.nodes, List.forall_mem_cons]
    exact ⟨h.backed, h.nodes⟩
  shows := rfl

section Bodies

variable (settings : TemplateSettings)

def FeedBodySpells (b : Builder) (body : List Element) : Prop :=
  ∀ b', b.Spelled b' →
    MatchesT Builder.Spelled (feedBody settings b body) (feedBody settings b' (spellBody body))

def ParseRowsSpells (depth : Nat) (rows : List (Row Element)) : Prop :=
  MatchesT RowsSpelled (parseRows settings depth rows) (parseRows settings depth (spellRows rows))

def ParseCellsSpells (depth : Nat) (cells : List (Cell Element)) : Prop :=
  MatchesT CellsSpelled (parseCells settings depth cells)
    (parseCells settings depth (spellCells cells))

end Bodies

section Spells

variable {settings : TemplateSettings}

theorem feedBodySpells_nil (b : Builder) : FeedBodySpells settings b [] := by
  intro b' hb s
  rw [spellBody, feedBody_nil, feedBody_nil]
  exact .ok ⟨hb, rfl⟩

theorem feedBodySpells_paragraph {b : Builder} {p : Paragraph} {rest : List Element}
    (ih : ∀ b : Builder, FeedBodySpells settings b rest) :
    FeedBodySpells settings b (.paragraph p :: rest) := by
  intro b' hb
  rw [spellBody, Element.spell_paragraph, feedBody_paragraph, feedBody_paragraph]
  exact (matches_feedParagraph settings hb p).bind fun b₁ b₁' hb₁ => ih b₁ b₁' hb₁

theorem feedBodySpells_table {b : Builder} {t : Table (Row Element)} {rest : List Element}
    (ihRows : ParseRowsSpells settings b.depth t.rows)
    (ih : ∀ rows : List (RowBlock Block),
      FeedBodySpells settings (b.push (.table ⟨t.properties, t.grid, rows⟩)) rest) :
    FeedBodySpells settings b (.table t :: rest) := by
  intro b' hb
  have hdepth : b'.depth = b.depth := by rw [hb.eq, Builder.depth_spell]
  rw [spellBody, Element.spell_table, feedBody_table, feedBody_table, hdepth]
  refine MatchesT.bind ihRows fun rows rows' hrows => ?_
  exact ih rows _ (hb.push (hrows.table t.properties t.grid))

theorem parseRowsSpells_nil (depth : Nat) : ParseRowsSpells settings depth [] := by
  intro s
  rw [spellRows, parseRows_nil]
  exact .ok ⟨rowsSpelled_nil, rfl⟩

theorem parseRowsSpells_cons {depth : Nat} {row : Row Element} {rows : List (Row Element)}
    (ihRows : ParseRowsSpells settings depth rows)
    (ihRepeated : ∀ markers : RowMarkers,
      ParseCellsSpells settings (depth + 1) (row.withoutMarkers markers).cells)
    (ihOnce : ParseCellsSpells settings depth row.cells) :
    ParseRowsSpells settings depth (row :: rows) := by
  intro s
  have hspell : spellRows (row :: rows) = row.spell :: spellRows rows := by
    rw [spellRows_eq_map, spellRows_eq_map, List.map_cons]
  rw [hspell]
  cases hmarkers : rowMarkers? settings.strict row with
  | error e =>
    rw [parseRows_error settings hmarkers,
      parseRows_error settings ((rowMarkers?_spell _ _).trans hmarkers)]
    exact .error _
  | ok markers =>
    have hmarkers' := (rowMarkers?_spell _ _).trans hmarkers
    cases markers with
    | none =>
      rw [parseRows_once settings hmarkers, parseRows_once settings hmarkers']
      refine MatchesT.bind ihOnce (fun cells cells' hcells => ?_) s
      refine MatchesT.bind ihRows fun rest rest' hrest => ?_
      exact .pure (hrest.static row.properties hcells)
    | some markers =>
      obtain ⟨hopener, hcloser⟩ := markers_start_le_stop hmarkers
      rw [parseRows_repeated settings hmarkers, parseRows_repeated settings hmarkers',
        withoutMarkers_spell hopener hcloser]
      refine MatchesT.bind (MatchesT.refl _) (fun _ _ _ => ?_) s
      refine MatchesT.bind (ihRepeated markers) fun cells cells' hcells => ?_
      refine MatchesT.bind ihRows fun rest rest' hrest => ?_
      exact .pure (hrest.loop markers.list row.properties hcells _)

theorem parseCellsSpells_nil (depth : Nat) : ParseCellsSpells settings depth [] := by
  intro s
  rw [spellCells, parseCells_nil]
  exact .ok ⟨cellsSpelled_nil, rfl⟩

theorem parseCellsSpells_cons {depth : Nat} {cell : Cell Element} {cells : List (Cell Element)}
    (ihBody : FeedBodySpells settings
      { baseDepth := depth, limit := settings.maxNestingDepth.toNat } cell.body)
    (ihCells : ParseCellsSpells settings depth cells) :
    ParseCellsSpells settings depth (cell :: cells) := by
  have hspell : spellCells (cell :: cells) = cell.spell :: spellCells cells := by
    rw [spellCells_eq_map, spellCells_eq_map, List.map_cons]
  rw [ParseCellsSpells, hspell, parseCells_cons, parseCells_cons]
  refine MatchesT.bind (ihBody _ (Builder.spelled_empty _ _)) fun b b' hb => ?_
  refine MatchesT.bind (MatchesT.lift (matches_finish hb)) ?_
  rintro body _ ⟨rfl, hbody⟩
  refine MatchesT.bind ihCells fun rest rest' hrest => ?_
  exact .pure (hrest.cons cell.properties hbody)

end Spells

/-- The parser goes through a body and the body spelled out in step. -/
theorem feedBody_spells (settings : TemplateSettings) (b : Builder) (body : List Element) :
    FeedBodySpells settings b body :=
  (feedBody.mutual_induct settings (FeedBodySpells settings) (ParseRowsSpells settings)
    (ParseCellsSpells settings) feedBodySpells_nil
    (fun _ _ _ ih => feedBodySpells_paragraph ih)
    (fun _ _ _ ihRows ih => feedBodySpells_table ihRows ih)
    parseRowsSpells_nil
    (fun _ _ _ ihRows ihRepeated ihOnce => parseRowsSpells_cons ihRows ihRepeated ihOnce)
    parseCellsSpells_nil
    (fun _ _ _ ihBody ihCells => parseCellsSpells_cons ihBody ihCells)).1 b body

/-! ## Templates -/

/-- The template with its blocks and its document spelled out. -/
def Template.spell (t : Template) : Template :=
  { t with blocks := spellBlocks t.blocks, source := t.source.spell }

namespace Template

variable {settings : TemplateSettings} {name : String} {d : Document} {t : Template}

theorem matches_ofDocument (settings : TemplateSettings) (name : String) (d : Document) :
    Matches (fun t t' => t' = t.spell ∧ BackedTree t.blocks) (ofDocument settings name d)
      (ofDocument settings name d.spell) := by
  have hfeed := feedBody_spells settings settings.builder d.body _ (Builder.spelled_empty _ _)
  have hparse : MatchesT (fun blocks blocks' => blocks' = spellBlocks blocks ∧ BackedTree blocks)
      (parseBody settings d.body) (parseBody settings d.spell.body) :=
    hfeed.bind fun b b' hb => .lift (matches_finish hb)
  have hrun := hparse {}
  unfold ofDocument StateT.run
  generalize parseBody settings d.body {} = x at hrun ⊢
  generalize parseBody settings d.spell.body {} = y at hrun ⊢
  cases hrun with
  | error e => exact .error _
  | @ok r r' h =>
    obtain ⟨blocks, progress⟩ := r
    obtain ⟨blocks', progress'⟩ := r'
    obtain ⟨⟨rfl, hblocks⟩, rfl⟩ := h
    exact .ok ⟨rfl, hblocks⟩

/-- A document spelled out is parsed to the template spelled out. -/
theorem ofDocument_spell (settings : TemplateSettings) (name : String) (d : Document) :
    ofDocument settings name d.spell = (ofDocument settings name d).map spell := by
  have hmatches := matches_ofDocument settings name d
  generalize ofDocument settings name d = x at hmatches ⊢
  generalize ofDocument settings name d.spell = y at hmatches ⊢
  cases hmatches with
  | error e => rfl
  | ok h => exact congrArg Except.ok h.1

theorem backedTree_of_ofDocument (h : ofDocument settings name d = .ok t) : BackedTree t.blocks := by
  have hmatches := matches_ofDocument settings name d
  rw [h] at hmatches
  generalize ofDocument settings name d.spell = y at hmatches
  cases hmatches with
  | ok h => exact h.2

end Template

end StyledTemplate
