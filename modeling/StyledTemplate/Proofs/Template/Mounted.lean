import StyledTemplate.Proofs.Block.Unplaced
import StyledTemplate.Proofs.Document.RepeatedRow
import StyledTemplate.Proofs.Template.Parsing

/-!
# Bodies within other bodies

A body that is a template by itself, without declaring a parent, is read the same way wherever it
stands: behind other paragraphs, and within open regions, as long as these are not too many. What
has been read before changes only the places of its directives.
-/

namespace StyledTemplate

/-! ## Two runs -/

/-- Wherever the first computation succeeds, the second one does, too, with a related result and
without declaring a parent. It may fail only if there are `extra` regions open around it. -/
def Follows {α β : Type} (extra : Nat) (R : α → β → Prop) (x : Parser α) (y : Parser β) : Prop :=
  ∀ s s' a t, x s = .ok (a, t) →
    (extra ≠ 0 ∧ ∃ e, y s' = .error e) ∨ ∃ b t', y s' = .ok (b, t') ∧ R a b ∧ t'.parent = s'.parent

namespace Follows

variable {α β γ δ : Type} {extra : Nat} {R : α → β → Prop} {S : γ → δ → Prop} {x : Parser α}
  {y : Parser β}

theorem pure {a : α} {b : β} (h : R a b) :
    Follows extra R (pure a : Parser α) (pure b : Parser β) := by
  intro s s' a' t hx
  obtain ⟨rfl, rfl⟩ := Prod.mk.inj (Except.ok.inj hx)
  exact .inr ⟨b, s', rfl, h, rfl⟩

theorem bind {f : α → Parser γ} {g : β → Parser δ} (h : Follows extra R x y)
    (hfg : ∀ a b, R a b → Follows extra S (f a) (g b)) : Follows extra S (x >>= f) (y >>= g) := by
  intro s s' c t hc
  obtain ⟨a, s₁, hx, hf⟩ := exists_of_stateT_bind_eq_ok hc
  rcases h s s' a s₁ hx with ⟨hextra, e, hy⟩ | ⟨b, s₁', hy, hab, hparent⟩
  · exact .inl ⟨hextra, e, stateT_bind_eq_error hy⟩
  · rw [stateT_bind_eq_ok hy, ← hparent]
    exact hfg a b hab s₁ s₁' c t hf

/-- A step that does not depend on the progress. -/
theorem lift {x : Except ParseError α} {y : Except ParseError β}
    (h : ∀ a, x = .ok a → (extra ≠ 0 ∧ ∃ e, y = .error e) ∨ ∃ b, y = .ok b ∧ R a b) :
    Follows extra R (liftM x : Parser α) (liftM y : Parser β) := by
  intro s s' a t hx
  cases x with
  | error e => cases hx
  | ok a' =>
    obtain ⟨rfl, rfl⟩ := Prod.mk.inj (Except.ok.inj hx)
    rcases h a' rfl with ⟨hextra, e, rfl⟩ | ⟨b, rfl, hab⟩
    · exact .inl ⟨hextra, e, rfl⟩
    · exact .inr ⟨b, s', rfl, hab, rfl⟩

end Follows

/-! ## Builders -/

/-- The second block is the first one, but for the places. -/
def SameBlock (block block' : Block) : Prop := block'.unplaced = block.unplaced

def SameBlocks (blocks blocks' : List Block) : Prop :=
  unplacedBlocks blocks' = unplacedBlocks blocks

def SameRowBlocks (rows rows' : List (RowBlock Block)) : Prop :=
  unplacedRows rows' = unplacedRows rows

def SameCellBlocks (cells cells' : List (Cell Block)) : Prop :=
  unplacedCells cells' = unplacedCells cells

/-- The second builder is the first one, mounted on `outer`, but for the places. There are `extra`
more regions around it. -/
structure Builder.Mounted (outer : Builder) (extra : Nat) (b b' : Builder) : Prop where
  /-- The builders have built the same. -/
  same : b'.unplaced = outer.mount b.unplaced
  /-- The limit is the same. -/
  limit : outer.limit = b.limit
  /-- The regions around the first builder count for the second one, too. -/
  depth : outer.depth = b.baseDepth + extra

namespace Builder.Mounted

variable {outer b b' : Builder} {extra : Nat}

theorem limit_eq (h : Mounted outer extra b b') : b'.limit = b.limit := by
  rw [← limit_unplaced b', h.same, limit_mount, h.limit]

theorem depth_eq (h : Mounted outer extra b b') : b'.depth = b.depth + extra := by
  have hframes : b.unplaced.frames.length = b.frames.length := List.length_map _
  rw [← depth_unplaced b', h.same, depth_mount, h.depth, hframes, Builder.depth]
  omega

/-- A builder that has built nothing yet. -/
theorem empty (baseDepth limit extra : Nat) :
    Mounted { baseDepth := baseDepth + extra, limit } extra { baseDepth, limit }
      { baseDepth := baseDepth + extra, limit } := ⟨rfl, rfl, rfl⟩

theorem push (h : Mounted outer extra b b') {block block' : Block}
    (hblock : block'.unplaced = block.unplaced) :
    Mounted outer extra (b.push block) (b'.push block') := by
  refine ⟨?_, h.limit.trans (limit_push _ _).symm, ?_⟩
  · rw [unplaced_push, unplaced_push, mount_push, h.same, hblock]
  · rw [h.depth, baseDepth_push]

theorem pushRuns (h : Mounted outer extra b b') (runs : List Run) :
    Mounted outer extra (b.pushRuns runs) (b'.pushRuns runs) := by
  induction runs generalizing b b' with
  | nil => exact h
  | cons run runs ih => exact ih (h.push rfl)

/-- Text is cut the same way, and leaves the same runs without text. -/
theorem pushText (text : List Char) (start stop : Nat) (h : Mounted outer extra b b')
    (anchors : List Anchor) (spans : List Span) :
    Mounted outer extra (StyledTemplate.pushText text start stop b anchors spans).1
        (StyledTemplate.pushText text start stop b' anchors spans).1 ∧
      (StyledTemplate.pushText text start stop b anchors spans).2 =
        (StyledTemplate.pushText text start stop b' anchors spans).2 := by
  induction spans generalizing b b' anchors with
  | nil => exact ⟨h, rfl⟩
  | cons span spans ih =>
    rw [StyledTemplate.pushText, StyledTemplate.pushText]
    split
    · exact ih h anchors
    · exact ih ((h.pushRuns _).push rfl) _

/-- A directive does the same, unless it opens one region too many. -/
theorem apply (h : Mounted outer extra b b') {b₁ : Builder} {opener : String}
    {style : RunProperties} {position : Position} {d : Directive}
    (happly : b.apply opener style position d = .ok b₁) (position' : Position) :
    (extra ≠ 0 ∧ ∃ e, b'.apply opener style position' d = .error e) ∨
      ∃ b₁', b'.apply opener style position' d = .ok b₁' ∧ Mounted outer extra b₁ b₁' := by
  have happlied := applied_of_apply happly
  by_cases hbelow : d.isOpener = true → b'.depth < b'.limit
  · refine .inr ?_
    have hmount : (outer.mount b.unplaced).apply opener style {} d =
        .ok (outer.mount b₁.unplaced) := by
      refine mount_apply (unplaced_of_apply happly) fun hd => ?_
      rw [← h.same, depth_unplaced]
      exact hbelow hd
    rw [← h.same] at hmount
    obtain ⟨b₁', happly', hsame⟩ := exists_of_apply_unplaced position' hmount
    exact ⟨b₁', happly', hsame, h.limit.trans happlied.limit.symm,
      h.depth.trans (by rw [happlied.baseDepth])⟩
  · obtain ⟨hd, hlimit⟩ := Classical.not_imp.1 hbelow
    -- The first builder could open a region, so only the regions around it can be too many.
    refine .inl ⟨?_, ?_⟩
    · rintro rfl
      refine hlimit ?_
      rw [h.depth_eq, h.limit_eq]
      exact happlied.below hd
    · cases hresult : b'.apply opener style position' d with
      | error e => exact ⟨e, rfl⟩
      | ok c => exact absurd ((applied_of_apply hresult).below hd) hlimit

/-- A builder that starts with nothing is finished with the same blocks. -/
theorem finish {baseDepth limit : Nat}
    (h : Mounted { baseDepth := baseDepth + extra, limit } extra b b') {blocks : List Block}
    (hfinish : b.finish = .ok blocks) :
    ∃ blocks', b'.finish = .ok blocks' ∧ SameBlocks blocks blocks' := by
  obtain ⟨hnest, rfl⟩ := finish_ok_iff.1 hfinish
  have hsame := h.same
  rw [mount_of_frames_eq_nil _ (nest_eq_nil_iff.1 hnest), pushAll_of_root, List.nil_append]
    at hsame
  have hnest' : b'.nest = [] := nest_eq_nil_iff.2 (congrArg Builder.frames hsame)
  exact ⟨b'.root, finish_ok_iff.2 ⟨hnest', rfl⟩, congrArg Builder.root hsame⟩

end Builder.Mounted

/-! ## Paragraphs -/

/-- No directive of the paragraphs declares a parent. -/
def NoneInherits (strict : Bool) (ps : List Paragraph) : Prop :=
  ∀ d ∈ ps.flatMap fun p => directivesOf (p.placed strict), d.isInherits = false

instance (strict : Bool) (ps : List Paragraph) : Decidable (NoneInherits strict ps) :=
  inferInstanceAs (Decidable (∀ d ∈ _, Directive.isInherits d = false))

theorem noneInherits_append {strict : Bool} {ps qs : List Paragraph} :
    NoneInherits strict (ps ++ qs) ↔ NoneInherits strict ps ∧ NoneInherits strict qs := by
  rw [NoneInherits, List.flatMap_append, List.forall_mem_append]
  rfl

section Paragraphs

variable {outer b b' : Builder} {extra : Nat}

theorem follows_applyDirective (h : Builder.Mounted outer extra b b') (strict : Bool)
    (opener : String) (style : RunProperties) (position position' : Position) {d : Directive}
    (hd : d.isInherits = false) :
    Follows extra (Builder.Mounted outer extra) (applyDirective strict opener style position b d)
      (applyDirective strict opener style position' b' d) := by
  intro s s' a t hx
  obtain ⟨s₁, -, -, -, heq⟩ := exists_applyDirective_eq strict opener style position hd s
  obtain ⟨s₁', -, -, hparent, heq'⟩ := exists_applyDirective_eq strict opener style position' hd s'
  rw [heq] at hx
  rw [heq']
  obtain ⟨b₁, happly, hpair⟩ := exists_of_map_eq_ok hx
  obtain ⟨rfl, rfl⟩ := Prod.mk.inj hpair
  rcases h.apply happly position' with ⟨hextra, e, he⟩ | ⟨b₁', happly', hmounted⟩
  · exact .inl ⟨hextra, e, by rw [he]; rfl⟩
  · exact .inr ⟨b₁', s₁', by rw [happly']; rfl, hmounted, hparent⟩

theorem follows_pushTokens (h : Builder.Mounted outer extra b b') (strict : Bool)
    (ordinal ordinal' : Nat) (map : RunMap) (anchors : List Anchor) {tokens : List Token}
    (hno : ∀ d ∈ directivesOf (placedOf tokens), d.isInherits = false) :
    Follows extra (Builder.Mounted outer extra) (pushTokens strict ordinal map b anchors tokens)
      (pushTokens strict ordinal' map b' anchors tokens) := by
  induction tokens generalizing b b' anchors with
  | nil => exact .pure (h.pushRuns _)
  | cons token tokens ih =>
    obtain ⟨kind, start, stop⟩ := token
    cases kind with
    | text literal =>
      obtain ⟨htext, hanchors⟩ := h.pushText map.text start stop anchors map.spans
      rw [pushTokens_text, pushTokens_text, ← hanchors]
      exact ih htext _ hno
    | directive d =>
      rw [placedOf_cons_directive, directivesOf, List.map_cons, List.forall_mem_cons] at hno
      rw [pushTokens_directive, pushTokens_directive]
      refine .bind (follows_applyDirective (h.pushRuns _) strict _ _ _ _ hno.1) ?_
      intro b₁ b₁' hmounted
      exact ih hmounted _ hno.2

theorem follows_parseParagraph (settings : TemplateSettings) (p : Paragraph) (map : RunMap)
    {tokens : List Token} (hno : ∀ d ∈ directivesOf (placedOf tokens), d.isInherits = false)
    (ordinal ordinal' depth extra : Nat) :
    Follows extra SameBlock (parseParagraph settings p map tokens ordinal depth)
      (parseParagraph settings p map tokens ordinal' (depth + extra)) := by
  unfold parseParagraph
  split
  · refine .bind (follows_pushTokens (.empty depth settings.maxNestingDepth.toNat extra)
      settings.strict ordinal ordinal' map map.anchors hno) ?_
    intro b b' hmounted
    refine .bind (R := SameBlocks) (.lift fun blocks hblocks => .inr (hmounted.finish hblocks)) ?_
    intro blocks blocks' hsame
    refine .pure ?_
    rw [SameBlock, Block.unplaced, Block.unplaced, hsame]
  · exact .pure rfl

theorem follows_feedParagraph (h : Builder.Mounted outer extra b b') (settings : TemplateSettings)
    {p : Paragraph} (hno : NoneInherits settings.strict [p]) :
    Follows extra (Builder.Mounted outer extra) (feedParagraph settings b p)
      (feedParagraph settings b' p) := by
  intro s s' a t hx
  obtain ⟨tokens, htokens⟩ := tokenize_of_feedParagraph hx
  rw [NoneInherits, List.flatMap_singleton, Paragraph.placed, tokens_eq_of_tokenize htokens] at hno
  rw [feedParagraph_eq htokens] at hx
  rw [feedParagraph_eq htokens]
  cases hstandalone : standalone? (.ofRuns p.runs) tokens with
  | some found =>
    obtain ⟨token, d⟩ := found
    rw [hstandalone] at hx
    rw [placedOf_of_standalone? hstandalone] at hno
    exact follows_applyDirective h settings.strict _ {} _ _ (hno d List.mem_cons_self) _ _ a t hx
  | none =>
    rw [hstandalone] at hx
    obtain ⟨⟨block, s₁⟩, hparse, hpair⟩ := exists_of_map_eq_ok hx
    obtain ⟨rfl, rfl⟩ := Prod.mk.inj hpair
    rw [h.depth_eq]
    rcases follows_parseParagraph settings p (.ofRuns p.runs) hno _ s'.paragraph _ extra _
        { s' with paragraph := s'.paragraph + 1 } block s₁ hparse with
      ⟨hextra, e, he⟩ | ⟨block', t', hparse', hsame, hparent⟩
    · exact .inl ⟨hextra, e, by rw [he]; rfl⟩
    · exact .inr ⟨b'.push block', t', by rw [hparse']; rfl, h.push hsame, hparent⟩

end Paragraphs

/-! ## Bodies and tables -/

section Motives

variable (settings : TemplateSettings) (extra : Nat)

/-- A body is read the same way by a mounted builder. -/
def FeedBodyFollows (b : Builder) (body : List Element) : Prop :=
  NoneInherits settings.strict (bodyParagraphs body) →
    ∀ outer b' : Builder, Builder.Mounted outer extra b b' →
      Follows extra (Builder.Mounted outer extra) (feedBody settings b body)
        (feedBody settings b' body)

/-- Some rows are read the same way within more regions. -/
def ParseRowsFollows (depth : Nat) (rows : List (Row Element)) : Prop :=
  NoneInherits settings.strict (rowsParagraphs rows) →
    Follows extra SameRowBlocks (parseRows settings depth rows)
      (parseRows settings (depth + extra) rows)

/-- Some cells are read the same way within more regions. -/
def ParseCellsFollows (depth : Nat) (cells : List (Cell Element)) : Prop :=
  NoneInherits settings.strict (cellsParagraphs cells) →
    Follows extra SameCellBlocks (parseCells settings depth cells)
      (parseCells settings (depth + extra) cells)

end Motives

section Follows

variable {settings : TemplateSettings} {extra : Nat}

theorem feedBodyFollows_nil (b : Builder) : FeedBodyFollows settings extra b [] := by
  intro hno outer b' h s s' a t hx
  rw [feedBody_nil] at hx
  obtain ⟨rfl, rfl⟩ := Prod.mk.inj (Except.ok.inj hx)
  rw [feedBody_nil]
  exact .inr ⟨b', s', rfl, h, rfl⟩

theorem feedBodyFollows_paragraph {b : Builder} {p : Paragraph} {rest : List Element}
    (ih : ∀ b : Builder, FeedBodyFollows settings extra b rest) :
    FeedBodyFollows settings extra b (.paragraph p :: rest) := by
  intro hno outer b' h
  rw [bodyParagraphs_cons, noneInherits_append, paragraphs_paragraph] at hno
  rw [feedBody_paragraph, feedBody_paragraph]
  refine .bind (follows_feedParagraph h settings hno.1) ?_
  intro b₁ b₁' h₁
  exact ih b₁ hno.2 outer b₁' h₁

theorem feedBodyFollows_table {b : Builder} {t : Table (Row Element)} {rest : List Element}
    (ihRows : ParseRowsFollows settings extra b.depth t.rows)
    (ih : ∀ rows : List (RowBlock Block),
      FeedBodyFollows settings extra (b.push (.table ⟨t.properties, t.grid, rows⟩)) rest) :
    FeedBodyFollows settings extra b (.table t :: rest) := by
  intro hno outer b' h
  rw [bodyParagraphs_cons, noneInherits_append, paragraphs_table] at hno
  rw [feedBody_table, feedBody_table, h.depth_eq]
  refine .bind (ihRows hno.1) ?_
  intro rows rows' hrows
  refine ih rows hno.2 outer _ (h.push ?_)
  rw [Block.unplaced, Block.unplaced, hrows]

theorem parseRowsFollows_cons {depth : Nat} {row : Row Element} {rows : List (Row Element)}
    (ihRows : ParseRowsFollows settings extra depth rows)
    (ihRepeated : ∀ markers : RowMarkers,
      ParseCellsFollows settings extra (depth + 1) (row.withoutMarkers markers).cells)
    (ihOnce : ParseCellsFollows settings extra depth row.cells) :
    ParseRowsFollows settings extra depth (row :: rows) := by
  intro hno s s' a t hx
  rw [rowsParagraphs_cons, noneInherits_append] at hno
  obtain ⟨found, hmarkers⟩ := exists_of_parseRows_cons settings hx
  cases found with
  | none =>
    rw [parseRows_once _ hmarkers] at hx
    rw [parseRows_once _ hmarkers]
    refine Follows.bind (ihOnce hno.1) ?_ s s' a t hx
    intro cells cells' hcells
    refine .bind (ihRows hno.2) ?_
    intro rest rest' hrest
    refine .pure ?_
    rw [SameRowBlocks, unplacedRows, unplacedRows, hcells, hrest]
  | some markers =>
    rw [parseRows_repeated _ hmarkers] at hx
    rw [parseRows_repeated _ hmarkers]
    -- the markers are taken out before the cells are read
    have hleft : NoneInherits settings.strict
        (cellsParagraphs (row.withoutMarkers markers).cells) := by
      intro d hd
      refine hno.1 d ?_
      have hdirectives := directives_withoutMarkers hmarkers
      rw [Row.directives] at hdirectives
      rw [hdirectives, List.cons_append]
      exact List.mem_cons_of_mem _ (List.mem_append_left _ hd)
    refine Follows.bind (R := fun _ _ => True) (.lift fun _ hcheck => ?_) ?_ s s' a t hx
    · by_cases hbelow : depth + extra < settings.maxNestingDepth.toNat
      · exact .inr ⟨(), Builder.checkDepth_ok_iff.2 hbelow, trivial⟩
      · refine .inl ⟨?_, _, if_neg hbelow⟩
        rintro rfl
        exact hbelow (Builder.checkDepth_ok_iff.1 hcheck)
    · intro _ _ _
      have hcells := ihRepeated markers hleft
      rw [Nat.add_right_comm] at hcells
      refine .bind hcells ?_
      intro cells cells' hcells
      refine .bind (ihRows hno.2) ?_
      intro rest rest' hrest
      refine .pure ?_
      rw [SameRowBlocks, unplacedRows, unplacedRows, hcells, hrest]

theorem parseCellsFollows_cons {depth : Nat} {cell : Cell Element} {cells : List (Cell Element)}
    (ihBody : FeedBodyFollows settings extra
      { baseDepth := depth, limit := settings.maxNestingDepth.toNat } cell.body)
    (ihCells : ParseCellsFollows settings extra depth cells) :
    ParseCellsFollows settings extra depth (cell :: cells) := by
  intro hno
  rw [cellsParagraphs_cons, noneInherits_append] at hno
  rw [parseCells_cons, parseCells_cons]
  refine .bind (ihBody hno.1 _ _ (.empty depth settings.maxNestingDepth.toNat extra)) ?_
  intro b b' hmounted
  refine .bind (R := SameBlocks) (.lift fun blocks hblocks => .inr (hmounted.finish hblocks)) ?_
  intro blocks blocks' hblocks
  refine .bind (ihCells hno.2) ?_
  intro rest rest' hrest
  refine .pure ?_
  rw [SameCellBlocks, unplacedCells, unplacedCells, hblocks, hrest]

/-- A body is read the same way by a mounted builder, whatever has been read before. -/
theorem feedBodyFollows (settings : TemplateSettings) (extra : Nat) (b : Builder)
    (body : List Element) : FeedBodyFollows settings extra b body :=
  (feedBody.mutual_induct settings (FeedBodyFollows settings extra)
    (ParseRowsFollows settings extra) (ParseCellsFollows settings extra) feedBodyFollows_nil
    (fun _ _ _ => feedBodyFollows_paragraph) (fun _ _ _ => feedBodyFollows_table)
    (fun depth _ => by
      rw [parseRows, parseRows]
      exact .pure rfl)
    (fun _ _ _ ihRows ihRepeated ihOnce => parseRowsFollows_cons ihRows ihRepeated ihOnce)
    (fun depth _ => by
      rw [parseCells, parseCells]
      exact .pure rfl)
    (fun _ _ _ ihBody ihCells => parseCellsFollows_cons ihBody ihCells)).1 b body

end Follows

/-! ## Self-contained bodies -/

/-- The body is a template by itself, and does not declare a parent. -/
structure IsSelfContained (settings : TemplateSettings) (body : List Element) : Prop where
  /-- The body can be parsed. -/
  parses : ∃ name t, Template.ofDocument settings name ⟨body⟩ = .ok t
  /-- No parent is declared. -/
  noneInherits : NoneInherits settings.strict (bodyParagraphs body)

/-- Reading the body adds the blocks to any builder, but for the places, and declares no parent. It
may fail only within open regions. -/
def Yields (settings : TemplateSettings) (body : List Element) (blocks : List Block) : Prop :=
  ∀ (b : Builder) s, b.limit = settings.maxNestingDepth.toNat →
    (b.depth ≠ 0 ∧ ∃ e, feedBody settings b body s = .error e) ∨
      ∃ b' s', feedBody settings b body s = .ok (b', s') ∧
        b'.unplaced = b.unplaced.pushAll blocks ∧ s'.parent = s.parent

theorem IsSelfContained.exists_yields {settings : TemplateSettings} {body : List Element}
    (h : IsSelfContained settings body) : ∃ blocks, Yields settings body blocks := by
  obtain ⟨name, t, ht⟩ := h.parses
  obtain ⟨own, t, hown, hnest, -⟩ := Template.ofDocument_ok_iff.1 ht
  refine ⟨unplacedBlocks own.root, fun b s hlimit => ?_⟩
  -- The builder of the body alone is still empty, so mounted on `b` it is `b` itself.
  have hmounted : Builder.Mounted b.unplaced b.depth settings.builder b := by
    refine ⟨rfl, hlimit, ?_⟩
    rw [Builder.depth_unplaced]
    exact (Nat.zero_add _).symm
  rcases feedBodyFollows settings b.depth settings.builder body h.noneInherits _ _ hmounted {} s
      own t hown with hfails | ⟨b', s', hfeed, hb', hparent⟩
  · exact .inl hfails
  · refine .inr ⟨b', s', hfeed, ?_, hparent⟩
    rw [hb'.same, Builder.mount_of_frames_eq_nil _ (Builder.nest_eq_nil_iff.1 hnest)]
    rfl

theorem feedBody_append (settings : TemplateSettings) (b : Builder) (as bs : List Element) :
    feedBody settings b (as ++ bs) =
      feedBody settings b as >>= fun b => feedBody settings b bs := by
  induction as generalizing b with
  | nil =>
    funext s
    rw [List.nil_append, stateT_bind_eq_ok (feedBody_nil settings b s)]
  | cons a as ih =>
    cases a with
    | paragraph p =>
      rw [List.cons_append, feedBody_paragraph, feedBody_paragraph, bind_assoc]
      congr
      funext b
      exact ih b
    | table t =>
      rw [List.cons_append, feedBody_table, feedBody_table, bind_assoc]
      congr
      funext rows
      exact ih _

namespace Yields

variable {settings : TemplateSettings} {as bs : List Element} {xs ys : List Block}

theorem nil (settings : TemplateSettings) : Yields settings [] [] := fun b s _ =>
  .inr ⟨b, s, feedBody_nil settings b s, rfl, rfl⟩

theorem of_feedBody (h : Yields settings as xs) {b b' : Builder} {s s' : Progress}
    (hlimit : b.limit = settings.maxNestingDepth.toNat)
    (hfeed : feedBody settings b as s = .ok (b', s')) :
    b'.unplaced = b.unplaced.pushAll xs ∧ s'.parent = s.parent := by
  rcases h b s hlimit with ⟨-, e, he⟩ | ⟨c, t, hc, hsame, hparent⟩
  · rw [hfeed] at he
    cases he
  · rw [hfeed] at hc
    obtain ⟨rfl, rfl⟩ := Prod.mk.inj (Except.ok.inj hc)
    exact ⟨hsame, hparent⟩

/-- Outside of open regions the body can be read. -/
theorem exists_feedBody (h : Yields settings as xs) {b : Builder}
    (hlimit : b.limit = settings.maxNestingDepth.toNat) (hdepth : b.depth = 0) (s : Progress) :
    ∃ b' s', feedBody settings b as s = .ok (b', s') := by
  rcases h b s hlimit with ⟨hne, -⟩ | ⟨b', s', hfeed, -⟩
  · exact absurd hdepth hne
  · exact ⟨b', s', hfeed⟩

/-- Two bodies one after the other. -/
theorem append (has : Yields settings as xs) (hbs : Yields settings bs ys) :
    Yields settings (as ++ bs) (xs ++ ys) := by
  intro b s hlimit
  rw [feedBody_append]
  rcases has b s hlimit with ⟨hdepth, e, he⟩ | ⟨b₁, s₁, hfeed, hsame, hparent⟩
  · exact .inl ⟨hdepth, e, stateT_bind_eq_error he⟩
  · have hlimit₁ : b₁.limit = b.limit := by
      rw [← Builder.limit_unplaced, hsame, Builder.limit_pushAll, Builder.limit_unplaced]
    have hdepth₁ : b₁.depth = b.depth := by
      rw [← Builder.depth_unplaced, hsame, Builder.depth_pushAll, Builder.depth_unplaced]
    have hrest := hbs b₁ s₁ (hlimit₁.trans hlimit)
    rw [stateT_bind_eq_ok hfeed, ← hdepth₁, ← hparent, Builder.pushAll, List.foldl_append,
      ← Builder.pushAll, ← Builder.pushAll, ← hsame]
    exact hrest

end Yields

end StyledTemplate
