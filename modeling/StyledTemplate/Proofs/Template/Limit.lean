import StyledTemplate.Proofs.Template.Nesting

/-!
# The limit for the nesting of directives

The limit decides whether a document is a template, and nothing else. With a higher limit the parser
goes the same way through a document, to the same template or to the same error, unless it stops at
the lower one; and it stops there only if the document is nested deeper
(`Template.ofDocument_limited`).
-/

namespace StyledTemplate

/-- The settings with another limit. -/
def TemplateSettings.limited (settings : TemplateSettings) (limit : UInt64) : TemplateSettings :=
  { settings with maxNestingDepth := limit }

/-! ## Two runs -/

/-- Does the error say that directives are nested too deeply? -/
def ParseError.isTooDeep (e : ParseError) : Bool :=
  match e.fault with
  | .nestingTooDeep _ => true
  | _ => false

/-- The second of two computations goes the same way as the first one, and `f` gives what it results
in, unless the first one stops at the limit because the directives are `deep`. -/
def Relaxes {α β : Type} (deep : Prop) (f : α → β) (x : Except ParseError α)
    (y : Except ParseError β) : Prop :=
  (deep ∧ ∃ e, x = .error e ∧ e.isTooDeep = true) ∨ y = x.map f

namespace Relaxes

variable {α β γ δ : Type} {deep deep' : Prop} {f : α → β} {g : γ → δ}

theorem mono {x : Except ParseError α} {y : Except ParseError β} (h : Relaxes deep f x y)
    (hdeep : deep → deep') : Relaxes deep' f x y := h.imp_left fun ⟨hd, he⟩ => ⟨hdeep hd, he⟩

/-- A part that is nested deeper than the limit makes the whole so. -/
theorem max_left {limit m n : Nat} {x : Except ParseError α} {y : Except ParseError β}
    (h : Relaxes (limit < m) f x y) : Relaxes (limit < max m n) f x y :=
  h.mono fun hdeep => Nat.lt_of_lt_of_le hdeep (Nat.le_max_left _ _)

theorem max_right {limit m n : Nat} {x : Except ParseError α} {y : Except ParseError β}
    (h : Relaxes (limit < n) f x y) : Relaxes (limit < max m n) f x y :=
  h.mono fun hdeep => Nat.lt_of_lt_of_le hdeep (Nat.le_max_right _ _)

theorem ok (deep : Prop) (f : α → β) (a : α) : Relaxes deep f (.ok a) (.ok (f a)) := .inr rfl

theorem map {x : Except ParseError α} {y : Except ParseError β} {u : α → γ} {v : β → δ}
    (h : Relaxes deep f x y) (huv : ∀ a, v (f a) = g (u a)) :
    Relaxes deep g (x.map u) (y.map v) := by
  rcases h with ⟨hd, e, rfl, he⟩ | rfl
  · exact .inl ⟨hd, e, rfl, he⟩
  · cases x with
    | error e => exact .inr rfl
    | ok a => exact .inr (congrArg Except.ok (huv a))

theorem lift {x : Except ParseError α} {y : Except ParseError β} (h : Relaxes deep f x y)
    (s : Progress) :
    Relaxes deep (Prod.map f id) ((liftM x : Parser α) s) ((liftM y : Parser β) s) := by
  have hlift : ∀ {ω : Type} (z : Except ParseError ω),
      (liftM z : Parser ω) s = z.map fun a => (a, s) := by
    intro ω z
    cases z <;> rfl
  rw [hlift, hlift]
  exact h.map fun _ => rfl

theorem refl (deep : Prop) (x : Except ParseError α) : Relaxes deep id x x := by
  cases x <;> exact .inr rfl

/-- Two runs go on after a step that they have made alike. -/
theorem bind {x : Parser α} {y : Parser β} {k : α → Parser γ} {l : β → Parser δ} {s : Progress}
    (h : Relaxes deep (Prod.map f id) (x s) (y s))
    (hk : ∀ a s', x s = .ok (a, s') → Relaxes deep (Prod.map g id) (k a s') (l (f a) s')) :
    Relaxes deep (Prod.map g id) ((x >>= k) s) ((y >>= l) s) := by
  rcases h with ⟨hd, e, hx, he⟩ | hy
  · exact .inl ⟨hd, e, stateT_bind_eq_error hx, he⟩
  · cases hx : x s with
    | error e =>
      rw [hx] at hy
      exact .inr ((stateT_bind_eq_error hy).trans (by rw [stateT_bind_eq_error hx]; rfl))
    | ok r =>
      obtain ⟨a, s'⟩ := r
      rw [hx] at hy
      rw [stateT_bind_eq_ok hx, stateT_bind_eq_ok hy]
      exact hk a s' hx

end Relaxes

/-! ## Builders -/

/-- The builder with another limit. -/
def Builder.limited (b : Builder) (limit : Nat) : Builder := { b with limit }

namespace Builder

theorem push_limited (b : Builder) (n : Nat) (block : Block) :
    (b.limited n).push block = (b.push block).limited n := by
  obtain ⟨root, _ | ⟨frame, frames⟩, baseDepth, limit⟩ := b <;> rfl

theorem pushRuns_limited (b : Builder) (n : Nat) (runs : List Run) :
    (b.limited n).pushRuns runs = (b.pushRuns runs).limited n := by
  induction runs generalizing b with
  | nil => rfl
  | cons run runs ih =>
    show ((b.limited n).push (.static run)).pushRuns runs = _
    rw [push_limited, ih]
    rfl

theorem otherwise_limited (b : Builder) (n : Nat) (position : Position) :
    (b.limited n).otherwise position = (b.otherwise position).map (·.limited n) := by
  obtain ⟨root, frames, baseDepth, limit⟩ := b
  rcases frames with _ | ⟨⟨⟨name, thenBlocks, _ | elseBlocks⟩ | ⟨list, body⟩ | ⟨id, body⟩,
    opener, start⟩, frames⟩ <;> rfl

theorem close_limited (b : Builder) (n : Nat) (region : Region) (position : Position) :
    (b.limited n).close region position = (b.close region position).map (·.limited n) := by
  obtain ⟨root, _ | ⟨frame, frames⟩, baseDepth, limit⟩ := b
  · rfl
  · unfold close limited
    dsimp only
    split
    · exact congrArg Except.ok (push_limited ⟨root, frames, baseDepth, limit⟩ n frame.toBlock)
    · rfl

theorem relaxes_checkDepth {limit n : Nat} (hle : limit ≤ n) (depth : Nat) (position : Position) :
    Relaxes (limit < depth + 1) id (checkDepth depth limit position)
      (checkDepth depth n position) := by
  unfold checkDepth
  by_cases h : depth < limit
  · rw [if_pos h, if_pos (by omega)]
    exact .ok _ _ _
  · rw [if_neg h]
    exact .inl ⟨by omega, _, rfl, rfl⟩

theorem relaxes_openRegion {b : Builder} {n : Nat} (hle : b.limit ≤ n) (opening : Opening)
    (opener : String) (position : Position) :
    Relaxes (b.limit < b.depth + 1) (·.limited n) (b.openRegion opening opener position)
      ((b.limited n).openRegion opening opener position) := by
  rcases relaxes_checkDepth hle b.depth position with ⟨hdeep, e, he, htoo⟩ | heq
  · exact .inl ⟨hdeep, e, by rw [openRegion, he]; rfl, htoo⟩
  · refine .inr ?_
    show (checkDepth b.depth n position >>= fun _ => _) = _
    rw [heq, openRegion]
    cases checkDepth b.depth b.limit position <;> rfl

theorem relaxes_apply {b : Builder} {n : Nat} (hle : b.limit ≤ n) (opener : String)
    (style : RunProperties) (position : Position) (d : Directive) :
    Relaxes (b.limit < d.depthAfter b.depth) (·.limited n) (b.apply opener style position d)
      ((b.limited n).apply opener style position d) := by
  cases d with
  | inherits | placeholder | image => exact .inr (congrArg Except.ok (push_limited ..))
  | ifOpen | eachOpen | blockOpen => exact relaxes_openRegion hle _ opener position
  | otherwise => exact .inr (otherwise_limited ..)
  | ifClose | eachClose | blockClose => exact .inr (close_limited ..)

end Builder

/-! ## Paragraphs -/

theorem pushText_limited (text : List Char) (start stop : Nat) (b : Builder) (n : Nat)
    (anchors : List Anchor) (spans : List Span) :
    pushText text start stop (b.limited n) anchors spans =
      ((pushText text start stop b anchors spans).1.limited n,
        (pushText text start stop b anchors spans).2) := by
  induction spans generalizing b anchors with
  | nil => rfl
  | cons span spans ih =>
    rw [pushText, pushText]
    split
    · exact ih b anchors
    · dsimp only
      rw [Builder.pushRuns_limited, Builder.push_limited]
      exact ih _ _

section Paragraphs

variable {strict : Bool} {b : Builder} {n : Nat}

theorem relaxes_applyDirective (hle : b.limit ≤ n) (opener : String) (style : RunProperties)
    (position : Position) (d : Directive) (s : Progress) :
    Relaxes (b.limit < d.depthAfter b.depth) (Prod.map (·.limited n) id)
      (applyDirective strict opener style position b d s)
      (applyDirective strict opener style position (b.limited n) d s) := by
  cases hd : d.isInherits with
  | false =>
    obtain ⟨s₁, -, -, -, heq⟩ := exists_applyDirective_eq strict opener style position hd s
    rw [heq, heq]
    exact (Builder.relaxes_apply hle opener style position d).map fun _ => rfl
  | true =>
    obtain ⟨parent, rfl⟩ := Directive.exists_parent hd
    rw [applyDirective, applyDirective, declareParent, declareParent, stateT_get_bind,
      stateT_get_bind, Builder.push_limited]
    refine .inr ?_
    split
    · rfl
    · split <;> rfl

theorem relaxes_pushTokens (hle : b.limit ≤ n) (ordinal : Nat) (map : RunMap)
    (anchors : List Anchor) (tokens : List Token) (s : Progress) :
    Relaxes (b.limit < deepest b.depth (directivesOf (placedOf tokens)))
      (Prod.map (·.limited n) id) (pushTokens strict ordinal map b anchors tokens s)
      (pushTokens strict ordinal map (b.limited n) anchors tokens s) := by
  induction tokens generalizing b anchors s with
  | nil =>
    refine .inr (congrArg (fun b => Except.ok (b, s)) ?_)
    exact Builder.pushRuns_limited ..
  | cons token tokens ih =>
    obtain ⟨kind, start, stop⟩ := token
    cases kind with
    | text literal =>
      rw [pushTokens_text, pushTokens_text, pushText_limited]
      have hbefore := Advances.pushText map.text start stop b anchors map.spans s
      have hrest := ih (b := (pushText map.text start stop b anchors map.spans).1)
        (by rw [hbefore.limit]; exact hle)
        (pushText map.text start stop b anchors map.spans).2 s
      rw [hbefore.depth_eq, hbefore.limit] at hrest
      exact hrest
    | directive d =>
      rw [pushTokens_directive, pushTokens_directive, Builder.pushRuns_limited]
      have hbefore := Advances.pushRuns b ((anchors.span (·.offset < stop)).1.map Anchor.run) s
      refine .bind ((relaxes_applyDirective (by rw [hbefore.limit]; exact hle) _ _ _ d s).mono ?_)
        fun b₁ s₁ hd => ?_
      · rw [hbefore.limit, hbefore.depth_eq]
        intro hdeep
        exact Nat.lt_of_lt_of_le hdeep
          (Nat.le_trans (le_deepest _ _) (Nat.le_max_right _ _))
      · have hone := hbefore.trans (advances_of_applyDirective hd).1
        refine (ih (by rw [hone.limit]; exact hle) _ s₁).mono ?_
        rw [hone.depth_single, hone.limit]
        intro hdeep
        exact Nat.lt_of_lt_of_le hdeep (Nat.le_max_right _ _)

end Paragraphs

/-! ## Bodies and tables -/

section Bodies

variable {settings : TemplateSettings} {limit : UInt64}

theorem relaxes_parseParagraph (hle : settings.maxNestingDepth.toNat ≤ limit.toNat) (p : Paragraph)
    (map : RunMap) (tokens : List Token) (ordinal depth : Nat) (s : Progress) :
    Relaxes (settings.maxNestingDepth.toNat < deepest depth (directivesOf (placedOf tokens)))
      (Prod.map id id) (parseParagraph settings p map tokens ordinal depth s)
      (parseParagraph (settings.limited limit) p map tokens ordinal depth s) := by
  unfold parseParagraph
  split
  · refine .bind (relaxes_pushTokens
      (b := { baseDepth := depth, limit := settings.maxNestingDepth.toNat }) hle ordinal map
      map.anchors tokens s) fun b s₁ _ => ?_
    exact .bind ((Relaxes.refl _ b.finish).lift s₁) fun blocks s₂ _ => .ok _ _ _
  · exact .ok _ _ _

theorem relaxes_feedParagraph (hle : settings.maxNestingDepth.toNat ≤ limit.toNat) {b : Builder}
    (hlimit : b.limit = settings.maxNestingDepth.toNat) (p : Paragraph) (s : Progress) :
    Relaxes (settings.maxNestingDepth.toNat < itemsDeepest b.depth [p.item settings.strict])
      (Prod.map (·.limited limit.toNat) id) (feedParagraph settings b p s)
      (feedParagraph (settings.limited limit) (b.limited limit.toNat) p s) := by
  cases htokens : tokenize settings.strict (runsText p.runs) with
  | error e =>
    have hlimited : tokenize (settings.limited limit).strict (runsText p.runs) = .error e := htokens
    rw [feedParagraph_error htokens, feedParagraph_error hlimited]
    exact .inr rfl
  | ok tokens =>
    have hlimited : tokenize (settings.limited limit).strict (runsText p.runs) = .ok tokens :=
      htokens
    have hsame := tokens_eq_of_tokenize htokens
    rw [feedParagraph_eq htokens, feedParagraph_eq hlimited]
    cases hstandalone : standalone? (.ofRuns p.runs) tokens with
    | some found =>
      obtain ⟨token, d⟩ := found
      rw [Paragraph.item_alone (hsame ▸ hstandalone), itemsDeepest, itemsDeepest, ← hlimit]
      exact (relaxes_applyDirective (hlimit ▸ hle) _ _ _ d _).max_right
    | none =>
      rw [Paragraph.item_inline (hsame ▸ hstandalone), Paragraph.placed, hsame, itemsDeepest,
        itemsDeepest]
      have hparse := relaxes_parseParagraph hle p (.ofRuns p.runs) tokens s.paragraph b.depth
        { s with paragraph := s.paragraph + 1 }
      refine hparse.max_left.map fun parsed => ?_
      rw [Builder.push_limited]
      rfl

end Bodies

section Motives

variable (settings : TemplateSettings) (limit : UInt64)

/-- The parser goes the same way through a body with a higher limit. -/
def FeedBodyRelaxes (b : Builder) (body : List Element) : Prop :=
  b.limit = settings.maxNestingDepth.toNat → b.depth ≤ settings.maxNestingDepth.toNat →
    ∀ s, Relaxes
      (settings.maxNestingDepth.toNat < itemsDeepest b.depth (outline settings.strict body))
      (Prod.map (·.limited limit.toNat) id) (feedBody settings b body s)
      (feedBody (settings.limited limit) (b.limited limit.toNat) body s)

/-- The parser goes the same way through some rows with a higher limit. -/
def ParseRowsRelaxes (depth : Nat) (rows : List (Row Element)) : Prop :=
  depth ≤ settings.maxNestingDepth.toNat →
    ∀ s, Relaxes
      (settings.maxNestingDepth.toNat < rowsDeepest depth (outlineRows settings.strict rows))
      (Prod.map id id) (parseRows settings depth rows s)
      (parseRows (settings.limited limit) depth rows s)

/-- The parser goes the same way through some cells with a higher limit. -/
def ParseCellsRelaxes (depth : Nat) (cells : List (Cell Element)) : Prop :=
  depth ≤ settings.maxNestingDepth.toNat →
    ∀ s, Relaxes
      (settings.maxNestingDepth.toNat < cellsDeepest depth (outlineCells settings.strict cells))
      (Prod.map id id) (parseCells settings depth cells s)
      (parseCells (settings.limited limit) depth cells s)

end Motives

section Relaxes

variable {settings : TemplateSettings} {limit : UInt64}

theorem feedBodyRelaxes_paragraph (hle : settings.maxNestingDepth.toNat ≤ limit.toNat)
    {b : Builder} {p : Paragraph} {rest : List Element}
    (ih : ∀ b : Builder, FeedBodyRelaxes settings limit b rest) :
    FeedBodyRelaxes settings limit b (.paragraph p :: rest) := by
  intro hlimit hdepth s
  rw [feedBody_paragraph, feedBody_paragraph, outline_paragraph]
  refine .bind ((relaxes_feedParagraph hle hlimit p s).mono fun hdeep => ?_) fun b₁ s₁ hp => ?_
  · exact Nat.lt_of_not_le fun hall => Nat.not_le.2 hdeep (itemsDeepest_cons_le_iff.1 hall).1
  · obtain ⟨hone, -⟩ := advances_of_feedParagraph (hlimit ▸ hdepth) hlimit hp
    obtain ⟨hlimit₁, hdepth₁, -⟩ := within_of_feedParagraph hlimit hdepth hp
    refine (ih b₁ hlimit₁ hdepth₁ s₁).mono fun hrest => ?_
    rw [hone.depth] at hrest
    exact Nat.lt_of_not_le fun hall => Nat.not_le.2 hrest (itemsDeepest_cons_le_iff.1 hall).2

theorem feedBodyRelaxes_table {b : Builder} {t : Table (Row Element)} {rest : List Element}
    (ihRows : ParseRowsRelaxes settings limit b.depth t.rows)
    (ih : ∀ rows : List (RowBlock Block),
      FeedBodyRelaxes settings limit (b.push (.table ⟨t.properties, t.grid, rows⟩)) rest) :
    FeedBodyRelaxes settings limit b (.table t :: rest) := by
  intro hlimit hdepth s
  rw [feedBody_table, feedBody_table, outline_table, itemsDeepest]
  refine .bind (ihRows hdepth s).max_left fun rows s₁ _ => ?_
  have hrest := ih rows ((Builder.limit_push _ _).trans hlimit)
    ((Builder.depth_push _ _).symm ▸ hdepth) s₁
  rw [Builder.depth_push, ← Builder.push_limited] at hrest
  exact hrest.max_right

theorem parseRowsRelaxes_cons (hle : settings.maxNestingDepth.toNat ≤ limit.toNat) {depth : Nat}
    {row : Row Element} {rows : List (Row Element)}
    (ihRows : ParseRowsRelaxes settings limit depth rows)
    (ihRepeated : ∀ markers : RowMarkers,
      ParseCellsRelaxes settings limit (depth + 1) (row.withoutMarkers markers).cells)
    (ihOnce : ParseCellsRelaxes settings limit depth row.cells) :
    ParseRowsRelaxes settings limit depth (row :: rows) := by
  intro hdepth s
  cases hmarkers : rowMarkers? settings.strict row with
  | error e =>
    have hlimited : rowMarkers? (settings.limited limit).strict row = .error e := hmarkers
    rw [parseRows_error _ hmarkers, parseRows_error _ hlimited]
    exact .inr rfl
  | ok found =>
    have hlimited : rowMarkers? (settings.limited limit).strict row = .ok found := hmarkers
    cases found with
    | none =>
      rw [parseRows_once _ hmarkers, parseRows_once _ hlimited, outlineRows_once hmarkers,
        rowsDeepest]
      refine .bind (ihOnce hdepth s).max_left fun cells s₁ _ => ?_
      exact .bind (ihRows hdepth s₁).max_right fun rest s₂ _ => .ok _ _ _
    | some markers =>
      rw [parseRows_repeated _ hmarkers, parseRows_repeated _ hlimited,
        outlineRows_repeated hmarkers, rowsDeepest]
      -- a row that may not be repeated here is one region too many
      refine .bind (((Builder.relaxes_checkDepth hle depth _).lift s).mono fun hdeep => ?_).max_left
        fun _ s₁ hcheck => ?_
      · exact Nat.lt_of_lt_of_le hdeep (le_cellsDeepest _ _)
      have hbelow : depth < settings.maxNestingDepth.toNat := by
        cases hresult : checkDepth depth settings.maxNestingDepth.toNat
          { paragraph := s.paragraph } with
        | error e =>
          rw [hresult] at hcheck
          cases hcheck
        | ok _ => exact Builder.checkDepth_ok_iff.1 hresult
      refine .bind (ihRepeated markers hbelow s₁).max_left fun cells s₂ _ => ?_
      exact .bind (ihRows hdepth s₂).max_right fun rest s₃ _ => .ok _ _ _

theorem parseCellsRelaxes_cons {depth : Nat} {cell : Cell Element} {cells : List (Cell Element)}
    (ihBody : FeedBodyRelaxes settings limit
      { baseDepth := depth, limit := settings.maxNestingDepth.toNat } cell.body)
    (ihCells : ParseCellsRelaxes settings limit depth cells) :
    ParseCellsRelaxes settings limit depth (cell :: cells) := by
  intro hdepth s
  rw [parseCells_cons, parseCells_cons, outlineCells_cons, cellsDeepest]
  refine .bind (ihBody rfl hdepth s).max_left fun b s₁ _ => ?_
  refine .bind ((Relaxes.refl _ b.finish).lift s₁) fun blocks s₂ _ => ?_
  exact .bind (ihCells hdepth s₂).max_right fun rest s₃ _ => .ok _ _ _

/-- The parser goes the same way through a body with a higher limit, unless it stops at the lower
one, and then the body is nested deeper. -/
theorem feedBodyRelaxes (hle : settings.maxNestingDepth.toNat ≤ limit.toNat) (b : Builder)
    (body : List Element) : FeedBodyRelaxes settings limit b body :=
  (feedBody.mutual_induct settings (FeedBodyRelaxes settings limit)
    (ParseRowsRelaxes settings limit) (ParseCellsRelaxes settings limit)
    (fun b _ _ s => by
      rw [feedBody_nil, feedBody_nil]
      exact .ok _ _ _)
    (fun _ _ _ => feedBodyRelaxes_paragraph hle)
    (fun _ _ _ => feedBodyRelaxes_table)
    (fun depth _ s => by
      rw [parseRows_nil, parseRows_nil]
      exact .ok _ _ _)
    (fun _ _ _ ihRows ihRepeated ihOnce => parseRowsRelaxes_cons hle ihRows ihRepeated ihOnce)
    (fun depth _ s => by
      rw [parseCells_nil, parseCells_nil]
      exact .ok _ _ _)
    (fun _ _ _ ihBody ihCells => parseCellsRelaxes_cons ihBody ihCells)).1 b body

end Relaxes

/-! ## Documents -/

namespace Template

theorem ofDocument_eq (settings : TemplateSettings) (name : String) (d : Document) :
    ofDocument settings name d =
      ((parseBody settings d.body {}).mapError (·.withTemplate name)).map fun parsed =>
        ⟨name, parsed.1, parsed.2.parent, parsed.2.placeholders, d⟩ := by
  unfold ofDocument StateT.run
  cases parseBody settings d.body {} <;> rfl

/-- A document is read the same way with a higher limit, unless it is nested deeper than the lower
one. -/
theorem relaxes_ofDocument (settings : TemplateSettings) {limit : UInt64}
    (hle : settings.maxNestingDepth.toNat ≤ limit.toNat) (name : String) (d : Document) :
    Relaxes (settings.maxNestingDepth.toNat < itemsDeepest 0 (outline settings.strict d.body)) id
      (ofDocument settings name d) (ofDocument (settings.limited limit) name d) := by
  have hparse : Relaxes
      (settings.maxNestingDepth.toNat < itemsDeepest 0 (outline settings.strict d.body))
      (Prod.map id id) (parseBody settings d.body {})
      (parseBody (settings.limited limit) d.body {}) := by
    unfold parseBody
    refine .bind (feedBodyRelaxes hle settings.builder d.body rfl (Nat.zero_le _) {})
      fun b s _ => ?_
    exact (Relaxes.refl _ b.finish).lift s
  rw [ofDocument_eq, ofDocument_eq]
  rcases hparse with ⟨hdeep, e, he, htoo⟩ | heq
  · exact .inl ⟨hdeep, e.withTemplate name, by rw [he]; rfl, htoo⟩
  · refine .inr ?_
    rw [heq]
    cases parseBody settings d.body {} <;> rfl

/-- Raising the limit changes nothing but for documents that are nested too deeply for the lower
one. A document that is a template with the lower limit is nested at most that deep, and the same
template with the higher one; an error that is not about the limit stays the same; and a template
that is nested at most as deep as the lower limit is one with that limit. -/
theorem ofDocument_limited (settings : TemplateSettings) {lower upper : UInt64}
    (hle : lower ≤ upper) (name : String) (d : Document) :
    (∀ t, ofDocument (settings.limited lower) name d = .ok t →
      nestingOf t.blocks ≤ lower.toNat ∧ ofDocument (settings.limited upper) name d = .ok t) ∧
    (∀ e, ofDocument (settings.limited lower) name d = .error e →
      (∀ n, e.fault ≠ .nestingTooDeep n) →
        ofDocument (settings.limited upper) name d = .error e) ∧
    (∀ t, ofDocument (settings.limited upper) name d = .ok t → nestingOf t.blocks ≤ lower.toNat →
      ofDocument (settings.limited lower) name d = .ok t) := by
  have hrelaxes : Relaxes (lower.toNat < itemsDeepest 0 (outline settings.strict d.body)) id
      (ofDocument (settings.limited lower) name d) (ofDocument (settings.limited upper) name d) :=
    relaxes_ofDocument (settings.limited lower) (UInt64.le_iff_toNat_le.1 hle) name d
  refine ⟨fun t ht => ⟨?_, ?_⟩, fun e he hno => ?_, fun t ht hnesting => ?_⟩
  · rw [nesting_of_ofDocument ht]
    exact (fits_of_ofDocument ht).1.deep
  · rcases hrelaxes with ⟨-, e, he, -⟩ | heq
    · rw [ht] at he
      cases he
    · rw [heq, ht]
      rfl
  · rcases hrelaxes with ⟨-, e', he', htoo⟩ | heq
    · obtain rfl := Except.error.inj (he.symm.trans he')
      rw [ParseError.isTooDeep] at htoo
      split at htoo
      · next n hfault => exact absurd hfault (hno n)
      · cases htoo
    · rw [heq, he]
      rfl
  · rcases hrelaxes with ⟨hdeep, -⟩ | heq
    · rw [nesting_of_ofDocument ht] at hnesting
      exact absurd hnesting (Nat.not_le.2 hdeep)
    · rw [heq] at ht
      obtain ⟨t', ht', rfl⟩ := exists_of_map_eq_ok ht
      exact ht'

/-- A condition is one region, so that a limit of one is enough for it, and two change nothing. -/
theorem limited_note : (1 : UInt64) ≤ 2 ∧
    ∃ t, ofDocument (({} : TemplateSettings).limited 1) "note"
        (.ofText "\x7b\x7b#if paid\x7d\x7dPaid\x7b\x7b/if\x7d\x7d") = .ok t ∧
      nestingOf t.blocks ≤ 1 ∧
      ofDocument (({} : TemplateSettings).limited 2) "note"
        (.ofText "\x7b\x7b#if paid\x7d\x7dPaid\x7b\x7b/if\x7d\x7d") = .ok t := by
  have hle : (1 : UInt64) ≤ 2 := by decide
  refine ⟨hle, ?_⟩
  obtain ⟨t, ht⟩ : ∃ t, ofDocument (({} : TemplateSettings).limited 1) "note"
      (.ofText "\x7b\x7b#if paid\x7d\x7dPaid\x7b\x7b/if\x7d\x7d") = .ok t :=
    exists_of_isSome_toOption (by decide +kernel)
  exact ⟨t, ht, (ofDocument_limited {} hle _ _).1 t ht⟩

end Template

end StyledTemplate
