import StyledTemplate.Proofs.Template.Parsing

/-!
# Strict mode only rejects documents

A text that is split into tokens in strict mode is split into the same ones out of it. So is each
text of a document that is a template in strict mode; the rows that are repeated are then the same,
and the parser goes the same way through the document out of strict mode
(`Template.ofDocument_lenient`).
-/

namespace StyledTemplate

/-! ## Texts -/

theorem tokensFrom_lenient {strict : Bool} {offset : Nat} {literal cs : List Char}
    {tokens : List Token} (h : tokensFrom strict offset literal cs = .ok tokens) :
    tokensFrom false offset literal cs = .ok tokens := by
  induction cs using candidate_induction generalizing offset literal tokens with
  | none cs hc =>
    rw [tokensFrom_of_none hc] at h ⊢
    exact h
  | some cs c hc ih =>
    cases hr : Reading.ofContent (Text.trim c.inner) with
    | directive d =>
      rw [tokensFrom_of_directive hc hr] at h ⊢
      obtain ⟨rest, hrest, rfl⟩ := exists_of_map_eq_ok h
      rw [ih hrest]
      rfl
    | malformed =>
      have hnone : (tokensFrom strict offset literal cs).toOption = none :=
        toOption_tokensFrom_of_error hc (.inl hr)
      rw [h] at hnone
      cases hnone
    | unknown =>
      cases strict with
      | true =>
        have hnone : (tokensFrom true offset literal cs).toOption = none :=
          toOption_tokensFrom_of_error hc (.inr ⟨hr, rfl⟩)
        rw [h] at hnone
        cases hnone
      | false => exact h

/-- A text that can be split into tokens in strict mode is split into the same ones out of it. -/
theorem tokenize_lenient {strict : Bool} {text : List Char} {tokens : List Token}
    (h : tokenize strict text = .ok tokens) : tokenize false text = .ok tokens :=
  tokensFrom_lenient h

theorem Paragraph.loopMarks_lenient {strict : Bool} {p : Paragraph} (h : p.Splits strict) :
    p.loopMarks false = p.loopMarks strict := by
  obtain ⟨tokens, htokens⟩ := h
  rw [Paragraph.loopMarks, Paragraph.loopMarks, htokens, tokenize_lenient htokens]

/-! ## Repeated rows -/

section Rows

variable {strict : Bool}

mutual

theorem Element.loopMarks_lenient : ∀ element : Element,
    (∀ p ∈ element.paragraphs, p.Splits strict) →
    element.loopMarks false = element.loopMarks strict
  | .paragraph p, h => by
    rw [Element.loopMarks, Element.loopMarks]
    exact Paragraph.loopMarks_lenient (h p (by simp))
  | .table ⟨properties, grid, rows⟩, h => by
    rw [paragraphs_table] at h
    rw [Element.loopMarks, Element.loopMarks]
    exact rowsLoopMarks_lenient rows h

theorem rowsLoopMarks_lenient : ∀ rows : List (Row Element),
    (∀ p ∈ rowsParagraphs rows, p.Splits strict) →
    rowsLoopMarks false rows = rowsLoopMarks strict rows
  | [], _ => by rw [rowsLoopMarks, rowsLoopMarks]
  | ⟨properties, cells⟩ :: rows, h => by
    rw [rowsParagraphs_cons, List.forall_mem_append] at h
    rw [rowsLoopMarks, rowsLoopMarks, cellsLoopMarks_lenient cells h.1,
      rowsLoopMarks_lenient rows h.2]

/-- Cells whose texts can be read in strict mode have the same loops out of it. -/
theorem cellsLoopMarks_lenient : ∀ cells : List (Cell Element),
    (∀ p ∈ cellsParagraphs cells, p.Splits strict) →
    cellsLoopMarks false cells = cellsLoopMarks strict cells
  | [], _ => by rw [cellsLoopMarks, cellsLoopMarks]
  | ⟨properties, body⟩ :: cells, h => by
    rw [cellsParagraphs_cons, List.forall_mem_append] at h
    rw [cellsLoopMarks, cellsLoopMarks, bodyLoopMarks_lenient body h.1,
      cellsLoopMarks_lenient cells h.2]

theorem bodyLoopMarks_lenient : ∀ body : List Element,
    (∀ p ∈ bodyParagraphs body, p.Splits strict) →
    bodyLoopMarks false body = bodyLoopMarks strict body
  | [], _ => by rw [bodyLoopMarks, bodyLoopMarks]
  | element :: rest, h => by
    rw [bodyParagraphs_cons, List.forall_mem_append] at h
    rw [bodyLoopMarks, bodyLoopMarks, element.loopMarks_lenient h.1, bodyLoopMarks_lenient rest h.2]

end

/-- A row whose texts can be read in strict mode has the same markers out of it. -/
theorem rowMarkers?_lenient {row : Row Element}
    (h : ∀ p ∈ cellsParagraphs row.cells, p.Splits strict) :
    rowMarkers? false row = rowMarkers? strict row := by
  unfold rowMarkers?
  split
  · rfl
  · next first last houter =>
    obtain ⟨hfirst, hlast⟩ := mem_of_outerParagraphs? houter
    obtain ⟨firstTokens, hfirst⟩ := h first hfirst
    obtain ⟨lastTokens, hlast⟩ := h last hlast
    rw [hfirst, hlast, tokenize_lenient hfirst, tokenize_lenient hlast,
      cellsLoopMarks_lenient row.cells h]

end Rows

/-! ## Paragraphs -/

/-- The settings out of strict mode. -/
def TemplateSettings.lenient (settings : TemplateSettings) : TemplateSettings :=
  { settings with strict := false }

section Paragraphs

variable {settings : TemplateSettings} {strict : Bool} {b b' : Builder} {s s' : Progress}

theorem applyDirective_lenient {opener : String} {style : RunProperties} {position : Position}
    {d : Directive} (h : applyDirective strict opener style position b d s = .ok (b', s')) :
    applyDirective false opener style position b d s = .ok (b', s') := by
  cases d with
  | inherits parent =>
    rw [applyDirective, declareParent, stateT_get_bind] at h ⊢
    split at h
    · next hfirst =>
      rw [if_pos hfirst]
      exact h
    · next hlater =>
      rw [if_neg hlater]
      cases strict with
      | true => cases h
      | false => exact h
  | _ => exact h

theorem pushTokens_lenient {ordinal : Nat} {map : RunMap} {anchors : List Anchor}
    {tokens : List Token} (h : pushTokens strict ordinal map b anchors tokens s = .ok (b', s')) :
    pushTokens false ordinal map b anchors tokens s = .ok (b', s') := by
  induction tokens generalizing b anchors s with
  | nil => exact h
  | cons token tokens ih =>
    obtain ⟨kind, start, stop⟩ := token
    cases kind with
    | text literal =>
      rw [pushTokens_text] at h ⊢
      exact ih h
    | directive d =>
      rw [pushTokens_directive] at h ⊢
      obtain ⟨b₁, s₁, hd, h⟩ := exists_of_stateT_bind_eq_ok h
      rw [stateT_bind_eq_ok (applyDirective_lenient hd)]
      exact ih h

theorem parseParagraph_lenient {p : Paragraph} {map : RunMap} {tokens : List Token}
    {ordinal depth : Nat} {block : Block}
    (h : parseParagraph settings p map tokens ordinal depth s = .ok (block, s')) :
    parseParagraph settings.lenient p map tokens ordinal depth s = .ok (block, s') := by
  unfold parseParagraph at h ⊢
  split at h
  · next hany =>
    obtain ⟨b₁, s₁, hpush, h⟩ := exists_of_stateT_bind_eq_ok h
    rw [if_pos hany]
    exact (stateT_bind_eq_ok (pushTokens_lenient hpush)).trans h
  · next hnone =>
    rw [if_neg hnone]
    exact h

theorem feedParagraph_lenient {p : Paragraph}
    (h : feedParagraph settings b p s = .ok (b', s')) :
    feedParagraph settings.lenient b p s = .ok (b', s') := by
  obtain ⟨tokens, htokens⟩ := tokenize_of_feedParagraph h
  have hlenient : tokenize settings.lenient.strict (runsText p.runs) = .ok tokens :=
    tokenize_lenient htokens
  rw [feedParagraph_eq htokens] at h
  rw [feedParagraph_eq hlenient]
  cases hstandalone : standalone? (.ofRuns p.runs) tokens with
  | some found =>
    rw [hstandalone] at h
    exact applyDirective_lenient h
  | none =>
    rw [hstandalone] at h
    obtain ⟨⟨block, s₁⟩, hparse, hpair⟩ := exists_of_map_eq_ok h
    have hparsed := parseParagraph_lenient hparse
    dsimp only
    rw [hparsed]
    exact congrArg Except.ok hpair

end Paragraphs

/-! ## Bodies and tables -/

section Bodies

variable (settings : TemplateSettings)

def FeedBodyLenient (b : Builder) (body : List Element) : Prop :=
  (∀ p ∈ bodyParagraphs body, p.Splits settings.strict) →
    ∀ s b' s', feedBody settings b body s = .ok (b', s') →
      feedBody settings.lenient b body s = .ok (b', s')

def ParseRowsLenient (depth : Nat) (rows : List (Row Element)) : Prop :=
  (∀ p ∈ rowsParagraphs rows, p.Splits settings.strict) →
    ∀ s blocks s', parseRows settings depth rows s = .ok (blocks, s') →
      parseRows settings.lenient depth rows s = .ok (blocks, s')

def ParseCellsLenient (depth : Nat) (cells : List (Cell Element)) : Prop :=
  (∀ p ∈ cellsParagraphs cells, p.Splits settings.strict) →
    ∀ s blocks s', parseCells settings depth cells s = .ok (blocks, s') →
      parseCells settings.lenient depth cells s = .ok (blocks, s')

end Bodies

section Lenient

variable {settings : TemplateSettings}

theorem feedBodyLenient_paragraph {b : Builder} {p : Paragraph} {rest : List Element}
    (ih : ∀ b : Builder, FeedBodyLenient settings b rest) :
    FeedBodyLenient settings b (.paragraph p :: rest) := by
  intro hsplits s b' s' h
  rw [bodyParagraphs_cons, List.forall_mem_append] at hsplits
  rw [feedBody_paragraph] at h ⊢
  obtain ⟨b₁, s₁, hp, h⟩ := exists_of_stateT_bind_eq_ok h
  rw [stateT_bind_eq_ok (feedParagraph_lenient hp)]
  exact ih b₁ hsplits.2 s₁ b' s' h

theorem feedBodyLenient_table {b : Builder} {t : Table (Row Element)} {rest : List Element}
    (ihRows : ParseRowsLenient settings b.depth t.rows)
    (ih : ∀ rows : List (RowBlock Block),
      FeedBodyLenient settings (b.push (.table ⟨t.properties, t.grid, rows⟩)) rest) :
    FeedBodyLenient settings b (.table t :: rest) := by
  intro hsplits s b' s' h
  rw [bodyParagraphs_cons, paragraphs_table, List.forall_mem_append] at hsplits
  rw [feedBody_table] at h ⊢
  obtain ⟨rows, s₁, hrows, h⟩ := exists_of_stateT_bind_eq_ok h
  rw [stateT_bind_eq_ok (ihRows hsplits.1 s rows s₁ hrows)]
  exact ih rows hsplits.2 s₁ b' s' h

theorem parseRowsLenient_cons {depth : Nat} {row : Row Element} {rows : List (Row Element)}
    (ihRows : ParseRowsLenient settings depth rows)
    (ihRepeated : ∀ markers : RowMarkers,
      ParseCellsLenient settings (depth + 1) (row.withoutMarkers markers).cells)
    (ihOnce : ParseCellsLenient settings depth row.cells) :
    ParseRowsLenient settings depth (row :: rows) := by
  intro hsplits s blocks s' h
  rw [rowsParagraphs_cons, List.forall_mem_append] at hsplits
  obtain ⟨hrow, hrest⟩ := hsplits
  obtain ⟨markers, hmarkers⟩ := exists_of_parseRows_cons settings h
  have hlenient : rowMarkers? settings.lenient.strict row = .ok markers :=
    (rowMarkers?_lenient hrow).trans hmarkers
  cases markers with
  | none =>
    rw [parseRows_once settings hmarkers] at h
    rw [parseRows_once settings.lenient hlenient]
    obtain ⟨cells, s₁, hcells, h⟩ := exists_of_stateT_bind_eq_ok h
    obtain ⟨rest, s₂, hparsed, h⟩ := exists_of_stateT_bind_eq_ok h
    rw [stateT_bind_eq_ok (ihOnce hrow s cells s₁ hcells),
      stateT_bind_eq_ok (ihRows hrest s₁ rest s₂ hparsed)]
    exact h
  | some markers =>
    rw [parseRows_repeated settings hmarkers] at h
    rw [parseRows_repeated settings.lenient hlenient]
    obtain ⟨_, hdepth, h⟩ := exists_of_lift_bind_eq_ok h
    obtain ⟨cells, s₁, hcells, h⟩ := exists_of_stateT_bind_eq_ok h
    obtain ⟨rest, s₂, hparsed, h⟩ := exists_of_stateT_bind_eq_ok h
    have hleft := (splits_withoutMarkers_iff hmarkers).2 hrow
    refine (lift_bind_eq_ok hdepth).trans ?_
    rw [stateT_bind_eq_ok (ihRepeated markers hleft s cells s₁ hcells),
      stateT_bind_eq_ok (ihRows hrest s₁ rest s₂ hparsed)]
    exact h

theorem parseCellsLenient_cons {depth : Nat} {cell : Cell Element} {cells : List (Cell Element)}
    (ihBody : FeedBodyLenient settings
      { baseDepth := depth, limit := settings.maxNestingDepth.toNat } cell.body)
    (ihCells : ParseCellsLenient settings depth cells) :
    ParseCellsLenient settings depth (cell :: cells) := by
  intro hsplits s blocks s' h
  rw [cellsParagraphs_cons, List.forall_mem_append] at hsplits
  rw [parseCells_cons] at h ⊢
  obtain ⟨b, s₁, hbody, h⟩ := exists_of_stateT_bind_eq_ok h
  obtain ⟨body, hfinish, h⟩ := exists_of_lift_bind_eq_ok h
  obtain ⟨rest, s₂, hrest, h⟩ := exists_of_stateT_bind_eq_ok h
  refine (stateT_bind_eq_ok (ihBody hsplits.1 s b s₁ hbody)).trans ?_
  refine (lift_bind_eq_ok hfinish).trans ?_
  rw [stateT_bind_eq_ok (ihCells hsplits.2 s₁ rest s₂ hrest)]
  exact h

/-- The parser goes the same way through a body out of strict mode. -/
theorem feedBody_lenient (b : Builder) (body : List Element) : FeedBodyLenient settings b body :=
  (feedBody.mutual_induct settings (FeedBodyLenient settings) (ParseRowsLenient settings)
    (ParseCellsLenient settings)
    (fun b => by
      intro _ s b' s' h
      rw [feedBody_nil] at h ⊢
      exact h)
    (fun b p rest ih => feedBodyLenient_paragraph ih)
    (fun b t rest ihRows ih => feedBodyLenient_table ihRows ih)
    (fun depth => by
      intro _ s blocks s' h
      rw [parseRows_nil] at h ⊢
      exact h)
    (fun depth row rows ihRows ihRepeated ihOnce =>
      parseRowsLenient_cons ihRows ihRepeated ihOnce)
    (fun depth => by
      intro _ s blocks s' h
      rw [parseCells_nil] at h ⊢
      exact h)
    (fun depth cell cells ihBody ihCells => parseCellsLenient_cons ihBody ihCells)).1 b body

end Lenient

/-- A document that is a template in strict mode is the same template out of it. -/
theorem Template.ofDocument_lenient {settings : TemplateSettings} {name : String} {d : Document}
    {t : Template} (h : ofDocument settings name d = .ok t) :
    ofDocument settings.lenient name d = .ok t := by
  have hsplits := (fits_of_ofDocument h).1.splits
  obtain ⟨b, s, hfeed, hnest, rfl⟩ := ofDocument_ok_iff.1 h
  have hlenient := feedBody_lenient settings.builder d.body hsplits {} b s hfeed
  exact ofDocument_ok_iff.2 ⟨b, s, hlenient, hnest, rfl⟩

end StyledTemplate
