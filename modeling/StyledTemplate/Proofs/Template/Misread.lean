import StyledTemplate.Proofs.Document.RowLoops
import StyledTemplate.Proofs.Template.Limit

/-!
# Where directives that cannot be read are reported

A document with a directive that cannot be read is no template. The byte that the error gives is the
one at which the directive stands in its paragraph. The number of the paragraph is the one at which
the parser has arrived, less the paragraphs that were dropped with a marker. For most paragraphs this
is their own; but the last paragraph of a row is looked at for a marker before the row is read, and
what is wrong in it is reported in the first paragraph of the row (`Template.misread_of_ofDocument`).
-/

namespace StyledTemplate

open Text (byteLength)

/-- The text of the directive that cannot be read, if that is the fault. -/
def ParseFault.misread? : ParseFault → Option String
  | .unknownDirective source => some source
  | .malformedDirective source => some source
  | _ => none

/-! ## The scanner -/

/-- The scanner stops at a directive of its text. -/
theorem tokensFrom_error {strict : Bool} {offset : Nat} {literal cs : List Char} {e : ParseError}
    (h : tokensFrom strict offset literal cs = .error e) :
    ∃ before source after fault, cs = before ++ source ++ after ∧
      fault.misread? = some (String.ofList source) ∧
      e = { fault, position := { offset := offset + byteLength (literal ++ before) } } := by
  induction cs using candidate_induction generalizing offset literal with
  | none cs hc =>
    rw [tokensFrom_of_none hc] at h
    cases h
  | some cs c hc ih =>
    have htext := candidate?_eq_some hc
    cases hr : Reading.ofContent (Text.trim c.inner) with
    | directive d =>
      rw [tokensFrom_of_directive hc hr, map_eq_error_iff] at h
      obtain ⟨before, source, after, fault, hafter, hfault, rfl⟩ := ih h
      refine ⟨c.before ++ c.source ++ before, source, after, fault, ?_, hfault, ?_⟩
      · simp [htext, hafter]
      · simp [Nat.add_assoc]
    | malformed =>
      rw [tokensFrom_of_malformed hc hr] at h
      exact ⟨c.before, c.source, c.after, _, htext, rfl, (Except.error.inj h).symm⟩
    | unknown =>
      by_cases hstrict : strict = true
      · rw [tokensFrom_of_unknown_strict hc hr hstrict] at h
        exact ⟨c.before, c.source, c.after, _, htext, rfl, (Except.error.inj h).symm⟩
      · rw [tokensFrom_of_unknown hc hr hstrict] at h
        obtain ⟨before, source, after, fault, hafter, hfault, rfl⟩ := ih h
        refine ⟨c.before ++ c.source ++ before, source, after, fault, ?_, hfault, ?_⟩
        · simp [htext, hafter]
        · simp

theorem tokenize_error {strict : Bool} {text : List Char} {e : ParseError}
    (h : tokenize strict text = .error e) :
    ∃ before source after fault, text = before ++ source ++ after ∧
      fault.misread? = some (String.ofList source) ∧
      e = { fault, position := { offset := byteLength before } } := by
  obtain ⟨before, source, after, fault, htext, hfault, rfl⟩ := tokensFrom_error h
  exact ⟨before, source, after, fault, htext, hfault, by simp⟩

/-! ## The builder -/

/-- The error is not one of reading a directive. -/
def ParseError.IsStructural (e : ParseError) : Prop := e.fault.misread? = none

/-- The computation can only fail for the order of the directives. -/
abbrev FailsStructurally {α : Type} (x : Except ParseError α) : Prop :=
  OnlyFails ParseError.IsStructural x

theorem failsStructurally_checkDepth (depth limit : Nat) (position : Position) :
    FailsStructurally (checkDepth depth limit position) := by
  unfold checkDepth
  split
  · exact .ok _ _
  · exact .error rfl

namespace Builder

theorem failsStructurally_openRegion (b : Builder) (opening : Opening) (opener : String)
    (position : Position) : FailsStructurally (b.openRegion opening opener position) :=
  (failsStructurally_checkDepth _ _ _).bind fun _ => .ok _ _

theorem failsStructurally_otherwise (b : Builder) (position : Position) :
    FailsStructurally (b.otherwise position) := by
  unfold otherwise
  split
  · exact .ok _ _
  · exact .error rfl
  · exact .error rfl

theorem failsStructurally_close (b : Builder) (region : Region) (position : Position) :
    FailsStructurally (b.close region position) := by
  unfold close
  split
  · exact .error rfl
  · split
    · exact .ok _ _
    · exact .error rfl

theorem failsStructurally_finish (b : Builder) : FailsStructurally b.finish := by
  unfold finish
  split
  · exact .ok _ _
  · exact .error rfl

theorem failsStructurally_apply (b : Builder) (opener : String) (style : RunProperties)
    (position : Position) (d : Directive) :
    FailsStructurally (b.apply opener style position d) := by
  cases d with
  | inherits | placeholder | image => exact .ok _ _
  | ifOpen | eachOpen | blockOpen => exact b.failsStructurally_openRegion _ _ _
  | otherwise => exact b.failsStructurally_otherwise _
  | ifClose | eachClose | blockClose => exact b.failsStructurally_close _ _

end Builder

/-! ## Paragraphs -/

theorem failsStructurally_applyDirective (strict : Bool) (opener : String) (style : RunProperties)
    (position : Position) (b : Builder) (d : Directive) (s : Progress) :
    FailsStructurally (applyDirective strict opener style position b d s) := by
  cases hd : d.isInherits with
  | false =>
    obtain ⟨s₁, -, -, -, heq⟩ := exists_applyDirective_eq strict opener style position hd s
    rw [heq]
    exact (b.failsStructurally_apply opener style position d).map _
  | true =>
    obtain ⟨parent, rfl⟩ := Directive.exists_parent hd
    rw [applyDirective, declareParent, stateT_get_bind]
    split
    · exact .ok _ _
    · split
      · exact .error rfl
      · exact .ok _ _

theorem failsStructurally_pushTokens (strict : Bool) (ordinal : Nat) (map : RunMap) (b : Builder)
    (anchors : List Anchor) (tokens : List Token) (s : Progress) :
    FailsStructurally (pushTokens strict ordinal map b anchors tokens s) := by
  induction tokens generalizing b anchors s with
  | nil => exact .ok _ _
  | cons token tokens ih =>
    obtain ⟨kind, start, stop⟩ := token
    cases kind with
    | text literal =>
      rw [pushTokens_text]
      exact ih _ _ s
    | directive d =>
      rw [pushTokens_directive]
      exact .stateT_bind (failsStructurally_applyDirective _ _ _ _ _ d s) fun b₁ s₁ _ => ih b₁ _ s₁

section Paragraphs

variable (settings : TemplateSettings)

theorem failsStructurally_parseParagraph (p : Paragraph) (map : RunMap) (tokens : List Token)
    (ordinal depth : Nat) (s : Progress) :
    FailsStructurally (parseParagraph settings p map tokens ordinal depth s) := by
  unfold parseParagraph
  split
  · refine .stateT_bind (failsStructurally_pushTokens _ _ _ _ _ tokens s) fun b s₁ _ => ?_
    exact .lift_bind b.failsStructurally_finish fun _ _ => .ok _ _
  · exact .ok _ _

/-- Only the scanner finds directives in a paragraph that cannot be read. -/
theorem onlyFails_feedParagraph (b : Builder) (p : Paragraph) (s : Progress) :
    OnlyFails
      (fun e => e.IsStructural ∨
        tokensOf settings.strict s.paragraph (runsText p.runs) = .error e)
      (feedParagraph settings b p s) := by
  cases htokens : tokenize settings.strict (runsText p.runs) with
  | error e =>
    rw [feedParagraph_error htokens]
    exact .error (.inr (tokensOf_eq_error htokens _))
  | ok tokens =>
    rw [feedParagraph_eq htokens]
    refine OnlyFails.mono ?_ fun e => Or.inl
    split
    · exact failsStructurally_applyDirective _ _ _ _ b _ _
    · exact (failsStructurally_parseParagraph settings p _ tokens _ _ _).map _

end Paragraphs

/-! ## Lines that cannot be read -/

/-- The row is one of the rows or stands in their cells, at any depth. -/
inductive Row.Among (row : Row Element) : List (Row Element) → Prop
  | here {rows : List (Row Element)} (hrow : row ∈ rows) : row.Among rows
  | deeper {rows : List (Row Element)} {outer : Row Element} {t : Table (Row Element)}
      (houter : outer ∈ rows) (htable : .table t ∈ outer.elements) (hrow : row.Among t.rows) :
      row.Among rows

/-- The row stands in the body, at any depth. -/
def Row.Within (row : Row Element) (body : List Element) : Prop :=
  ∃ t, .table t ∈ body ∧ row.Among t.rows

theorem Row.Within.mono {row : Row Element} {body body' : List Element} (h : row.Within body)
    (hsub : body ⊆ body') : row.Within body' := by
  obtain ⟨t, ht, hrow⟩ := h
  exact ⟨t, hsub ht, hrow⟩

theorem Row.Among.mono {row : Row Element} {rows rows' : List (Row Element)} (h : row.Among rows)
    (hsub : rows ⊆ rows') : row.Among rows' := by
  cases h with
  | here hrow => exact .here (hsub hrow)
  | deeper houter htable hrow => exact .deeper (hsub houter) htable hrow

/-- The error is that of a line whose text cannot be read, while the lines before it can. It is
reported in the paragraph of the line, or at the end of a row in the first paragraph of the row; `n`
paragraphs have been read before the lines, and the row has the property `R`. -/
def MisreadIn (strict : Bool) (R : Row Element → Prop) (lines : List Line) (n : Nat)
    (e : ParseError) : Prop :=
  ∃ before within line after, lines = before ++ within ++ line :: after ∧
    (∀ l ∈ before, l.paragraph.Splits strict) ∧
    (within = [] ∨ ∃ row, R row ∧ row.outerParagraphs?.isSome ∧
      cellsLines strict row.cells = within ++ [line]) ∧
    tokensOf strict (n + keptCount before) (runsText line.paragraph.runs) = .error e

/-- The error is that of a line in one of the elements, before which `n` paragraphs have been
read. -/
def MisreadBody (strict : Bool) (n : Nat) (e : ParseError) : List Element → Prop
  | [] => False
  | element :: rest =>
    MisreadIn strict (·.Within [element]) (element.lines strict) n e ∨
      (∀ p ∈ element.paragraphs, p.Splits strict) ∧
        MisreadBody strict (n + keptCount (element.lines strict)) e rest

section Misread

variable {strict : Bool} {n : Nat} {e : ParseError} {R R' : Row Element → Prop} {lines : List Line}

theorem MisreadIn.mono (h : MisreadIn strict R lines n e) (hR : ∀ row, R row → R' row) :
    MisreadIn strict R' lines n e := by
  obtain ⟨before, within, line, after, hlines, hbefore, hrow, htokens⟩ := h
  refine ⟨before, within, line, after, hlines, hbefore, ?_, htokens⟩
  exact hrow.imp_right fun ⟨row, hrow, hlast⟩ => ⟨row, hR row hrow, hlast⟩

theorem MisreadIn.append (h : MisreadIn strict R lines n e) (back : List Line) :
    MisreadIn strict R (lines ++ back) n e := by
  obtain ⟨before, within, line, after, rfl, hbefore, hrow, htokens⟩ := h
  exact ⟨before, within, line, after ++ back, by simp, hbefore, hrow, htokens⟩

/-- Lines in front have been read before. -/
theorem MisreadIn.behind {front : List Line}
    (h : MisreadIn strict R lines (n + keptCount front) e)
    (hfront : ∀ p ∈ front.map Line.paragraph, p.Splits strict) :
    MisreadIn strict R (front ++ lines) n e := by
  obtain ⟨before, within, line, after, rfl, hbefore, hrow, htokens⟩ := h
  rw [List.forall_mem_map] at hfront
  refine ⟨front ++ before, within, line, after, by simp, ?_, hrow, ?_⟩
  · exact List.forall_mem_append.2 ⟨hfront, hbefore⟩
  · rw [keptCount_append, ← Nat.add_assoc]
    exact htokens

theorem misreadBody_append_iff {as bs : List Element} :
    MisreadBody strict n e (as ++ bs) ↔
      MisreadBody strict n e as ∨ (∀ p ∈ bodyParagraphs as, p.Splits strict) ∧
        MisreadBody strict (n + keptCount (bodyLines strict as)) e bs := by
  induction as generalizing n with
  | nil => simp [MisreadBody]
  | cons a as ih =>
    rw [List.cons_append, MisreadBody, MisreadBody, ih, bodyLines_cons, keptCount_append,
      bodyParagraphs_cons, List.forall_mem_append, Nat.add_assoc, or_assoc, and_or_left, and_assoc]

/-- The lines of a body are those of its elements. -/
theorem MisreadBody.misreadIn {body : List Element} (h : MisreadBody strict n e body) :
    MisreadIn strict (·.Within body) (bodyLines strict body) n e := by
  induction body generalizing n with
  | nil => exact h.elim
  | cons element rest ih =>
    rw [bodyLines_cons]
    rcases h with h | ⟨hsplits, h⟩
    · exact (h.mono fun row hrow => hrow.mono (by simp)).append _
    · have hlines : (element.lines strict).map Line.paragraph = element.paragraphs := by
        simpa using map_bodyLines strict [element]
      exact ((ih h).mono fun row hrow => hrow.mono (by simp)).behind (hlines ▸ hsplits)

/-- The error is not that of a paragraph which can be read. -/
theorem not_misreadBody_of_splits {ps : List Paragraph} (h : ∀ p ∈ ps, p.Splits strict) :
    ¬ MisreadBody strict n e (ps.map .paragraph) := by
  intro hmisread
  obtain ⟨before, within, line, after, hlines, -, -, htokens⟩ := hmisread.misreadIn
  have hmem : line.paragraph ∈ ps := by
    rw [← bodyParagraphs_map_paragraph ps, ← map_bodyLines strict, hlines]
    simp
  obtain ⟨tokens, hsplits⟩ := h _ hmem
  rw [tokensOf_ok_iff.2 hsplits] at htokens
  cases htokens

/-! ## Rows that cannot be read -/

/-- The markers of a row are looked for in its first and its last paragraph. -/
theorem exists_of_rowMarkers?_error {row : Row Element} (h : rowMarkers? strict row = .error e) :
    ∃ first last, row.outerParagraphs? = some (first, last) ∧
      (tokenize strict (runsText first.runs) = .error e ∨
        tokenize strict (runsText last.runs) = .error e) := by
  unfold rowMarkers? at h
  split at h
  · cases h
  · next first last houter =>
    refine ⟨first, last, houter, ?_⟩
    cases hfirst : tokenize strict (runsText first.runs) with
    | error e' =>
      rw [hfirst] at h
      exact .inl (congrArg _ (Except.error.inj h))
    | ok firstTokens =>
      cases hlast : tokenize strict (runsText last.runs) with
      | error e' =>
        rw [hfirst, hlast] at h
        exact .inr (congrArg _ (Except.error.inj h))
      | ok lastTokens =>
        simp only [hfirst, hlast, bind, Except.bind, pure, Except.pure] at h
        repeat' split at h
        all_goals cases h

/-- What is wrong in the first or in the last paragraph of a row is reported in the first one. -/
theorem misreadIn_of_rowMarkers? {row : Row Element}
    (h : rowMarkers? strict row = .error e) (hrow : R row) (n : Nat) :
    MisreadIn strict R (cellsLines strict row.cells) n (e.atParagraph n) := by
  obtain ⟨first, last, houter, htokens⟩ := exists_of_rowMarkers?_error h
  obtain ⟨hhead, hend⟩ := (outerShape_of_outerParagraphs? houter).paragraphs
  rw [← map_cellsLines strict] at hhead hend
  rcases htokens with htokens | htokens
  · rw [List.head?_map] at hhead
    obtain ⟨line, hline, rfl⟩ := Option.map_eq_some_iff.1 hhead
    obtain ⟨after, hlines⟩ := List.head?_eq_some_iff.1 hline
    exact ⟨[], [], line, after, hlines, List.forall_mem_nil _, .inl rfl,
      tokensOf_eq_error htokens n⟩
  · rw [List.getLast?_map] at hend
    obtain ⟨line, hline, rfl⟩ := Option.map_eq_some_iff.1 hend
    obtain ⟨within, hlines⟩ := List.getLast?_eq_some_iff.1 hline
    exact ⟨[], within, line, [], hlines, List.forall_mem_nil _,
      .inr ⟨row, hrow, Option.isSome_of_eq_some houter, hlines⟩, tokensOf_eq_error htokens n⟩

/-- What is wrong in a repeated row without its markers stands between the paragraphs of the
markers. -/
theorem misreadIn_of_withoutMarkers {row : Row Element} {markers : RowMarkers}
    (hmarkers : rowMarkers? strict row = .ok (some markers))
    (h : MisreadBody strict n e (row.withoutMarkers markers).elements) :
    MisreadIn strict (·.Within row.elements) (row.markLines strict (cellsLines strict row.cells)) n
      e := by
  cases unmarked_of_rowMarkers? hmarkers with
  | @together p left ds hsource hrest _ _ _ _ hleaves =>
    rw [hrest] at h
    have hsplits : ∀ p ∈ [left], p.Splits strict := List.forall_mem_singleton.2 hleaves.splits
    exact absurd h (not_misreadBody_of_splits hsplits)
  | @apart first last first' last' mid ds es hsource hrest hfirst hleavesFirst _ _ hleavesLast _ =>
    rw [hrest, misreadBody_append_iff, misreadBody_append_iff, keptCount_unlessDropped] at h
    rcases h with (h | ⟨-, h⟩) | ⟨-, h⟩
    · exact absurd h (not_misreadBody_of_splits (splits_unlessDropped hleavesFirst.splits _))
    · have hfront : (if row.dropsOpener markers then 0 else 1) =
          keptCount [{ paragraph := first, opener := some markers.opener,
                       dropped := row.dropsOpener markers }] := rfl
      rw [hfront] at h
      rw [markLines_apart hmarkers hsource, hsource]
      refine .append (.behind (h.misreadIn.mono fun row hrow => hrow.mono (by simp)) ?_) _
      exact List.forall_mem_singleton.2 hfirst.splits
    · exact absurd h (not_misreadBody_of_splits (splits_unlessDropped hleavesLast.splits _))

/-- The lines of a row come before those of the rows behind it. -/
theorem misreadIn_cons {row : Row Element} {rows : List (Row Element)} {m : Nat}
    (hsplits : ∀ p ∈ cellsParagraphs row.cells, p.Splits strict)
    (hcount : m = n + keptCount (row.markLines strict (cellsLines strict row.cells)))
    (h : MisreadIn strict (·.Among rows) (rowsLines strict rows) m e) :
    MisreadIn strict (·.Among (row :: rows)) (rowsLines strict (row :: rows)) n e := by
  subst hcount
  rw [rowsLines_cons]
  refine (h.mono fun inner hinner => hinner.mono (List.subset_cons_self _ _)).behind ?_
  rw [map_markLines, map_cellsLines]
  exact hsplits

end Misread

/-! ## Bodies and tables -/

section Counts

variable {settings : TemplateSettings} {s s' : Progress}

/-- The lines that the parser has got through can be read, and it has counted them but for those
that are dropped. -/
theorem counted_of_feedBody {b b' : Builder} {body : List Element}
    (hlimit : b.limit = settings.maxNestingDepth.toNat)
    (hdepth : b.depth ≤ settings.maxNestingDepth.toNat)
    (h : feedBody settings b body s = .ok (b', s')) :
    (∀ p ∈ bodyParagraphs body, p.Splits settings.strict) ∧
      s'.paragraph = s.paragraph + keptCount (bodyLines settings.strict body) := by
  obtain ⟨hfits, hadvances⟩ := feedBodyReads settings b body hlimit hdepth s b' s' h
  obtain ⟨added, hadds, -⟩ := hadvances.adds
  refine ⟨hfits.splits, ?_⟩
  rw [hadds.paragraph, (outlineMarks settings.strict body hfits.splits).2]

theorem counted_of_parseRows {depth : Nat} {rows : List (Row Element)}
    {blocks : List (RowBlock Block)} (hdepth : depth ≤ settings.maxNestingDepth.toNat)
    (h : parseRows settings depth rows s = .ok (blocks, s')) :
    (∀ p ∈ rowsParagraphs rows, p.Splits settings.strict) ∧
      s'.paragraph = s.paragraph + keptCount (rowsLines settings.strict rows) := by
  obtain ⟨hfits, hadds⟩ := (parserReads settings).2.1 depth rows hdepth s blocks s' h
  refine ⟨hfits.splits, ?_⟩
  rw [hadds.paragraph, ((outlinesMarks settings.strict).2.1 rows hfits.splits).2]

theorem counted_of_parseCells {depth : Nat} {cells : List (Cell Element)}
    {blocks : List (Cell Block)} (hdepth : depth ≤ settings.maxNestingDepth.toNat)
    (h : parseCells settings depth cells s = .ok (blocks, s')) :
    (∀ p ∈ cellsParagraphs cells, p.Splits settings.strict) ∧
      s'.paragraph = s.paragraph + keptCount (cellsLines settings.strict cells) := by
  obtain ⟨hfits, hadds⟩ := (parserReads settings).2.2 depth cells hdepth s blocks s' h
  refine ⟨hfits.splits, ?_⟩
  rw [hadds.paragraph, ((outlinesMarks settings.strict).2.2 cells hfits.splits).2]

end Counts

section Motives

variable (settings : TemplateSettings)

/-- If the parser stops in a body at a directive that cannot be read, the error is that of a line of
the body. -/
def FeedBodyMisreads (b : Builder) (body : List Element) : Prop :=
  b.limit = settings.maxNestingDepth.toNat → b.depth ≤ settings.maxNestingDepth.toNat →
    ∀ s, OnlyFails
      (fun e => e.IsStructural ∨ MisreadBody settings.strict s.paragraph e body)
      (feedBody settings b body s)

/-- If the parser stops in some rows at a directive that cannot be read, the error is that of one of
their lines. -/
def ParseRowsMisreads (depth : Nat) (rows : List (Row Element)) : Prop :=
  depth ≤ settings.maxNestingDepth.toNat →
    ∀ s, OnlyFails
      (fun e => e.IsStructural ∨
        MisreadIn settings.strict (·.Among rows) (rowsLines settings.strict rows) s.paragraph e)
      (parseRows settings depth rows s)

/-- If the parser stops in some cells at a directive that cannot be read, the error is that of a line
in one of their elements. -/
def ParseCellsMisreads (depth : Nat) (cells : List (Cell Element)) : Prop :=
  depth ≤ settings.maxNestingDepth.toNat →
    ∀ s, OnlyFails
      (fun e => e.IsStructural ∨
        MisreadBody settings.strict s.paragraph e (cells.flatMap Cell.body))
      (parseCells settings depth cells s)

end Motives

section Bodies

variable {settings : TemplateSettings}

theorem feedBodyMisreads_paragraph {b : Builder} {p : Paragraph} {rest : List Element}
    (ih : ∀ b : Builder, FeedBodyMisreads settings b rest) :
    FeedBodyMisreads settings b (.paragraph p :: rest) := by
  intro hlimit hdepth s
  rw [feedBody_paragraph]
  refine .stateT_bind ?_ fun b₁ s₁ hp => ?_
  · refine (onlyFails_feedParagraph settings b p s).mono fun e he => he.imp_right fun h => .inl ?_
    rw [lines_paragraph]
    exact ⟨[], [], { paragraph := p }, [], rfl, List.forall_mem_nil _, .inl rfl, h⟩
  · obtain ⟨hlimit₁, hdepth₁, hcount⟩ := within_of_feedParagraph hlimit hdepth hp
    refine (ih b₁ hlimit₁ hdepth₁ s₁).mono fun e he => he.imp_right fun h => .inr ?_
    rw [hcount] at h
    rw [lines_paragraph, paragraphs_paragraph, List.forall_mem_singleton]
    exact ⟨tokenize_of_feedParagraph hp, h⟩

theorem feedBodyMisreads_table {b : Builder} {t : Table (Row Element)} {rest : List Element}
    (ihRows : ParseRowsMisreads settings b.depth t.rows)
    (ih : ∀ rows : List (RowBlock Block),
      FeedBodyMisreads settings (b.push (.table ⟨t.properties, t.grid, rows⟩)) rest) :
    FeedBodyMisreads settings b (.table t :: rest) := by
  intro hlimit hdepth s
  rw [feedBody_table]
  refine .stateT_bind ?_ fun rows s₁ hrows => ?_
  · refine (ihRows hdepth s).mono fun e he => he.imp_right fun h => .inl ?_
    rw [lines_table]
    exact h.mono fun row hrow => ⟨t, List.mem_singleton_self _, hrow⟩
  · obtain ⟨hsplits, hcount⟩ := counted_of_parseRows hdepth hrows
    refine (ih rows ((Builder.limit_push _ _).trans hlimit)
      ((Builder.depth_push _ _).symm ▸ hdepth) s₁).mono fun e he => he.imp_right fun h => .inr ?_
    rw [hcount] at h
    rw [lines_table, paragraphs_table]
    exact ⟨hsplits, h⟩

theorem parseRowsMisreads_cons {depth : Nat} {row : Row Element} {rows : List (Row Element)}
    (ihRows : ParseRowsMisreads settings depth rows)
    (ihRepeated : ∀ markers : RowMarkers,
      ParseCellsMisreads settings (depth + 1) (row.withoutMarkers markers).cells)
    (ihOnce : ParseCellsMisreads settings depth row.cells) :
    ParseRowsMisreads settings depth (row :: rows) := by
  intro hdepth s
  have hwithin : ∀ inner : Row Element, inner.Within row.elements → inner.Among (row :: rows) :=
    fun inner ⟨t, ht, hinner⟩ => .deeper List.mem_cons_self ht hinner
  cases hmarkers : rowMarkers? settings.strict row with
  | error e₀ =>
    have honce : ∀ markers, rowMarkers? settings.strict row ≠ .ok (some markers) := by
      simp [hmarkers]
    rw [parseRows_error settings hmarkers, rowsLines_cons, markLines_of_not_repeated honce]
    have hrow := misreadIn_of_rowMarkers? (R := (·.Among (row :: rows))) hmarkers
      (.here List.mem_cons_self) s.paragraph
    exact .error (.inr (hrow.append _))
  | ok found =>
    cases found with
    | none =>
      have honce : ∀ markers, rowMarkers? settings.strict row ≠ .ok (some markers) := by
        simp [hmarkers]
      rw [parseRows_once settings hmarkers]
      refine .stateT_bind ?_ fun cells s₁ hcells => ?_
      · refine (ihOnce hdepth s).mono fun e he => he.imp_right fun h => ?_
        rw [rowsLines_cons, markLines_of_not_repeated honce, cellsLines_eq]
        exact (h.misreadIn.mono hwithin).append _
      · refine .stateT_bind ?_ fun rest s₂ _ => .ok _ _
        obtain ⟨hsplits, hcount⟩ := counted_of_parseCells hdepth hcells
        rw [← markLines_of_not_repeated honce (cellsLines _ _)] at hcount
        exact (ihRows hdepth s₁).mono fun e he => he.imp_right (misreadIn_cons hsplits hcount)
    | some markers =>
      rw [parseRows_repeated settings hmarkers]
      refine .lift_bind ((failsStructurally_checkDepth _ _ _).mono fun e => Or.inl)
        fun _ hcheck => ?_
      have hbelow := Builder.checkDepth_ok_iff.1 hcheck
      refine .stateT_bind ?_ fun cells s₁ hcells => ?_
      · refine (ihRepeated markers hbelow s).mono fun e he => he.imp_right fun h => ?_
        rw [rowsLines_cons]
        exact ((misreadIn_of_withoutMarkers hmarkers h).mono hwithin).append _
      · refine .stateT_bind ?_ fun rest s₂ _ => .ok _ _
        obtain ⟨hsplits, hcount⟩ := counted_of_parseCells hbelow hcells
        rw [splits_withoutMarkers_iff hmarkers] at hsplits
        rw [← (lineMarks_repeated hmarkers 0).2] at hcount
        exact (ihRows hdepth s₁).mono fun e he => he.imp_right (misreadIn_cons hsplits hcount)

theorem parseCellsMisreads_cons {depth : Nat} {cell : Cell Element} {cells : List (Cell Element)}
    (ihBody : FeedBodyMisreads settings
      { baseDepth := depth, limit := settings.maxNestingDepth.toNat } cell.body)
    (ihCells : ParseCellsMisreads settings depth cells) :
    ParseCellsMisreads settings depth (cell :: cells) := by
  intro hdepth s
  rw [parseCells_cons, List.flatMap_cons]
  refine .stateT_bind ?_ fun b s₁ hbody => ?_
  · refine (ihBody rfl hdepth s).mono fun e he => he.imp_right fun h => ?_
    exact misreadBody_append_iff.2 (.inl h)
  · refine .lift_bind (b.failsStructurally_finish.mono fun e => Or.inl) fun body _ => ?_
    refine .stateT_bind ?_ fun rest s₂ _ => .ok _ _
    obtain ⟨hsplits, hcount⟩ := counted_of_feedBody
      (b := { baseDepth := depth, limit := settings.maxNestingDepth.toNat }) rfl hdepth hbody
    refine (ihCells hdepth s₁).mono fun e he => he.imp_right fun h => ?_
    rw [hcount] at h
    exact misreadBody_append_iff.2 (.inr ⟨hsplits, h⟩)

/-- A directive that cannot be read stands in a line of the body. -/
theorem feedBodyMisreads (settings : TemplateSettings) (b : Builder) (body : List Element) :
    FeedBodyMisreads settings b body :=
  (feedBody.mutual_induct settings (FeedBodyMisreads settings) (ParseRowsMisreads settings)
    (ParseCellsMisreads settings)
    (fun b _ _ s => by
      rw [feedBody_nil]
      exact .ok _ _)
    (fun _ _ _ => feedBodyMisreads_paragraph) (fun _ _ _ => feedBodyMisreads_table)
    (fun depth _ s => by
      rw [parseRows_nil]
      exact .ok _ _)
    (fun _ _ _ ihRows ihRepeated ihOnce => parseRowsMisreads_cons ihRows ihRepeated ihOnce)
    (fun depth _ s => by
      rw [parseCells_nil]
      exact .ok _ _)
    (fun _ _ _ ihBody ihCells => parseCellsMisreads_cons ihBody ihCells)).1 b body

end Bodies

/-! ## Documents -/

/-- The text stands at the place in the document: the paragraphs are counted in document order,
those in cells included, and the offset is one into the text of the runs. -/
def Document.HasTextAt (d : Document) (source : String) (position : Position) : Prop :=
  ∃ p before after, d.allParagraphs[position.paragraph]? = some p ∧
    runsText p.runs = before ++ source.toList ++ after ∧ byteLength before = position.offset

theorem keptCount_le_length (lines : List Line) : keptCount lines ≤ lines.length := by
  induction lines with
  | nil => exact Nat.le_refl _
  | cons line lines ih =>
    have hline : line.count ≤ 1 := by
      rw [Line.count]
      split <;> omega
    rw [keptCount_cons, List.length_cons]
    omega

/-- The parser counts all of the lines exactly if none of them is dropped. -/
theorem keptCount_eq_length_iff {lines : List Line} :
    keptCount lines = lines.length ↔ ∀ line ∈ lines, line.dropped = false := by
  induction lines with
  | nil => simp
  | cons line lines ih =>
    have hle := keptCount_le_length lines
    rw [keptCount_cons, List.length_cons, List.forall_mem_cons, ← ih, Line.count]
    cases line.dropped with
    | true =>
      simp only [if_true, Bool.true_eq_false, false_and, iff_false]
      omega
    | false =>
      simp only [Bool.false_eq_true, if_false, true_and]
      omega

namespace Template

variable {settings : TemplateSettings} {name : String} {d : Document} {e : ParseError}

/-- The parser of documents stops at a directive that cannot be read in one of the lines. -/
theorem misreadIn_of_ofDocument {source : String} (h : ofDocument settings name d = .error e)
    (hsource : e.fault.misread? = some source) :
    ∃ e₀, MisreadIn settings.strict (·.Within d.body) (bodyLines settings.strict d.body) 0 e₀ ∧
      e = e₀.withTemplate name := by
  rw [ofDocument_eq, map_eq_error_iff] at h
  obtain ⟨e₀, h₀, rfl⟩ := exists_of_mapError_eq_error h
  have hparse : OnlyFails
      (fun e => e.IsStructural ∨ MisreadBody settings.strict 0 e d.body)
      (parseBody settings d.body {}) := by
    refine .stateT_bind (feedBodyMisreads settings settings.builder d.body rfl (Nat.zero_le _) {})
      fun b s _ => ?_
    exact (b.failsStructurally_finish.mono fun e => Or.inl).lift s
  rcases hparse e₀ h₀ with hstructural | hmisread
  · have hnone : e₀.fault.misread? = none := hstructural
    have hsome : e₀.fault.misread? = some source := hsource
    rw [hnone] at hsome
    cases hsome
  · exact ⟨e₀, hmisread.misreadIn, rfl⟩

/-- A directive that cannot be read stands at the reported offset in the paragraph of the `line`. All
lines `before` can be read. There are lines `within` a row only if the line is the last one of the
row, which is looked at for a marker before the row is read. The reported number counts those lines
`before` that are not dropped with a marker; so it is the number of the paragraph exactly if all of
them are kept and there are none `within`. -/
theorem misread_of_ofDocument {source : String} (h : ofDocument settings name d = .error e)
    (hsource : e.fault.misread? = some source) :
    ∃ before within line after,
      bodyLines settings.strict d.body = before ++ within ++ line :: after ∧
      tokenize settings.strict (runsText line.paragraph.runs) =
        .error { fault := e.fault, position := { offset := e.position.offset } } ∧
      (∀ l ∈ before, l.paragraph.Splits settings.strict) ∧
      (within = [] ∨ ∃ row : Row Element, row.Within d.body ∧ row.outerParagraphs?.isSome ∧
        cellsLines settings.strict row.cells = within ++ [line]) ∧
      d.HasTextAt source
        { paragraph := (before ++ within).length, offset := e.position.offset } ∧
      e.position.paragraph = keptCount before ∧
      (e.position.paragraph = (before ++ within).length ↔
        within = [] ∧ ∀ l ∈ before, l.dropped = false) := by
  obtain ⟨e₀, ⟨before, within, line, after, hlines, hbefore, hrow, htokens⟩, rfl⟩ :=
    misreadIn_of_ofDocument h hsource
  obtain ⟨e₁, htokenize, rfl⟩ := exists_of_mapError_eq_error htokens
  obtain ⟨front, text, back, fault, htext, hfault, rfl⟩ := tokenize_error htokenize
  have hnumber : 0 + keptCount before = keptCount before := Nat.zero_add _
  refine ⟨before, within, line, after, hlines, htokenize, hbefore, hrow, ?_, hnumber, ?_⟩
  · have hparagraph : d.allParagraphs[(before ++ within).length]? = some line.paragraph := by
      rw [Document.allParagraphs, ← map_bodyLines settings.strict, hlines, List.map_append,
        List.map_cons, List.getElem?_append_right (by simp)]
      simp
    have hsource : source = String.ofList text := Option.some.inj (hsource.symm.trans hfault)
    refine ⟨line.paragraph, front, back, hparagraph, ?_, rfl⟩
    rw [hsource, String.toList_ofList]
    exact htext
  · have hle := keptCount_le_length before
    show 0 + keptCount before = _ ↔ _
    rw [← keptCount_eq_length_iff, ← List.length_eq_zero_iff, List.length_append]
    omega

end Template

/-- A row with a wrong directive in its last cell. -/
def faultyRow : Document :=
  let cell (text : String) : Cell Element := { body := [.paragraph { runs := [.ofText text] }] }
  { body := [.table { rows := [{ cells := [cell "Item", cell "\x7b\x7b#if\x7d\x7d"] }] }] }

/-- The error of the row. -/
def faultyRowError : ParseError where
  template := "t"
  fault := .malformedDirective "\x7b\x7b#if\x7d\x7d"
  position := { paragraph := 0, offset := 0 }

theorem ofDocument_faultyRow : Template.ofDocument {} "t" faultyRow = .error faultyRowError :=
  failure?_eq_some_iff.1 (by decide +kernel)

theorem faultyRow_misread : Template.ofDocument {} "t" faultyRow = .error faultyRowError ∧
    faultyRowError.fault.misread? = some "\x7b\x7b#if\x7d\x7d" ∧
    ∃ number, faultyRow.HasTextAt "\x7b\x7b#if\x7d\x7d"
      { paragraph := number, offset := faultyRowError.position.offset } := by
  have hsource : faultyRowError.fault.misread? = some "\x7b\x7b#if\x7d\x7d" := rfl
  obtain ⟨before, within, -, -, -, -, -, -, hstands, -⟩ :=
    Template.misread_of_ofDocument ofDocument_faultyRow hsource
  exact ⟨ofDocument_faultyRow, hsource, _, hstands⟩

/-- The directive is reported in the first cell, where it does not stand. -/
theorem faultyRow_misplaced : Template.ofDocument {} "t" faultyRow = .error faultyRowError ∧
    faultyRowError.fault = .malformedDirective "\x7b\x7b#if\x7d\x7d" ∧
    ¬ faultyRow.HasTextAt "\x7b\x7b#if\x7d\x7d" faultyRowError.position := by
  refine ⟨ofDocument_faultyRow, rfl, ?_⟩
  rintro ⟨p, before, after, hp, htext, -⟩
  have hfirst : faultyRow.allParagraphs[0]? = some { runs := [.ofText "Item"] } := by decide +kernel
  obtain rfl := Option.some.inj (hp.symm.trans hfirst)
  -- the directive is longer than the text of the first cell
  have hlength := congrArg List.length htext
  simp [runsText, Run.ofText, Run.text?] at hlength
  omega

end StyledTemplate
