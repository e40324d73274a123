import StyledTemplate.Proofs.Template.Parsing

/-!
# What reading does to the progress

Two things that the parser keeps track of are read off the directives of a template one by one: the
parent that has been declared and the paths of the placeholders. What they are behind a part of a
template is a relation between the progress before it, the marks of the part and the progress behind
it. Such a relation holds for all that the parser gets through (`FollowsMarks.feedBody`) if it holds
for a single directive and for the markers of a repeated row, and if it composes.
-/

namespace StyledTemplate

/-- A relation between the progress before a part of a template and the progress behind it that
follows the marks `ms` of the part; `n` is the number of its paragraphs. -/
structure FollowsMarks (strict : Bool) (R : Progress → List Mark → Nat → Progress → Prop) :
    Prop where
  /-- Where nothing is read, nothing changes. -/
  refl (s : Progress) : R s [] 0 s
  /-- Two parts are read one after the other. -/
  trans {s s' s'' : Progress} {ms ns : List Mark} {m n : Nat} (h : R s ms m s')
    (h' : R s' ns n s'') : R s (ms ++ ns) (m + n) s''
  /-- A directive is fed to a builder. -/
  directive {opener : String} {style : RunProperties} {position : Position} {b b' : Builder}
    {d : Directive} {s s' : Progress}
    (h : applyDirective strict opener style position b d s = .ok (b', s')) :
    R s [d.mark position] 0 s'
  /-- The marker that opens a repeated row is not fed to a builder. -/
  rowOpen (s : Progress) (list : String) : R s [rowOpen s.paragraph list] 0 s
  /-- The marker that closes a repeated row is not fed to a builder. -/
  rowClose (s : Progress) : R s [rowClose] 0 s
  /-- A paragraph is counted before it is read. -/
  counted {s s' : Progress} {ms : List Mark}
    (h : R { s with paragraph := s.paragraph + 1 } ms 0 s') : R s ms 1 s'
  /-- The paragraphs are counted. -/
  paragraph {s s' : Progress} {ms : List Mark} {n : Nat} (h : R s ms n s') :
    s'.paragraph = s.paragraph + n

namespace FollowsMarks

variable {settings : TemplateSettings} {strict : Bool} {b b' : Builder} {s s' : Progress}
  {R : Progress → List Mark → Nat → Progress → Prop}

/-! ## Paragraphs -/

theorem pushTokens (hR : FollowsMarks strict R) {ordinal : Nat} {map : RunMap}
    {anchors : List Anchor} {tokens : List Token}
    (h : StyledTemplate.pushTokens strict ordinal map b anchors tokens s = .ok (b', s')) :
    R s ((placedOf tokens).map (Placed.mark ordinal)) 0 s' := by
  induction tokens generalizing b anchors s with
  | nil =>
    obtain ⟨rfl, rfl⟩ := Prod.mk.inj (Except.ok.inj h)
    exact hR.refl s
  | cons token tokens ih =>
    obtain ⟨kind, start, stop⟩ := token
    cases kind with
    | text literal =>
      rw [pushTokens_text] at h
      exact ih h
    | directive d =>
      rw [pushTokens_directive] at h
      obtain ⟨b₁, s₁, hd, h⟩ := exists_of_stateT_bind_eq_ok h
      exact hR.trans (hR.directive hd) (ih h)

theorem parseParagraph (hR : FollowsMarks settings.strict R) {p : Paragraph} {map : RunMap}
    {tokens : List Token} {ordinal depth : Nat} {block : Block}
    (h : StyledTemplate.parseParagraph settings p map tokens ordinal depth s = .ok (block, s')) :
    R s ((placedOf tokens).map (Placed.mark ordinal)) 0 s' := by
  unfold StyledTemplate.parseParagraph at h
  split at h
  · obtain ⟨b, s₁, hpush, h⟩ := exists_of_stateT_bind_eq_ok h
    obtain ⟨blocks, -, h⟩ := exists_of_lift_bind_eq_ok h
    obtain ⟨rfl, rfl⟩ := Prod.mk.inj (Except.ok.inj h)
    exact hR.pushTokens hpush
  · next hno =>
    obtain ⟨rfl, rfl⟩ := Prod.mk.inj (Except.ok.inj h)
    rw [placedOf_eq_nil_iff.2 (by simpa using hno)]
    exact hR.refl s

theorem feedParagraph (hR : FollowsMarks settings.strict R) {p : Paragraph}
    (h : StyledTemplate.feedParagraph settings b p s = .ok (b', s')) :
    R s (itemsMarks s.paragraph [p.item settings.strict]) 1 s' := by
  obtain ⟨tokens, htokens⟩ := tokenize_of_feedParagraph h
  have hsame := tokens_eq_of_tokenize htokens
  rw [itemsMarks, itemsMarks, List.append_nil, marks_item, Paragraph.placed, hsame]
  rw [feedParagraph_eq htokens] at h
  cases hstandalone : standalone? (.ofRuns p.runs) tokens with
  | some found =>
    rw [hstandalone] at h
    rw [placedOf_of_standalone? hstandalone]
    exact hR.counted (hR.directive h)
  | none =>
    rw [hstandalone] at h
    obtain ⟨⟨block, s₁⟩, hparse, hpair⟩ := exists_of_map_eq_ok h
    obtain ⟨rfl, rfl⟩ := Prod.mk.inj hpair
    exact hR.counted (hR.parseParagraph hparse)

end FollowsMarks

/-! ## Bodies and tables -/

section Bodies

variable (settings : TemplateSettings) (R : Progress → List Mark → Nat → Progress → Prop)

/-- The relation holds for a body that the parser gets through. -/
def BodyFollowsMarks (b : Builder) (body : List Element) : Prop :=
  ∀ s b' s', feedBody settings b body s = .ok (b', s') →
    R s (itemsMarks s.paragraph (outline settings.strict body))
      (itemsCount (outline settings.strict body)) s'

/-- The relation holds for rows that the parser gets through. -/
def RowsFollowMarks (depth : Nat) (rows : List (Row Element)) : Prop :=
  ∀ s blocks s', parseRows settings depth rows s = .ok (blocks, s') →
    R s (rowsMarks s.paragraph (outlineRows settings.strict rows))
      (rowsCount (outlineRows settings.strict rows)) s'

/-- The relation holds for cells that the parser gets through. -/
def CellsFollowMarks (depth : Nat) (cells : List (Cell Element)) : Prop :=
  ∀ s blocks s', parseCells settings depth cells s = .ok (blocks, s') →
    R s (cellsMarks s.paragraph (outlineCells settings.strict cells))
      (cellsCount (outlineCells settings.strict cells)) s'

end Bodies

namespace FollowsMarks

variable {settings : TemplateSettings} {R : Progress → List Mark → Nat → Progress → Prop}

theorem feedBody_paragraph (hR : FollowsMarks settings.strict R) {b : Builder} {p : Paragraph}
    {rest : List Element} (ih : ∀ b : Builder, BodyFollowsMarks settings R b rest) :
    BodyFollowsMarks settings R b (.paragraph p :: rest) := by
  intro s b' s' h
  rw [StyledTemplate.feedBody_paragraph] at h
  obtain ⟨b₁, s₁, hp, h⟩ := exists_of_stateT_bind_eq_ok h
  have hone := hR.feedParagraph hp
  have hrest := ih b₁ s₁ b' s' h
  rw [hR.paragraph hone] at hrest
  have hboth := hR.trans hone hrest
  rw [itemsMarks, itemsMarks, List.append_nil] at hboth
  rw [outline_paragraph, itemsMarks, itemsCount, Paragraph.count_item]
  exact hboth

theorem feedBody_table (hR : FollowsMarks settings.strict R) {b : Builder}
    {t : Table (Row Element)} {rest : List Element}
    (ihRows : RowsFollowMarks settings R b.depth t.rows)
    (ih : ∀ rows : List (RowBlock Block),
      BodyFollowsMarks settings R (b.push (.table ⟨t.properties, t.grid, rows⟩)) rest) :
    BodyFollowsMarks settings R b (.table t :: rest) := by
  intro s b' s' h
  rw [StyledTemplate.feedBody_table] at h
  obtain ⟨rows, s₁, hrows, h⟩ := exists_of_stateT_bind_eq_ok h
  have hone := ihRows s rows s₁ hrows
  have hrest := ih rows s₁ b' s' h
  rw [hR.paragraph hone] at hrest
  rw [outline_table, itemsMarks, itemsCount, Item.marks, Item.count]
  exact hR.trans hone hrest

theorem parseRows_cons (hR : FollowsMarks settings.strict R) {depth : Nat} {row : Row Element}
    {rows : List (Row Element)} (ihRows : RowsFollowMarks settings R depth rows)
    (ihRepeated : ∀ markers : RowMarkers,
      CellsFollowMarks settings R (depth + 1) (row.withoutMarkers markers).cells)
    (ihOnce : CellsFollowMarks settings R depth row.cells) :
    RowsFollowMarks settings R depth (row :: rows) := by
  intro s blocks s' h
  obtain ⟨markers, hmarkers⟩ := exists_of_parseRows_cons settings h
  cases markers with
  | none =>
    rw [parseRows_once settings hmarkers] at h
    obtain ⟨cells, s₁, hcells, h⟩ := exists_of_stateT_bind_eq_ok h
    obtain ⟨rest, s₂, hrest, h⟩ := exists_of_stateT_bind_eq_ok h
    obtain ⟨rfl, rfl⟩ := Prod.mk.inj (Except.ok.inj h)
    have hone := ihOnce s cells s₁ hcells
    have htwo := ihRows s₁ rest s₂ hrest
    rw [hR.paragraph hone] at htwo
    rw [outlineRows_once hmarkers, rowsMarks, rowsCount]
    exact hR.trans hone htwo
  | some markers =>
    rw [parseRows_repeated settings hmarkers] at h
    obtain ⟨_, -, h⟩ := exists_of_lift_bind_eq_ok h
    obtain ⟨cells, s₁, hcells, h⟩ := exists_of_stateT_bind_eq_ok h
    obtain ⟨rest, s₂, hrest, h⟩ := exists_of_stateT_bind_eq_ok h
    obtain ⟨rfl, rfl⟩ := Prod.mk.inj (Except.ok.inj h)
    have hone := ihRepeated markers s cells s₁ hcells
    have htwo := ihRows s₁ rest s₂ hrest
    rw [hR.paragraph hone] at htwo
    -- the two markers stand around the marks of the cells
    have hopened := hR.trans (hR.rowOpen s markers.list) hone
    have hclosed := hR.trans (hR.rowClose s₁) htwo
    have hall := hR.trans hopened hclosed
    rw [Nat.zero_add, Nat.zero_add] at hall
    rw [outlineRows_repeated hmarkers, rowsMarks, rowsCount]
    exact hall

theorem parseCells_cons (hR : FollowsMarks settings.strict R) {depth : Nat} {cell : Cell Element}
    {cells : List (Cell Element)}
    (ihBody : BodyFollowsMarks settings R
      { baseDepth := depth, limit := settings.maxNestingDepth.toNat } cell.body)
    (ihCells : CellsFollowMarks settings R depth cells) :
    CellsFollowMarks settings R depth (cell :: cells) := by
  intro s blocks s' h
  rw [StyledTemplate.parseCells_cons] at h
  obtain ⟨b, s₁, hbody, h⟩ := exists_of_stateT_bind_eq_ok h
  obtain ⟨body, -, h⟩ := exists_of_lift_bind_eq_ok h
  obtain ⟨rest, s₂, hrest, h⟩ := exists_of_stateT_bind_eq_ok h
  obtain ⟨rfl, rfl⟩ := Prod.mk.inj (Except.ok.inj h)
  have hone := ihBody s b s₁ hbody
  have htwo := ihCells s₁ rest s₂ hrest
  rw [hR.paragraph hone] at htwo
  rw [outlineCells_cons, cellsMarks, cellsCount]
  exact hR.trans hone htwo

/-- The relation holds for whatever the parser gets through. -/
theorem feedBody (hR : FollowsMarks settings.strict R) (b : Builder) (body : List Element) :
    BodyFollowsMarks settings R b body :=
  (feedBody.mutual_induct settings (BodyFollowsMarks settings R) (RowsFollowMarks settings R)
    (CellsFollowMarks settings R)
    (fun b => by
      intro s b' s' h
      rw [feedBody_nil] at h
      obtain ⟨rfl, rfl⟩ := Prod.mk.inj (Except.ok.inj h)
      rw [outline_nil, itemsMarks, itemsCount]
      exact hR.refl s)
    (fun _ _ _ => hR.feedBody_paragraph)
    (fun _ _ _ => hR.feedBody_table)
    (fun depth => by
      intro s blocks s' h
      rw [parseRows_nil] at h
      obtain ⟨rfl, rfl⟩ := Prod.mk.inj (Except.ok.inj h)
      rw [outlineRows_nil, rowsMarks, rowsCount]
      exact hR.refl s)
    (fun _ _ _ ihRows ihRepeated ihOnce => hR.parseRows_cons ihRows ihRepeated ihOnce)
    (fun depth => by
      intro s blocks s' h
      rw [parseCells_nil] at h
      obtain ⟨rfl, rfl⟩ := Prod.mk.inj (Except.ok.inj h)
      rw [outlineCells_nil, cellsMarks, cellsCount]
      exact hR.refl s)
    (fun _ _ _ ihBody ihCells => hR.parseCells_cons ihBody ihCells)).1 b body

/-- A relation that follows the marks holds between nothing and all that is read of a document. -/
theorem ofDocument (hR : FollowsMarks settings.strict R) {name : String} {d : Document}
    {t : Template} (h : Template.ofDocument settings name d = .ok t) :
    ∃ n s, R {} ((d.occurrences settings.strict).map Occurrence.mark) n s ∧
      t.parent = s.parent ∧ t.placeholders = s.placeholders := by
  have hsplits := (Template.fits_of_ofDocument h).1.splits
  obtain ⟨b, s, hfeed, -, rfl⟩ := Template.ofDocument_ok_iff.1 h
  have hbody := hR.feedBody _ d.body {} b s hfeed
  rw [(outlineMarks settings.strict d.body hsplits).1] at hbody
  exact ⟨_, s, hbody, rfl, rfl⟩

end FollowsMarks

end StyledTemplate
