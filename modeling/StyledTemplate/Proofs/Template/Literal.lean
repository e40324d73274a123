import StyledTemplate.Proofs.Block.Spelling
import StyledTemplate.Proofs.Template.Parsing

/-!
# Documents without directives

The parser turns a document without directives into blocks that show each of its elements as it is,
whatever the text looks like otherwise: no row is repeated, no paragraph stands for a directive, and
no parent is declared. Such a document is a template as soon as its texts can be split into tokens
(`Template.ofDocument_literals`).
-/

namespace StyledTemplate

/-! ## Blocks that show elements as they are -/

mutual

/-- The block that shows an element as it is. -/
def Element.literal : Element → Block
  | .paragraph p => .paragraph p.properties (p.runs.map .static) false
  | .table ⟨properties, grid, rows⟩ => .table ⟨properties, grid, literalRows rows⟩

/-- The rows that show the rows of a table as they are. -/
def literalRows : List (Row Element) → List (RowBlock Block)
  | [] => []
  | ⟨properties, cells⟩ :: rows => .static ⟨properties, literalCells cells⟩ :: literalRows rows

/-- The cells that show the cells of a row as they are. -/
def literalCells : List (Cell Element) → List (Cell Block)
  | [] => []
  | ⟨properties, body⟩ :: cells => ⟨properties, literals body⟩ :: literalCells cells

/-- The blocks that show the elements of a body as they are. -/
def literals : List Element → List Block
  | [] => []
  | element :: rest => element.literal :: literals rest

end

/-! ## Paragraphs without directives -/

theorem Paragraph.Splits.reads {strict : Bool} {p : Paragraph} (h : p.Splits strict) :
    p.Reads strict (p.placed strict) := by
  obtain ⟨tokens, htokens⟩ := h
  rw [Paragraph.Reads, placedIn?_of_tokenize htokens, Paragraph.placed, Paragraph.tokens, htokens]

/-- A row without directives is not repeated. -/
theorem rowMarkers?_of_literal {strict : Bool} {row : Row Element}
    (h : ∀ p ∈ cellsParagraphs row.cells, p.Reads strict []) :
    rowMarkers? strict row = .ok none := by
  obtain ⟨_ | markers, hmarkers⟩ := exists_rowMarkers? fun p hp => (h p hp).splits
  · exact hmarkers
  · -- the first paragraph of a repeated row would have its opening marker
    obtain ⟨first, last, hmarked⟩ := marked_of_rowMarkers? hmarkers
    have hmem : first ∈ cellsParagraphs row.cells := by
      have hshape := hmarked.shape
      generalize row.cells = cells at hshape
      cases hshape <;> simp
    obtain ⟨ds, hfirst, -⟩ := hmarked.reads_first
    exact absurd (Option.some.inj ((h first hmem).symm.trans hfirst)) (List.cons_ne_nil _ _).symm

/-! ## Reading without directives -/

/-- The progress after some more paragraphs without directives. -/
def Progress.skip (s : Progress) (n : Nat) : Progress := { s with paragraph := s.paragraph + n }

theorem Progress.skip_skip (s : Progress) (m n : Nat) : (s.skip m).skip n = s.skip (m + n) := by
  rw [skip, skip, skip, Nat.add_assoc]

section Reading

variable {settings : TemplateSettings}

theorem feedParagraph_literal {p : Paragraph} (h : p.Reads settings.strict []) (b : Builder)
    (s : Progress) :
    feedParagraph settings b p s = .ok (b.push (Element.paragraph p).literal, s.skip 1) := by
  obtain ⟨tokens, htokens⟩ := h.splits
  have hplaced : placedOf tokens = [] :=
    Option.some.inj ((placedIn?_of_tokenize htokens).symm.trans h)
  have halone : standalone? (.ofRuns p.runs) tokens = none := by
    rw [Option.eq_none_iff_forall_ne_some]
    rintro ⟨token, d⟩ hfound
    exact List.cons_ne_nil _ _ ((placedOf_of_standalone? hfound).symm.trans hplaced)
  have hany := placedOf_eq_nil_iff.1 hplaced
  rw [feedParagraph_eq htokens, halone]
  dsimp only
  rw [parseParagraph, if_neg (by simpa using hany), Element.literal]
  rfl

mutual

/-- The parser adds a body without directives to the builder as it is. -/
theorem feedBody_literals : ∀ body : List Element,
    (∀ p ∈ bodyParagraphs body, p.Reads settings.strict []) → ∀ (b : Builder) (s : Progress),
      feedBody settings b body s =
        .ok (b.pushAll (literals body), s.skip (bodyParagraphs body).length)
  | [], _, b, s => by
    rw [feedBody_nil, literals, bodyParagraphs_nil]
    rfl
  | .paragraph p :: rest, h, b, s => by
    rw [bodyParagraphs_cons, paragraphs_paragraph, List.singleton_append, List.forall_mem_cons] at h
    rw [feedBody_paragraph, stateT_bind_eq_ok (feedParagraph_literal h.1 b s),
      feedBody_literals rest h.2, Progress.skip_skip, literals, bodyParagraphs_cons,
      paragraphs_paragraph, List.singleton_append, List.length_cons, Nat.add_comm]
    rfl
  | .table ⟨properties, grid, rows⟩ :: rest, h, b, s => by
    rw [bodyParagraphs_cons, paragraphs_table, List.forall_mem_append] at h
    rw [feedBody_table, stateT_bind_eq_ok (parseRows_literals rows h.1 b.depth s),
      feedBody_literals rest h.2, Progress.skip_skip, literals, Element.literal,
      bodyParagraphs_cons, paragraphs_table, List.length_append]
    rfl

theorem parseRows_literals : ∀ rows : List (Row Element),
    (∀ p ∈ rowsParagraphs rows, p.Reads settings.strict []) → ∀ (depth : Nat) (s : Progress),
      parseRows settings depth rows s =
        .ok (literalRows rows, s.skip (rowsParagraphs rows).length)
  | [], _, depth, s => by
    rw [parseRows_nil, literalRows, rowsParagraphs_nil]
    rfl
  | ⟨properties, cells⟩ :: rows, h, depth, s => by
    rw [rowsParagraphs_cons, List.forall_mem_append] at h
    rw [parseRows_once settings (rowMarkers?_of_literal h.1),
      stateT_bind_eq_ok (parseCells_literals cells h.1 depth s),
      stateT_bind_eq_ok (parseRows_literals rows h.2 depth _), Progress.skip_skip, literalRows,
      rowsParagraphs_cons, List.length_append]
    rfl

theorem parseCells_literals : ∀ cells : List (Cell Element),
    (∀ p ∈ cellsParagraphs cells, p.Reads settings.strict []) → ∀ (depth : Nat) (s : Progress),
      parseCells settings depth cells s =
        .ok (literalCells cells, s.skip (cellsParagraphs cells).length)
  | [], _, depth, s => by
    rw [parseCells_nil, literalCells, cellsParagraphs_nil]
    rfl
  | ⟨properties, body⟩ :: cells, h, depth, s => by
    rw [cellsParagraphs_cons, List.forall_mem_append] at h
    rw [parseCells_cons, stateT_bind_eq_ok (feedBody_literals body h.1 _ s),
      Builder.pushAll_of_root, lift_bind_eq_ok (Builder.finish_ok_iff.2 ⟨rfl, rfl⟩),
      stateT_bind_eq_ok (parseCells_literals cells h.2 depth _), Progress.skip_skip, literalCells,
      cellsParagraphs_cons, List.length_append]
    rfl

end

end Reading

namespace Template

/-- A document without directives is a template that shows it as it is and inherits from none. -/
theorem ofDocument_literals {settings : TemplateSettings} {d : Document}
    (h : ∀ p ∈ d.allParagraphs, p.Reads settings.strict []) (name : String) :
    ofDocument settings name d = .ok ⟨name, literals d.body, none, NameMap.empty, d⟩ := by
  have hfeed := feedBody_literals d.body h settings.builder {}
  rw [TemplateSettings.builder, Builder.pushAll_of_root] at hfeed
  exact ofDocument_ok_iff.2 ⟨_, _, hfeed, rfl, rfl⟩

/-- If a document without directives is a template at all, it shows the document as it is. -/
theorem eq_literals_of_ofDocument {settings : TemplateSettings} {name : String} {d : Document}
    {t : Template} (h : ofDocument settings name d = .ok t)
    (hfree : ∀ p ∈ d.allParagraphs, p.placed settings.strict = []) :
    t = ⟨name, literals d.body, none, NameMap.empty, d⟩ := by
  have hsplits := (fits_of_ofDocument h).1.splits
  have hreads : ∀ p ∈ d.allParagraphs, p.Reads settings.strict [] := fun p hp =>
    hfree p hp ▸ (hsplits p hp).reads
  exact Except.ok.inj (h.symm.trans (ofDocument_literals hreads name))

end Template

end StyledTemplate
