import StyledTemplate.Proofs.Block.Pieces
import StyledTemplate.Proofs.Document.Portions
import StyledTemplate.Proofs.Template.SpelledBody

/-!
# Parsing paragraphs piece by piece

A paragraph is a sequence of pieces, to which each of its tokens contributes those at its bytes. In
a paragraph that is spelled out, each token adds its pieces to the builder and leaves the runs
without text behind it for the next one (`exists_pushTokens_step`), so all the tokens add the pieces
of the paragraph (`pieces_of_pushTokens`).
-/

namespace StyledTemplate

open Text (byteLength)

/-! ## The pieces of a paragraph -/

/-- The pieces at the bytes of a token: its content if it is literal text. A directive stands behind
the runs without text among its bytes, and has the formatting of the character at its first byte. -/
def Token.pieces (number : Nat) (located : List Located) (token : Token) : List Piece :=
  match token.kind with
  | .text _ => (contentAt token.start token.stop located).map .atom
  | .directive d =>
    ((contentAt token.start token.stop located).filter Atom.isRun).map .atom ++
      [d.piece { paragraph := number, offset := token.start }
        (located.findSome? (·.styleAt? token.start))]

/-- The content of a paragraph with its places. -/
def Paragraph.located (p : Paragraph) (number : Nat) : List Located :=
  locate number 0 (runsAtoms p.runs)

/-- The pieces of a paragraph: those of its tokens, and the runs without text behind them. -/
def Paragraph.pieces (p : Paragraph) (number : Nat) (tokens : List Token) : List Piece :=
  tokens.flatMap (Token.pieces number (p.located number)) ++
    (contentFrom (byteLength (runsText p.runs)) (p.located number)).map .atom

/-- The pieces without the declarations of the parent that come after another directive. -/
def keptPieces : Bool → List Piece → List Piece
  | _, [] => []
  | begun, .atom atom :: pieces => .atom atom :: keptPieces begun pieces
  | begun, .directive mark style :: pieces =>
    if begun && mark.directive.isInherits then keptPieces begun pieces
    else .directive mark style :: keptPieces true pieces

theorem keptPieces_atoms (begun : Bool) (atoms : List Atom) (pieces : List Piece) :
    keptPieces begun (atoms.map .atom ++ pieces) = atoms.map .atom ++ keptPieces begun pieces := by
  induction atoms with
  | nil => rfl
  | cons atom atoms ih => exact congrArg (_ :: ·) ih

theorem keptPieces_directive (begun : Bool) (d : Directive) (position : Position)
    (style : Option RunProperties) (pieces : List Piece) :
    keptPieces begun (d.piece position style :: pieces) =
      keptPieces begun [d.piece position style] ++ keptPieces true pieces := by
  rw [Directive.piece, keptPieces, keptPieces]
  by_cases hdropped : (begun && (d.mark position).directive.isInherits) = true
  · have hbegun : begun = true := (Bool.and_eq_true_iff.1 hdropped).1
    rw [if_pos hdropped, if_pos hdropped, hbegun]
    rfl
  · rw [if_neg hdropped, if_neg hdropped]
    rfl

/-! ## Feeding content and directives -/

theorem Builder.pieces_pushRuns (b : Builder) {runs : List Run}
    (h : ∀ run ∈ runs, run.text? = none) :
    (b.pushRuns runs).pieces = b.pieces ++ runs.map fun run => .atom (.run run) := by
  induction runs generalizing b with
  | nil => simp [pushRuns]
  | cons run runs ih =>
    obtain ⟨hrun, hruns⟩ := List.forall_mem_cons.1 h
    have hrest := ih (b.push (.static run)) hruns
    rw [pieces_push, Block.pieces, atoms_of_text?_eq_none hrun, List.append_assoc] at hrest
    exact hrest

/-- A directive adds its piece, unless it is a declaration of the parent that is ignored. -/
theorem pieces_of_applyDirective {strict : Bool} {opener : String} {style : RunProperties}
    {position : Position} {b b' : Builder} {d : Directive} {s s' : Progress}
    (h : applyDirective strict opener style position b d s = .ok (b', s')) :
    b'.pieces = b.pieces ++ keptPieces s.begun [d.piece position (some style)] ∧
      s'.begun = true := by
  obtain ⟨added, hadds, -⟩ := (advances_of_applyDirective h).1.adds
  have hbegun : s'.begun = true := by
    rw [hadds.begun]
    cases s.begun <;> rfl
  refine ⟨?_, hbegun⟩
  cases hd : d.isInherits with
  | false =>
    obtain ⟨s₁, -, -, -, heq⟩ := exists_applyDirective_eq strict opener style position hd s
    rw [heq] at h
    obtain ⟨b₁, happly, hpair⟩ := exists_of_map_eq_ok h
    obtain ⟨rfl, -⟩ := Prod.mk.inj hpair
    have hkept : keptPieces s.begun [d.piece position (some style)] =
        [d.piece position (some style)] := by
      have hmark : (d.mark position).directive.isInherits = false := hd
      rw [Directive.piece, keptPieces, hmark, Bool.and_false]
      rfl
    rw [hkept, Builder.pieces_of_apply happly]
  | true =>
    obtain ⟨parent, rfl⟩ := Directive.exists_parent hd
    obtain ⟨hfirst, rfl, -⟩ | ⟨hlater, -, rfl, -⟩ := declareParent_cases h
    · rw [Builder.pieces_push, Block.pieces, hfirst]
      rfl
    · rw [hlater]
      exact (List.append_nil _).symm

/-! ## Literal text -/

section Text

variable {text : List Char} {start stop : Nat}

/-- Content that is not at the bytes is not pushed. -/
theorem pushText_elsewhere {elsewhere : List Span}
    (h : ∀ span ∈ elsewhere, span.stop ≤ start ∨ stop ≤ span.start) (b : Builder)
    (anchors : List Anchor) (spans : List Span) :
    pushText text start stop b anchors (elsewhere ++ spans) =
      pushText text start stop b anchors spans := by
  induction elsewhere with
  | nil => rfl
  | cons span elsewhere ih =>
    obtain ⟨hspan, hrest⟩ := List.forall_mem_cons.1 h
    rw [List.cons_append, pushText_outside hspan, ih hrest]

/-- A character at the bytes is pushed behind the runs without text that are due. -/
theorem exists_pushText_char {pre post : List Char} {c : Char} (htext : text = pre ++ [c] ++ post)
    (hstart : start ≤ byteLength pre) (hstop : byteLength pre + c.utf8Size ≤ stop) (b : Builder)
    {due later : List Anchor} (hdue : ∀ a ∈ due, a.offset ≤ byteLength pre ∧ a.run.text? = none)
    (hlater : ∀ a ∈ later, byteLength pre + c.utf8Size ≤ a.offset) (style : RunProperties)
    (spans : List Span) :
    ∃ b', pushText text start stop b (due ++ later)
        (⟨byteLength pre, byteLength pre + c.utf8Size, style⟩ :: spans) =
        pushText text start stop b' later spans ∧
      b'.pieces = b.pieces ++ (due.map fun a => .atom (.run a.run)) ++ [.atom (.char c style)] := by
  have hsize := c.utf8Size_pos
  have hlength : byteLength (pre ++ [c]) = byteLength pre + c.utf8Size := by simp
  rw [← hlength] at hstop ⊢
  obtain ⟨htake, hdrop⟩ := takeWhile_of_late (fun a ha => (hdue a ha).1) fun a ha => by
    have hbehind := hlater a (List.mem_of_mem_head? ha)
    omega
  refine ⟨(b.pushRuns (due.map Anchor.run)).push (.text (String.ofList [c]) style), ?_, ?_⟩
  · rw [pushText_char htext hstart hstop, htake, hdrop]
  · have hruns : ∀ run ∈ due.map Anchor.run, run.text? = none := by
      rw [List.forall_mem_map]
      exact fun a ha => (hdue a ha).2
    rw [Builder.pieces_push, Builder.pieces_pushRuns b hruns, List.map_map, Block.pieces]
    simp [textAtoms]

/-- A portion of the content is pushed as it is. -/
theorem exists_pushText_portion {pre post : List Char} {init : List Atom} {c : Char}
    {style : RunProperties} (hinit : ∀ run, .run run ∈ init → run.text? = none)
    (htext : text = pre ++ atomsText (init ++ [.char c style]) ++ post)
    (hstart : start ≤ byteLength pre)
    (hstop : byteLength pre + byteLength (atomsText (init ++ [.char c style])) ≤ stop)
    (number : Nat) (b : Builder) {due later : List Anchor}
    (hdue : ∀ a ∈ due, a.offset ≤ byteLength pre ∧ a.run.text? = none)
    (hlater : ∀ a ∈ later,
      byteLength pre + byteLength (atomsText (init ++ [.char c style])) ≤ a.offset)
    (spans : List Span) :
    ∃ b', pushText text start stop b
        (due ++ (anchorsOf (locate number (byteLength pre) (init ++ [.char c style])) ++ later))
        (spansOf (locate number (byteLength pre) (init ++ [.char c style])) ++ spans) =
        pushText text start stop b' later spans ∧
      b'.pieces = b.pieces ++ (due.map fun a => .atom (.run a.run)) ++
        (init ++ [Atom.char c style]).map .atom := by
  induction init generalizing pre b due with
  | nil => exact exists_pushText_char htext hstart hstop b hdue hlater style spans
  | cons atom init ih =>
    obtain hrest : ∀ run, .run run ∈ init → run.text? = none :=
      fun run hrun => hinit run (List.mem_cons_of_mem _ hrun)
    cases atom with
    | run run =>
      -- The run waits for the next character.
      have hdue' : ∀ a ∈ due ++ [⟨byteLength pre, run⟩],
          a.offset ≤ byteLength pre ∧ a.run.text? = none := by
        intro a ha
        rcases List.mem_append.1 ha with ha | ha
        · exact hdue a ha
        · rw [List.mem_singleton.1 ha]
          exact ⟨Nat.le_refl _, hinit run List.mem_cons_self⟩
      obtain ⟨b', hpush, hpieces⟩ := ih hrest htext hstart hstop b hdue' hlater
      refine ⟨b', ?_, ?_⟩
      · rw [List.append_assoc] at hpush
        exact hpush
      · rw [hpieces]
        simp
    | char c' style' =>
      have hchars : atomsText (.char c' style' :: init ++ [.char c style]) =
          c' :: atomsText (init ++ [.char c style]) := rfl
      have hnext : byteLength (pre ++ [c']) = byteLength pre + c'.utf8Size := by simp
      rw [hchars, Text.byteLength_cons, ← Nat.add_assoc, ← hnext] at hstop hlater
      have hsplit : text = pre ++ [c'] ++ atomsText (init ++ [.char c style]) ++ post := by
        rw [htext, hchars]
        simp
      have hbehind : ∀ a ∈ anchorsOf (locate number (byteLength (pre ++ [c']))
          (init ++ [.char c style])) ++ later, byteLength pre + c'.utf8Size ≤ a.offset := by
        intro a ha
        rcases List.mem_append.1 ha with hwithin | hrest
        · obtain ⟨l, hl, hoffset, -⟩ := exists_of_mem_anchorsOf hwithin
          rw [← hoffset, ← hnext]
          exact (offset_of_mem_locate l hl).1
        · have hbehind := hlater a hrest
          omega
      have hchar : text = pre ++ [c'] ++ (atomsText (init ++ [.char c style]) ++ post) := by
        rw [hsplit, List.append_assoc]
      have hfits : byteLength pre + c'.utf8Size ≤ stop := by omega
      have hstart' : start ≤ byteLength (pre ++ [c']) := by omega
      obtain ⟨b₁, hfirst, hpieces₁⟩ := exists_pushText_char hchar hstart hfits b hdue hbehind style'
        (spansOf (locate number (byteLength (pre ++ [c'])) (init ++ [.char c style])) ++ spans)
      obtain ⟨b', hpush, hpieces⟩ :=
        ih hrest hsplit hstart' hstop b₁ (List.forall_mem_nil _) hlater
      rw [List.nil_append] at hpush
      refine ⟨b', ?_, ?_⟩
      · refine Eq.trans ?_ (hfirst.trans hpush)
        rw [hnext]
        rfl
      · rw [hpieces, hpieces₁]
        simp

/-- Literal text adds the portion of the content that its token takes. -/
theorem exists_pushText_token {number : Nat} {all before init rest : List Atom} {c : Char}
    {style : RunProperties} (hinit : ∀ run, .run run ∈ init → run.text? = none)
    (h : SplitAt number start all before (init ++ [.char c style] ++ rest))
    (hstop : stop = start + byteLength (atomsText (init ++ [.char c style]))) (b : Builder) :
    ∃ b', pushText (atomsText all) start stop b
        (anchorsOf (locate number start (init ++ [.char c style] ++ rest)))
        (spansOf (locate number 0 all)) = (b', anchorsOf (locate number stop rest)) ∧
      b'.pieces = b.pieces ++ (init ++ [Atom.char c style]).map .atom := by
  have hbefore : ∀ span ∈ spansOf (locate number 0 before),
      span.stop ≤ start ∨ stop ≤ span.start := by
    intro span hspan
    have hle := (bounds_of_mem_spansOf span hspan).2
    rw [Nat.zero_add, ← h.start_eq] at hle
    exact .inl hle
  have hbehind : ∀ span ∈ spansOf (locate number stop rest),
      span.stop ≤ start ∨ stop ≤ span.start :=
    fun span hspan => .inr (bounds_of_mem_spansOf span hspan).1
  have hanchors : ∀ a ∈ anchorsOf (locate number stop rest),
      byteLength (atomsText before) + byteLength (atomsText (init ++ [.char c style])) ≤
        a.offset := by
    intro a ha
    obtain ⟨l, hl, hoffset, -⟩ := exists_of_mem_anchorsOf ha
    rw [← h.start_eq, ← hstop, ← hoffset]
    exact (offset_of_mem_locate l hl).1
  have htext : atomsText all =
      atomsText before ++ atomsText (init ++ [.char c style]) ++ atomsText rest := by
    rw [h.parts, atomsText_append before, atomsText_append (init ++ _) rest, List.append_assoc]
  have hend : byteLength (atomsText before) +
      byteLength (atomsText (init ++ [.char c style])) ≤ stop := by
    rw [hstop, h.start_eq]
  obtain ⟨b', hpush, hpieces⟩ := exists_pushText_portion hinit htext (Nat.le_of_eq h.start_eq)
    hend number b (List.forall_mem_nil _) hanchors (spansOf (locate number stop rest))
  rw [List.nil_append, ← h.start_eq] at hpush
  have hnone : pushText (atomsText all) start stop b' (anchorsOf (locate number stop rest))
      (spansOf (locate number stop rest) ++ []) = (b', anchorsOf (locate number stop rest)) :=
    pushText_elsewhere hbehind _ _ _
  rw [List.append_nil] at hnone
  refine ⟨b', ?_, ?_⟩
  · rw [h.locate_eq, spansOf_append, pushText_elsewhere hbefore, locate_append, spansOf_append,
      anchorsOf_append, ← hstop]
    exact hpush.trans hnone
  · rw [hpieces, List.map_nil, List.append_nil]

end Text

/-! ## Tokens -/

/-- The runs without text that go before a directive are those of the portion that it takes. -/
theorem span_anchorsOf {number start stop : Nat} {portion rest : List Atom}
    (hstop : stop = start + byteLength (atomsText portion))
    (hportion : ∀ l ∈ locate number start portion, l.offset < stop) :
    (anchorsOf (locate number start (portion ++ rest))).span (·.offset < stop) =
      (anchorsOf (locate number start portion), anchorsOf (locate number stop rest)) := by
  have hnow : ∀ a ∈ anchorsOf (locate number start portion), decide (a.offset < stop) = true := by
    intro a ha
    obtain ⟨l, hl, hoffset, -⟩ := exists_of_mem_anchorsOf ha
    rw [← hoffset]
    exact decide_eq_true (hportion l hl)
  have hlater : ∀ a ∈ anchorsOf (locate number stop rest), decide (a.offset < stop) = false := by
    intro a ha
    obtain ⟨l, hl, hoffset, -⟩ := exists_of_mem_anchorsOf ha
    rw [← hoffset]
    exact decide_eq_false (Nat.not_lt.2 (offset_of_mem_locate l hl).1)
  obtain ⟨htake, hdrop⟩ :=
    takeWhile_append_of_late hnow fun a ha => hlater a (List.mem_of_mem_head? ha)
  rw [locate_append, ← hstop, anchorsOf_append, List.span_eq_takeWhile_dropWhile, htake, hdrop]

theorem pieces_pushAnchors {number offset : Nat} {atoms : List Atom} (b : Builder)
    (hother : ∀ run, .run run ∈ atoms → run.text? = none) :
    (b.pushRuns ((anchorsOf (locate number offset atoms)).map Anchor.run)).pieces =
      b.pieces ++ (atoms.filter Atom.isRun).map .atom := by
  have hruns : ∀ run ∈ (anchorsOf (locate number offset atoms)).map Anchor.run,
      run.text? = none := by
    rw [List.forall_mem_map]
    intro a ha
    have hrun : .run a.run ∈ atoms.filter Atom.isRun := by
      rw [← filter_isRun number offset]
      exact List.mem_map.2 ⟨a, ha, rfl⟩
    exact hother _ (List.mem_filter.1 hrun).1
  rw [Builder.pieces_pushRuns b hruns, ← filter_isRun number offset, List.map_map, List.map_map]
  rfl

section Tokens

variable {strict : Bool} {number : Nat} {all before : List Atom} {map : RunMap}
  {tokens : List Token} {b b' : Builder} {s s' : Progress}

theorem findSome?_styleAt? (hspans : map.spans = spansOf (locate number 0 all)) {byte : Nat}
    (hlt : byte < byteLength (atomsText all)) :
    (locate number 0 all).findSome? (·.styleAt? byte) = some (map.styleAt byte) := by
  rw [← Nat.zero_add (byteLength _)] at hlt
  obtain ⟨style, hstyle⟩ := exists_styleAt? number (Nat.zero_le byte) hlt
  rw [styleAt_eq, hspans, styleIn?_spansOf, hstyle]
  rfl

/-- A token adds its pieces, and takes the runs without text of its portion. -/
theorem exists_pushTokens_step {token : Token} {init rest : List Atom} {c : Char}
    {style : RunProperties} (htext : map.text = atomsText all)
    (hspans : map.spans = spansOf (locate number 0 all))
    (hother : ∀ run, .run run ∈ all → run.text? = none)
    (h : SplitAt number token.start all before (init ++ [.char c style] ++ rest))
    (hstop : token.stop = token.start + byteLength (atomsText (init ++ [.char c style])))
    (hpush : pushTokens strict number map b
      (anchorsOf (locate number token.start (init ++ [.char c style] ++ rest))) (token :: tokens)
        s = .ok (b', s')) :
    ∃ b₁ s₁, pushTokens strict number map b₁ (anchorsOf (locate number token.stop rest)) tokens s₁ =
        .ok (b', s') ∧
      ∀ pieces, b₁.pieces ++ keptPieces s₁.begun pieces =
        b.pieces ++ keptPieces s.begun (token.pieces number (locate number 0 all) ++ pieces) := by
  have hportion : ∀ l ∈ locate number token.start (init ++ [.char c style]),
      l.offset < token.stop := by
    rw [hstop]
    exact offset_lt_of_mem_locate init c style
  have hcontent := h.contentAt_eq hstop hportion
  have hwithin : ∀ run, .run run ∈ init ++ [.char c style] → run.text? = none := by
    intro run hrun
    refine hother run ?_
    rw [h.parts]
    exact List.mem_append_right _ (List.mem_append_left _ hrun)
  obtain ⟨kind, start, stop⟩ := token
  dsimp only at h hstop hportion hcontent hpush ⊢
  cases kind with
  | text literal =>
    have hinit : ∀ run, .run run ∈ init → run.text? = none :=
      fun run hrun => hwithin run (List.mem_append_left _ hrun)
    obtain ⟨b₁, hpushed, hpieces⟩ := exists_pushText_token hinit h hstop b
    rw [pushTokens_text, htext, hspans, hpushed] at hpush
    refine ⟨b₁, s, hpush, fun pieces => ?_⟩
    rw [hpieces, Token.pieces]
    dsimp only
    rw [hcontent, keptPieces_atoms, List.append_assoc]
  | directive d =>
    rw [pushTokens_directive, span_anchorsOf hstop hportion] at hpush
    obtain ⟨b₁, s₁, happly, hrest⟩ := exists_of_stateT_bind_eq_ok hpush
    obtain ⟨hpieces, hbegun⟩ := pieces_of_applyDirective happly
    have hlt : start < byteLength (atomsText all) := by
      have hsize := c.utf8Size_pos
      rw [h.parts, atomsText_append, atomsText_append, atomsText_append, Text.byteLength_append,
        Text.byteLength_append, Text.byteLength_append, ← h.start_eq]
      have hone : byteLength (atomsText [.char c style]) = c.utf8Size := rfl
      omega
    refine ⟨b₁, s₁, hrest, fun pieces => ?_⟩
    rw [hpieces, hbegun, pieces_pushAnchors b hwithin, Token.pieces]
    dsimp only
    rw [hcontent, findSome?_styleAt? hspans hlt, List.append_assoc _ [_] pieces, keptPieces_atoms,
      List.singleton_append, keptPieces_directive _ _ _ _ pieces]
    simp only [List.append_assoc]

/-- The tokens of a paragraph add their pieces, and those of the runs behind them. -/
theorem pieces_of_pushTokens {start : Nat} {rest : List Atom}
    (hportions : Portions start tokens rest) (htext : map.text = atomsText all)
    (hspans : map.spans = spansOf (locate number 0 all))
    (hother : ∀ run, .run run ∈ all → run.text? = none)
    (h : SplitAt number start all before rest)
    (hpush : pushTokens strict number map b (anchorsOf (locate number start rest)) tokens s =
      .ok (b', s')) :
    b'.pieces = b.pieces ++ keptPieces s.begun
      (tokens.flatMap (Token.pieces number (locate number 0 all)) ++
        (contentFrom (byteLength (atomsText all)) (locate number 0 all)).map .atom) := by
  induction hportions generalizing before b s with
  | @nil start rest hnone =>
    obtain ⟨rfl, -⟩ := Prod.mk.inj (Except.ok.inj hpush)
    have hend : byteLength (atomsText all) = start := by
      rw [h.parts, atomsText_append, hnone, List.append_nil, h.start_eq]
    have hatoms : ∀ run, .run run ∈ rest → run.text? = none := by
      intro run hrun
      refine hother run ?_
      rw [h.parts]
      exact List.mem_append_right _ hrun
    have hkept := keptPieces_atoms s.begun rest []
    rw [List.append_nil, keptPieces, List.append_nil] at hkept
    rw [hend, h.contentFrom_eq, List.flatMap_nil, List.nil_append, hkept,
      pieces_pushAnchors b hatoms, filter_isRun_of_text hnone]
  | cons hstart hstop behind ih =>
    subst hstart
    obtain ⟨b₁, s₁, hrest, hpieces⟩ := exists_pushTokens_step htext hspans hother h hstop hpush
    rw [ih (h.next hstop) hrest, hpieces, List.flatMap_cons, List.append_assoc]

end Tokens

end StyledTemplate
