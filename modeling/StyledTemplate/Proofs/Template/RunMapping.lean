import StyledTemplate.Proofs.Template.Built
import StyledTemplate.Proofs.Template.Pieces
import StyledTemplate.Proofs.Template.Slices

/-!
# From the runs of a paragraph to its blocks

A paragraph with directives is read as blocks that hold all of it (`parseParagraph_mapped`): the
content outside of the directives in its order, each directive where it stands, and a run without
text that stands within a directive in front of it. Its text is only ever cut between characters.
-/

namespace StyledTemplate

open Text (byteLength)

/-! ## Content outside of directives -/

/-- The content, if the piece is not a directive. -/
def Piece.atom? : Piece → Option Atom
  | .atom a => some a
  | .directive _ _ => none

/-- The content among some pieces. -/
def piecesAtoms (pieces : List Piece) : List Atom := pieces.filterMap Piece.atom?

/-- Is it a character of a directive? -/
def Located.isInDirective (tokens : List Token) (l : Located) : Bool :=
  tokens.any fun token => token.directive?.isSome && l.isWithin token.start token.stop

theorem piecesAtoms_append (as bs : List Piece) :
    piecesAtoms (as ++ bs) = piecesAtoms as ++ piecesAtoms bs := List.filterMap_append

theorem piecesAtoms_atoms (atoms : List Atom) : piecesAtoms (atoms.map .atom) = atoms := by
  rw [piecesAtoms, List.filterMap_map]
  exact List.filterMap_some

/-- A declaration of the parent that is ignored holds no content. -/
theorem piecesAtoms_keptPieces (begun : Bool) (pieces : List Piece) :
    piecesAtoms (keptPieces begun pieces) = piecesAtoms pieces := by
  induction pieces generalizing begun with
  | nil => rfl
  | cons piece pieces ih =>
    cases piece with
    | atom atom => exact congrArg (atom :: ·) (ih begun)
    | directive mark style =>
      rw [keptPieces]
      by_cases hdropped : (begun && mark.directive.isInherits) = true
      · rw [if_pos hdropped]
        exact ih begun
      · rw [if_neg hdropped]
        exact ih true

section Content

variable {number start stop : Nat} {all before portion rest : List Atom} {tokens : List Token}

theorem isWithin_eq_of_mem {l : Located} (hlow : start ≤ l.offset) (hhigh : l.offset < stop) :
    l.isWithin start stop = !l.atom.isRun := by
  obtain ⟨number, offset, atom⟩ := l
  cases atom with
  | run run => rfl
  | char c style => simp [Located.isWithin, Atom.isRun, hlow, hhigh]

theorem isWithin_of_lt {l : Located} (h : l.offset < start) : l.isWithin start stop = false := by
  obtain ⟨number, offset, atom⟩ := l
  cases atom with
  | run run => rfl
  | char c style =>
    have hlow : ¬ start ≤ offset := Nat.not_le.2 h
    simp [Located.isWithin, hlow]

/-- Tokens stand behind what is before them. -/
theorem Portions.le_start (h : Portions start tokens rest) :
    ∀ token ∈ tokens, start ≤ token.start := by
  induction h with
  | nil start text => exact List.forall_mem_nil _
  | cons first last behind ih =>
    refine List.forall_mem_cons.2 ⟨Nat.le_of_eq first.symm, fun token htoken => ?_⟩
    have hbehind := ih token htoken
    omega

theorem isInDirective_of_lt {l : Located} (htokens : ∀ token ∈ tokens, stop ≤ token.start)
    (hl : l.offset < stop) : l.isInDirective tokens = false := by
  rw [Located.isInDirective, List.any_eq_false]
  intro token htoken
  have hlt := Nat.lt_of_lt_of_le hl (htokens token htoken)
  simp [isWithin_of_lt hlt]

/-- The content among the pieces of a token is what it takes that is not in a directive. -/
theorem piecesAtoms_token {token : Token}
    (h : SplitAt number token.start all before (portion ++ rest))
    (hstop : token.stop = token.start + byteLength (atomsText portion))
    (hportion : ∀ l ∈ locate number token.start portion, l.offset < token.stop) :
    piecesAtoms (token.pieces number (locate number 0 all)) =
      contentOf ((locate number token.start portion).filter (!·.isInDirective [token])) := by
  have hcontent := h.contentAt_eq hstop hportion
  obtain ⟨kind, start, stop⟩ := token
  dsimp only at hcontent hportion ⊢
  cases kind with
  | text literal =>
    have hall : (locate number start portion).filter
        (!·.isInDirective [⟨.text literal, start, stop⟩]) = locate number start portion :=
      List.filter_eq_self.2 fun l _ => rfl
    rw [hall, contentOf_locate, Token.pieces]
    dsimp only
    rw [hcontent, piecesAtoms_atoms]
  | directive d =>
    have hruns : (locate number start portion).filter
        (!·.isInDirective [⟨.directive d, start, stop⟩]) =
        (locate number start portion).filter (·.atom.isRun) := by
      refine List.filter_congr fun l hl => ?_
      have hwithin := isWithin_eq_of_mem (offset_of_mem_locate l hl).1 (hportion l hl)
      simp [Located.isInDirective, Token.directive?, hwithin]
    have hmap : contentOf ((locate number start portion).filter (·.atom.isRun)) =
        (contentOf (locate number start portion)).filter Atom.isRun := by
      rw [contentOf, contentOf, List.filter_map]
      rfl
    rw [hruns, hmap, contentOf_locate, Token.pieces]
    dsimp only
    rw [hcontent, piecesAtoms_append, piecesAtoms_atoms]
    exact List.append_nil _

/-- The content among the pieces of some tokens, and of the runs behind them, is what is not in a
directive. -/
theorem piecesAtoms_tokens (hportions : Portions start tokens rest)
    (h : SplitAt number start all before rest) :
    piecesAtoms (tokens.flatMap (Token.pieces number (locate number 0 all)) ++
        (contentFrom (byteLength (atomsText all)) (locate number 0 all)).map .atom) =
      contentOf ((locate number start rest).filter (!·.isInDirective tokens)) := by
  induction hportions generalizing before with
  | @nil start rest hnone =>
    have hend : byteLength (atomsText all) = start := by
      rw [h.parts, atomsText_append, hnone, List.append_nil, h.start_eq]
    have hall : (locate number start rest).filter (!·.isInDirective []) =
        locate number start rest := List.filter_eq_self.2 fun l _ => rfl
    rw [hend, h.contentFrom_eq, hall, contentOf_locate, List.flatMap_nil, List.nil_append,
      piecesAtoms_atoms]
  | @cons _ token tokens c style init rest hstart hstop behind ih =>
    subst hstart
    -- Tokens do not overlap: nothing of this portion is in a later directive, and nothing behind it
    -- is in this one.
    have hportion : ∀ l ∈ locate number token.start (init ++ [.char c style]),
        l.offset < token.stop := by
      rw [hstop]
      exact offset_lt_of_mem_locate init c style
    have hfirst : (locate number token.start (init ++ [.char c style])).filter
        (!·.isInDirective (token :: tokens)) =
        (locate number token.start (init ++ [.char c style])).filter
          (!·.isInDirective [token]) := by
      refine List.filter_congr fun l hl => ?_
      have hlater := isInDirective_of_lt behind.le_start (hportion l hl)
      rw [Located.isInDirective, List.any_cons, ← Located.isInDirective, hlater]
      simp [Located.isInDirective]
    have hrest : (locate number token.stop rest).filter (!·.isInDirective (token :: tokens)) =
        (locate number token.stop rest).filter (!·.isInDirective tokens) := by
      refine List.filter_congr fun l hl => ?_
      have hearlier : l.isWithin token.start token.stop = false :=
        isWithin_of_le (Nat.le_refl _) l hl
      rw [Located.isInDirective, List.any_cons, hearlier, Bool.and_false, Bool.false_or]
      rfl
    rw [locate_append, ← hstop, List.filter_append, contentOf_append, hfirst, hrest,
      ← piecesAtoms_token h hstop hportion, ← ih (h.next hstop), List.flatMap_cons,
      List.append_assoc, piecesAtoms_append]

end Content

/-! ## Paragraphs -/

/-- The blocks hold the paragraph with a number. Whether a directive has been read before it
(`begun`) decides about a declaration of the parent in it. -/
structure Paragraph.Mapped (p : Paragraph) (number : Nat) (tokens : List Token) (begun : Bool)
    (children : List Block) : Prop where
  /-- The blocks have the pieces of the paragraph, in order, but for declarations of the parent that
  are ignored. -/
  pieces : piecesOf children = keptPieces begun (p.pieces number tokens)
  /-- All content but the characters of directives is there once and in order. -/
  content : piecesAtoms (piecesOf children) =
    contentOf ((p.located number).filter (!·.isInDirective tokens))
  /-- The place of a directive is that of its braces. -/
  braces : ∀ token ∈ tokens, token.directive?.isSome = true → ∃ before inner after,
    runsText p.runs = before ++ '{' :: '{' :: inner ++ after ∧ byteLength before = token.start

section Paragraphs

variable {settings : TemplateSettings} {p : Paragraph} {map : RunMap} {tokens : List Token}
  {ordinal depth : Nat} {s s' : Progress} {block : Block}

theorem exists_children (hany : (tokens.any fun token => token.directive?.isSome) = true)
    (h : parseParagraph settings p map tokens ordinal depth s = .ok (block, s')) :
    ∃ b children, pushTokens settings.strict ordinal map
        { baseDepth := depth, limit := settings.maxNestingDepth.toNat } map.anchors tokens s =
        .ok (b, s') ∧
      piecesOf children = b.pieces ∧ block = .paragraph p.properties children true := by
  obtain ⟨b, children, hpush, hfinish, hblock⟩ := exists_finish_of_parseParagraph hany h
  exact ⟨b, children, hpush, Builder.pieces_of_finish hfinish, hblock⟩

theorem portions_of_tokenize {strict : Bool}
    (htokens : tokenize strict (runsText p.runs) = .ok tokens) :
    Portions 0 tokens (runsAtoms p.runs) :=
  portions_of_tiles (tiles_of_tokenize htokens) (runsText_eq_atomsText p.runs).symm

/-- The content among the pieces of a paragraph is all but the characters of directives. -/
theorem piecesAtoms_pieces {strict : Bool}
    (htokens : tokenize strict (runsText p.runs) = .ok tokens) :
    piecesAtoms (p.pieces ordinal tokens) =
      contentOf ((p.located ordinal).filter (!·.isInDirective tokens)) := by
  rw [Paragraph.pieces, runsText_eq_atomsText]
  exact piecesAtoms_tokens (portions_of_tokenize htokens) (.zero ordinal _)

/-- A paragraph that is spelled out is read as blocks with its pieces. -/
theorem pieces_of_parseParagraph_spell
    (htokens : tokenize settings.strict (runsText p.runs) = .ok tokens)
    (hany : (tokens.any fun token => token.directive?.isSome) = true)
    (h : parseParagraph settings p.spell (.ofRuns p.spell.runs) tokens ordinal depth s =
      .ok (block, s')) :
    block.pieces = keptPieces s.begun (p.pieces ordinal tokens) := by
  obtain ⟨b, children, hpush, hpieces, rfl⟩ := exists_children hany h
  have htext : (RunMap.ofRuns p.spell.runs).text = atomsText (runsAtoms p.runs) := by
    rw [← runsText_eq_atomsText]
    exact runsText_spellRuns p.runs
  have hspans : (RunMap.ofRuns p.spell.runs).spans =
      spansOf (locate ordinal 0 (runsAtoms p.runs)) := spansFrom_spellRuns ordinal 0 p.runs
  have hanchors : (RunMap.ofRuns p.spell.runs).anchors =
      anchorsOf (locate ordinal 0 (runsAtoms p.runs)) :=
    (anchorsFrom_spellRuns 0 p.runs).trans (anchorsFrom_eq ordinal 0 p.runs)
  rw [hanchors] at hpush
  have hall := pieces_of_pushTokens (portions_of_tokenize htokens) htext hspans
    (fun run => text?_of_run_mem) (.zero ordinal _) hpush
  rw [Block.pieces, hpieces, hall, Paragraph.pieces, runsText_eq_atomsText]
  rfl

/-- A paragraph with directives is read as blocks that hold all of it, and all slices that are taken
of its text are parts of it that cut no character. -/
theorem parseParagraph_mapped (htokens : tokenize settings.strict (runsText p.runs) = .ok tokens)
    (hany : (tokens.any fun token => token.directive?.isSome) = true)
    (h : parseParagraph settings p (.ofRuns p.runs) tokens ordinal depth s = .ok (block, s')) :
    ∃ children, block = .paragraph p.properties children true ∧
      p.Mapped ordinal tokens s.begun children ∧
      parseParagraphChecked settings p (.ofRuns p.runs) tokens ordinal depth s =
        .ok (block, s') := by
  obtain ⟨-, children, -, -, rfl⟩ := exists_children hany h
  -- Pieces are added one by one only where each run is a single character, so the paragraph is
  -- compared with its spelled out form, which is read as blocks with the same pieces.
  have hmatches := matches_parseParagraph settings p (exists_part_of_tokenize htokens) ordinal
    depth s
  rw [h] at hmatches
  obtain ⟨e, herror, -⟩ | ⟨parsed, ⟨block', s₁⟩, hparsed, hspelled, hsame, -⟩ := hmatches.cases_ok
  · cases herror
  obtain rfl := Except.ok.inj hparsed
  have hpieces : piecesOf children = keptPieces s.begun (p.pieces ordinal tokens) := by
    have hspell := pieces_of_parseParagraph_spell htokens hany hspelled
    have hchildren := Block.piecesOf_spell (.paragraph p.properties children true)
    rw [hsame.eq, piecesOf_cons, piecesOf_nil, List.append_nil, hspell, Block.pieces] at hchildren
    exact hchildren.symm
  refine ⟨children, rfl, ⟨hpieces, ?_, fun token htoken hd => ?_⟩, ?_⟩
  · rw [hpieces, piecesAtoms_keptPieces, piecesAtoms_pieces htokens]
  · obtain ⟨before, part, after, hcovers⟩ := exists_part_of_tokenize htokens token htoken
    obtain ⟨inner, rfl⟩ := hcovers.braces hd
    exact ⟨before, inner, after, hcovers.text_eq, hcovers.start.symm⟩
  · rw [parseParagraphChecked_eq htokens, checked, h]
    rfl

/-- A greeting whose placeholder is spread over two runs, with a line break between them. -/
def brokenName : Paragraph :=
  { runs := [.ofText "Hi \x7b\x7bna", { content := .lineBreak },
      .ofText "me\x7d\x7d!" { bold := true }] }

/-- The line break goes in front of the placeholder, which has the formatting of its first run. -/
theorem brokenName_mapped : ∃ tokens children s,
    tokenize false (runsText brokenName.runs) = .ok tokens ∧
      (tokens.any fun token => token.directive?.isSome) = true ∧
      parseParagraph {} brokenName (.ofRuns brokenName.runs) tokens 0 0 {} =
        .ok (.paragraph brokenName.properties children true, s) ∧
      brokenName.Mapped 0 tokens false children ∧
      piecesOf children = [.atom (.char 'H' {}), .atom (.char 'i' {}), .atom (.char ' ' {}),
        .atom (.run { content := .lineBreak }),
        .directive ((Directive.placeholder "name").mark { offset := 3 }) (some {}),
        .atom (.char '!' { bold := true })] := by
  have hrun : (tokenize false (runsText brokenName.runs)).toOption.bind (fun tokens =>
      (parseParagraph {} brokenName (.ofRuns brokenName.runs) tokens 0 0 {}).toOption.map
        fun parsed => (tokens.any fun token => token.directive?.isSome, parsed.1.pieces)) =
      some (true, [.atom (.char 'H' {}), .atom (.char 'i' {}), .atom (.char ' ' {}),
        .atom (.run { content := .lineBreak }),
        .directive ((Directive.placeholder "name").mark { offset := 3 }) (some {}),
        .atom (.char '!' { bold := true })]) := by decide +kernel
  obtain ⟨tokens, htokens, hrun⟩ := Option.bind_eq_some_iff.1 hrun
  obtain ⟨⟨block, s⟩, hparse, hpair⟩ := Option.map_eq_some_iff.1 hrun
  obtain ⟨hany, hpieces⟩ := Prod.mk.inj hpair
  have htokens := toOption_eq_some_iff.1 htokens
  have hparse := toOption_eq_some_iff.1 hparse
  obtain ⟨children, rfl, hmapped, -⟩ := parseParagraph_mapped htokens hany hparse
  rw [Block.pieces] at hpieces
  exact ⟨tokens, children, s, htokens, hany, hparse, hmapped, hpieces⟩

end Paragraphs

end StyledTemplate
