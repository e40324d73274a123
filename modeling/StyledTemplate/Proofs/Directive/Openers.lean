import StyledTemplate.Proofs.Directive.Ranges

/-!
# Text in front of an opening pair

Text in front of an opening pair of braces is literal text if it does not end in a brace and has no
closing pair, although it may open braces itself (`tokenize_behind_opener`). There is one exception:
if it does, and three braces follow of which the first two would open a directive, then the last two
open it instead.
-/

namespace StyledTemplate

open Text (byteLength trim)

/-! ## Literal text in front -/

/-- The tokens of a text with literal text in front, which belongs to the first token if that is
literal text as well. -/
def inFront (p : List Char) : List Token → List Token
  | ⟨.text s, _, stop⟩ :: tokens =>
    ⟨.text (String.ofList p ++ s), 0, byteLength p + stop⟩ ::
      tokens.map (Token.shift (byteLength p))
  | tokens => textToken 0 p ++ tokens.map (Token.shift (byteLength p))

/-- What is read from a text with literal text in front. -/
def behind (p : List Char) (x : Except ParseError (List Token)) :
    Except ParseError (List Token) :=
  (x.map (inFront p)).mapError (ParseError.shift (byteLength p))

/-- The tokens that are directives. -/
def directiveTokens (tokens : List Token) : List Token := tokens.filter (·.directive?.isSome)

theorem directiveTokens_shift (n : Nat) (tokens : List Token) :
    directiveTokens (tokens.map (Token.shift n)) = (directiveTokens tokens).map (Token.shift n) := by
  rw [directiveTokens, List.filter_map]
  rfl

theorem directiveTokens_textToken (offset : Nat) (cs : List Char) :
    directiveTokens (textToken offset cs) = [] :=
  List.filter_eq_nil_iff.2 fun t ht => by simp [directive?_of_mem_textToken ht]

/-- Literal text in front only moves the directives. -/
theorem directiveTokens_inFront (p : List Char) (tokens : List Token) :
    directiveTokens (inFront p tokens) =
      (directiveTokens tokens).map (Token.shift (byteLength p)) := by
  unfold inFront
  split
  · rw [directiveTokens, List.filter_cons_of_neg (by simp [Token.directive?]), ← directiveTokens,
      directiveTokens_shift, directiveTokens, directiveTokens,
      List.filter_cons_of_neg (by simp [Token.directive?])]
  · rw [directiveTokens, List.filter_append, ← directiveTokens, directiveTokens_textToken,
      List.nil_append, ← directiveTokens, directiveTokens_shift]

theorem inFront_textToken (p cs : List Char) (tokens : List Token)
    (h : ∀ t ∈ tokens.head?, t.directive?.isSome = true) :
    inFront p (textToken 0 cs ++ tokens) =
      textToken 0 (p ++ cs) ++ tokens.map (Token.shift (byteLength p)) := by
  by_cases hcs : cs = []
  · subst hcs
    rw [List.append_nil]
    cases tokens with
    | nil => rfl
    | cons t tokens =>
      obtain ⟨kind, start, stop⟩ := t
      cases kind with
      | text s => exact absurd (h _ rfl) (by simp [Token.directive?])
      | directive d => rfl
  · have hwhole : p ++ cs ≠ [] := by simp [hcs]
    rw [textToken, if_neg hcs, textToken, if_neg hwhole, Nat.zero_add, Nat.zero_add,
      Text.byteLength_append, String.ofList_append]
    rfl

/-- Literal text in front of literal text makes no difference to what is read behind it. -/
theorem tokensFrom_front (strict : Bool) (p literal cs : List Char) :
    tokensFrom strict 0 (p ++ literal) cs = behind p (tokensFrom strict 0 literal cs) := by
  induction cs using candidate_induction generalizing literal with
  | none cs hc =>
    have htext := inFront_textToken p (literal ++ cs) [] (by simp)
    rw [List.append_nil, List.map_nil, List.append_nil] at htext
    rw [tokensFrom_of_none hc, tokensFrom_of_none hc, List.append_assoc, ← htext]
    rfl
  | some cs c hc ih =>
    have hoffset : 0 + byteLength (p ++ literal ++ c.before) =
        byteLength p + (0 + byteLength (literal ++ c.before)) := by
      rw [List.append_assoc, Text.byteLength_append]
      omega
    cases hr : Reading.ofContent (trim c.inner) with
    | directive d =>
      rw [tokensFrom_of_directive hc hr, tokensFrom_of_directive hc hr, hoffset, Nat.add_assoc,
        tokensFrom_shift, List.append_assoc]
      cases tokensFrom strict (0 + byteLength (literal ++ c.before) + byteLength c.source) []
          c.after with
      | error e => rfl
      | ok rest =>
        have htext := inFront_textToken p (literal ++ c.before)
          (⟨.directive d, 0 + byteLength (literal ++ c.before),
            0 + byteLength (literal ++ c.before) + byteLength c.source⟩ :: rest) (by
              intro t ht
              obtain rfl := Option.some.inj ht
              rfl)
        exact congrArg Except.ok htext.symm
    | malformed =>
      rw [tokensFrom_of_malformed hc hr, tokensFrom_of_malformed hc hr, hoffset]
      rfl
    | unknown =>
      by_cases hstrict : strict = true
      · rw [tokensFrom_of_unknown_strict hc hr hstrict, tokensFrom_of_unknown_strict hc hr hstrict,
          hoffset]
        rfl
      · rw [tokensFrom_of_unknown hc hr hstrict, tokensFrom_of_unknown hc hr hstrict,
          List.append_assoc, List.append_assoc, ih]
        rw [List.append_assoc]

/-! ## Candidates behind open braces -/

/-- The text starts with three braces, and it has its candidate at the first two of them. -/
def OpensTriply (s : List Char) : Prop :=
  ∃ inner after, s = '{' :: '{' :: '{' :: (inner ++ '}' :: '}' :: after) ∧
    ¬ ['{', '{'] <:+: '{' :: inner ∧ ¬ ['}', '}'] <:+: inner ++ ['}']

/-- A closing pair is not found any earlier because of opening braces in front. -/
theorem splitAtPair?_behind_open {skipped : List Char} (h : splitAtPair? '}' skipped = none)
    (rest : List Char) :
    splitAtPair? '}' (skipped ++ '{' :: '{' :: rest) =
      (splitAtPair? '}' rest).map fun parts => (skipped ++ '{' :: '{' :: parts.1, parts.2) := by
  have hbraces : splitAtPair? '}' (skipped ++ ['{', '{']) = none := by
    rw [splitAtPair?_append (by decide), h, Option.map_none]
  have hlast : (skipped ++ ['{', '{']).getLast? ≠ some '}' := by
    simp
  have hbehind := splitAtPair?_behind (splitAtPair?_concat_eq_none hbraces hlast) rest
  simpa using hbehind

/-- The candidate ends at the first closing pair behind the first opening one. -/
theorem candidate?_of_opening {first : List Char}
    (hfirst : splitAtPair? '{' (first ++ ['{']) = none) (rest : List Char) :
    candidate? (first ++ '{' :: '{' :: rest) =
      (splitAtPair? '}' rest).map fun parts => .ofPairs first parts.1 parts.2 := by
  cases hclose : splitAtPair? '}' rest with
  | none =>
    have hopen : splitAtPair? '{' (first ++ '{' :: '{' :: rest) = some (first, rest) :=
      splitAtPair?_eq_some_iff.2 ⟨rfl, hfirst⟩
    simp [candidate?, hopen, hclose]
  | some parts =>
    obtain ⟨content, after⟩ := parts
    obtain ⟨rfl, hcontent⟩ := splitAtPair?_eq_some_iff.1 hclose
    exact candidate?_of_pairs hfirst hcontent after

theorem candidate?_opening (rest : List Char) :
    candidate? ('{' :: '{' :: rest) =
      (splitAtPair? '}' rest).map fun parts => .ofPairs [] parts.1 parts.2 := by
  have hfirst : splitAtPair? '{' ([] ++ ['{']) = none := rfl
  exact candidate?_of_opening hfirst rest

theorem opensTriply_iff {s : List Char} :
    OpensTriply s ↔ ∃ inner after, candidate? s = some ⟨[], '{' :: inner, after⟩ := by
  constructor
  · rintro ⟨inner, after, rfl, hopening, hclosing⟩
    have hcontent : splitAtPair? '}' ('{' :: inner ++ ['}']) = none := by
      rw [List.cons_append, splitAtPair?_cons, if_neg (by simp),
        splitAtPair?_eq_none_iff.2 hclosing, Option.map_none]
    have hclose : splitAtPair? '}' ('{' :: (inner ++ '}' :: '}' :: after)) =
        some ('{' :: inner, after) := splitAtPair?_eq_some_iff.2 ⟨rfl, hcontent⟩
    have hnone := splitAtPair?_reverse_eq_none_iff.2 (splitAtPair?_eq_none_iff.2 hopening)
    refine ⟨inner, after, ?_⟩
    rw [candidate?_opening, hclose, Option.map_some, Candidate.ofPairs_of_none hnone]
  · rintro ⟨inner, after, hc⟩
    refine ⟨inner, after, ?_, splitAtPair?_eq_none_iff.1 (splitAtPair?_inner hc), ?_⟩
    · simpa [Candidate.source] using candidate?_eq_some hc
    · have hclosing := splitAtPair?_eq_none_iff.1 (splitAtPair?_inner_closing hc)
      exact fun hpair => hclosing (hpair.trans (List.suffix_cons _ _).isInfix)

theorem opensTriply_iff_any {s : List Char} :
    ((candidate? s).any fun c => c.before.isEmpty && c.inner.head? == some '{') = true ↔
      OpensTriply s := by
  rw [opensTriply_iff, Option.any_eq_true]
  constructor
  · rintro ⟨⟨before, inner, after⟩, hc, hshape⟩
    rw [Bool.and_eq_true, List.isEmpty_iff, beq_iff_eq] at hshape
    obtain ⟨rfl, hhead⟩ := hshape
    obtain ⟨inner, rfl⟩ := List.head?_eq_some_iff.1 hhead
    exact ⟨inner, after, hc⟩
  · rintro ⟨inner, after, hc⟩
    exact ⟨_, hc, rfl⟩

instance (s : List Char) : Decidable (OpensTriply s) := decidable_of_iff _ opensTriply_iff_any

theorem exists_of_opening {p : List Char} (h : ['{', '{'] <:+: p) :
    ∃ first skipped, p = first ++ '{' :: '{' :: skipped ∧
      splitAtPair? '{' (first ++ ['{']) = none := by
  cases hopen : splitAtPair? '{' p with
  | none => exact absurd h (splitAtPair?_eq_none_iff.1 hopen)
  | some parts => exact ⟨parts.1, parts.2, splitAtPair?_eq_some_iff.1 hopen⟩

theorem splitAtPair?_of_open {first skipped : List Char}
    (h : splitAtPair? '}' (first ++ '{' :: '{' :: skipped) = none) :
    splitAtPair? '}' skipped = none := by
  rw [splitAtPair?_eq_none_iff] at h ⊢
  exact fun hpair => h (hpair.trans (List.IsSuffix.isInfix ⟨first ++ ['{', '{'], by simp⟩))

section Behind

variable {p s : List Char}

/-- The braces that a text opens are as good as any others in front of the last opening pair. -/
theorem candidate?_behind_open (hs : ['{', '{'] <+: s) (hp : splitAtPair? '}' p = none)
    (hopen : ['{', '{'] <:+: p) (htriple : ¬ OpensTriply s) :
    candidate? (p ++ s) = (candidate? s).map fun c => { c with before := p ++ c.before } := by
  obtain ⟨first, skipped, rfl, hfirst⟩ := exists_of_opening hopen
  obtain ⟨rest, rfl⟩ := hs
  have hskipped := splitAtPair?_of_open hp
  have hwhole := candidate?_of_opening hfirst (skipped ++ '{' :: '{' :: rest)
  rw [splitAtPair?_behind_open hskipped] at hwhole
  have halone : candidate? (['{', '{'] ++ rest) = _ := candidate?_opening rest
  have htext : first ++ '{' :: '{' :: skipped ++ (['{', '{'] ++ rest) =
      first ++ '{' :: '{' :: (skipped ++ '{' :: '{' :: rest) := by simp
  rw [htext, hwhole, halone]
  cases hclose : splitAtPair? '}' rest with
  | none => rfl
  | some parts =>
    obtain ⟨content, after⟩ := parts
    simp only [Option.map_some, Option.some.injEq]
    rcases Candidate.ofPairs_cases [] content after with
      ⟨hnone, heq⟩ | ⟨more, inner, rfl, hlast, heq⟩
    · -- the pair in front of the content is the last one, as the content starts with no brace
      have hhead : content.reverse.getLast? ≠ some '{' := by
        rw [List.getLast?_reverse]
        intro hhead
        obtain ⟨inner, rfl⟩ := List.head?_eq_some_iff.1 hhead
        refine htriple (opensTriply_iff.2 ⟨inner, after, ?_⟩)
        rw [halone, hclose, Option.map_some, heq]
      rw [heq, Candidate.ofPairs_of_pair (splitAtPair?_concat_eq_none hnone hhead)]
      simp
    · have hcontent : skipped ++ '{' :: '{' :: (more ++ '{' :: '{' :: inner) =
          skipped ++ '{' :: '{' :: more ++ '{' :: '{' :: inner := by simp
      rw [heq, hcontent, Candidate.ofPairs_of_pair hlast]
      simp

/-- The last two of the three braces open nothing triply. -/
theorem OpensTriply.tail (h : OpensTriply s) : ['{', '{'] <+: s.tail ∧ ¬ OpensTriply s.tail := by
  obtain ⟨inner, after, rfl, hopening, -⟩ := h
  refine ⟨⟨_, rfl⟩, ?_⟩
  rintro ⟨inner', after', htail, -⟩
  rw [List.tail_cons] at htail
  have hbraces : inner ++ '}' :: '}' :: after = '{' :: (inner' ++ '}' :: '}' :: after') :=
    (List.cons.inj (List.cons.inj htail).2).2
  cases inner with
  | nil => exact absurd (List.cons.inj hbraces).1 (by decide)
  | cons c inner =>
    obtain rfl := (List.cons.inj hbraces).1
    exact hopening ⟨[], inner, rfl⟩

/-- Behind a text that opens braces, the last two of three braces count. -/
theorem candidate?_behind_triple (hp : splitAtPair? '}' p = none) (hopen : ['{', '{'] <:+: p)
    (htriple : OpensTriply s) :
    candidate? (p ++ ['{'] ++ s.tail) =
      (candidate? s.tail).map fun c => { c with before := p ++ ['{'] ++ c.before } := by
  obtain ⟨htail, hno⟩ := htriple.tail
  have hclosing : splitAtPair? '}' (p ++ ['{']) = none := by
    rw [splitAtPair?_append (by decide), hp, Option.map_none]
  exact candidate?_behind_open htail hclosing (hopen.trans (List.prefix_append _ _).isInfix) hno

/-- Text that opens no braces goes before the candidate. -/
theorem candidate?_behind_closed (hp : ¬ ['{', '{'] <:+: p) (hlast : p.getLast? ≠ some '{') :
    candidate? (p ++ s) = (candidate? s).map fun c => { c with before := p ++ c.before } :=
  candidate?_behind (splitAtPair?_concat_eq_none (splitAtPair?_eq_none_iff.2 hp) hlast) s

end Behind

/-- Text in front of an opening pair that has no closing pair and does not end in a brace is literal
text, and moves what is read behind it, unless it opens braces and three of them follow. Then the
last two are read. -/
theorem tokenize_behind_opener (strict : Bool) {p s : List Char} (hs : ['{', '{'] <+: s)
    (hp : ¬ ['}', '}'] <:+: p) (hlast : p.getLast? ≠ some '{') :
    (¬ (['{', '{'] <:+: p ∧ OpensTriply s) →
      tokenize strict (p ++ s) = behind p (tokenize strict s) ∧
        (tokenize strict (p ++ s)).toOption.map directiveTokens =
          (tokenize strict s).toOption.map fun tokens =>
            (directiveTokens tokens).map (Token.shift (byteLength p))) ∧
    (['{', '{'] <:+: p → OpensTriply s →
      tokenize strict (p ++ s) = behind (p ++ ['{']) (tokenize strict s.tail)) := by
  have hfront : ∀ {p s : List Char},
      candidate? (p ++ s) = (candidate? s).map (fun c => { c with before := p ++ c.before }) →
      tokenize strict (p ++ s) = behind p (tokenize strict s) := by
    intro p s hcandidate
    have hread := tokensFrom_front strict p [] s
    rw [List.append_nil] at hread
    exact (tokensFrom_append_of_candidate hcandidate).trans hread
  have hclosing := splitAtPair?_eq_none_iff.2 hp
  refine ⟨fun hno => ?_, fun hopen htriple => ?_⟩
  · have hread : tokenize strict (p ++ s) = behind p (tokenize strict s) := by
      by_cases hopen : ['{', '{'] <:+: p
      · exact hfront (candidate?_behind_open hs hclosing hopen fun htriple => hno ⟨hopen, htriple⟩)
      · exact hfront (candidate?_behind_closed hopen hlast)
    refine ⟨hread, ?_⟩
    rw [hread]
    cases tokenize strict s with
    | error e => rfl
    | ok tokens => exact congrArg some (directiveTokens_inFront p tokens)
  · have hread := hfront (candidate?_behind_triple hclosing hopen htriple)
    obtain ⟨inner, after, rfl, -⟩ := htriple
    rw [← hread]
    simp

/-- A text that leaves braces open. -/
def unclosed : List Char := "\x7b\x7b a".toList

/-- A name in two braces, and behind it a closing one. -/
def twiceBraced : List Char := "\x7b\x7bb\x7d\x7d\x7d".toList

/-- A name behind three braces. -/
def thriceBraced : List Char := "\x7b\x7b\x7bb\x7d\x7d".toList

theorem unclosed_behind :
    tokenize true (unclosed ++ twiceBraced) = .ok
        [⟨.text "\x7b\x7b a", 0, 4⟩, ⟨.directive (.placeholder "b"), 4, 9⟩, ⟨.text "\x7d", 9, 10⟩] ∧
      tokenize true (unclosed ++ twiceBraced) = behind unclosed (tokenize true twiceBraced) ∧
      tokenize true (unclosed ++ thriceBraced) =
        behind (unclosed ++ ['{']) (tokenize true thriceBraced.tail) := by
  have hp : ¬ ['}', '}'] <:+: unclosed := by decide
  have hlast : unclosed.getLast? ≠ some '{' := by decide
  have hopen : ['{', '{'] <:+: unclosed := by decide
  have htwice := tokenize_behind_opener true (s := twiceBraced) (by decide) hp hlast
  have hthrice := tokenize_behind_opener true (s := thriceBraced) (by decide) hp hlast
  exact ⟨by decide +kernel, (htwice.1 (by decide +kernel)).1, hthrice.2 hopen (by decide +kernel)⟩

/-- Three braces open nothing on their own, but they do behind a text that leaves braces open. -/
theorem thriceBraced_apart : ¬ ∀ (strict : Bool) (p s : List Char), ['{', '{'] <+: s →
    ¬ ['}', '}'] <:+: p → p.getLast? ≠ some '{' →
    (tokenize strict (p ++ s)).toOption.map directiveTokens =
      (tokenize strict s).toOption.map fun tokens =>
        (directiveTokens tokens).map (Token.shift (byteLength p)) := by
  intro hinert
  have hsame := hinert false unclosed thriceBraced (by decide) (by decide) (by decide)
  have halone : tokenize false thriceBraced = .ok [⟨.text "\x7b\x7b\x7bb\x7d\x7d", 0, 6⟩] := by
    decide +kernel
  have hbehind : tokenize false (unclosed ++ thriceBraced) = .ok
      [⟨.text "\x7b\x7b a\x7b", 0, 5⟩, ⟨.directive (.placeholder "b"), 5, 10⟩] := by decide +kernel
  rw [halone, hbehind] at hsame
  revert hsame
  decide

end StyledTemplate
