import StyledTemplate.Proofs.Directive.Sources
import StyledTemplate.Proofs.Outcome

/-!
# Ranges of tokens

A text can be cut between any two of its tokens, and each part is then read as it was in the whole
text, but for the offsets (`tokensFrom_cut`). So neighbouring tokens are what is read from their
slice of the text, and taking off the first or the last token leaves the others as they are
(`tokenize_slice`).
-/

namespace StyledTemplate

open Text (byteLength takeBytes dropBytes trim)

/-! ## Moving a text -/

/-- The token, `n` bytes further on. -/
def Token.shift (n : Nat) (t : Token) : Token :=
  { t with start := n + t.start, stop := n + t.stop }

/-- The error, `n` bytes further on in its paragraph. -/
def ParseError.shift (n : Nat) (e : ParseError) : ParseError :=
  { e with position := { e.position with offset := n + e.position.offset } }

/-- What is read from a text that stands `n` bytes further on. -/
def shifted (n : Nat) (x : Except ParseError (List Token)) : Except ParseError (List Token) :=
  (x.map (List.map (Token.shift n))).mapError (ParseError.shift n)

theorem textToken_shift (n offset : Nat) (cs : List Char) :
    textToken (n + offset) cs = (textToken offset cs).map (Token.shift n) := by
  unfold textToken
  split
  · rfl
  · rw [List.map_singleton, Token.shift, Nat.add_assoc]

theorem exists_of_shifted_eq_ok {n : Nat} {x : Except ParseError (List Token)}
    {tokens : List Token} (h : shifted n x = .ok tokens) :
    ∃ found, x = .ok found ∧ found.map (Token.shift n) = tokens := by
  cases x with
  | error e => cases h
  | ok found => exact ⟨found, rfl, Except.ok.inj h⟩

/-- The offset that a text starts at only moves its tokens and its error. -/
theorem tokensFrom_shift (strict : Bool) (n offset : Nat) (literal cs : List Char) :
    tokensFrom strict (n + offset) literal cs =
      shifted n (tokensFrom strict offset literal cs) := by
  induction cs using candidate_induction generalizing offset literal with
  | none cs hc =>
    rw [tokensFrom_of_none hc, tokensFrom_of_none hc, textToken_shift]
    rfl
  | some cs c hc ih =>
    cases hr : Reading.ofContent (trim c.inner) with
    | directive d =>
      rw [tokensFrom_of_directive hc hr, tokensFrom_of_directive hc hr, Nat.add_assoc,
        Nat.add_assoc, ih, textToken_shift]
      cases tokensFrom strict (offset + byteLength (literal ++ c.before) + byteLength c.source) []
          c.after with
      | error e => rfl
      | ok rest => simp [shifted, Except.map, Except.mapError, Token.shift]
    | malformed =>
      rw [tokensFrom_of_malformed hc hr, tokensFrom_of_malformed hc hr, Nat.add_assoc]
      rfl
    | unknown =>
      by_cases hstrict : strict = true
      · rw [tokensFrom_of_unknown_strict hc hr hstrict,
          tokensFrom_of_unknown_strict hc hr hstrict, Nat.add_assoc]
        rfl
      · rw [tokensFrom_of_unknown hc hr hstrict, tokensFrom_of_unknown hc hr hstrict]
        exact ih offset _

/-- Tokens that are read behind `n` bytes are those of the text on its own. -/
theorem exists_tokenize_of_tokensFrom {strict : Bool} {n : Nat} {cs : List Char}
    {tokens : List Token} (h : tokensFrom strict n [] cs = .ok tokens) :
    ∃ found, tokenize strict cs = .ok found ∧ found.map (Token.shift n) = tokens := by
  have hshift := tokensFrom_shift strict n 0 [] cs
  rw [Nat.add_zero, h] at hshift
  exact exists_of_shifted_eq_ok hshift.symm

/-! ## Cutting a text -/

section Cut

variable {strict : Bool} {offset : Nat} {cs : List Char} {pre post tokens : List Token}

theorem start_head?_of_tokensFrom (h : tokensFrom strict offset [] cs = .ok tokens) :
    ∀ t ∈ tokens.head?, t.start = offset := by
  obtain ⟨stretches, rfl, -, -⟩ := exists_stretches_of_tokensFrom h
  exact start_head?_layOut

theorem stop_getLast?_of_tokensFrom (h : tokensFrom strict offset [] cs = .ok tokens) :
    ∀ t ∈ tokens.getLast?, t.stop = offset + byteLength cs := by
  obtain ⟨stretches, rfl, hsource, -⟩ := exists_stretches_of_tokensFrom h
  rw [List.nil_append] at hsource
  rw [← hsource]
  exact stop_getLast?_layOut

theorem tokensFrom_nil (strict : Bool) (offset : Nat) : tokensFrom strict offset [] [] = .ok [] :=
  tokensFrom_of_none rfl

/-- Before a directive, a text can be cut. -/
theorem tokensFrom_cut_before {t : Token}
    (h : tokensFrom strict offset [] cs = .ok (pre ++ t :: post))
    (ht : t.directive?.isSome = true) :
    ∃ front back, cs = front ++ back ∧ tokensFrom strict offset [] front = .ok pre ∧
      tokensFrom strict (offset + byteLength front) [] back = .ok (t :: post) := by
  obtain ⟨c, htext, hstart, hstop, hfound, ⟨d, hkind, hr⟩, hbefore, hafter, -⟩ :=
    exists_splitsAt h ht
  obtain ⟨kind, start, stop⟩ := t
  dsimp only at hkind hstart hstop hafter
  subst hkind hstop
  have hread : tokensFrom strict start [] (c.source ++ c.after) =
      (tokensFrom strict (start + byteLength c.source) [] c.after).map fun rest =>
        ⟨.directive d, start, start + byteLength c.source⟩ :: rest :=
    tokensFrom_of_directive (hfound c.after) hr
  refine ⟨c.before, c.source ++ c.after, htext.trans (List.append_assoc _ _ _), hbefore, ?_⟩
  rw [List.nil_append] at hstart
  rw [← hstart, hread, hafter]
  rfl

/-- Behind a directive, a text can be cut. -/
theorem tokensFrom_cut_behind {t : Token}
    (h : tokensFrom strict offset [] cs = .ok (pre ++ t :: post))
    (ht : t.directive?.isSome = true) :
    ∃ front back, cs = front ++ back ∧ tokensFrom strict offset [] front = .ok (pre ++ [t]) ∧
      tokensFrom strict (offset + byteLength front) [] back = .ok post := by
  obtain ⟨c, htext, hstart, hstop, -, -, -, hafter, hreplace⟩ := exists_splitsAt h ht
  have hstop' : offset + byteLength (c.before ++ c.source) = t.stop := by
    rw [hstop, hstart, List.nil_append, Text.byteLength_append, Nat.add_assoc]
  have hfront := hreplace []
  rw [List.append_nil, tokensFrom_nil] at hfront
  exact ⟨c.before ++ c.source, c.after, htext, hfront, hstop'.symm ▸ hafter⟩

/-- A text can be cut between any two of its tokens. -/
theorem tokensFrom_cut (h : tokensFrom strict offset [] cs = .ok (pre ++ post)) :
    ∃ front back, cs = front ++ back ∧ tokensFrom strict offset [] front = .ok pre ∧
      tokensFrom strict (offset + byteLength front) [] back = .ok post := by
  cases post with
  | nil =>
    rw [List.append_nil] at h
    exact ⟨cs, [], (List.append_nil cs).symm, h, tokensFrom_nil strict _⟩
  | cons t post =>
    by_cases ht : t.directive?.isSome = true
    · exact tokensFrom_cut_before h ht
    · rcases List.eq_nil_or_concat pre with rfl | ⟨pre, u, rfl⟩
      · exact ⟨[], cs, rfl, tokensFrom_nil strict offset, h⟩
      · -- in front of literal text there is a directive
        rw [List.concat_eq_append] at h ⊢
        have hchain := isChain_apart_of_tokensFrom h
        rw [List.append_assoc] at h hchain
        have hu : u.directive?.isSome = true := by
          have hpair := (List.isChain_append.1 hchain).2.1
          rcases (List.isChain_cons_cons.1 hpair).1 with hu | ht'
          · exact hu
          · exact absurd ht' ht
        exact tokensFrom_cut_behind h hu

/-- Neighbouring tokens are those of a part of the text. -/
theorem exists_part_of_range {mid : List Token}
    (h : tokensFrom strict offset [] cs = .ok (pre ++ mid ++ post)) :
    ∃ front part back, cs = front ++ part ++ back ∧
      tokensFrom strict (offset + byteLength front) [] part = .ok mid := by
  obtain ⟨whole, back, rfl, hwhole, -⟩ := tokensFrom_cut h
  obtain ⟨front, part, rfl, -, hpart⟩ := tokensFrom_cut hwhole
  exact ⟨front, part, back, rfl, hpart⟩

end Cut

/-- The items from one to another one. -/
theorem range_of_getElem? {α : Type} {items : List α} {i j : Nat} {first last : α} (hij : i ≤ j)
    (hfirst : items[i]? = some first) (hlast : items[j]? = some last) :
    items = items.take i ++ (items.take (j + 1)).drop i ++ items.drop (j + 1) ∧
      ((items.take (j + 1)).drop i).head? = some first ∧
      ((items.take (j + 1)).drop i).getLast? = some last := by
  have hlength : j < items.length := (List.getElem?_eq_some_iff.1 hlast).1
  refine ⟨?_, ?_, ?_⟩
  · have hfront : items.take i ++ (items.take (j + 1)).drop i = items.take (j + 1) := by
      have hparts := List.take_append_drop i (items.take (j + 1))
      rwa [List.take_take, Nat.min_eq_left (by omega)] at hparts
    rw [hfront, List.take_append_drop]
  · rw [List.head?_drop, List.getElem?_take_of_lt (by omega), hfirst]
  · have hshort : ¬ (items.take (j + 1)).length ≤ i := by
      rw [List.length_take]
      omega
    rw [List.getLast?_drop, if_neg hshort, List.getLast?_take, if_neg (by omega),
      Nat.add_sub_cancel, hlast, Option.some_or]

/-- The tokens from one to another one are what is read from the slice of the text that they take
up. Without its first token, or without its last one, a text has the other tokens that it had. -/
theorem tokenize_slice {strict : Bool} {text : List Char} {tokens : List Token}
    (h : tokenize strict text = .ok tokens) :
    (∀ i j first last, i ≤ j → tokens[i]? = some first → tokens[j]? = some last →
      ∃ part found, slice? first.start last.stop text = some part ∧
        tokenize strict part = .ok found ∧
        found.map (Token.shift first.start) = (tokens.take (j + 1)).drop i) ∧
    (∀ first rest, tokens = first :: rest → ∃ found,
      tokenize strict (dropBytes first.stop text) = .ok found ∧
        found.map (Token.shift first.stop) = rest) ∧
    ∀ front last, tokens = front ++ [last] →
      tokenize strict (takeBytes last.start text) = .ok front := by
  refine ⟨?_, ?_, ?_⟩
  · intro i j first last hij hfirst hlast
    obtain ⟨hparts, hhead, hend⟩ := range_of_getElem? hij hfirst hlast
    obtain ⟨front, part, back, rfl, hpart⟩ := exists_part_of_range (hparts ▸ h)
    have hstart := start_head?_of_tokensFrom hpart first hhead
    have hstop := stop_getLast?_of_tokensFrom hpart last hend
    rw [Nat.zero_add] at hpart hstart hstop
    obtain ⟨found, hfound, hmap⟩ := exists_tokenize_of_tokensFrom hpart
    refine ⟨part, found, ?_, hfound, ?_⟩
    · rw [hstart, hstop, slice?_append]
    · rw [hstart, hmap]
  · rintro first rest rfl
    have hcut : tokensFrom strict 0 [] text = .ok ([first] ++ rest) := h
    obtain ⟨front, back, rfl, hfront, hback⟩ := tokensFrom_cut hcut
    have hstop := stop_getLast?_of_tokensFrom hfront first rfl
    rw [Nat.zero_add] at hback hstop
    rw [hstop, Text.dropBytes_byteLength_append]
    exact exists_tokenize_of_tokensFrom hback
  · rintro front last rfl
    obtain ⟨front', back, rfl, hfront, hback⟩ := tokensFrom_cut h
    have hstart := start_head?_of_tokensFrom hback last rfl
    rw [Nat.zero_add] at hstart
    rw [hstart, Text.takeBytes_byteLength_append]
    exact hfront

/-- A text in which braces are left open and closed between its directives. -/
def openText : List Char :=
  "\x7b\x7b é\x7b\x7b\x7bb\x7d\x7d \x7b\x7b?\x7d\x7d\x7bc\x7d\x7d\x7b\x7b/if\x7d\x7d".toList

/-- The tokens of the text. -/
def openTokens : List Token :=
  [⟨.text "\x7b\x7b é\x7b", 0, 6⟩, ⟨.directive (.placeholder "b"), 6, 11⟩,
   ⟨.text " \x7b\x7b?\x7d\x7d\x7bc\x7d\x7d", 11, 21⟩, ⟨.directive .ifClose, 21, 28⟩]

theorem tokenize_openText_slice :
    tokenize false openText = .ok openTokens ∧
      (∃ part found, slice? 6 21 openText = some part ∧ tokenize false part = .ok found ∧
        found.map (Token.shift 6) = (openTokens.take 3).drop 1) ∧
      (∃ found, tokenize false (dropBytes 6 openText) = .ok found ∧
        found.map (Token.shift 6) = openTokens.drop 1) ∧
      tokenize false (takeBytes 21 openText) = .ok (openTokens.take 3) := by
  have h : tokenize false openText = .ok openTokens := by decide +kernel
  obtain ⟨hslice, hfirst, hlast⟩ := tokenize_slice h
  refine ⟨h, hslice 1 2 _ _ (by decide) rfl rfl, hfirst _ _ rfl, ?_⟩
  exact hlast (openTokens.take 3) _ rfl

end StyledTemplate
