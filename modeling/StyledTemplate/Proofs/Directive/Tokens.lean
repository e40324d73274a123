import StyledTemplate.Block.RowLoop
import StyledTemplate.Proofs.Outcome

/-!
# Where directives stand in a text

The tokens of a text are what is read piece by piece: a directive token at some bytes means that the
text has the braces there, and the tokens before and after it are those of the text before and after
it (`tokensFrom_split`). Text without braces may be put before or behind a text; that moves its
directives, but makes no others (`placedIn?_prepend`, `placedIn?_append`).
-/

namespace StyledTemplate

open Text (byteLength isBlank allBlank trim)

/-! ## Finding a pair of braces -/

theorem splitAtPair?_cons (brace c : Char) (cs : List Char) :
    splitAtPair? brace (c :: cs) =
      if c = brace ∧ cs.head? = some brace then some ([], cs.tail)
      else (splitAtPair? brace cs).map fun parts => (c :: parts.1, parts.2) := by
  cases cs with
  | nil => simp [splitAtPair?]
  | cons d ds => simp [splitAtPair?]

/-- A text has no pair of braces if a longer one has none. -/
theorem splitAtPair?_eq_none_of_append {brace : Char} {as bs : List Char}
    (h : splitAtPair? brace (as ++ bs) = none) : splitAtPair? brace as = none := by
  induction as with
  | nil => rfl
  | cons a as ih =>
    rw [List.cons_append, splitAtPair?_cons] at h
    split at h
    · exact absurd h (by simp)
    · next hno =>
      rw [splitAtPair?_cons, if_neg, ih (Option.map_eq_none_iff.1 h), Option.map_none]
      rintro ⟨ha, has⟩
      refine hno ⟨ha, ?_⟩
      rw [List.head?_append, has, Option.some_or]

/-- The parts of a text at its first pair of braces: before it there is none, also none that ends in
the pair. -/
theorem splitAtPair?_eq_some_iff {brace : Char} {cs before after : List Char} :
    splitAtPair? brace cs = some (before, after) ↔
      cs = before ++ brace :: brace :: after ∧ splitAtPair? brace (before ++ [brace]) = none := by
  constructor
  · intro h
    refine ⟨splitAtPair?_eq_some h, ?_⟩
    induction cs generalizing before with
    | nil => simp [splitAtPair?] at h
    | cons c cs ih =>
      rw [splitAtPair?_cons] at h
      split at h
      · obtain ⟨rfl, rfl⟩ := Prod.mk.inj (Option.some.inj h)
        rfl
      · next hno =>
        obtain ⟨⟨left, right⟩, hparts, heq⟩ := Option.map_eq_some_iff.1 h
        obtain ⟨rfl, rfl⟩ := Prod.mk.inj heq
        rw [List.cons_append, splitAtPair?_cons, if_neg, ih hparts, Option.map_none]
        rintro ⟨hc, hhead⟩
        refine hno ⟨hc, ?_⟩
        rw [splitAtPair?_eq_some hparts]
        cases left with
        | nil => rfl
        | cons d ds => simpa using hhead
  · rintro ⟨rfl, hnone⟩
    induction before with
    | nil => simp [splitAtPair?]
    | cons c cs ih =>
      rw [List.cons_append, splitAtPair?_cons] at hnone
      split at hnone
      · exact absurd hnone (by simp)
      · next hno =>
        rw [List.cons_append, splitAtPair?_cons, if_neg, ih (Option.map_eq_none_iff.1 hnone),
          Option.map_some]
        rintro ⟨hc, hhead⟩
        refine hno ⟨hc, ?_⟩
        cases cs with
        | nil => rfl
        | cons d ds => simpa using hhead

/-- A text has no pair of braces exactly if no two of them are neighbours. -/
theorem splitAtPair?_eq_none_iff {brace : Char} {cs : List Char} :
    splitAtPair? brace cs = none ↔ ¬ [brace, brace] <:+: cs := by
  constructor
  · rintro h ⟨before, after, rfl⟩
    have hpair := splitAtPair?_eq_none_of_append h
    clear h
    induction before with
    | nil => simp [splitAtPair?] at hpair
    | cons c before ih =>
      rw [List.cons_append, splitAtPair?_cons] at hpair
      split at hpair
      · cases hpair
      · exact ih (Option.map_eq_none_iff.1 hpair)
  · intro h
    rw [Option.eq_none_iff_forall_ne_some]
    rintro ⟨before, after⟩ hsome
    exact h ⟨before, after, by rw [splitAtPair?_eq_some hsome]; simp⟩

theorem splitAtPair?_reverse_eq_none_iff {brace : Char} {cs : List Char} :
    splitAtPair? brace cs.reverse = none ↔ splitAtPair? brace cs = none := by
  rw [splitAtPair?_eq_none_iff, splitAtPair?_eq_none_iff, ← List.reverse_infix,
    List.reverse_reverse]
  rfl

/-- A brace behind a text makes no pair if the text does not end in one. -/
theorem splitAtPair?_concat_eq_none {brace : Char} {cs : List Char}
    (h : splitAtPair? brace cs = none) (hlast : cs.getLast? ≠ some brace) :
    splitAtPair? brace (cs ++ [brace]) = none := by
  induction cs with
  | nil => simp [splitAtPair?]
  | cons c cs ih =>
    rw [splitAtPair?_cons] at h
    split at h
    · cases h
    · next hno =>
      cases cs with
      | nil =>
        have hc : c ≠ brace := fun hc => hlast (by simp [hc])
        simp [splitAtPair?, hc]
      | cons d cs =>
        rw [List.cons_append, splitAtPair?_cons, if_neg (by simpa using hno),
          ih (Option.map_eq_none_iff.1 h) (by simpa using hlast), Option.map_none]

/-- A text that has no pair itself, and does not begin one either, may stand in front. -/
theorem splitAtPair?_behind {brace : Char} {w : List Char}
    (hw : splitAtPair? brace (w ++ [brace]) = none) (cs : List Char) :
    splitAtPair? brace (w ++ cs) =
      (splitAtPair? brace cs).map fun parts => (w ++ parts.1, parts.2) := by
  induction w with
  | nil => simp
  | cons c w ih =>
    rw [List.cons_append, splitAtPair?_cons] at hw
    split at hw
    · cases hw
    · next hno =>
      have hpair : ¬ (c = brace ∧ (w ++ cs).head? = some brace) := by
        rintro ⟨hc, hhead⟩
        refine hno ⟨hc, ?_⟩
        cases w with
        | nil => rfl
        | cons d w => exact hhead
      rw [List.cons_append, splitAtPair?_cons, if_neg hpair, ih (Option.map_eq_none_iff.1 hw),
        Option.map_map]
      rfl

/-- A text without the brace has no pair and begins none. -/
theorem splitAtPair?_concat_of_not_mem {brace : Char} {w : List Char} (hw : brace ∉ w) :
    splitAtPair? brace (w ++ [brace]) = none := by
  refine splitAtPair?_concat_eq_none (splitAtPair?_eq_none_iff.2 fun hpair => ?_) fun hlast => ?_
  · exact hw (hpair.subset List.mem_cons_self)
  · exact hw (List.mem_of_getLast? hlast)

/-- Where a pair stands, the first pair is found there or before it. -/
theorem exists_splitAtPair? (brace : Char) (before after : List Char) :
    ∃ first rest, splitAtPair? brace (before ++ brace :: brace :: after) = some (first, rest) ∧
      after <:+ rest := by
  induction before with
  | nil => exact ⟨[], after, by simp [splitAtPair?], List.suffix_refl _⟩
  | cons c before ih =>
    rw [List.cons_append, splitAtPair?_cons]
    split
    · refine ⟨[], _, rfl, ?_⟩
      cases before with
      | nil => exact List.suffix_cons _ _
      | cons d before => exact ⟨before ++ [brace, brace], by simp⟩
    · obtain ⟨first, rest, hsplit, hsuffix⟩ := ih
      exact ⟨c :: first, rest, by rw [hsplit, Option.map_some], hsuffix⟩

theorem splitAtPair?_append {brace : Char} {w : List Char} (hw : brace ∉ w) (cs : List Char) :
    splitAtPair? brace (cs ++ w) =
      (splitAtPair? brace cs).map fun parts => (parts.1, parts.2 ++ w) := by
  induction cs with
  | nil => simpa [splitAtPair?] using splitAtPair?_behind (splitAtPair?_concat_of_not_mem hw) []
  | cons c cs ih =>
    have hhead : (cs ++ w).head? = some brace ↔ cs.head? = some brace := by
      cases cs with
      | nil =>
        simp only [List.nil_append, List.head?_nil, reduceCtorEq, iff_false]
        exact fun h => hw (List.mem_of_mem_head? h)
      | cons d ds => simp
    rw [List.cons_append, splitAtPair?_cons, splitAtPair?_cons, ih]
    by_cases h : c = brace ∧ cs.head? = some brace
    · rw [if_pos h, if_pos ⟨h.1, hhead.2 h.2⟩]
      cases cs with
      | nil => simp at h
      | cons d ds => rfl
    · rw [if_neg h, if_neg (fun h' => h ⟨h'.1, hhead.1 h'.2⟩), Option.map_map, Option.map_map]
      rfl

/-! ## Finding a candidate -/

/-- The candidate of a text, from what stands before its first opening pair of braces, between that
and the first closing pair behind it, and after this one. -/
def Candidate.ofPairs (first content after : List Char) : Candidate :=
  match splitAtPair? '{' content.reverse with
  | none => ⟨first, content, after⟩
  | some (innermost, skipped) =>
    ⟨first ++ '{' :: '{' :: skipped.reverse, innermost.reverse, after⟩

namespace Candidate

theorem ofPairs_of_none {content : List Char} (h : splitAtPair? '{' content.reverse = none)
    (first after : List Char) : ofPairs first content after = ⟨first, content, after⟩ := by
  rw [ofPairs, h]

theorem ofPairs_of_pair {inner : List Char} (h : splitAtPair? '{' (inner.reverse ++ ['{']) = none)
    (first skipped after : List Char) :
    ofPairs first (skipped ++ '{' :: '{' :: inner) after =
      ⟨first ++ '{' :: '{' :: skipped, inner, after⟩ := by
  have hlast : splitAtPair? '{' (skipped ++ '{' :: '{' :: inner).reverse =
      some (inner.reverse, skipped.reverse) := splitAtPair?_eq_some_iff.2 ⟨by simp, h⟩
  rw [ofPairs, hlast]
  simp

/-- Either there is no other opening pair, or the candidate begins at the last one. -/
theorem ofPairs_cases (first content after : List Char) :
    (splitAtPair? '{' content.reverse = none ∧
      ofPairs first content after = ⟨first, content, after⟩) ∨
    ∃ skipped inner, content = skipped ++ '{' :: '{' :: inner ∧
      splitAtPair? '{' (inner.reverse ++ ['{']) = none ∧
      ofPairs first content after = ⟨first ++ '{' :: '{' :: skipped, inner, after⟩ := by
  unfold ofPairs
  split
  · next hnone => exact .inl ⟨hnone, rfl⟩
  · next innermost skipped hlast =>
    obtain ⟨htext, hpair⟩ := splitAtPair?_eq_some_iff.1 hlast
    refine .inr ⟨skipped.reverse, innermost.reverse, ?_, ?_, rfl⟩
    · rw [← List.reverse_reverse content, htext]
      simp
    · rwa [List.reverse_reverse]

@[simp] theorem after_ofPairs (first content after : List Char) :
    (ofPairs first content after).after = after := by
  rcases ofPairs_cases first content after with ⟨-, h⟩ | ⟨_, _, -, -, h⟩ <;> rw [h]

theorem ofPairs_eq (first content after after' : List Char) :
    { ofPairs first content after with after := after' } = ofPairs first content after' := by
  unfold ofPairs
  split <;> rfl

/-- The parts of the candidate make up the text. -/
theorem text_ofPairs (first content after rest : List Char) :
    (ofPairs first content after).before ++ (ofPairs first content after).source ++ rest =
      first ++ '{' :: '{' :: (content ++ '}' :: '}' :: rest) := by
  rcases ofPairs_cases first content after with ⟨-, h⟩ | ⟨skipped, inner, rfl, -, h⟩ <;>
    simp [h, source]

end Candidate

/-- The candidate lies between the first opening pair of braces and the first closing pair. -/
theorem candidate?_of_pairs {first content : List Char}
    (hfirst : splitAtPair? '{' (first ++ ['{']) = none)
    (hcontent : splitAtPair? '}' (content ++ ['}']) = none) (after : List Char) :
    candidate? (first ++ '{' :: '{' :: (content ++ '}' :: '}' :: after)) =
      some (.ofPairs first content after) := by
  have hopen : splitAtPair? '{' (first ++ '{' :: '{' :: (content ++ '}' :: '}' :: after)) =
      some (first, content ++ '}' :: '}' :: after) := splitAtPair?_eq_some_iff.2 ⟨rfl, hfirst⟩
  have hclose : splitAtPair? '}' (content ++ '}' :: '}' :: after) = some (content, after) :=
    splitAtPair?_eq_some_iff.2 ⟨rfl, hcontent⟩
  simp only [candidate?, Option.bind_eq_bind, hopen, hclose, Option.bind_some, Candidate.ofPairs]
  cases splitAtPair? '{' content.reverse <;> rfl

theorem exists_pairs_of_candidate? {cs : List Char} {c : Candidate} (h : candidate? cs = some c) :
    ∃ first content, cs = first ++ '{' :: '{' :: (content ++ '}' :: '}' :: c.after) ∧
      splitAtPair? '{' (first ++ ['{']) = none ∧ splitAtPair? '}' (content ++ ['}']) = none ∧
      c = .ofPairs first content c.after := by
  have hsplit := h
  simp only [candidate?, Option.bind_eq_bind, Option.bind_eq_some_iff] at hsplit
  obtain ⟨⟨first, rest⟩, hopen, ⟨content, after⟩, hclose, -⟩ := hsplit
  obtain ⟨rfl, hfirst⟩ := splitAtPair?_eq_some_iff.1 hopen
  obtain ⟨hrest, hcontent⟩ := splitAtPair?_eq_some_iff.1 hclose
  dsimp only at hrest
  subst hrest
  obtain rfl := Option.some.inj (h.symm.trans (candidate?_of_pairs hfirst hcontent after))
  rw [Candidate.after_ofPairs]
  exact ⟨first, content, rfl, hfirst, hcontent, rfl⟩

/-- The parts of a text at its candidate do not depend on what follows it. -/
theorem candidate?_replace {cs : List Char} {c : Candidate} (h : candidate? cs = some c)
    (after : List Char) :
    candidate? (c.before ++ c.source ++ after) = some { c with after } := by
  obtain ⟨first, content, -, hfirst, hcontent, hc⟩ := exists_pairs_of_candidate? h
  rw [hc, Candidate.text_ofPairs, candidate?_of_pairs hfirst hcontent, Candidate.ofPairs_eq]

/-- There is no candidate before the first one. -/
theorem candidate?_before {cs : List Char} {c : Candidate} (h : candidate? cs = some c) :
    candidate? c.before = none := by
  obtain ⟨first, content, -, hfirst, hcontent, hc⟩ := exists_pairs_of_candidate? h
  rcases Candidate.ofPairs_cases first content c.after with
    ⟨-, heq⟩ | ⟨skipped, inner, rfl, -, heq⟩
  · rw [hc, heq]
    simp [candidate?, splitAtPair?_eq_none_of_append hfirst]
  · have hbefore : splitAtPair? '{' (first ++ '{' :: '{' :: skipped) = some (first, skipped) :=
      splitAtPair?_eq_some_iff.2 ⟨rfl, hfirst⟩
    rw [List.append_assoc] at hcontent
    rw [hc, heq]
    simp [candidate?, hbefore, splitAtPair?_eq_none_of_append hcontent]

/-- There is no opening pair within a candidate. -/
theorem splitAtPair?_inner {cs : List Char} {c : Candidate} (h : candidate? cs = some c) :
    splitAtPair? '{' c.inner = none := by
  rw [← splitAtPair?_reverse_eq_none_iff]
  obtain ⟨first, content, -, -, -, hc⟩ := exists_pairs_of_candidate? h
  rcases Candidate.ofPairs_cases first content c.after with
    ⟨hnone, heq⟩ | ⟨_, inner, -, hlast, heq⟩
  · rwa [hc, heq]
  · rw [hc, heq]
    exact splitAtPair?_eq_none_of_append hlast

/-- There is no closing pair within a candidate, and its end makes none with the braces behind. -/
theorem splitAtPair?_inner_closing {cs : List Char} {c : Candidate} (h : candidate? cs = some c) :
    splitAtPair? '}' (c.inner ++ ['}']) = none := by
  obtain ⟨first, content, -, -, hcontent, hc⟩ := exists_pairs_of_candidate? h
  rcases Candidate.ofPairs_cases first content c.after with
    ⟨-, heq⟩ | ⟨skipped, inner, rfl, -, heq⟩
  · rwa [hc, heq]
  · rw [hc, heq]
    rw [splitAtPair?_eq_none_iff] at hcontent ⊢
    intro hpair
    refine hcontent (hpair.trans (List.IsSuffix.isInfix ?_))
    exact ⟨skipped ++ ['{', '{'], by simp⟩

/-- A candidate is that of the text that starts with it, whatever follows it. -/
theorem candidate?_source_append {cs : List Char} {c : Candidate} (h : candidate? cs = some c)
    (rest : List Char) : candidate? (c.source ++ rest) = some ⟨[], c.inner, rest⟩ := by
  have hopening := splitAtPair?_reverse_eq_none_iff.2 (splitAtPair?_inner h)
  have hfirst : splitAtPair? '{' ([] ++ ['{']) = none := rfl
  have hfound := candidate?_of_pairs hfirst (splitAtPair?_inner_closing h) rest
  rw [Candidate.ofPairs_of_none hopening] at hfound
  rw [← hfound, Candidate.source]
  simp

/-- A text that has no braces. -/
def NoBraces (w : List Char) : Prop := '{' ∉ w ∧ '}' ∉ w

/-- Blank text has no braces. -/
theorem noBraces_of_allBlank {w : List Char} (h : allBlank w) : NoBraces w := by
  rw [allBlank, List.all_eq_true] at h
  exact ⟨fun hmem => absurd (h _ hmem) (by decide), fun hmem => absurd (h _ hmem) (by decide)⟩

/-- Text that has no opening pair, and does not begin one either, may stand in front. -/
theorem candidate?_behind {w : List Char} (hw : splitAtPair? '{' (w ++ ['{']) = none)
    (cs : List Char) :
    candidate? (w ++ cs) = (candidate? cs).map fun c => { c with before := w ++ c.before } := by
  simp only [candidate?, Option.bind_eq_bind, splitAtPair?_behind hw]
  cases splitAtPair? '{' cs with
  | none => rfl
  | some parts =>
    simp only [Option.map_some, Option.bind_some]
    cases splitAtPair? '}' parts.2 with
    | none => rfl
    | some parts' =>
      simp only [Option.bind_some]
      split <;> simp

theorem candidate?_append {w : List Char} (hw : NoBraces w) (cs : List Char) :
    candidate? (cs ++ w) = (candidate? cs).map fun c => { c with after := c.after ++ w } := by
  simp only [candidate?, Option.bind_eq_bind, splitAtPair?_append hw.1]
  cases splitAtPair? '{' cs with
  | none => rfl
  | some parts =>
    simp only [Option.map_some, Option.bind_some, splitAtPair?_append hw.2]
    cases splitAtPair? '}' parts.2 with
    | none => rfl
    | some parts' =>
      simp only [Option.map_some, Option.bind_some]
      split <;> simp

/-! ## Directives of a text -/

/-- A directive and the byte at which it starts in the text of its paragraph. -/
structure Placed where
  /-- The directive. -/
  directive : Directive
  /-- The offset of its first byte. -/
  offset : Nat
  deriving Repr, DecidableEq

/-- The directive, `n` bytes further on. -/
def Placed.shift (n : Nat) (d : Placed) : Placed := { d with offset := n + d.offset }

@[simp] theorem Placed.shift_zero : Placed.shift 0 = id := by
  funext d
  simp [shift]

@[simp] theorem Placed.shift_shift (m n : Nat) (d : Placed) :
    (d.shift n).shift m = d.shift (m + n) := by
  simp [shift, Nat.add_assoc]

/-- The directive of a token and where it starts. -/
def Token.placed? (t : Token) : Option Placed := t.directive?.map fun d => ⟨d, t.start⟩

/-- The directives among some tokens. -/
def placedOf (tokens : List Token) : List Placed := tokens.filterMap Token.placed?

/-- No token has a place as a directive exactly if none is one. -/
theorem placedOf_eq_nil_iff {tokens : List Token} :
    placedOf tokens = [] ↔ (tokens.any fun token => token.directive?.isSome) = false := by
  simp [placedOf, Token.placed?, List.filterMap_eq_nil_iff]

@[simp] theorem placedOf_append (as bs : List Token) :
    placedOf (as ++ bs) = placedOf as ++ placedOf bs := List.filterMap_append

@[simp] theorem placedOf_textToken (offset : Nat) (cs : List Char) :
    placedOf (textToken offset cs) = [] := by
  unfold textToken
  split <;> rfl

@[simp] theorem placedOf_cons_directive (d : Directive) (start stop : Nat)
    (tokens : List Token) :
    placedOf (⟨.directive d, start, stop⟩ :: tokens) = ⟨d, start⟩ :: placedOf tokens := rfl

/-- The directives of a text, found candidate by candidate. There are none if a candidate is an
error. -/
def placedIn? (strict : Bool) (cs : List Char) : Option (List Placed) :=
  match _h : candidate? cs with
  | none => some []
  | some c =>
    match Reading.ofContent (trim c.inner) with
    | .directive d =>
      (placedIn? strict c.after).map fun ds =>
        ⟨d, byteLength c.before⟩ ::
          ds.map (Placed.shift (byteLength c.before + byteLength c.source))
    | .malformed => none
    | .unknown =>
      if strict then none
      else (placedIn? strict c.after).map fun ds =>
        ds.map (Placed.shift (byteLength c.before + byteLength c.source))
termination_by cs.length
decreasing_by all_goals exact candidate?_length _h

section Equations

variable {strict : Bool} {offset : Nat} {literal cs : List Char} {c : Candidate} {d : Directive}

theorem tokensFrom_of_none (hc : candidate? cs = none) :
    tokensFrom strict offset literal cs = .ok (textToken offset (literal ++ cs)) := by
  rw [tokensFrom]
  split
  · rfl
  · next h => simp [hc] at h

theorem tokensFrom_of_directive (hc : candidate? cs = some c)
    (hr : Reading.ofContent (trim c.inner) = .directive d) :
    tokensFrom strict offset literal cs =
      (tokensFrom strict (offset + byteLength (literal ++ c.before) + byteLength c.source) []
        c.after).map fun rest =>
          textToken offset (literal ++ c.before) ++
            ⟨.directive d, offset + byteLength (literal ++ c.before),
              offset + byteLength (literal ++ c.before) + byteLength c.source⟩ :: rest := by
  rw [tokensFrom]
  split
  · next h => simp [hc] at h
  · next c' h =>
    obtain rfl := Option.some.inj (hc.symm.trans h)
    simp only [hr]
    rfl

theorem tokensFrom_of_unknown (hc : candidate? cs = some c)
    (hr : Reading.ofContent (trim c.inner) = .unknown) (hstrict : ¬ strict = true) :
    tokensFrom strict offset literal cs =
      tokensFrom strict offset (literal ++ c.before ++ c.source) c.after := by
  rw [tokensFrom]
  split
  · next h => simp [hc] at h
  · next c' h =>
    obtain rfl := Option.some.inj (hc.symm.trans h)
    simp only [hr, if_neg hstrict]

theorem placedIn?_of_none (hc : candidate? cs = none) : placedIn? strict cs = some [] := by
  rw [placedIn?]
  split
  · rfl
  · next h => simp [hc] at h

theorem placedIn?_of_some (hc : candidate? cs = some c) :
    placedIn? strict cs =
      match Reading.ofContent (trim c.inner) with
      | .directive d =>
        (placedIn? strict c.after).map fun ds =>
          ⟨d, byteLength c.before⟩ ::
            ds.map (Placed.shift (byteLength c.before + byteLength c.source))
      | .malformed => none
      | .unknown =>
        if strict then none
        else (placedIn? strict c.after).map fun ds =>
          ds.map (Placed.shift (byteLength c.before + byteLength c.source)) := by
  rw [placedIn?]
  split
  · next h => simp [hc] at h
  · next c' h =>
    obtain rfl := Option.some.inj (hc.symm.trans h)
    rfl

theorem tokensFrom_of_malformed (hc : candidate? cs = some c)
    (hr : Reading.ofContent (trim c.inner) = .malformed) :
    tokensFrom strict offset literal cs =
      .error { fault := .malformedDirective (String.ofList c.source),
               position := { offset := offset + byteLength (literal ++ c.before) } } := by
  rw [tokensFrom]
  split
  · next h => simp [hc] at h
  · next c' h =>
    obtain rfl := Option.some.inj (hc.symm.trans h)
    simp only [hr]

theorem tokensFrom_of_unknown_strict (hc : candidate? cs = some c)
    (hr : Reading.ofContent (trim c.inner) = .unknown) (hstrict : strict = true) :
    tokensFrom strict offset literal cs =
      .error { fault := .unknownDirective (String.ofList c.source),
               position := { offset := offset + byteLength (literal ++ c.before) } } := by
  rw [tokensFrom]
  split
  · next h => simp [hc] at h
  · next c' h =>
    obtain rfl := Option.some.inj (hc.symm.trans h)
    simp only [hr, if_pos hstrict]

/-- Text in front that only goes before the candidate is literal text. -/
theorem tokensFrom_append_of_candidate {p : List Char}
    (h : candidate? (p ++ cs) = (candidate? cs).map fun c => { c with before := p ++ c.before }) :
    tokensFrom strict offset literal (p ++ cs) = tokensFrom strict offset (literal ++ p) cs := by
  cases hc : candidate? cs with
  | none =>
    rw [hc, Option.map_none] at h
    rw [tokensFrom_of_none h, tokensFrom_of_none hc, List.append_assoc]
  | some c =>
    rw [hc, Option.map_some] at h
    cases hr : Reading.ofContent (trim c.inner) with
    | directive d =>
      rw [tokensFrom_of_directive h hr, tokensFrom_of_directive hc hr, List.append_assoc]
      rfl
    | malformed =>
      rw [tokensFrom_of_malformed h hr, tokensFrom_of_malformed hc hr, List.append_assoc]
      rfl
    | unknown =>
      by_cases hstrict : strict = true
      · rw [tokensFrom_of_unknown_strict h hr hstrict, tokensFrom_of_unknown_strict hc hr hstrict,
          List.append_assoc]
        rfl
      · have htext : literal ++ (p ++ c.before) ++ c.source =
            literal ++ p ++ c.before ++ c.source := by simp
        rw [tokensFrom_of_unknown h hr hstrict, tokensFrom_of_unknown hc hr hstrict, ← htext]
        rfl

/-- What stands before a candidate is literal text. -/
theorem tokensFrom_skip (hc : candidate? cs = some c) :
    tokensFrom strict offset literal cs =
      tokensFrom strict offset (literal ++ c.before) (c.source ++ c.after) := by
  have htext := candidate?_eq_some hc
  rw [List.append_assoc] at htext
  have hskip : candidate? (c.before ++ (c.source ++ c.after)) =
      (candidate? (c.source ++ c.after)).map
        fun c' => { c' with before := c.before ++ c'.before } := by
    rw [← htext, hc, candidate?_source_append hc, Option.map_some, List.append_nil]
  rw [← tokensFrom_append_of_candidate hskip, ← htext]

/-- A candidate that is an error leaves the text without tokens. -/
theorem toOption_tokensFrom_of_error (hc : candidate? cs = some c)
    (hr : Reading.ofContent (trim c.inner) = .malformed ∨
      Reading.ofContent (trim c.inner) = .unknown ∧ strict = true) :
    (tokensFrom strict offset literal cs).toOption = none := by
  rcases hr with hr | ⟨hr, hstrict⟩
  · rw [tokensFrom_of_malformed hc hr]
    rfl
  · rw [tokensFrom_of_unknown_strict hc hr hstrict]
    rfl

end Equations

/-- The tokens of a text have the directives of that text, as far on as the text stands. -/
theorem placedOf_tokensFrom (strict : Bool) (offset : Nat) (literal cs : List Char) :
    (tokensFrom strict offset literal cs).toOption.map placedOf =
      (placedIn? strict cs).map (List.map (Placed.shift (offset + byteLength literal))) := by
  fun_induction placedIn? strict cs generalizing offset literal with
  | case1 cs hc =>
    rw [tokensFrom_of_none hc]
    simp [Except.toOption]
  | case2 cs c hc d hr ih =>
    rw [tokensFrom_of_directive hc hr, toOption_map, Option.map_map]
    have hrest := ih (offset + byteLength (literal ++ c.before) + byteLength c.source) []
    cases h : (tokensFrom strict (offset + byteLength (literal ++ c.before) +
        byteLength c.source) [] c.after).toOption with
    | none =>
      rw [h, Option.map_none, eq_comm, Option.map_eq_none_iff] at hrest
      simp [hrest]
    | some rest =>
      rw [h, Option.map_some, eq_comm, Option.map_eq_some_iff] at hrest
      obtain ⟨ds, hds, heq⟩ := hrest
      simp [hds, ← heq, Placed.shift, Nat.add_assoc]
  | case3 cs c hc hr => rw [toOption_tokensFrom_of_error hc (.inl hr)]; rfl
  | case4 cs c hc hr hstrict => rw [toOption_tokensFrom_of_error hc (.inr ⟨hr, hstrict⟩)]; rfl
  | case5 cs c hc hr hstrict ih =>
    rw [tokensFrom_of_unknown hc hr hstrict, ih, Option.map_map]
    congr 1
    funext ds
    simp [Placed.shift, Nat.add_assoc]

/-- The tokens of a text are there exactly if its directives are. -/
theorem placedOf_tokenize (strict : Bool) (cs : List Char) :
    (tokenize strict cs).toOption.map placedOf = placedIn? strict cs := by
  rw [tokenize, placedOf_tokensFrom]
  simp

/-- Text that has no opening pair, and does not begin one, moves the directives behind it. -/
theorem placedIn?_behind (strict : Bool) {w : List Char}
    (hw : splitAtPair? '{' (w ++ ['{']) = none) (cs : List Char) :
    placedIn? strict (w ++ cs) =
      (placedIn? strict cs).map (List.map (Placed.shift (byteLength w))) := by
  cases hc : candidate? cs with
  | none =>
    rw [placedIn?_of_none hc, placedIn?_of_none (by rw [candidate?_behind hw, hc]; rfl)]
    rfl
  | some c =>
    have hc' := (candidate?_behind hw cs).trans (congrArg _ hc)
    rw [placedIn?_of_some hc, placedIn?_of_some hc']
    dsimp only [Option.map_some]
    split
    · rw [Option.map_map]
      congr 1
      funext ds
      simp [Placed.shift, Candidate.source, Nat.add_assoc]
    · rfl
    · split
      · rfl
      · rw [Option.map_map]
        congr 1
        funext ds
        simp [Candidate.source, Nat.add_assoc]

/-- Text without braces in front moves the directives. -/
theorem placedIn?_prepend (strict : Bool) {w : List Char} (hw : NoBraces w) (cs : List Char) :
    placedIn? strict (w ++ cs) =
      (placedIn? strict cs).map (List.map (Placed.shift (byteLength w))) :=
  placedIn?_behind strict (splitAtPair?_concat_of_not_mem hw.1) cs

/-- Text without braces behind changes nothing. -/
theorem placedIn?_append (strict : Bool) {w : List Char} (hw : NoBraces w) (cs : List Char) :
    placedIn? strict (cs ++ w) = placedIn? strict cs := by
  fun_induction placedIn? strict cs with
  | case1 cs hc => rw [placedIn?_of_none (by rw [candidate?_append hw, hc]; rfl)]
  | case2 cs c hc d hr ih =>
    rw [placedIn?_of_some ((candidate?_append hw cs).trans (congrArg _ hc))]
    simp only [hr]
    rw [ih]
    rfl
  | case3 cs c hc hr =>
    rw [placedIn?_of_some ((candidate?_append hw cs).trans (congrArg _ hc))]
    simp only [hr]
  | case4 cs c hc hr hstrict =>
    rw [placedIn?_of_some ((candidate?_append hw cs).trans (congrArg _ hc))]
    simp only [hr, if_pos hstrict]
  | case5 cs c hc hr hstrict ih =>
    rw [placedIn?_of_some ((candidate?_append hw cs).trans (congrArg _ hc))]
    simp only [hr, if_neg hstrict]
    rw [ih]
    rfl

/-! ## Splitting a text at a directive -/

/-- What holds of texts without a candidate, and of a text with one if it holds of the text behind
the candidate, holds of every text. -/
theorem candidate_induction {motive : List Char → Prop}
    (none : ∀ cs, candidate? cs = none → motive cs)
    (some : ∀ cs c, candidate? cs = some c → motive c.after → motive cs) (cs : List Char) :
    motive cs :=
  match h : candidate? cs with
  | .none => none cs h
  | .some c => some cs c h (candidate_induction none some c.after)
termination_by cs.length
decreasing_by exact candidate?_length h

theorem directive?_of_mem_textToken {offset : Nat} {cs : List Char} {t : Token}
    (h : t ∈ textToken offset cs) : t.directive? = none := by
  unfold textToken at h
  split at h
  · simp at h
  · rw [List.mem_singleton] at h
    rw [h]
    rfl

/-- The tokens of a text with a candidate: either it is a directive, or it is literal text. -/
theorem tokensFrom_ok_cases {strict : Bool} {offset : Nat} {literal cs : List Char}
    {c : Candidate} {tokens : List Token} (hc : candidate? cs = some c)
    (h : tokensFrom strict offset literal cs = .ok tokens) :
    (∃ d rest, Reading.ofContent (trim c.inner) = .directive d ∧
      tokensFrom strict (offset + byteLength (literal ++ c.before) + byteLength c.source) []
        c.after = .ok rest ∧
      tokens = textToken offset (literal ++ c.before) ++
        ⟨.directive d, offset + byteLength (literal ++ c.before),
          offset + byteLength (literal ++ c.before) + byteLength c.source⟩ :: rest) ∨
    (Reading.ofContent (trim c.inner) = .unknown ∧ ¬ strict = true ∧
      tokensFrom strict offset (literal ++ c.before ++ c.source) c.after = .ok tokens) := by
  have herror : _ → (tokensFrom strict offset literal cs).toOption = none :=
    toOption_tokensFrom_of_error hc
  rw [h] at herror
  cases hr : Reading.ofContent (trim c.inner) with
  | directive d =>
    rw [tokensFrom_of_directive hc hr] at h
    obtain ⟨rest, hrest, rfl⟩ := exists_of_map_eq_ok h
    exact .inl ⟨d, rest, rfl, hrest, rfl⟩
  | malformed => exact absurd (herror (.inl hr)) (by simp [Except.toOption])
  | unknown =>
    by_cases hstrict : strict = true
    · exact absurd (herror (.inr ⟨hr, hstrict⟩)) (by simp [Except.toOption])
    · rw [tokensFrom_of_unknown hc hr hstrict] at h
      exact .inr ⟨rfl, hstrict, h⟩

/-- Tokens without a directive are one stretch of literal text. -/
theorem eq_textToken_of_no_directive {strict : Bool} {offset : Nat} {literal cs : List Char}
    {tokens : List Token} (h : tokensFrom strict offset literal cs = .ok tokens)
    (hno : ∀ t ∈ tokens, t.directive? = none) : tokens = textToken offset (literal ++ cs) := by
  induction cs using candidate_induction generalizing literal with
  | none cs hc =>
    rw [tokensFrom_of_none hc] at h
    exact (Except.ok.inj h).symm
  | some cs c hc ih =>
    rcases tokensFrom_ok_cases hc h with ⟨d, rest, -, -, rfl⟩ | ⟨-, -, hrest⟩
    · exact absurd (hno _ (List.mem_append_right _ List.mem_cons_self)) (by simp [Token.directive?])
    · rw [ih hrest, candidate?_eq_some hc]
      simp

/-- Tokens that are all blank are those of a blank text. -/
theorem allBlank_of_tokens {strict : Bool} {offset : Nat} {cs : List Char} {tokens : List Token}
    (h : tokensFrom strict offset [] cs = .ok tokens) (hblank : ∀ t ∈ tokens, t.isBlank = true) :
    allBlank cs = true := by
  have heq := eq_textToken_of_no_directive h fun t ht => by
    have := hblank t ht
    obtain ⟨kind, start, stop⟩ := t
    cases kind with
    | text s => rfl
    | directive d => simp [Token.isBlank] at this
  rw [List.nil_append] at heq
  subst heq
  by_cases hcs : cs = []
  · rw [hcs]
    rfl
  · have := hblank ⟨.text (String.ofList cs), offset, offset + byteLength cs⟩
      (by simp [textToken, hcs])
    simpa [Token.isBlank] using this

/-- Two ways to single out an item of a list: the same item, one before it, or one behind it. -/
theorem append_cons_cases {α : Type} {as bs cs ds : List α} {a b : α}
    (h : as ++ a :: bs = cs ++ b :: ds) :
    (as = cs ∧ a = b ∧ bs = ds) ∨ a ∈ cs ∨ ∃ m, as = cs ++ b :: m ∧ ds = m ++ a :: bs := by
  rcases List.append_eq_append_iff.1 h with ⟨m, rfl, hm⟩ | ⟨m, rfl, hm⟩
  · cases m with
    | nil =>
      obtain ⟨rfl, rfl⟩ := List.cons.inj hm
      exact .inl ⟨(List.append_nil _).symm, rfl, rfl⟩
    | cons x m =>
      obtain ⟨rfl, -⟩ := List.cons.inj hm
      exact .inr (.inl (by simp))
  · cases m with
    | nil =>
      obtain ⟨rfl, rfl⟩ := List.cons.inj hm
      exact .inl ⟨List.append_nil _, rfl, rfl⟩
    | cons x m =>
      obtain ⟨rfl, rfl⟩ := List.cons.inj hm
      exact .inr (.inr ⟨m, rfl, rfl⟩)

/-- Where a directive stands in a text: what is before it, its braces with what is between them, and
what is behind it. -/
structure StandsAt (d : Directive) (text before source after : List Char) : Prop where
  /-- The parts make up the text. -/
  text_eq : text = before ++ source ++ after
  /-- The part in the middle reads as the directive. -/
  reads : ∃ inner, source = '{' :: '{' :: (inner ++ ['}', '}']) ∧
    Reading.ofContent (trim inner) = .directive d

/-- Where the token of a directive comes from: the braces `c` in the text, with the tokens before
them and behind them. -/
structure Token.SplitsAt (t : Token) (strict : Bool) (offset : Nat) (literal cs : List Char)
    (pre post : List Token) (c : Candidate) : Prop where
  /-- The braces stand in the text. -/
  text_eq : cs = c.before ++ c.source ++ c.after
  /-- The token starts where the braces do. -/
  start : t.start = offset + byteLength (literal ++ c.before)
  /-- The token stops where the braces do. -/
  stop : t.stop = t.start + byteLength c.source
  /-- The braces are found wherever a text starts with them. -/
  found : ∀ rest, candidate? (c.source ++ rest) = some ⟨[], c.inner, rest⟩
  /-- What stands between the braces reads as the directive of the token. -/
  reads : ∃ d, t.kind = .directive d ∧ Reading.ofContent (trim c.inner) = .directive d
  /-- The tokens before it are those of the text before the braces. -/
  before : tokensFrom strict offset literal c.before = .ok pre
  /-- The tokens behind it are those of the text behind the braces. -/
  after : tokensFrom strict t.stop [] c.after = .ok post
  /-- What follows the braces makes no difference to what stands before it. -/
  replace : ∀ rest, tokensFrom strict offset literal (c.before ++ c.source ++ rest) =
    (tokensFrom strict t.stop [] rest).map (pre ++ t :: ·)

/-- The token of a directive comes from braces in the text. The tokens before it are those of the
text before these, and the tokens behind it those of the text behind them. -/
theorem exists_splitsAt {strict : Bool} {offset : Nat} {literal cs : List Char}
    {pre post : List Token} {t : Token}
    (h : tokensFrom strict offset literal cs = .ok (pre ++ t :: post))
    (hd : t.directive?.isSome = true) : ∃ c, t.SplitsAt strict offset literal cs pre post c := by
  induction cs using candidate_induction generalizing offset literal pre with
  | none cs hc =>
    rw [tokensFrom_of_none hc] at h
    have hmem : t ∈ textToken offset (literal ++ cs) := by
      rw [Except.ok.inj h]
      simp
    rw [directive?_of_mem_textToken hmem] at hd
    cases hd
  | some cs c hc ih =>
    have htext := candidate?_eq_some hc
    rcases tokensFrom_ok_cases hc h with ⟨d, rest, hr, hrest, heq⟩ | ⟨hr, hstrict, hrest⟩
    · rcases append_cons_cases heq with ⟨rfl, rfl, rfl⟩ | hmem | ⟨m, rfl, rfl⟩
      -- the candidate is the token
      · refine ⟨c, htext, rfl, rfl, candidate?_source_append hc, ⟨d, rfl, hr⟩, ?_, hrest, ?_⟩
        · rw [tokensFrom_of_none (candidate?_before hc)]
        · intro after
          rw [tokensFrom_of_directive (candidate?_replace hc after) hr]
          rfl
      · rw [directive?_of_mem_textToken hmem] at hd
        cases hd
      -- the token is behind the candidate
      · obtain ⟨c', htext', hstart, hstop, hfound, hreads, hbefore, hafter, hreplace⟩ := ih hrest
        refine ⟨⟨c.before ++ c.source ++ c'.before, c'.inner, c'.after⟩, ?_, ?_, hstop, hfound,
          hreads, ?_, hafter, fun after => ?_⟩
        · rw [htext, htext']
          simp [Candidate.source]
        · rw [hstart]
          simp [Nat.add_assoc]
        · rw [tokensFrom_of_directive (candidate?_replace hc c'.before) hr]
          exact congrArg (Except.map _) hbefore
        · have hbehind := hreplace after
          have hfront := candidate?_replace hc (c'.before ++ c'.source ++ after)
          rw [← List.append_assoc, ← List.append_assoc] at hfront
          refine ((tokensFrom_of_directive hfront hr).trans
            (congrArg (Except.map _) hbehind)).trans ?_
          cases tokensFrom strict t.stop [] after with
          | error e => rfl
          | ok rest => exact congrArg Except.ok (List.append_assoc _ (_ :: m) (t :: rest)).symm
    -- the candidate is literal text in front of the token
    · obtain ⟨c', htext', hstart, hstop, hfound, hreads, hbefore, hafter, hreplace⟩ := ih hrest
      refine ⟨⟨c.before ++ c.source ++ c'.before, c'.inner, c'.after⟩, ?_, ?_, hstop, hfound,
        hreads, ?_, hafter, fun after => ?_⟩
      · rw [htext, htext']
        simp [Candidate.source]
      · rw [hstart]
        simp
      · rw [tokensFrom_of_unknown (candidate?_replace hc c'.before) hr hstrict]
        exact hbefore
      · have hfront := candidate?_replace hc (c'.before ++ c'.source ++ after)
        rw [← List.append_assoc, ← List.append_assoc] at hfront
        rw [← hreplace after]
        exact tokensFrom_of_unknown hfront hr hstrict

/-- A directive token stands at its bytes of the text. The tokens before it are those of the text
before it, and the tokens behind it those of the text behind it. -/
theorem tokensFrom_split {strict : Bool} {offset : Nat} {literal cs : List Char}
    {pre post : List Token} {t : Token} {d : Directive}
    (h : tokensFrom strict offset literal cs = .ok (pre ++ t :: post))
    (hd : t.directive? = some d) :
    ∃ cs' source after, StandsAt d (literal ++ cs) (literal ++ cs') source after ∧
      t.start = offset + byteLength (literal ++ cs') ∧
      t.stop = t.start + byteLength source ∧
      tokensFrom strict offset literal cs' = .ok pre ∧
      tokensFrom strict t.stop [] after = .ok post := by
  obtain ⟨c, htext, hstart, hstop, -, ⟨d', hkind, hr⟩, hbefore, hafter, -⟩ :=
    exists_splitsAt h (by rw [hd]; rfl)
  obtain rfl : d' = d := by simpa [Token.directive?, hkind] using hd
  refine ⟨c.before, c.source, c.after, ⟨?_, c.inner, rfl, hr⟩, hstart, hstop, hbefore, hafter⟩
  rw [htext]
  simp

/-! ## The first and the last directive -/

theorem placed?_of_isBlank {t : Token} (h : t.isBlank = true) : t.placed? = none := by
  obtain ⟨kind, start, stop⟩ := t
  cases kind with
  | text s => rfl
  | directive d => simp [Token.isBlank] at h

theorem placedOf_of_isBlank {tokens : List Token} (h : ∀ t ∈ tokens, t.isBlank = true) :
    placedOf tokens = [] :=
  List.filterMap_eq_nil_iff.2 fun t ht => placed?_of_isBlank (h t ht)

theorem placedIn?_of_tokenize {strict : Bool} {text : List Char} {tokens : List Token}
    (h : tokenize strict text = .ok tokens) : placedIn? strict text = some (placedOf tokens) := by
  rw [← placedOf_tokenize, h]
  rfl

/-- Blank text has no directives. -/
theorem placedIn?_of_allBlank (strict : Bool) {text : List Char} (h : allBlank text = true) :
    placedIn? strict text = some [] := by
  have := placedIn?_append strict (noBraces_of_allBlank h) []
  rw [List.nil_append] at this
  rw [this, placedIn?_of_none rfl]

/-- The first token of a text that is not blank, if it is a directive: there is only blank text
before it, and the other directives are those of the text behind it. -/
theorem leading_directive {strict : Bool} {text : List Char} {tokens : List Token} {t : Token}
    {d : Directive} (h : tokenize strict text = .ok tokens)
    (hfind : tokens.find? (!·.isBlank) = some t) (hd : t.directive? = some d) :
    ∃ before source after ds, StandsAt d text before source after ∧ allBlank before = true ∧
      t.start = byteLength before ∧ t.stop = t.start + byteLength source ∧
      placedIn? strict after = some ds ∧
      placedIn? strict text = some (⟨d, t.start⟩ :: ds.map (Placed.shift t.stop)) := by
  obtain ⟨-, pre, post, rfl, hpre⟩ := List.find?_eq_some_iff_append.1 hfind
  have hblank : ∀ t ∈ pre, t.isBlank = true := fun t ht => by simpa using hpre t ht
  obtain ⟨before, source, after, hstands, hstart, hstop, hbefore, hafter⟩ :=
    tokensFrom_split h hd
  have hplaced := placedOf_tokensFrom strict t.stop [] after
  rw [hafter, eq_comm] at hplaced
  obtain ⟨ds, hds, heq⟩ := Option.map_eq_some_iff.1 hplaced
  rw [Text.byteLength_nil, Nat.add_zero] at heq
  refine ⟨before, source, after, ds, hstands, allBlank_of_tokens hbefore hblank, ?_, hstop, hds,
    ?_⟩
  · simpa using hstart
  · rw [placedIn?_of_tokenize h, placedOf_append, placedOf_of_isBlank hblank, heq]
    simp [placedOf, Token.placed?, hd]

/-- The last token of a text that is not blank, if it is a directive: there is only blank text
behind it, and the other directives are those of the text before it. -/
theorem trailing_directive {strict : Bool} {text : List Char} {tokens : List Token} {t : Token}
    {d : Directive} (h : tokenize strict text = .ok tokens)
    (hfind : tokens.reverse.find? (!·.isBlank) = some t) (hd : t.directive? = some d) :
    ∃ before source after pre post, StandsAt d text before source after ∧
      allBlank after = true ∧ t.start = byteLength before ∧ t.stop = t.start + byteLength source ∧
      tokens = pre ++ t :: post ∧ tokenize strict before = .ok pre ∧
      placedIn? strict text = some (placedOf pre ++ [⟨d, t.start⟩]) := by
  obtain ⟨-, pre, post, heq, hpre⟩ := List.find?_eq_some_iff_append.1 hfind
  have htokens : tokens = post.reverse ++ t :: pre.reverse := by
    rw [← List.reverse_reverse tokens, heq]
    simp
  have hblank : ∀ t ∈ pre.reverse, t.isBlank = true := fun t ht => by
    simpa using hpre t (List.mem_reverse.1 ht)
  subst htokens
  obtain ⟨before, source, after, hstands, hstart, hstop, hbefore, hafter⟩ :=
    tokensFrom_split h hd
  refine ⟨before, source, after, post.reverse, pre.reverse, hstands,
    allBlank_of_tokens hafter hblank, ?_, hstop, rfl, hbefore, ?_⟩
  · simpa using hstart
  · rw [placedIn?_of_tokenize h, placedOf_append]
    have := placedOf_of_isBlank hblank
    rw [placedOf] at this ⊢
    simp [placedOf, Token.placed?, hd, this]

end StyledTemplate
