import StyledTemplate.Proofs.Directive.Tokens
import StyledTemplate.Proofs.Text.Returns

/-!
# Lines of a text without directives

A text without directives has none in its lines either, although it is read in another way as a
whole: braces that are left open on one line may be closed on another (`isDirectiveFree_line`). The
converse does not hold, since such braces may have a directive between them.
-/

namespace StyledTemplate

open Text (isBlank isValidName trim trimStart trimEnd)

/-! ## Texts without directives -/

/-- The text can be split into tokens, none of which is a directive. -/
def IsDirectiveFree (strict : Bool) (text : List Char) : Prop :=
  ∃ tokens, tokenize strict text = .ok tokens ∧ ∀ token ∈ tokens, token.directive? = none

theorem placedOf_eq_nil_of_forall {tokens : List Token}
    (h : ∀ token ∈ tokens, token.directive? = none) : placedOf tokens = [] := by
  refine placedOf_eq_nil_iff.2 (List.any_eq_false.2 fun token htoken => ?_)
  rw [h token htoken]
  exact Bool.false_ne_true

theorem isDirectiveFree_iff {strict : Bool} {text : List Char} :
    IsDirectiveFree strict text ↔ placedIn? strict text = some [] := by
  constructor
  · rintro ⟨tokens, htokens, hnone⟩
    rw [placedIn?_of_tokenize htokens, placedOf_eq_nil_of_forall hnone]
  · intro h
    rw [← placedOf_tokenize] at h
    obtain ⟨tokens, htokens, hplaced⟩ := Option.map_eq_some_iff.1 h
    refine ⟨tokens, toOption_eq_some_iff.1 htokens, fun token htoken => ?_⟩
    have hno := List.any_eq_false.1 (placedOf_eq_nil_iff.1 hplaced) token htoken
    simpa using hno

section Free

variable {strict : Bool} {cs : List Char} {c : Candidate}

/-- The candidates of a text without directives are literal text. -/
theorem isDirectiveFree_iff_of_candidate (hc : candidate? cs = some c) :
    IsDirectiveFree strict cs ↔ Reading.ofContent (trim c.inner) = .unknown ∧ strict = false ∧
      IsDirectiveFree strict c.after := by
  rw [isDirectiveFree_iff, isDirectiveFree_iff, placedIn?_of_some hc]
  cases Reading.ofContent (trim c.inner) with
  | directive d => simp
  | malformed => simp
  | unknown => cases strict <;> simp

theorem isDirectiveFree_of_candidate_eq_none (hc : candidate? cs = none) : IsDirectiveFree strict cs :=
  isDirectiveFree_iff.2 (placedIn?_of_none hc)

/-- Text behind makes no difference to the candidates before it. -/
theorem IsDirectiveFree.front {rest : List Char} (h : IsDirectiveFree strict (cs ++ rest)) :
    IsDirectiveFree strict cs := by
  induction cs using candidate_induction with
  | none cs hc => exact isDirectiveFree_of_candidate_eq_none hc
  | some cs c hc ih =>
    have hwhole : candidate? (cs ++ rest) = some { c with after := c.after ++ rest } := by
      have hreplaced := candidate?_replace hc (c.after ++ rest)
      rwa [← List.append_assoc, ← candidate?_eq_some hc] at hreplaced
    obtain ⟨hread, hstrict, hafter⟩ := (isDirectiveFree_iff_of_candidate hwhole).1 h
    exact (isDirectiveFree_iff_of_candidate hc).2 ⟨hread, hstrict, ih hafter⟩

end Free

/-! ## The end of a text -/

/-- Nothing that can be read starts with a brace. -/
theorem ofContent_brace (cs : List Char) : Reading.ofContent (trim ('{' :: cs)) = .unknown := by
  obtain ⟨content, hcontent⟩ : ∃ content, trim ('{' :: cs) = '{' :: content := by
    have hstart : trimStart ('{' :: cs) = '{' :: cs := List.dropWhile_cons_of_neg (by decide)
    rw [trim, hstart, trimEnd, List.reverse_cons, List.dropWhile_append]
    split
    · exact ⟨[], rfl⟩
    · exact ⟨_, List.reverse_concat⟩
  have hplain : ∀ name : String, name.toList.head? = some '{' → plainDirective? name = none := by
    intro name hname
    unfold plainDirective?
    split
    case h_5 => rfl
    all_goals exact absurd hname (by decide)
  have hkeyword : ∀ name : String, name.toList.head? = some '{' → keyword? name = none := by
    intro name hname
    unfold keyword?
    split
    case h_6 => rfl
    all_goals exact absurd hname (by decide)
  have hhead : ('{' :: content).takeWhile (!isBlank ·) =
      '{' :: content.takeWhile (!isBlank ·) := List.takeWhile_cons_of_pos (by decide)
  have hname : isValidName ('{' :: content.takeWhile (!isBlank ·)) = false := by
    rw [isValidName, Bool.and_eq_false_iff]
    exact .inl (by decide)
  rw [hcontent, Reading.ofContent, hplain _ (by rw [String.toList_ofList]; rfl)]
  dsimp only
  rw [hhead, hkeyword _ (by rw [String.toList_ofList]; rfl)]
  dsimp only
  rw [if_neg (by simp [hname])]

/-- There is a candidate where there are an opening pair of braces and a closing one behind it. -/
theorem candidate?_ne_none (before inner after : List Char) :
    candidate? (before ++ '{' :: '{' :: (inner ++ '}' :: '}' :: after)) ≠ none := by
  obtain ⟨first, rest, hopen, skipped, rfl⟩ :=
    exists_splitAtPair? '{' before (inner ++ '}' :: '}' :: after)
  obtain ⟨content, after', hclose, -⟩ := exists_splitAtPair? '}' (skipped ++ inner) after
  rw [List.append_assoc] at hclose
  simp only [candidate?, Option.bind_eq_bind, hopen, hclose, Option.bind_some]
  split <;> exact Option.some_ne_none _

/-- If the last opening pair is right in front of `inner`, then `inner` is what stands in the
candidate, but for a brace in front of it that the first pair may leave over. -/
theorem inner_ofPairs {first before skipped inner : List Char}
    (hbraces : before ++ ['{', '{'] = first ++ '{' :: '{' :: skipped)
    (hlast : splitAtPair? '{' (inner.reverse ++ ['{']) = none) (after : List Char) :
    (Candidate.ofPairs first (skipped ++ inner) after).inner = inner ∨
      (Candidate.ofPairs first (skipped ++ inner) after).inner = '{' :: inner := by
  have hend : ∀ (as bs : List Char) (brace : Char), as ++ ['{'] = bs ++ [brace] →
      as = bs ∧ brace = '{' := fun _ _ _ h =>
    ⟨(List.append_inj' h rfl).1, (List.head_eq_of_cons_eq (List.append_inj' h rfl).2).symm⟩
  rcases List.eq_nil_or_concat skipped with rfl | ⟨skipped, brace, rfl⟩
  · rw [List.nil_append, Candidate.ofPairs_of_none (splitAtPair?_eq_none_of_append hlast)]
    exact .inl rfl
  obtain ⟨hbrace, rfl⟩ := hend (before ++ ['{']) (first ++ '{' :: '{' :: skipped) brace
    (by simpa using hbraces)
  rcases List.eq_nil_or_concat skipped with rfl | ⟨skipped, brace, rfl⟩
  · have hnone : splitAtPair? '{' ('{' :: inner).reverse = none := by rwa [List.reverse_cons]
    exact .inr (congrArg Candidate.inner (Candidate.ofPairs_of_none hnone first after))
  · obtain ⟨-, rfl⟩ := hend before (first ++ '{' :: '{' :: skipped) brace (by simpa using hbrace)
    have hskipped : (skipped.concat '{').concat '{' ++ inner = skipped ++ '{' :: '{' :: inner := by
      simp
    rw [hskipped, Candidate.ofPairs_of_pair hlast]
    exact .inl rfl

/-- A candidate that lies in the end of a text is the candidate of the end, which may take one brace
more as a part of its content. -/
theorem exists_candidate?_of_append {front cs before : List Char} {c : Candidate}
    (h : candidate? (front ++ cs) = some c) (hbefore : c.before = front ++ before) :
    ∃ c', candidate? cs = some c' ∧ c'.after = c.after ∧
      (c'.inner = c.inner ∨ c'.inner = '{' :: c.inner) := by
  obtain ⟨first, content, htext, hfirst, hcontent, hc⟩ := exists_pairs_of_candidate? h
  have hcs : cs = before ++ '{' :: '{' :: (c.inner ++ '}' :: '}' :: c.after) := by
    have hparts := candidate?_eq_some h
    rw [hbefore, List.append_assoc, List.append_assoc] at hparts
    rw [List.append_cancel_left hparts]
    simp [Candidate.source]
  -- the first opening pair of the end, and what stands between it and the content
  obtain ⟨first', rest, hopen, skipped, rfl⟩ :=
    exists_splitAtPair? '{' before (c.inner ++ '}' :: '}' :: c.after)
  rw [← hcs] at hopen
  obtain ⟨hcs', hfirst'⟩ := splitAtPair?_eq_some_iff.1 hopen
  have hwithin : skipped ++ c.inner <:+ content := by
    obtain ⟨first₁, rest₁, hopen₁, hsuffix⟩ := exists_splitAtPair? '{' (front ++ first')
      (skipped ++ (c.inner ++ '}' :: '}' :: c.after))
    have hopen' := splitAtPair?_eq_some_iff.2 ⟨htext, hfirst⟩
    rw [List.append_assoc, ← hcs', hopen'] at hopen₁
    obtain ⟨rfl, rfl⟩ := Prod.mk.inj (Option.some.inj hopen₁)
    rw [← List.append_assoc] at hsuffix
    obtain ⟨skipped₁, hskipped⟩ := hsuffix
    rw [← List.append_assoc] at hskipped
    exact ⟨skipped₁, List.append_cancel_right hskipped⟩
  have hclosed : splitAtPair? '}' (skipped ++ c.inner ++ ['}']) = none := by
    obtain ⟨skipped₁, rfl⟩ := hwithin
    rw [List.append_assoc] at hcontent
    exact splitAtPair?_eq_none_iff.2 fun hpair =>
      splitAtPair?_eq_none_iff.1 hcontent (hpair.trans (List.suffix_append ..).isInfix)
  have hfound := candidate?_of_pairs hfirst' hclosed c.after
  rw [List.append_assoc, ← hcs'] at hfound
  refine ⟨_, hfound, Candidate.after_ofPairs .., ?_⟩
  rcases Candidate.ofPairs_cases first content c.after with
    ⟨hnone, heq⟩ | ⟨skipped₁, inner, hsplit, hlast, heq⟩
  · -- the content starts at the first opening pair, so that nothing is skipped
    have hinner : c.inner = content := by rw [hc, heq]
    rw [hinner] at hwithin ⊢
    obtain rfl : skipped = [] := by
      have hlength := hwithin.length_le
      rw [List.length_append] at hlength
      exact List.eq_nil_of_length_eq_zero (by omega)
    rw [List.nil_append, Candidate.ofPairs_of_none hnone]
    exact .inl rfl
  · have hinner : c.inner = inner := by rw [hc, heq]
    rw [← hinner] at hlast
    -- the braces in front of the content end what is skipped
    have hbraces : before ++ ['{', '{'] = first' ++ '{' :: '{' :: skipped := by
      have hparts : before ++ ['{', '{'] ++ (c.inner ++ '}' :: '}' :: c.after) =
          first' ++ '{' :: '{' :: skipped ++ (c.inner ++ '}' :: '}' :: c.after) := by
        simpa using hcs.symm.trans hcs'
      exact List.append_cancel_right hparts
    exact inner_ofPairs hbraces hlast c.after

/-- An item of an append stands in its first part or in its second one. -/
theorem append_cons_eq_append {α : Type} {as bs cs ds : List α} {a : α}
    (h : cs ++ ds = as ++ a :: bs) :
    (∃ m, cs = as ++ a :: m ∧ bs = m ++ ds) ∨ ∃ m, as = cs ++ m ∧ ds = m ++ a :: bs := by
  rcases List.append_eq_append_iff.1 h with ⟨m, hm⟩ | ⟨m, rfl, hm⟩
  · exact .inr ⟨m, hm⟩
  · cases m with
    | nil => exact .inr ⟨[], by simp, hm.symm⟩
    | cons x m =>
      obtain ⟨rfl, rfl⟩ := List.cons.inj hm
      exact .inl ⟨m, rfl, rfl⟩

section Separator

variable {strict : Bool} {separator : Char}
  (hopening : separator ≠ '{') (hclosing : separator ≠ '}')

include hopening hclosing

/-- Behind a separator within a candidate there is no opening pair up to its end. -/
theorem splitAtPair?_source {cs front back : List Char} {c : Candidate} (h : candidate? cs = some c)
    (hsource : c.source = front ++ separator :: back) :
    splitAtPair? '{' (back ++ ['{']) = none := by
  have hparts : ['{', '{'] ++ (c.inner ++ ['}', '}']) = front ++ separator :: back := hsource
  rcases append_cons_eq_append hparts with ⟨_, hbraces, -⟩ | ⟨front', -, hrest⟩
  · have hmem : separator ∈ ['{', '{'] := hbraces ▸ List.mem_append_right _ List.mem_cons_self
    simp [hopening] at hmem
  rcases append_cons_eq_append hrest with ⟨content, hinner, rfl⟩ | ⟨_, -, hbraces⟩
  · have hcontent : splitAtPair? '{' content = none := by
      refine splitAtPair?_eq_none_iff.2 fun hpair => ?_
      refine splitAtPair?_eq_none_iff.1 (splitAtPair?_inner h) ?_
      rw [hinner]
      exact hpair.trans ((List.suffix_cons _ _).trans (List.suffix_append _ _)).isInfix
    refine splitAtPair?_concat_eq_none ?_ (by simp)
    rw [splitAtPair?_append (by decide), hcontent, Option.map_none]
  · have hmem : separator ∈ ['}', '}'] := hbraces ▸ List.mem_append_right _ List.mem_cons_self
    simp [hclosing] at hmem

/-- What stands behind a character of a text without directives has none either, unless the
character is a brace. -/
theorem IsDirectiveFree.back {front cs : List Char}
    (h : IsDirectiveFree strict (front ++ separator :: cs)) : IsDirectiveFree strict cs := by
  generalize hwhole : front ++ separator :: cs = whole at h
  induction whole using candidate_induction generalizing front with
  | none whole hnone =>
    refine isDirectiveFree_of_candidate_eq_none (Option.eq_none_iff_forall_ne_some.2 fun c hc => ?_)
    refine candidate?_ne_none (front ++ separator :: c.before) c.inner c.after ?_
    rw [← hnone, ← hwhole, candidate?_eq_some hc]
    simp [Candidate.source]
  | some whole c hc ih =>
    obtain ⟨hread, hstrict, hafter⟩ := (isDirectiveFree_iff_of_candidate hc).1 h
    have htext := candidate?_eq_some hc
    rw [← hwhole, List.append_assoc] at htext
    rcases append_cons_eq_append htext.symm with ⟨before, hbefore, rfl⟩ | ⟨m, rfl, hm⟩
    · -- the candidate lies behind the character
      have hfound : candidate? ((front ++ [separator]) ++ (before ++ (c.source ++ c.after))) =
          some c := by
        rw [← hc, ← hwhole]
        simp
      have hbehind : c.before = (front ++ [separator]) ++ before := by simp [hbefore]
      obtain ⟨c', hc', hsame, hinner⟩ := exists_candidate?_of_append hfound hbehind
      refine (isDirectiveFree_iff_of_candidate hc').2 ⟨?_, hstrict, hsame ▸ hafter⟩
      rcases hinner with hinner | hinner <;> rw [hinner]
      · exact hread
      · exact ofContent_brace _
    · rcases append_cons_eq_append hm with ⟨back, hsource, rfl⟩ | ⟨front', -, hbehind⟩
      · -- the character stands in the candidate
        have hback := splitAtPair?_source hopening hclosing hc hsource
        rw [isDirectiveFree_iff, placedIn?_behind strict hback, isDirectiveFree_iff.1 hafter]
        rfl
      · exact ih hbehind.symm hafter

/-- The pieces between separators that are no braces have no directives if the text has none. -/
theorem IsDirectiveFree.pieces (front : List Char) {cs piece : List Char}
    {pieces : List (List Char)} (hpieces : Text.splitOn separator cs = piece :: pieces)
    (h : IsDirectiveFree strict (front ++ cs)) :
    IsDirectiveFree strict (front ++ piece) ∧ ∀ line ∈ pieces, IsDirectiveFree strict line := by
  induction cs generalizing front piece pieces with
  | nil =>
    obtain ⟨rfl, rfl⟩ := List.cons.inj hpieces
    exact ⟨h, List.forall_mem_nil _⟩
  | cons c cs ih =>
    rw [Text.splitOn] at hpieces
    split at hpieces
    · next hc =>
      obtain ⟨rfl, rfl⟩ := List.cons.inj hpieces
      refine ⟨(List.append_nil front).symm ▸ h.front, ?_⟩
      obtain ⟨first, rest, hrest⟩ := List.exists_cons_of_ne_nil (Text.splitOn_ne_nil separator cs)
      rw [hc] at h
      rw [hrest, List.forall_mem_cons]
      exact ih [] hrest (h.back hopening hclosing)
    · split at hpieces
      · next hnil => exact absurd hnil (Text.splitOn_ne_nil _ _)
      · next first rest hrest =>
        obtain ⟨rfl, rfl⟩ := List.cons.inj hpieces
        rw [List.append_cons] at h ⊢
        exact ih (front ++ [c]) hrest h

end Separator

/-! ## Lines -/

theorem trimReturns_prefix (line : List Char) : trimReturns line <+: line := by
  have hsuffix := List.reverse_prefix.2 (List.dropWhile_suffix (l := line.reverse) (· == '\r'))
  rwa [List.reverse_reverse] at hsuffix

/-- The lines of a text without directives have none. -/
theorem isDirectiveFree_line {strict : Bool} {text : List Char} (h : IsDirectiveFree strict text) :
    ∀ line ∈ Text.splitOn '\n' text, IsDirectiveFree strict (trimReturns line) := by
  obtain ⟨first, rest, hlines⟩ := List.exists_cons_of_ne_nil (Text.splitOn_ne_nil '\n' text)
  obtain ⟨hfirst, hrest⟩ := IsDirectiveFree.pieces (by decide) (by decide) [] hlines h
  have hall : ∀ line ∈ Text.splitOn '\n' text, IsDirectiveFree strict line := by
    rw [hlines, List.forall_mem_cons]
    exact ⟨hfirst, hrest⟩
  intro line hline
  obtain ⟨returns, hreturns⟩ := trimReturns_prefix line
  have hwhole : IsDirectiveFree strict (trimReturns line ++ returns) := by
    rw [hreturns]
    exact hall line hline
  exact hwhole.front

end StyledTemplate
