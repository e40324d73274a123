import StyledTemplate.Proofs.Directive.Sources
import StyledTemplate.Proofs.Outcome

/-!
# Scanning a text by bytes

`scan` splits a text into tokens with a cursor that moves from left to right. It searches for braces
from the cursor on, goes back to the last opening pair before the closing one, adds literal text to
the token that it has just read, and takes every piece of text as a slice of bytes. It fails at a
slice that is not a part of the text or that cuts a character, which never happens: it reads what
`tokenize` reads (`scan_eq`), and that takes up all of the text (`scan_tokenized`).
-/

namespace StyledTemplate

open Text (byteLength trim)

/-! ## The scanner -/

/-- The byte at which the first two neighbouring braces start. -/
def findPair? (brace : Char) (cs : List Char) : Option Nat :=
  (splitAtPair? brace cs).map fun parts => byteLength parts.1

/-- The byte at which the last two neighbouring braces start. -/
def findLastPair? (brace : Char) (cs : List Char) : Option Nat :=
  (splitAtPair? brace cs.reverse).map fun parts => byteLength parts.2.reverse

/-- Takes a slice of a text. A wrong one is a failure that is no error of the template. -/
def sliceOf (start stop : Nat) (text : List Char) : Except (Option ParseError) (List Char) :=
  match slice? start stop text with
  | some part => .ok part
  | none => .error none

/-- Adds a slice of a text as literal text to the tokens that are read, the last one first. It is
added to the last one if that is literal text right in front. -/
def addText (text : List Char) (start stop : Nat) (read : List Token) :
    Except (Option ParseError) (List Token) :=
  if stop ≤ start then return read
  else do
    let part ← sliceOf start stop text
    match read with
    | ⟨.text s, first, last⟩ :: earlier =>
      if last = start then return ⟨.text (s ++ String.ofList part), first, stop⟩ :: earlier
      else return ⟨.text (String.ofList part), start, stop⟩ :: read
    | _ => return ⟨.text (String.ofList part), start, stop⟩ :: read

/-- The braces that are found from the cursor on. -/
structure Found where
  /-- The bytes from the cursor to the opening pair. -/
  ahead : Nat
  /-- The bytes from the opening pair to the closing one. -/
  within : Nat
  /-- What stands between the two pairs. -/
  inner : List Char

/-- Searches for an opening pair of braces and for a closing pair behind it. -/
def findBraces (text : List Char) (cursor : Nat) : Except (Option ParseError) (Option Found) := do
  let rest ← sliceOf cursor (byteLength text) text
  match findPair? '{' rest with
  | none => return none
  | some ahead =>
    let behind ← sliceOf (cursor + ahead + 2) (byteLength text) text
    match findPair? '}' behind with
    | none => return none
    | some within =>
      let inner ← sliceOf (cursor + ahead + 2) (cursor + ahead + 2 + within) text
      return some ⟨ahead, within, inner⟩

/-- Reads the tokens of a text from the cursor on, where `read` are those before it, the last one
first. -/
def scan (strict : Bool) (text : List Char) (cursor : Nat) (read : List Token) :
    Except (Option ParseError) (List Token) :=
  if byteLength text ≤ cursor then return read.reverse
  else do
    match ← findBraces text cursor with
    | none => return (← addText text cursor (byteLength text) read).reverse
    | some found =>
      let opening := cursor + found.ahead
      let stop := opening + 2 + found.within + 2
      match findLastPair? '{' found.inner with
      | some nested =>
        let restart := opening + 2 + nested
        scan strict text restart (← addText text cursor restart read)
      | none =>
        match Reading.ofContent (trim found.inner) with
        | .directive d =>
          let read ← addText text cursor opening read
          scan strict text stop (⟨.directive d, opening, stop⟩ :: read)
        | .malformed =>
          let source := String.ofList (← sliceOf opening stop text)
          throw (some { fault := .malformedDirective source, position := { offset := opening } })
        | .unknown =>
          if strict then
            let source := String.ofList (← sliceOf opening stop text)
            throw (some { fault := .unknownDirective source, position := { offset := opening } })
          else scan strict text stop (← addText text cursor stop read)
termination_by byteLength text - cursor

/-! ## Searching -/

theorem sliceOf_eq {start stop : Nat} {text before part after : List Char}
    (htext : text = before ++ part ++ after) (hstart : start = byteLength before)
    (hstop : stop = byteLength before + byteLength part) :
    sliceOf start stop text = pure part := by
  rw [sliceOf, htext, hstart, hstop, slice?_append]
  rfl

theorem sliceOf_behind {start : Nat} {text before after : List Char}
    (htext : text = before ++ after) (hstart : start = byteLength before) :
    sliceOf start (byteLength text) text = pure after := by
  have hparts : text = before ++ after ++ [] := by rw [htext, List.append_nil]
  have hlength : byteLength text = byteLength before + byteLength after := by
    rw [htext, Text.byteLength_append]
  exact sliceOf_eq hparts hstart hlength

section FindBraces

variable {text front cs first rest : List Char} {cursor : Nat}

/-- Nothing is found without an opening pair. -/
theorem findBraces_of_no_opening (htext : text = front ++ cs) (hcursor : cursor = byteLength front)
    (hopen : splitAtPair? '{' cs = none) : findBraces text cursor = pure none := by
  have hrest : sliceOf cursor (byteLength text) text = pure cs := sliceOf_behind htext hcursor
  rw [findBraces, hrest, pure_bind, findPair?, hopen]
  rfl

/-- Behind an opening pair, the first closing one is looked for. -/
theorem findBraces_of_opening (htext : text = front ++ cs) (hcursor : cursor = byteLength front)
    (hopen : splitAtPair? '{' cs = some (first, rest)) :
    findBraces text cursor =
      match findPair? '}' rest with
      | none => pure none
      | some within => do
        let inner ← sliceOf (cursor + byteLength first + 2)
          (cursor + byteLength first + 2 + within) text
        return some ⟨byteLength first, within, inner⟩ := by
  have hbehind : sliceOf (cursor + byteLength first + 2) (byteLength text) text = pure rest := by
    have hparts : text = front ++ first ++ ['{', '{'] ++ rest := by
      rw [htext, splitAtPair?_eq_some hopen]
      simp
    refine sliceOf_behind hparts ?_
    rw [hcursor, Text.byteLength_append, Text.byteLength_append]
    rfl
  rw [findBraces, sliceOf_behind htext hcursor, pure_bind, findPair?, hopen]
  dsimp only [Option.map_some]
  rw [hbehind, pure_bind]

/-- Nothing is found where there is no candidate. -/
theorem findBraces_of_none (htext : text = front ++ cs) (hcursor : cursor = byteLength front)
    (hc : candidate? cs = none) : findBraces text cursor = pure none := by
  cases hopen : splitAtPair? '{' cs with
  | none => exact findBraces_of_no_opening htext hcursor hopen
  | some parts =>
    obtain ⟨first, rest⟩ := parts
    -- a closing pair would make a candidate
    have hclose : splitAtPair? '}' rest = none := by
      rw [Option.eq_none_iff_forall_ne_some]
      rintro ⟨content, after⟩ hclose
      rw [splitAtPair?_eq_some hopen, splitAtPair?_eq_some hclose] at hc
      exact candidate?_ne_none first content after hc
    rw [findBraces_of_opening htext hcursor hopen, findPair?, hclose]
    rfl

/-- The first opening pair and the first closing pair behind it are found. -/
theorem findBraces_of_pairs {content after : List Char}
    (htext : text = front ++ (first ++ '{' :: '{' :: (content ++ '}' :: '}' :: after)))
    (hcursor : cursor = byteLength front) (hfirst : splitAtPair? '{' (first ++ ['{']) = none)
    (hcontent : splitAtPair? '}' (content ++ ['}']) = none) :
    findBraces text cursor = pure (some ⟨byteLength first, byteLength content, content⟩) := by
  have hopen : splitAtPair? '{' (first ++ '{' :: '{' :: (content ++ '}' :: '}' :: after)) =
      some (first, content ++ '}' :: '}' :: after) := splitAtPair?_eq_some_iff.2 ⟨rfl, hfirst⟩
  have hclose : splitAtPair? '}' (content ++ '}' :: '}' :: after) = some (content, after) :=
    splitAtPair?_eq_some_iff.2 ⟨rfl, hcontent⟩
  have hinner : sliceOf (cursor + byteLength first + 2)
      (cursor + byteLength first + 2 + byteLength content) text = pure content := by
    have hparts : text = front ++ first ++ ['{', '{'] ++ content ++ '}' :: '}' :: after := by
      rw [htext]
      simp
    have hlength : byteLength (front ++ first ++ ['{', '{']) = cursor + byteLength first + 2 := by
      rw [hcursor, Text.byteLength_append, Text.byteLength_append]
      rfl
    exact sliceOf_eq hparts hlength.symm (by rw [hlength])
  rw [findBraces_of_opening htext hcursor hopen, findPair?, hclose]
  dsimp only [Option.map_some]
  rw [hinner, pure_bind]

end FindBraces

theorem findLastPair?_of_none {brace : Char} {cs : List Char}
    (h : splitAtPair? brace cs.reverse = none) : findLastPair? brace cs = none := by
  rw [findLastPair?, h, Option.map_none]

theorem findLastPair?_of_pair {brace : Char} {skipped inner : List Char}
    (h : splitAtPair? brace (inner.reverse ++ [brace]) = none) :
    findLastPair? brace (skipped ++ brace :: brace :: inner) = some (byteLength skipped) := by
  have hlast : splitAtPair? brace (skipped ++ brace :: brace :: inner).reverse =
      some (inner.reverse, skipped.reverse) := splitAtPair?_eq_some_iff.2 ⟨by simp, h⟩
  rw [findLastPair?, hlast, Option.map_some, List.reverse_reverse]

/-! ## The invariant -/

theorem reverse_textToken (offset : Nat) (cs : List Char) :
    (textToken offset cs).reverse = textToken offset cs := by
  unfold textToken
  split <;> rfl

/-- Where the scanner stands: the text in front of the cursor ends in literal text, whose token is
the last one that is read, and no literal text is read right before it. -/
structure Scanning (text : List Char) (cursor : Nat) (read : List Token)
    (front literal cs : List Char) (done : List Token) : Prop where
  /-- The text is what has been read, the literal text and the rest. -/
  text_eq : text = front ++ literal ++ cs
  /-- The cursor stands behind the literal text. -/
  cursor_eq : cursor = byteLength front + byteLength literal
  /-- The token of the literal text is read last. -/
  read_eq : read = textToken (byteLength front) literal ++ done
  /-- The token before it is that of a directive. -/
  closed : ∀ t ∈ done.head?, t.directive?.isSome = true

namespace Scanning

variable {text front literal cs part rest : List Char} {cursor stop : Nat} {read done : List Token}

theorem start (text : List Char) : Scanning text 0 [] [] [] text [] :=
  ⟨rfl, rfl, rfl, by simp⟩

theorem text_split (h : Scanning text cursor read front literal cs done) :
    text = front ++ literal ++ cs ∧ cursor = byteLength (front ++ literal) :=
  ⟨h.text_eq, h.cursor_eq.trans (Text.byteLength_append _ _).symm⟩

/-- Literal text behind the cursor is added to the literal text before it. -/
theorem addText (h : Scanning text cursor read front literal (part ++ rest) done)
    (hstop : stop = cursor + byteLength part) :
    ∃ read', addText text cursor stop read = pure read' ∧
      Scanning text stop read' front (literal ++ part) rest done := by
  obtain ⟨htext, hcursor, rfl, hclosed⟩ := h
  have hbytes : stop = byteLength front + byteLength (literal ++ part) := by
    rw [hstop, hcursor, Text.byteLength_append, Nat.add_assoc]
  refine ⟨textToken (byteLength front) (literal ++ part) ++ done, ?_, ?_, hbytes, rfl, hclosed⟩
  · by_cases hpart : part = []
    · subst hpart
      rw [Text.byteLength_nil, Nat.add_zero] at hstop
      rw [StyledTemplate.addText, if_pos hstop.le, List.append_nil]
    · have hpos := byteLength_pos hpart
      have hslice : sliceOf cursor stop text = pure part := by
        have hparts : text = front ++ literal ++ part ++ rest := by
          rw [htext, List.append_assoc _ part]
        have hlength : byteLength (front ++ literal) = cursor := by
          rw [hcursor, Text.byteLength_append]
        exact sliceOf_eq hparts hlength.symm (by rw [hstop, hlength])
      have hwhole : literal ++ part ≠ [] := by simp [hpart]
      rw [StyledTemplate.addText, if_neg (by omega), hslice, pure_bind]
      by_cases hliteral : literal = []
      · -- the last token is a directive, so that there is nothing to add to
        subst hliteral
        rw [List.nil_append] at hbytes ⊢
        rw [Text.byteLength_nil, Nat.add_zero] at hcursor
        rw [textToken, if_pos rfl, List.nil_append, textToken, if_neg hpart, ← hcursor, ← hstop]
        cases done with
        | nil => rfl
        | cons t done =>
          obtain ⟨kind, first, last⟩ := t
          cases kind with
          | text s => exact absurd (hclosed _ rfl) (by simp [Token.directive?])
          | directive d => rfl
      · rw [textToken, if_neg hliteral, textToken, if_neg hwhole, ← hbytes, ← hcursor]
        dsimp only [List.singleton_append]
        rw [if_pos rfl, String.ofList_append]
  · rw [htext]
    simp

/-- A directive token is put behind what is read. -/
theorem directive (h : Scanning text cursor read front literal (part ++ rest) done)
    (hstop : stop = cursor + byteLength part) (d : Directive) :
    Scanning text stop (⟨.directive d, cursor, stop⟩ :: read) (front ++ literal ++ part) [] rest
      (⟨.directive d, cursor, stop⟩ :: (textToken (byteLength front) literal ++ done)) where
  text_eq := by
    rw [h.text_eq]
    simp
  cursor_eq := by
    rw [hstop, h.cursor_eq]
    simp [Nat.add_assoc]
  read_eq := by
    rw [h.read_eq]
    rfl
  closed := by
    intro t ht
    obtain rfl := Option.some.inj ht
    rfl

end Scanning

/-! ## The run of the scanner -/

/-- What is returned if these tokens are read already, the last one first. -/
def returned (done : List Token) (x : Except ParseError (List Token)) :
    Except (Option ParseError) (List Token) := (x.map (done.reverse ++ ·)).mapError some

theorem returned_map (done tokens : List Token) (x : Except ParseError (List Token)) :
    returned done (x.map (tokens ++ ·)) = returned (tokens.reverse ++ done) x := by
  cases x with
  | error e => rfl
  | ok rest => simp [returned, Except.map, Except.mapError]

theorem returned_nil (x : Except ParseError (List Token)) : returned [] x = x.mapError some := by
  cases x <;> rfl

namespace Scanning

variable {text front literal cs : List Char} {cursor : Nat} {read done : List Token} {strict : Bool}

theorem lt_of_ne_nil (h : Scanning text cursor read front literal cs done) (hcs : cs ≠ []) :
    ¬ byteLength text ≤ cursor := by
  have hpos := byteLength_pos hcs
  rw [h.text_eq, h.cursor_eq, Text.byteLength_append, Text.byteLength_append]
  omega

/-- Without a candidate, the rest is literal text. -/
theorem scan_of_none (h : Scanning text cursor read front literal cs done)
    (hc : candidate? cs = none) :
    scan strict text cursor read =
      returned done (tokensFrom strict (byteLength front) literal cs) := by
  have hresult : returned done (tokensFrom strict (byteLength front) literal cs) =
      pure (textToken (byteLength front) (literal ++ cs) ++ done).reverse := by
    rw [tokensFrom_of_none hc, List.reverse_append, reverse_textToken]
    rfl
  rw [hresult]
  by_cases hcs : cs = []
  · subst hcs
    have hdone : byteLength text ≤ cursor := by
      rw [h.text_eq, h.cursor_eq]
      simp
    rw [scan, if_pos hdone, h.read_eq, List.append_nil]
  · obtain ⟨htext, hcursor⟩ := h.text_split
    have hall : Scanning text cursor read front literal (cs ++ []) done := by rwa [List.append_nil]
    have hstop : byteLength text = cursor + byteLength cs := by
      rw [htext, hcursor, Text.byteLength_append]
    obtain ⟨read', hread, hend⟩ := hall.addText hstop
    rw [scan, if_neg (h.lt_of_ne_nil hcs), findBraces_of_none htext hcursor hc, pure_bind]
    dsimp only
    rw [hread, pure_bind, hend.read_eq]

/-- Where another opening pair stands between the braces, the scanner goes on from the last one. -/
theorem scan_nested {first skipped inner after : List Char}
    (h : Scanning text cursor read front literal
      (first ++ '{' :: '{' :: (skipped ++ '{' :: '{' :: inner ++ '}' :: '}' :: after)) done)
    (hfirst : splitAtPair? '{' (first ++ ['{']) = none)
    (hcontent : splitAtPair? '}' (skipped ++ '{' :: '{' :: inner ++ ['}']) = none)
    (hlast : splitAtPair? '{' (inner.reverse ++ ['{']) = none) :
    ∃ restart read', scan strict text cursor read = scan strict text restart read' ∧
      Scanning text restart read' front (literal ++ (first ++ '{' :: '{' :: skipped))
        ('{' :: '{' :: (inner ++ '}' :: '}' :: after)) done := by
  obtain ⟨htext, hcursor⟩ := h.text_split
  have hfound := findBraces_of_pairs htext hcursor hfirst hcontent
  have hskipped : Scanning text cursor read front literal (first ++ '{' :: '{' :: skipped ++
      '{' :: '{' :: (inner ++ '}' :: '}' :: after)) done := by
    simpa using h
  have hrestart : cursor + byteLength first + 2 + byteLength skipped =
      cursor + byteLength (first ++ '{' :: '{' :: skipped) := by
    rw [Text.byteLength_append]
    show _ = cursor + (byteLength first + (1 + (1 + byteLength skipped)))
    omega
  obtain ⟨read', hread, hnext⟩ := hskipped.addText hrestart
  refine ⟨_, read', ?_, hnext⟩
  rw [scan, if_neg (h.lt_of_ne_nil (by simp)), hfound, pure_bind]
  dsimp only
  rw [findLastPair?_of_pair hlast]
  dsimp only
  rw [hread, pure_bind]

/-- The bytes of a candidate, and what is read once the text before it has been added. -/
theorem exists_opening {c : Candidate} (hc : candidate? cs = some c)
    (h : Scanning text cursor read front literal cs done) :
    ∃ opening stop read', opening = cursor + byteLength c.before ∧
      stop = opening + byteLength c.source ∧ stop = opening + 2 + byteLength c.inner + 2 ∧
      StyledTemplate.addText text cursor opening read = pure read' ∧
      Scanning text opening read' front (literal ++ c.before) (c.source ++ c.after) done ∧
      sliceOf opening stop text = pure c.source := by
  have hparts : cs = c.before ++ (c.source ++ c.after) := by
    rw [candidate?_eq_some hc, List.append_assoc]
  obtain ⟨read', hread, hnext⟩ := (hparts ▸ h).addText rfl
  refine ⟨_, _, read', rfl, rfl, ?_, hread, hnext, ?_⟩
  · rw [Candidate.source, Text.byteLength_cons, Text.byteLength_cons, Text.byteLength_append]
    show _ + (1 + (1 + (byteLength c.inner + 2))) = _
    omega
  · obtain ⟨htext, hcursor⟩ := hnext.text_split
    have htext' := htext.trans (List.append_assoc _ _ _).symm
    exact sliceOf_eq htext' hcursor (by rw [hcursor])

/-- Where no other opening pair stands between the braces, the scanner reads them as `tokensFrom`
does, if it does so behind them. -/
theorem scan_plain {c : Candidate} (hc : candidate? cs = some c)
    (h : Scanning text cursor read front literal cs done)
    (hfirst : splitAtPair? '{' (c.before ++ ['{']) = none)
    (hbehind : ∀ {cursor read front literal done},
      Scanning text cursor read front literal c.after done →
        scan strict text cursor read =
          returned done (tokensFrom strict (byteLength front) literal c.after)) :
    scan strict text cursor read =
      returned done (tokensFrom strict (byteLength front) literal cs) := by
  obtain ⟨htext, hcursor⟩ := h.text_split
  have hbraces : cs = c.before ++ '{' :: '{' :: (c.inner ++ '}' :: '}' :: c.after) := by
    rw [candidate?_eq_some hc, Candidate.source]
    simp
  have hclosing := splitAtPair?_inner_closing hc
  have hfound := findBraces_of_pairs (hbraces ▸ htext) hcursor hfirst hclosing
  have hlast := findLastPair?_of_none (splitAtPair?_reverse_eq_none_iff.2 (splitAtPair?_inner hc))
  have hne : cs ≠ [] := by
    rw [hbraces]
    simp
  obtain ⟨opening, stop, read₁, hopening, hstop, hbytes, hread₁, h₁, hsource⟩ := h.exists_opening hc
  rw [scan, if_neg (h.lt_of_ne_nil hne), hfound, pure_bind]
  dsimp only
  rw [hlast, ← hopening, ← hbytes]
  dsimp only
  cases hr : Reading.ofContent (trim c.inner) with
  | directive d =>
    dsimp only
    have hfront : byteLength (front ++ (literal ++ c.before) ++ c.source) = stop := by
      rw [hstop, h₁.text_split.2, ← Text.byteLength_append]
    rw [hread₁, pure_bind, hbehind (h₁.directive hstop d), hfront, tokensFrom_of_directive hc hr,
      ← h₁.cursor_eq, ← hstop]
    have hmap := returned_map done (textToken (byteLength front) (literal ++ c.before) ++
      [⟨.directive d, opening, stop⟩]) (tokensFrom strict stop [] c.after)
    rw [List.reverse_append, reverse_textToken] at hmap
    simp only [List.append_assoc] at hmap
    exact hmap.symm
  | malformed =>
    dsimp only
    rw [hsource, pure_bind, tokensFrom_of_malformed hc hr, ← h₁.cursor_eq]
    rfl
  | unknown =>
    dsimp only
    by_cases hstrict : strict = true
    · rw [if_pos hstrict, hsource, pure_bind, tokensFrom_of_unknown_strict hc hr hstrict,
        ← h₁.cursor_eq]
      rfl
    · have hwhole : Scanning text cursor read front literal
          (c.before ++ c.source ++ c.after) done := by
        rwa [← candidate?_eq_some hc]
      have hstop' : stop = cursor + byteLength (c.before ++ c.source) := by
        rw [hstop, hopening, Text.byteLength_append, Nat.add_assoc]
      obtain ⟨read₂, hread₂, h₂⟩ := hwhole.addText hstop'
      rw [if_neg hstrict, hread₂, pure_bind, hbehind h₂, tokensFrom_of_unknown hc hr hstrict,
        List.append_assoc]

/-- The scanner reads what `tokensFrom` reads. -/
theorem scan_eq (h : Scanning text cursor read front literal cs done) :
    scan strict text cursor read =
      returned done (tokensFrom strict (byteLength front) literal cs) := by
  induction cs using candidate_induction generalizing cursor read front literal done with
  | none cs hc => exact h.scan_of_none hc
  | some cs c hc ih =>
    obtain ⟨first, content, htext, hfirst, hcontent, hshape⟩ := exists_pairs_of_candidate? hc
    rcases Candidate.ofPairs_cases first content c.after with
      ⟨-, heq⟩ | ⟨skipped, inner, rfl, hlast, heq⟩
    · have hbefore : c.before = first := by rw [hshape, heq]
      exact scan_plain hc h (hbefore ▸ hfirst) ih
    · have hbefore : c.before = first ++ '{' :: '{' :: skipped := by rw [hshape, heq]
      have hsource : c.source = '{' :: '{' :: (inner ++ ['}', '}']) := by
        rw [hshape, heq]
        rfl
      rw [htext] at h
      obtain ⟨restart, read', hscan, hnext⟩ := h.scan_nested hfirst hcontent hlast
      have hagain : Scanning text restart read' front (literal ++ c.before) (c.source ++ c.after)
          done := by
        rw [hbefore, hsource]
        simpa using hnext
      -- from the last opening pair on, nothing is nested
      rw [hscan, tokensFrom_skip hc]
      exact scan_plain (candidate?_source_append hc c.after) hagain rfl ih

end Scanning

/-- Scanning a text by bytes never takes a wrong slice, and gives the tokens or the error of the
text. Tokens take up all of the text, one after the other, each read from its own slice. -/
theorem scan_tokenized (strict : Bool) (text : List Char) :
    scan strict text 0 [] = (tokenize strict text).mapError some ∧
      scan strict text 0 [] ≠ .error none ∧
      ∀ tokens, tokenize strict text = .ok tokens → Tokenized text tokens := by
  have hscan : scan strict text 0 [] = (tokenize strict text).mapError some :=
    (Scanning.start text).scan_eq.trans (returned_nil _)
  refine ⟨hscan, fun hnone => ?_, fun tokens h => tokenized_of_tokenize h⟩
  rw [hscan] at hnone
  cases h : tokenize strict text with
  | ok tokens =>
    rw [h] at hnone
    cases hnone
  | error e =>
    rw [h] at hnone
    cases hnone

/-- A text with an opening pair that is left open, three braces in a row, braces around what is no
directive, and a closing pair too much. -/
def knottedText : List Char :=
  "é \x7b\x7b a \x7b\x7b\x7b名\x7d\x7d \x7b\x7b?\x7d\x7d\x7b\x7b/if\x7d\x7d\x7d\x7d".toList

/-- The tokens of the text. -/
def knottedTokens : List Token :=
  [⟨.text "é \x7b\x7b a \x7b", 0, 9⟩, ⟨.directive (.placeholder "名"), 9, 16⟩,
   ⟨.text " \x7b\x7b?\x7d\x7d", 16, 22⟩, ⟨.directive .ifClose, 22, 29⟩, ⟨.text "\x7d\x7d", 29, 31⟩]

theorem scan_knottedText :
    tokenize false knottedText = .ok knottedTokens ∧ Tokenized knottedText knottedTokens := by
  have htokens : tokenize false knottedText = .ok knottedTokens := by decide +kernel
  exact ⟨htokens, (scan_tokenized false knottedText).2.2 _ htokens⟩

end StyledTemplate
