import Mathlib.Data.List.Chain
import Mathlib.Data.List.TakeWhile
import StyledTemplate.Proofs.Directive.Lines
import StyledTemplate.Proofs.Directive.Written
import StyledTemplate.Proofs.Text.Slices

/-!
# What tokens are read from

A text that can be split into tokens is made of stretches, one for each token: literal text as it
stands, and a directive in its braces (`exists_stretches_of_tokensFrom`). Everything about the bytes
of tokens follows from the stretches that they are laid out from (`Tokenized`).
-/

namespace StyledTemplate

open Text (byteLength isBlank isValidName trim trimStart trimEnd)

/-! ## Directives that are read -/

theorem isValidName_of_nameArgument? {argument : List Char} {name : String}
    (h : nameArgument? argument = some name) : isValidName name.toList = true := by
  unfold nameArgument? at h
  dsimp only at h
  split at h
  · next hvalid =>
    obtain rfl := Option.some.inj h
    rwa [String.toList_ofList]
  · cases h

theorem isId_of_idArgument? {argument : List Char} {id : String}
    (h : idArgument? argument = some id) : IsId id := by
  unfold idArgument? at h
  dsimp only at h
  split at h
  · cases h
  · next cs hcs =>
    split at h
    · next hproper =>
      obtain ⟨hne, hall⟩ := hproper
      obtain rfl := Option.some.inj h
      refine isId_iff.2 ⟨fun hempty => hne ?_, ?_⟩
      · have hcs := congrArg String.toList hempty
        rwa [String.toList_ofList] at hcs
      · rwa [String.toList_ofList]
    · cases h

theorem isProper_of_plainDirective? {s : String} {d : Directive} (h : plainDirective? s = some d) :
    d.IsProper := by
  unfold plainDirective? at h
  split at h
  case h_5 => cases h
  all_goals
    obtain rfl := Option.some.inj h
    trivial

theorem isProper_of_keyword? {s : String} {read : List Char → Option Directive}
    {argument : List Char} {d : Directive} (h : keyword? s = some read)
    (hd : read argument = some d) : d.IsProper := by
  unfold keyword? at h
  split at h
  case h_6 => cases h
  case h_1 | h_2 | h_3 =>
    obtain rfl := Option.some.inj h
    obtain ⟨name, hname, rfl⟩ := Option.map_eq_some_iff.1 hd
    exact isValidName_of_nameArgument? hname
  case h_4 | h_5 =>
    obtain rfl := Option.some.inj h
    obtain ⟨id, hid, rfl⟩ := Option.map_eq_some_iff.1 hd
    exact isId_of_idArgument? hid

theorem getLast?_trim {cs : List Char} {c : Char} (h : (trim cs).getLast? = some c) :
    isBlank c = false := by
  rw [trim, trimEnd, List.getLast?_reverse] at h
  have hnot := List.head?_dropWhile_not isBlank (trimStart cs).reverse
  rw [h] at hnot
  simpa using hnot

theorem isBlank_of_trim_eq_nil {cs : List Char} (h : trim cs = []) :
    ∀ c ∈ cs, isBlank c = true := by
  rw [trim, trimEnd, List.reverse_eq_nil_iff, List.dropWhile_eq_nil_iff] at h
  have hstart : trimStart cs = [] := by
    cases hcs : trimStart cs with
    | nil => rfl
    | cons c rest =>
      have hnot := List.head?_dropWhile_not isBlank cs
      rw [← trimStart, hcs] at hnot
      have hblank := h c (by simp [hcs])
      simp [hblank] at hnot
  exact List.dropWhile_eq_nil_iff.1 hstart

/-- A trimmed text has blank characters only between others. -/
theorem takeWhile_of_trimmed {inner : List Char}
    (h : trim ((trim inner).dropWhile (!isBlank ·)) = []) :
    (trim inner).takeWhile (!isBlank ·) = trim inner := by
  have hblank := isBlank_of_trim_eq_nil h
  have hparts := List.takeWhile_append_dropWhile (p := (!isBlank ·)) (l := trim inner)
  rcases List.eq_nil_or_concat ((trim inner).dropWhile (!isBlank ·)) with hnil | ⟨rest, c, hrest⟩
  · rwa [hnil, List.append_nil] at hparts
  · have hlast : (trim inner).getLast? = some c := by
      rw [← hparts, hrest, List.concat_eq_append, ← List.append_assoc, List.getLast?_concat]
    have hc := hblank c (by simp [hrest])
    rw [getLast?_trim hlast] at hc
    cases hc

/-- What is read has a proper name or id, if it has one at all. -/
theorem Directive.isProper_of_ofContent {inner : List Char} {d : Directive}
    (h : Reading.ofContent (trim inner) = .directive d) : d.IsProper := by
  unfold Reading.ofContent at h
  split at h
  · next hplain =>
    obtain rfl := Reading.directive.inj h
    exact isProper_of_plainDirective? hplain
  · next hplain =>
    dsimp only at h
    split at h
    · next read hkeyword =>
      split at h
      · next hd =>
        obtain rfl := Reading.directive.inj h
        exact isProper_of_keyword? hkeyword hd
      · cases h
    · next hkeyword =>
      split at h
      · next hname =>
        obtain ⟨hargument, hvalid⟩ := hname
        rw [takeWhile_of_trimmed hargument] at hvalid hkeyword h
        obtain rfl := Reading.directive.inj h
        -- the names that are left out are read as other directives
        refine ⟨by rwa [String.toList_ofList], fun helse => ?_, fun hextends => ?_⟩
        · rw [helse] at hplain
          cases hplain
        · rw [hextends] at hkeyword
          cases hkeyword
      · cases h

/-! ## Stretches -/

/-- May a token of this kind be read from the text? -/
def TokenKind.ReadFrom : TokenKind → List Char → Prop
  | .text s, source => s.toList = source
  | .directive d, source => ∃ inner, source = '{' :: '{' :: (inner ++ ['}', '}']) ∧
      ¬ ['{', '{'] <:+: inner ∧ ¬ ['}', '}'] <:+: inner ∧
      Reading.ofContent (trim inner) = .directive d ∧ d.IsProper

/-- A stretch of a text, and what it is read as. -/
structure Stretch where
  /-- What it is read as. -/
  kind : TokenKind
  /-- The text. -/
  source : List Char

/-- The stretch is there, and it is read as what it is. -/
structure Stretch.IsRead (s : Stretch) : Prop where
  /-- It has characters. -/
  source_ne : s.source ≠ []
  /-- It is read as its kind. -/
  read : s.kind.ReadFrom s.source

/-- The text that the stretches make up. -/
def sourceOf (stretches : List Stretch) : List Char := stretches.flatMap Stretch.source

/-- The tokens of stretches that stand one after the other, the first one at `offset`. -/
def layOut (offset : Nat) : List Stretch → List Token
  | [] => []
  | s :: stretches =>
    ⟨s.kind, offset, offset + byteLength s.source⟩ ::
      layOut (offset + byteLength s.source) stretches

@[simp] theorem sourceOf_nil : sourceOf [] = [] := rfl

@[simp] theorem sourceOf_cons (s : Stretch) (stretches : List Stretch) :
    sourceOf (s :: stretches) = s.source ++ sourceOf stretches := rfl

@[simp] theorem sourceOf_append (as bs : List Stretch) :
    sourceOf (as ++ bs) = sourceOf as ++ sourceOf bs := List.flatMap_append

theorem layOut_append (offset : Nat) (as bs : List Stretch) :
    layOut offset (as ++ bs) =
      layOut offset as ++ layOut (offset + byteLength (sourceOf as)) bs := by
  induction as generalizing offset with
  | nil => simp [layOut]
  | cons s as ih => simp [layOut, ih, Nat.add_assoc]

/-- The stretch of literal text. -/
theorem exists_stretches_textToken (offset : Nat) (cs : List Char) :
    ∃ stretches, layOut offset stretches = textToken offset cs ∧ sourceOf stretches = cs ∧
      ∀ s ∈ stretches, s.IsRead := by
  by_cases hcs : cs = []
  · refine ⟨[], ?_, hcs.symm, List.forall_mem_nil _⟩
    rw [textToken, if_pos hcs]
    rfl
  · have hread : Stretch.IsRead ⟨.text (String.ofList cs), cs⟩ := ⟨hcs, String.toList_ofList⟩
    refine ⟨[⟨.text (String.ofList cs), cs⟩], ?_, List.append_nil _, by simpa using hread⟩
    rw [textToken, if_neg hcs]
    rfl

/-- A candidate that reads as a directive. -/
theorem readFrom_candidate {cs : List Char} {c : Candidate} {d : Directive}
    (hc : candidate? cs = some c) (hr : Reading.ofContent (trim c.inner) = .directive d) :
    (TokenKind.directive d).ReadFrom c.source := by
  have hopening := splitAtPair?_eq_none_iff.1 (splitAtPair?_inner hc)
  have hclosing := splitAtPair?_eq_none_of_append (splitAtPair?_inner_closing hc)
  exact ⟨c.inner, rfl, hopening, splitAtPair?_eq_none_iff.1 hclosing, hr,
    Directive.isProper_of_ofContent hr⟩

/-- A text is made of the stretches that its tokens are read from. -/
theorem exists_stretches_of_tokensFrom {strict : Bool} {offset : Nat} {literal cs : List Char}
    {tokens : List Token} (h : tokensFrom strict offset literal cs = .ok tokens) :
    ∃ stretches, layOut offset stretches = tokens ∧ sourceOf stretches = literal ++ cs ∧
      ∀ s ∈ stretches, s.IsRead := by
  induction cs using candidate_induction generalizing offset literal tokens with
  | none cs hc =>
    rw [tokensFrom_of_none hc] at h
    obtain rfl := Except.ok.inj h
    exact exists_stretches_textToken offset (literal ++ cs)
  | some cs c hc ih =>
    have htext := candidate?_eq_some hc
    rcases tokensFrom_ok_cases hc h with ⟨d, rest, hr, hrest, rfl⟩ | ⟨-, -, hrest⟩
    · obtain ⟨front, hfront, hfrontText, hfrontRead⟩ :=
        exists_stretches_textToken offset (literal ++ c.before)
      obtain ⟨behind, hbehind, hbehindText, hbehindRead⟩ := ih hrest
      have hread : Stretch.IsRead ⟨.directive d, c.source⟩ :=
        ⟨by simp [Candidate.source], readFrom_candidate hc hr⟩
      refine ⟨front ++ ⟨.directive d, c.source⟩ :: behind, ?_, ?_, ?_⟩
      · rw [layOut_append, hfront, hfrontText, layOut, hbehind]
      · rw [sourceOf_append, sourceOf_cons, hfrontText, hbehindText, htext]
        simp
      · intro s hs
        rcases List.mem_append.1 hs with hs | hs
        · exact hfrontRead s hs
        · exact List.forall_mem_cons.2 ⟨hread, hbehindRead⟩ s hs
    · obtain ⟨stretches, hlaid, hsource, hread⟩ := ih hrest
      refine ⟨stretches, hlaid, ?_, hread⟩
      rw [hsource, htext]
      simp

/-! ## Neighbouring tokens -/

/-- Two tokens that are not both literal text. -/
def Token.Apart (a b : Token) : Prop := a.directive?.isSome = true ∨ b.directive?.isSome = true

theorem isChain_apart_cons {t : Token} {tokens : List Token} (ht : t.directive?.isSome = true)
    (h : tokens.IsChain Token.Apart) : (t :: tokens).IsChain Token.Apart :=
  List.isChain_cons.2 ⟨fun _ _ => .inl ht, h⟩

/-- No two tokens next to each other are literal text. -/
theorem isChain_apart_of_tokensFrom {strict : Bool} {offset : Nat} {literal cs : List Char}
    {tokens : List Token} (h : tokensFrom strict offset literal cs = .ok tokens) :
    tokens.IsChain Token.Apart := by
  have htext : ∀ (offset : Nat) (cs : List Char) (tokens : List Token),
      (∀ t ∈ tokens.head?, t.directive?.isSome = true) → tokens.IsChain Token.Apart →
      (textToken offset cs ++ tokens).IsChain Token.Apart := by
    intro offset cs tokens hhead hchain
    unfold textToken
    split
    · exact hchain
    · exact List.isChain_cons.2 ⟨fun t ht => .inr (hhead t ht), hchain⟩
  induction cs using candidate_induction generalizing offset literal tokens with
  | none cs hc =>
    rw [tokensFrom_of_none hc] at h
    obtain rfl := Except.ok.inj h
    simpa using htext offset (literal ++ cs) [] (by simp) List.isChain_nil
  | some cs c hc ih =>
    rcases tokensFrom_ok_cases hc h with ⟨d, rest, -, hrest, rfl⟩ | ⟨-, -, hrest⟩
    · refine htext _ _ _ ?_ (isChain_apart_cons rfl (ih hrest))
      intro t ht
      obtain rfl := Option.some.inj ht
      rfl
    · exact ih hrest

/-! ## The bytes of tokens -/

section LayOut

variable {offset : Nat} {stretches : List Stretch}

theorem isChain_layOut (offset : Nat) (stretches : List Stretch) :
    (layOut offset stretches).IsChain fun a b => a.stop = b.start := by
  induction stretches generalizing offset with
  | nil => exact List.isChain_nil
  | cons s stretches ih =>
    refine List.isChain_cons.2 ⟨fun t ht => ?_, ih _⟩
    cases stretches with
    | nil => cases ht
    | cons s' stretches =>
      obtain rfl := Option.some.inj ht
      rfl

theorem start_head?_layOut : ∀ t ∈ (layOut offset stretches).head?, t.start = offset := by
  intro t ht
  cases stretches with
  | nil => cases ht
  | cons s stretches =>
    obtain rfl := Option.some.inj ht
    rfl

theorem stop_getLast?_layOut :
    ∀ t ∈ (layOut offset stretches).getLast?,
      t.stop = offset + byteLength (sourceOf stretches) := by
  intro t ht
  rcases List.eq_nil_or_concat stretches with rfl | ⟨front, s, rfl⟩
  · cases ht
  · rw [List.concat_eq_append] at ht ⊢
    rw [layOut_append, layOut, layOut, List.getLast?_concat] at ht
    obtain rfl := Option.some.inj ht
    simp [Nat.add_assoc]

/-- Each token takes up the stretch that it is read from. -/
theorem exists_slice_of_mem_layOut (stretches : List Stretch) (front back : List Char) :
    ∀ t ∈ layOut (byteLength front) stretches, ∃ s ∈ stretches, t.kind = s.kind ∧
      t.stop = t.start + byteLength s.source ∧
      slice? t.start t.stop (front ++ sourceOf stretches ++ back) = some s.source := by
  induction stretches generalizing front with
  | nil => exact List.forall_mem_nil _
  | cons s stretches ih =>
    have htext : front ++ sourceOf (s :: stretches) ++ back =
        front ++ s.source ++ sourceOf stretches ++ back := by simp
    rw [htext, layOut, ← Text.byteLength_append]
    refine List.forall_mem_cons.2 ⟨⟨s, List.mem_cons_self, rfl, ?_, ?_⟩, fun t ht => ?_⟩
    · exact Text.byteLength_append _ _
    · have hslice := slice?_append front s.source (sourceOf stretches ++ back)
      rw [← Text.byteLength_append] at hslice
      rwa [← List.append_assoc] at hslice
    · obtain ⟨s', hs', hread⟩ := ih (front ++ s.source) t ht
      exact ⟨s', List.mem_cons_of_mem _ hs', hread⟩

/-- The slices of all tokens are the stretches. -/
theorem mapM_slice?_layOut (stretches : List Stretch) (front back : List Char) :
    (layOut (byteLength front) stretches).mapM
        (fun t => slice? t.start t.stop (front ++ sourceOf stretches ++ back)) =
      some (stretches.map Stretch.source) := by
  induction stretches generalizing front with
  | nil => rfl
  | cons s stretches ih =>
    have htext : front ++ sourceOf (s :: stretches) ++ back =
        front ++ s.source ++ sourceOf stretches ++ back := by simp
    have hslice := slice?_append front s.source (sourceOf stretches ++ back)
    rw [← List.append_assoc] at hslice
    rw [htext, layOut, List.mapM_cons]
    dsimp only
    rw [hslice, ← Text.byteLength_append, ih]
    rfl

end LayOut

/-- The tokens take up all of the text, one after the other, and are what is read at their bytes. -/
structure Tokenized (text : List Char) (tokens : List Token) : Prop where
  /-- No token is empty. -/
  nonempty : ∀ t ∈ tokens, t.start < t.stop
  /-- A token starts where the one before it stops. -/
  adjacent : tokens.IsChain fun a b => a.stop = b.start
  /-- The first token starts at the start of the text. -/
  starts : ∀ t ∈ tokens.head?, t.start = 0
  /-- The last token stops at the end of the text. -/
  stops : ∀ t ∈ tokens.getLast?, t.stop = byteLength text
  /-- No two tokens next to each other are literal text. -/
  apart : tokens.IsChain Token.Apart
  /-- Each token is read from its slice of the text. -/
  read : ∀ t ∈ tokens, ∃ source, slice? t.start t.stop text = some source ∧ t.kind.ReadFrom source
  /-- The slices of the tokens make up the text. -/
  text_eq : (tokens.mapM fun t => slice? t.start t.stop text).map List.flatten = some text

/-- The tokens come in the order of the bytes at which they start. -/
theorem Tokenized.pairwise_start {text : List Char} {tokens : List Token}
    (h : Tokenized text tokens) : tokens.Pairwise fun a b => a.start < b.start := by
  have hchain : tokens.IsChain fun a b => a.start < b.start := by
    refine h.adjacent.imp_of_mem_imp fun a b ha _ (hadjacent : a.stop = b.start) => ?_
    rw [← hadjacent]
    exact h.nonempty a ha
  exact List.pairwise_map.1 (List.isChain_iff_pairwise.1 ((List.isChain_map Token.start).2 hchain))

/-- What `tokenize` returns takes up all of the text. -/
theorem tokenized_of_tokenize {strict : Bool} {text : List Char} {tokens : List Token}
    (h : tokenize strict text = .ok tokens) : Tokenized text tokens := by
  obtain ⟨stretches, rfl, hsource, hread⟩ := exists_stretches_of_tokensFrom h
  rw [List.nil_append] at hsource
  subst hsource
  have hslices := exists_slice_of_mem_layOut stretches [] []
  have hall := mapM_slice?_layOut stretches [] []
  rw [List.nil_append, List.append_nil, Text.byteLength_nil] at hslices hall
  refine ⟨fun t ht => ?_, isChain_layOut 0 stretches, start_head?_layOut, fun t ht => ?_,
    isChain_apart_of_tokensFrom h, fun t ht => ?_, ?_⟩
  · obtain ⟨s, hs, -, hstop, -⟩ := hslices t ht
    have hpos := byteLength_pos (hread s hs).source_ne
    omega
  · rw [stop_getLast?_layOut t ht, Nat.zero_add]
  · obtain ⟨s, hs, hkind, -, hslice⟩ := hslices t ht
    exact ⟨s.source, hslice, hkind ▸ (hread s hs).read⟩
  · rw [hall]
    rfl

end StyledTemplate
