import StyledTemplate.Proofs.Document.RowMarkers
import StyledTemplate.Proofs.Document.Spelling

/-!
# The content of a paragraph without its markers

Each piece of content has a place: the number of its paragraph and the number of bytes before it in
the text of the paragraph. Cutting a token out of a paragraph leaves all of its content but the
characters that start at the bytes of the token (`Token.Fits.runsAtoms_cut`), and a second cut before
the first one finds the characters at the same bytes (`cutContent_cutContent`).
-/

namespace StyledTemplate

open Text (byteLength takeBytes dropBytes)

/-! ## Content with its places -/

/-- A piece of content with its place. -/
structure Located where
  /-- The number of paragraphs before its paragraph. -/
  paragraph : Nat
  /-- The number of bytes of text before it in the paragraph. -/
  offset : Nat
  /-- The piece of content. -/
  atom : Atom

/-- The content of a paragraph with its places, `offset` bytes being before it. -/
def locate (number offset : Nat) : List Atom → List Located
  | [] => []
  | .char c style :: atoms =>
    ⟨number, offset, .char c style⟩ :: locate number (offset + c.utf8Size) atoms
  | .run run :: atoms => ⟨number, offset, .run run⟩ :: locate number offset atoms

/-- The content of some paragraphs with its places, `number` paragraphs being before them. -/
def locateAll (number : Nat) : List Paragraph → List Located
  | [] => []
  | p :: ps => locate number 0 (runsAtoms p.runs) ++ locateAll (number + 1) ps

/-- The content without its places. -/
def contentOf (located : List Located) : List Atom := located.map Located.atom

/-- Is it one of the characters that start at the bytes from `start` to `stop`? -/
def Located.isWithin (start stop : Nat) (l : Located) : Bool :=
  match l.atom with
  | .char _ _ => decide (start ≤ l.offset) && decide (l.offset < stop)
  | .run _ => false

/-- The characters of some content. -/
def atomsText (atoms : List Atom) : List Char :=
  atoms.filterMap fun
    | .char c _ => some c
    | .run _ => none

/-- The content without the characters that start at the bytes from `start` to `stop`. -/
def cutContent (start stop : Nat) (located : List Located) : List Atom :=
  contentOf (located.filter (!·.isWithin start stop))

/-- The characters of a text in one formatting. -/
def charAtoms (cs : List Char) (style : RunProperties) : List Atom := cs.map (.char · style)

theorem contentOf_append (as bs : List Located) :
    contentOf (as ++ bs) = contentOf as ++ contentOf bs := List.map_append

theorem contentOf_locate (number offset : Nat) (atoms : List Atom) :
    contentOf (locate number offset atoms) = atoms := by
  induction atoms generalizing offset with
  | nil => rfl
  | cons atom atoms ih =>
    cases atom with
    | char c style => exact congrArg (_ :: ·) (ih _)
    | run run => exact congrArg (_ :: ·) (ih _)

theorem cutContent_append (start stop : Nat) (as bs : List Located) :
    cutContent start stop (as ++ bs) = cutContent start stop as ++ cutContent start stop bs := by
  rw [cutContent, List.filter_append]
  exact contentOf_append _ _

theorem locate_charAtoms (number offset : Nat) (cs : List Char) (style : RunProperties)
    (atoms : List Atom) :
    locate number offset (charAtoms cs style ++ atoms) =
      locate number offset (charAtoms cs style) ++ locate number (offset + byteLength cs) atoms := by
  induction cs generalizing offset with
  | nil => rfl
  | cons c cs ih =>
    have hstep := ih (offset + c.utf8Size)
    rw [Nat.add_assoc, ← Text.byteLength_cons] at hstep
    exact congrArg (_ :: ·) hstep

theorem atomsText_charAtoms (cs : List Char) (style : RunProperties) :
    atomsText (charAtoms cs style) = cs := by
  rw [atomsText, charAtoms, List.filterMap_map]
  exact List.filterMap_some

/-- The text of runs is the text of their content. -/
theorem runsText_eq_atomsText (runs : List Run) : runsText runs = atomsText (runsAtoms runs) := by
  induction runs using runs_induction with
  | nil => rfl
  | text s style runs ih =>
    have htext : atomsText (Run.ofText s style).atoms = s.toList := atomsText_charAtoms s.toList style
    rw [runsText_cons, Run.text?_ofText, runsAtoms_cons, atomsText, List.filterMap_append,
      ← atomsText, htext, ih]
    rfl
  | other run runs hrun ih =>
    rw [runsText_cons, hrun, runsAtoms_cons, atoms_of_text?_eq_none hrun, ih]
    rfl

/-! ## Bytes at which characters end -/

/-- No character reaches over the byte `n` of a text that `offset` bytes are before. -/
def NoneAcross (n offset : Nat) : List Char → Prop
  | [] => True
  | c :: cs => (n ≤ offset ∨ offset + c.utf8Size ≤ n) ∧ NoneAcross n (offset + c.utf8Size) cs

theorem noneAcross_append {n offset : Nat} {as bs : List Char} :
    NoneAcross n offset (as ++ bs) ↔
      NoneAcross n offset as ∧ NoneAcross n (offset + byteLength as) bs := by
  induction as generalizing offset with
  | nil => simp [NoneAcross]
  | cons c cs ih =>
    rw [List.cons_append, NoneAcross, NoneAcross, ih, Text.byteLength_cons, Nat.add_assoc,
      and_assoc]

theorem noneAcross_of_le {n offset : Nat} (h : n ≤ offset) (cs : List Char) :
    NoneAcross n offset cs := by
  induction cs generalizing offset with
  | nil => trivial
  | cons c cs ih => exact ⟨.inl h, ih (Nat.le_add_right_of_le h)⟩

theorem noneAcross_of_byteLength_le {n offset : Nat} {cs : List Char}
    (h : offset + byteLength cs ≤ n) : NoneAcross n offset cs := by
  induction cs generalizing offset with
  | nil => trivial
  | cons c cs ih =>
    rw [Text.byteLength_cons, ← Nat.add_assoc] at h
    exact ⟨.inr (by omega), ih h⟩

/-- No character reaches over the end of another text before it. -/
theorem noneAcross_byteLength (before after : List Char) :
    NoneAcross (byteLength before) 0 (before ++ after) := by
  refine noneAcross_append.2 ⟨noneAcross_of_byteLength_le (by omega), noneAcross_of_le ?_ _⟩
  omega

/-! ## Cutting -/

section Cut

variable {start stop : Nat}

/-- A character that reaches over neither end of the bytes that are cut out is kept if it does not
start there. -/
theorem keptChars_char (h : start ≤ stop) {offset : Nat} {c : Char}
    (hstart : start ≤ offset ∨ offset + c.utf8Size ≤ start)
    (hstop : stop ≤ offset ∨ offset + c.utf8Size ≤ stop) :
    keptChars start stop offset [c] = if start ≤ offset ∧ offset < stop then [] else [c] := by
  have hsize := c.utf8Size_pos
  split
  · next hwithin =>
    have htake : ¬ c.utf8Size ≤ start - offset := by omega
    have hdrop : c.utf8Size ≤ stop - offset := by omega
    simp [keptChars, takeBytes, dropBytes, htake, hdrop]
  · next hout =>
    refine keptChars_of_outside h ?_
    rw [Text.byteLength_cons, Text.byteLength_nil]
    omega

/-- What is left of a text is what does not start at the bytes that are cut out. -/
theorem charAtoms_keptChars (h : start ≤ stop) (number : Nat) {offset : Nat} {cs : List Char}
    (hstart : NoneAcross start offset cs) (hstop : NoneAcross stop offset cs)
    (style : RunProperties) :
    charAtoms (keptChars start stop offset cs) style =
      cutContent start stop (locate number offset (charAtoms cs style)) := by
  induction cs generalizing offset with
  | nil => simp [keptChars, takeBytes, dropBytes, charAtoms, locate, cutContent, contentOf]
  | cons c cs ih =>
    obtain ⟨hfirst, hstart⟩ := hstart
    obtain ⟨hlast, hstop⟩ := hstop
    have hkept : keptChars start stop offset (c :: cs) =
        keptChars start stop offset [c] ++ keptChars start stop (offset + c.utf8Size) cs :=
      keptChars_append h offset [c] cs
    have hlocate : locate number offset (charAtoms (c :: cs) style) =
        [⟨number, offset, .char c style⟩] ++
          locate number (offset + c.utf8Size) (charAtoms cs style) := rfl
    rw [hkept, hlocate, cutContent_append, ← ih hstart hstop, charAtoms, List.map_append]
    refine congrArg (· ++ _) ?_
    rw [keptChars_char h hfirst hlast]
    have hdecide : Located.isWithin start stop ⟨number, offset, .char c style⟩ =
        decide (start ≤ offset ∧ offset < stop) := (Bool.decide_and _ _).symm
    by_cases hwithin : start ≤ offset ∧ offset < stop
    · simp [cutContent, contentOf, hdecide, hwithin]
    · simp [cutContent, contentOf, hdecide, hwithin]

theorem runsAtoms_spellText (cs : List Char) (style : RunProperties) :
    runsAtoms (spellText cs style) = charAtoms cs style := by
  induction cs with
  | nil => rfl
  | cons c cs ih =>
    have hchar : (Run.ofText (String.ofList [c]) style).atoms = charAtoms [c] style := by
      simp [Run.ofText, Run.atoms, textAtoms, charAtoms]
    rw [spellText_cons, runsAtoms_cons, hchar, ih]
    rfl

theorem runsAtoms_cutRuns_text (h : start ≤ stop) (offset : Nat) (s : String)
    (style : RunProperties) (runs : List Run) :
    runsAtoms (cutRuns start stop offset (.ofText s style :: runs)) =
      charAtoms (keptChars start stop offset s.toList) style ++
        runsAtoms (cutRuns start stop (offset + byteLength s.toList) runs) := by
  rw [← runsAtoms_spellRuns, spellRuns_cutRuns_text h, runsAtoms_append, runsAtoms_spellText,
    runsAtoms_spellRuns]

/-- Cutting bytes out of runs cuts the characters that start there out of their content. -/
theorem runsAtoms_cutRuns (h : start ≤ stop) (number : Nat) {offset : Nat} {runs : List Run}
    (hstart : NoneAcross start offset (runsText runs))
    (hstop : NoneAcross stop offset (runsText runs)) :
    runsAtoms (cutRuns start stop offset runs) =
      cutContent start stop (locate number offset (runsAtoms runs)) := by
  induction runs using runs_induction generalizing offset with
  | nil => rfl
  | text s style runs ih =>
    have htext : runsText (.ofText s style :: runs) = s.toList ++ runsText runs := rfl
    rw [htext] at hstart hstop
    obtain ⟨hstart, hstartRest⟩ := noneAcross_append.1 hstart
    obtain ⟨hstop, hstopRest⟩ := noneAcross_append.1 hstop
    have hatoms : runsAtoms (.ofText s style :: runs) =
        charAtoms s.toList style ++ runsAtoms runs := rfl
    rw [runsAtoms_cutRuns_text h, charAtoms_keptChars h number hstart hstop, hatoms,
      locate_charAtoms, cutContent_append, ← ih hstartRest hstopRest]
  | other run runs hrun ih =>
    rw [runsText_cons, hrun] at hstart hstop
    rw [cutRuns_other hrun, runsAtoms_cons, runsAtoms_cons, atoms_of_text?_eq_none hrun,
      ih hstart hstop]
    rfl

end Cut

/-! ## Cutting twice -/

theorem isWithin_of_le {start stop number offset : Nat} (h : stop ≤ offset) {atoms : List Atom} :
    ∀ l ∈ locate number offset atoms, l.isWithin start stop = false := by
  induction atoms generalizing offset with
  | nil => exact List.forall_mem_nil _
  | cons atom atoms ih =>
    cases atom with
    | run run => exact List.forall_mem_cons.2 ⟨rfl, ih h⟩
    | char c style =>
      refine List.forall_mem_cons.2 ⟨?_, ih (Nat.le_add_right_of_le h)⟩
      simp only [Located.isWithin, Bool.and_eq_false_iff, decide_eq_false_iff_not]
      omega

/-- Nothing is cut out behind the last byte. -/
theorem cutContent_of_le {start stop offset : Nat} (h : stop ≤ offset) (number : Nat)
    (atoms : List Atom) : cutContent start stop (locate number offset atoms) = atoms := by
  have hall : (locate number offset atoms).filter (!·.isWithin start stop) =
      locate number offset atoms :=
    List.filter_eq_self.2 fun l hl => by simp [isWithin_of_le h l hl]
  rw [cutContent, hall, contentOf_locate]

/-- What a first cut leaves keeps its places up to there: a second cut before it takes out the
characters at the same bytes. -/
theorem cutContent_cutContent {start stop start' stop' : Nat} (h : stop ≤ start') (number : Nat)
    {offset : Nat} {atoms : List Atom} (hstart : NoneAcross start' offset (atomsText atoms)) :
    cutContent start stop (locate number offset
        (cutContent start' stop' (locate number offset atoms))) =
      contentOf ((locate number offset atoms).filter fun l =>
        !(l.isWithin start stop || l.isWithin start' stop')) := by
  induction atoms generalizing offset with
  | nil => rfl
  | cons atom atoms ih =>
    cases atom with
    | run run => exact congrArg (Atom.run run :: ·) (ih hstart)
    | char c style =>
      obtain ⟨hchar, hrest⟩ := hstart
      rcases hchar with hbehind | hbefore
      -- the other cut ends before all that is left
      · rw [cutContent_of_le (Nat.le_trans h hbehind), cutContent]
        refine congrArg contentOf (List.filter_congr fun l hl => ?_)
        rw [isWithin_of_le (Nat.le_trans h hbehind) l hl, Bool.false_or]
      · have hfirst : Located.isWithin start' stop' ⟨number, offset, .char c style⟩ = false := by
          have hsize := c.utf8Size_pos
          simp only [Located.isWithin, Bool.and_eq_false_iff, decide_eq_false_iff_not]
          omega
        have hkept : cutContent start' stop' (locate number offset (.char c style :: atoms)) =
            .char c style ::
              cutContent start' stop' (locate number (offset + c.utf8Size) atoms) := by
          rw [cutContent, locate, List.filter_cons_of_pos (by simp [hfirst])]
          rfl
        rw [hkept, locate, locate, cutContent, List.filter_cons, List.filter_cons, hfirst,
          Bool.or_false]
        split
        · exact congrArg (Atom.char c style :: ·) (ih hrest)
        · exact ih hrest

/-! ## Markers -/

/-- The token is a part of the text. -/
def Token.IsIn (t : Token) (text : List Char) : Prop :=
  ∃ before source after, text = before ++ source ++ after ∧ t.start = byteLength before ∧
    t.stop = t.start + byteLength source

/-- The token starts and ends between the characters of the text. -/
structure Token.Fits (t : Token) (text : List Char) : Prop where
  /-- It does not stop before it starts. -/
  le : t.start ≤ t.stop
  /-- No character reaches over its start. -/
  start : NoneAcross t.start 0 text
  /-- No character reaches over its end. -/
  stop : NoneAcross t.stop 0 text

theorem Token.IsIn.fits {t : Token} {text : List Char} (h : t.IsIn text) : t.Fits text := by
  obtain ⟨before, source, after, rfl, hstart, hstop⟩ := h
  refine ⟨by omega, ?_, ?_⟩
  · rw [hstart, List.append_assoc]
    exact noneAcross_byteLength before (source ++ after)
  · rw [hstop, hstart, ← Text.byteLength_append]
    exact noneAcross_byteLength (before ++ source) after

variable {strict : Bool} {row : Row Element} {markers : RowMarkers} {first last : Paragraph}

theorem Marked.opener_isIn (h : Marked strict row markers first last) :
    markers.opener.IsIn (runsText first.runs) := by
  obtain ⟨tokens, htokens, hfind⟩ := h.opens
  obtain ⟨before, source, after, ds, hstands, -, hstart, hstop, -, -⟩ :=
    leading_directive htokens hfind h.opener
  exact ⟨before, source, after, hstands.text_eq, hstart, hstop⟩

theorem Marked.closer_isIn (h : Marked strict row markers first last) :
    markers.closer.IsIn (runsText last.runs) := by
  obtain ⟨tokens, htokens, hfind⟩ := h.closes
  obtain ⟨before, source, after, pre, post, hstands, -, hstart, hstop, -, -, -⟩ :=
    trailing_directive htokens hfind h.closer
  exact ⟨before, source, after, hstands.text_eq, hstart, hstop⟩

/-- The content of a paragraph that a token is cut out of. -/
theorem Token.Fits.runsAtoms_cut {t : Token} {p : Paragraph} (h : t.Fits (runsText p.runs))
    (number : Nat) : runsAtoms (p.cut t.start t.stop).runs =
      cutContent t.start t.stop (locate number 0 (runsAtoms p.runs)) :=
  runsAtoms_cutRuns h.le number h.start h.stop

/-- Once a later part of the text is cut out, the token still starts and ends between characters. -/
theorem Token.Fits.cut {t t' : Token} {p : Paragraph} (h : t.Fits (runsText p.runs))
    (h' : t'.IsIn (runsText p.runs)) (hle : t.stop ≤ t'.start) :
    t.Fits (runsText (p.cut t'.start t'.stop).runs) := by
  obtain ⟨before, source, after, htext, hstart, hstop⟩ := h'
  have hkept : ∀ n, n ≤ t'.start → NoneAcross n 0 (runsText p.runs) →
      NoneAcross n 0 (runsText (p.cut t'.start t'.stop).runs) := by
    intro n hn hnone
    rw [htext, List.append_assoc] at hnone
    rw [runsText_cut htext hstart hstop]
    refine noneAcross_append.2 ⟨(noneAcross_append.1 hnone).1, noneAcross_of_le ?_ after⟩
    omega
  have hle' := h.le
  exact ⟨h.le, hkept _ (by omega) h.start, hkept _ hle h.stop⟩

end StyledTemplate
