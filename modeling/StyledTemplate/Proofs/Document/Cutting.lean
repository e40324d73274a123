import Mathlib.Data.Nat.PSub
import StyledTemplate.Proofs.Document.RowContent

/-!
# Cutting ranges of bytes out of paragraphs

A range of bytes that starts and ends between characters can be cut out of a paragraph wherever it
lies in the runs: no number of bytes falls below zero, and all parts of text that are taken are
slices of it (`cutRuns?_eq`). What goes are the characters of the range. Cutting out ranges one
after the other, the last one first, is cutting out all of them at once (`Paragraph.cut_exact`).
-/

namespace StyledTemplate

open Text (byteLength takeBytes dropBytes)

/-! ## Ends of ranges -/

/-- The byte `n` is the end of a part that the text starts with. -/
def OnBoundary (n : Nat) (text : List Char) : Prop :=
  ∃ before after, text = before ++ after ∧ byteLength before = n

/-- Some bytes of a text. -/
structure ByteRange where
  /-- The first byte. -/
  start : Nat
  /-- The byte behind the last one. -/
  stop : Nat
  /-- The range does not end before it starts. -/
  le : start ≤ stop

/-- The range starts and ends between characters of the text. -/
structure ByteRange.Fits (r : ByteRange) (text : List Char) : Prop where
  /-- It starts between characters. -/
  start : OnBoundary r.start text
  /-- It stops between characters. -/
  stop : OnBoundary r.stop text

section Boundaries

variable {n offset : Nat} {text : List Char}

theorem OnBoundary.noneAcross (h : OnBoundary n text) : NoneAcross n 0 text := by
  obtain ⟨before, after, rfl, rfl⟩ := h
  exact noneAcross_byteLength before after

/-- A byte is a boundary if the characters that fit before it reach up to it. -/
theorem onBoundary_iff : OnBoundary n text ↔ byteLength (takeBytes n text) = n := by
  constructor
  · rintro ⟨before, after, rfl, rfl⟩
    rw [Text.takeBytes_byteLength_append]
  · intro h
    exact ⟨takeBytes n text, dropBytes n text, (Text.takeBytes_append_dropBytes n text).symm, h⟩

instance : Decidable (OnBoundary n text) := decidable_of_iff _ onBoundary_iff.symm

/-- A text splits at a byte that no character reaches over. -/
theorem exists_split_of_noneAcross (h : NoneAcross n offset text) (hfirst : offset ≤ n)
    (hlast : n ≤ offset + byteLength text) :
    ∃ before after, text = before ++ after ∧ offset + byteLength before = n := by
  induction text generalizing offset with
  | nil => exact ⟨[], [], rfl, Nat.le_antisymm hfirst hlast⟩
  | cons c text ih =>
    obtain ⟨hchar, hrest⟩ := h
    rcases Nat.eq_or_lt_of_le hfirst with rfl | hlt
    · exact ⟨[], c :: text, rfl, rfl⟩
    · have hbehind : offset + c.utf8Size ≤ n := by omega
      rw [Text.byteLength_cons, ← Nat.add_assoc] at hlast
      obtain ⟨before, after, rfl, hbefore⟩ := ih hrest hbehind hlast
      refine ⟨c :: before, after, rfl, ?_⟩
      rw [Text.byteLength_cons, ← Nat.add_assoc, hbefore]

/-- A range that fits is a part of the text. -/
theorem ByteRange.Fits.exists_parts {r : ByteRange} (h : r.Fits text) :
    ∃ before middle after, text = before ++ middle ++ after ∧ byteLength before = r.start ∧
      byteLength (before ++ middle) = r.stop := by
  obtain ⟨front, after, rfl, hfront⟩ := h.stop
  have hnone := (noneAcross_append.1 h.start.noneAcross).1
  have hle := r.le
  obtain ⟨before, middle, rfl, hbefore⟩ :=
    exists_split_of_noneAcross hnone (Nat.zero_le _) (by omega)
  exact ⟨before, middle, after, rfl, by omega, hfront⟩

/-- What stands behind a boundary does not matter for it. -/
theorem OnBoundary.of_append {before after : List Char} (h : OnBoundary n (before ++ after))
    (hle : n ≤ byteLength before) (other : List Char) : OnBoundary n (before ++ other) := by
  have hnone := (noneAcross_append.1 h.noneAcross).1
  obtain ⟨front, rest, rfl, hfront⟩ :=
    exists_split_of_noneAcross hnone (Nat.zero_le _) (by omega)
  exact ⟨front, rest ++ other, List.append_assoc _ _ _, by omega⟩

end Boundaries

/-! ## Cutting with checks -/

/-- The part of a text that stands before the byte `start`, of which there are `offset` before the
text. It fails if there are not so many bytes or if they cut a character. -/
def textBefore? (start offset : Nat) (cs : List Char) : Option (List Char) :=
  if offset < start then (start.psub offset).bind (slice? 0 · cs) else some []

/-- The part of a text that stands behind the byte `stop`, with the same checks. -/
def textBehind? (stop offset : Nat) (cs : List Char) : Option (List Char) :=
  if stop < offset + byteLength cs then (stop.psub offset).bind (slice? · (byteLength cs) cs)
  else some []

/-- Takes bytes out of runs as `cutRuns` does, and fails where a slice of text fails. -/
def cutRuns? (start stop offset : Nat) : List Run → Option (List Run)
  | [] => some []
  | run :: runs =>
    match run.text? with
    | some s =>
      let last := offset + byteLength s.toList
      if last ≤ start ∨ stop ≤ offset then (cutRuns? start stop last runs).map (run :: ·)
      else do
        let before ← textBefore? start offset s.toList
        let behind ← textBehind? stop offset s.toList
        let rest ← cutRuns? start stop last runs
        if before ++ behind = [] then return rest
        else return .ofText (String.ofList (before ++ behind)) run.properties :: rest
    | none => (cutRuns? start stop offset runs).map (run :: ·)

/-- The paragraph without some bytes of its text, if these can be cut out. -/
def Paragraph.cut? (p : Paragraph) (start stop : Nat) : Option Paragraph :=
  (cutRuns? start stop 0 p.runs).map fun runs => { p with runs }

section Checks

variable {start stop offset : Nat} {cs : List Char}

theorem textBefore?_eq (h : NoneAcross start offset cs) (hlast : start ≤ offset + byteLength cs) :
    textBefore? start offset cs = some (takeBytes (start - offset) cs) := by
  rw [textBefore?]
  split
  · next hlt =>
    obtain ⟨before, after, rfl, hbefore⟩ := exists_split_of_noneAcross h (Nat.le_of_lt hlt) hlast
    have hlength : start - offset = byteLength before := by omega
    rw [Nat.psub_eq_sub (Nat.le_of_lt hlt), Option.bind_some, hlength,
      Text.takeBytes_byteLength_append]
    exact slice?_eq_some_iff.2 ⟨[], after, rfl, rfl, rfl⟩
  · next hnlt => rw [Nat.sub_eq_zero_of_le (Nat.le_of_not_lt hnlt), Text.takeBytes_zero]

theorem textBehind?_eq (h : NoneAcross stop offset cs) (hfirst : offset ≤ stop) :
    textBehind? stop offset cs = some (dropBytes (stop - offset) cs) := by
  rw [textBehind?]
  split
  · next hlt =>
    obtain ⟨before, after, rfl, hbefore⟩ := exists_split_of_noneAcross h hfirst (Nat.le_of_lt hlt)
    have hlength : stop - offset = byteLength before := by omega
    rw [Nat.psub_eq_sub hfirst, Option.bind_some, hlength, Text.dropBytes_byteLength_append]
    exact slice?_eq_some_iff.2 ⟨before, [], (List.append_nil _).symm, rfl, rfl⟩
  · next hnlt => rw [dropBytes_eq_nil_of_byteLength_le (by omega)]

/-- Nothing fails if the bytes start and end between characters. -/
theorem cutRuns?_eq {runs : List Run} (hstart : NoneAcross start offset (runsText runs))
    (hstop : NoneAcross stop offset (runsText runs)) :
    cutRuns? start stop offset runs = some (cutRuns start stop offset runs) := by
  induction runs using runs_induction generalizing offset with
  | nil => rfl
  | text s style runs ih =>
    have htext : runsText (.ofText s style :: runs) = s.toList ++ runsText runs := rfl
    rw [htext, noneAcross_append] at hstart hstop
    have hrest := ih hstart.2 hstop.2
    rw [cutRuns?, cutRuns, Run.text?_ofText]
    dsimp only
    split
    · rw [hrest, Option.map_some]
    · next hreach =>
      rw [textBefore?_eq hstart.1 (by omega), textBehind?_eq hstop.1 (by omega), hrest]
      dsimp only [bind, Option.bind_some, pure]
      split <;> rfl
  | other run runs hrun ih =>
    rw [runsText_cons, hrun] at hstart hstop
    rw [cutRuns?, cutRuns_other hrun, hrun]
    dsimp only
    rw [ih hstart hstop, Option.map_some]

/-- Bytes before the runs are not theirs. -/
theorem cutRuns_of_le (h : stop ≤ offset) (runs : List Run) :
    cutRuns start stop offset runs = runs := by
  induction runs using runs_induction generalizing offset with
  | nil => rfl
  | text s style runs ih =>
    rw [cutRuns, Run.text?_ofText]
    dsimp only
    rw [if_pos (.inr h), ih (Nat.le_add_right_of_le h)]
  | other run runs hrun ih => rw [cutRuns_other hrun, ih h]

end Checks

theorem Paragraph.cut?_eq {p : Paragraph} {r : ByteRange} (h : r.Fits (runsText p.runs)) :
    p.cut? r.start r.stop = some (p.cut r.start r.stop) := by
  rw [Paragraph.cut?, cutRuns?_eq h.start.noneAcross h.stop.noneAcross]
  rfl

/-! ## Cutting out several ranges at once -/

namespace ByteRange

/-- Does the range hold the byte? -/
def holds (r : ByteRange) (byte : Nat) : Bool := decide (r.start ≤ byte) && decide (byte < r.stop)

/-- Does the range reach into a text from one byte to another one? -/
def reachesInto (r : ByteRange) (first last : Nat) : Bool :=
  decide (first < r.stop) && decide (r.start < last)

theorem holds_iff {r : ByteRange} {byte : Nat} :
    r.holds byte = true ↔ r.start ≤ byte ∧ byte < r.stop := by
  rw [holds, Bool.and_eq_true, decide_eq_true_eq, decide_eq_true_eq]

theorem reachesInto_iff {r : ByteRange} {first last : Nat} :
    r.reachesInto first last = true ↔ first < r.stop ∧ r.start < last := by
  rw [reachesInto, Bool.and_eq_true, decide_eq_true_eq, decide_eq_true_eq]

end ByteRange

/-- The characters of a text that start in none of the ranges. -/
def keptOutside (ranges : List ByteRange) (offset : Nat) : List Char → List Char
  | [] => []
  | c :: cs =>
    if ranges.any (·.holds offset) then keptOutside ranges (offset + c.utf8Size) cs
    else c :: keptOutside ranges (offset + c.utf8Size) cs

/-- The content without the characters that start in one of the ranges. -/
def cutContentAll (ranges : List ByteRange) (located : List Located) : List Atom :=
  contentOf (located.filter fun l => !ranges.any fun r => l.isWithin r.start r.stop)

/-- A run with the text, or none if there is no text. -/
def textRuns (cs : List Char) (style : RunProperties) : List Run :=
  if cs = [] then [] else [.ofText (String.ofList cs) style]

/-- What is left of a run with text if some ranges are cut out. It stays as it is if no range
reaches into its text. -/
def leftOfText (ranges : List ByteRange) (offset : Nat) (s : String) (style : RunProperties) :
    List Run :=
  if ranges.any (·.reachesInto offset (offset + byteLength s.toList)) then
    textRuns (keptOutside ranges offset s.toList) style
  else [.ofText s style]

/-- Takes the bytes of some ranges out of runs that stand behind `offset`. -/
def cutRunsAll (ranges : List ByteRange) (offset : Nat) : List Run → List Run
  | [] => []
  | run :: runs =>
    match run.text? with
    | some s =>
      leftOfText ranges offset s run.properties ++
        cutRunsAll ranges (offset + byteLength s.toList) runs
    | none => run :: cutRunsAll ranges offset runs

/-- The paragraph without the bytes of its text in some ranges. -/
def Paragraph.cutAll (p : Paragraph) (ranges : List ByteRange) : Paragraph :=
  { p with runs := cutRunsAll ranges 0 p.runs }

section Several

variable {r : ByteRange} {ranges : List ByteRange} {offset : Nat} {cs : List Char}

theorem cutContentAll_append (ranges : List ByteRange) (as bs : List Located) :
    cutContentAll ranges (as ++ bs) = cutContentAll ranges as ++ cutContentAll ranges bs := by
  rw [cutContentAll, List.filter_append]
  exact contentOf_append _ _

theorem keptOutside_append (ranges : List ByteRange) (offset : Nat) (as bs : List Char) :
    keptOutside ranges offset (as ++ bs) =
      keptOutside ranges offset as ++ keptOutside ranges (offset + byteLength as) bs := by
  induction as generalizing offset with
  | nil => rfl
  | cons c as ih =>
    rw [List.cons_append, keptOutside, keptOutside, ih, Text.byteLength_cons, Nat.add_assoc]
    split <;> rfl

/-- What is kept of a text depends on which of its bytes the ranges hold. -/
theorem keptOutside_congr {ranges' : List ByteRange} (h : ∀ byte, offset ≤ byte →
      byte < offset + byteLength cs → ranges.any (·.holds byte) = ranges'.any (·.holds byte)) :
    keptOutside ranges offset cs = keptOutside ranges' offset cs := by
  induction cs generalizing offset with
  | nil => rfl
  | cons c cs ih =>
    have hsize := c.utf8Size_pos
    rw [Text.byteLength_cons] at h
    have hrest : keptOutside ranges (offset + c.utf8Size) cs =
        keptOutside ranges' (offset + c.utf8Size) cs :=
      ih fun byte hfirst hlast => h byte (by omega) (by omega)
    rw [keptOutside, keptOutside, h offset (Nat.le_refl _) (by omega), hrest]

theorem keptOutside_nil (offset : Nat) (cs : List Char) : keptOutside [] offset cs = cs := by
  induction cs generalizing offset with
  | nil => rfl
  | cons c cs ih => exact congrArg (c :: ·) (ih _)

/-- Cutting out one range keeps what does not start in it. -/
theorem keptOutside_singleton (hstart : NoneAcross r.start offset cs)
    (hstop : NoneAcross r.stop offset cs) :
    keptOutside [r] offset cs = keptChars r.start r.stop offset cs := by
  induction cs generalizing offset with
  | nil => simp [keptOutside, keptChars, takeBytes, dropBytes]
  | cons c cs ih =>
    have hkept : keptChars r.start r.stop offset (c :: cs) =
        keptChars r.start r.stop offset [c] ++
          keptChars r.start r.stop (offset + c.utf8Size) cs :=
      keptChars_append r.le offset [c] cs
    have hany : [r].any (·.holds offset) = r.holds offset := Bool.or_false _
    rw [hkept, keptChars_char r.le hstart.1 hstop.1, ← ih hstart.2 hstop.2, keptOutside, hany]
    by_cases hholds : r.holds offset = true
    · rw [if_pos hholds, if_pos (ByteRange.holds_iff.1 hholds), List.nil_append]
    · rw [if_neg hholds, if_neg (mt ByteRange.holds_iff.2 hholds), List.singleton_append]

/-- A range does not matter behind its end. -/
theorem keptOutside_cons_of_le (h : r.stop ≤ offset) :
    keptOutside (r :: ranges) offset cs = keptOutside ranges offset cs := by
  refine keptOutside_congr fun byte hfirst _ => ?_
  have hholds : r.holds byte = false := by
    rw [Bool.eq_false_iff, ne_eq, ByteRange.holds_iff]
    omega
  rw [List.any_cons, hholds, Bool.false_or]

/-- Ranges do not reach into a text before their starts. -/
theorem any_reachesInto_of_le {last : Nat} (h : ∀ q ∈ ranges, last ≤ q.start) :
    ranges.any (·.reachesInto offset last) = false := by
  refine List.any_eq_false.2 fun q hq => ?_
  have hle := h q hq
  rw [ByteRange.reachesInto_iff]
  omega

/-- A range that holds a byte of a text reaches into it. -/
theorem any_holds_of_unreached {byte last : Nat}
    (h : ranges.any (·.reachesInto offset last) = false) (hfirst : offset ≤ byte)
    (hlast : byte < last) : ranges.any (·.holds byte) = false := by
  refine List.any_eq_false.2 fun q hq => ?_
  have hout := List.any_eq_false.1 h q hq
  rw [ByteRange.reachesInto_iff] at hout
  rw [ByteRange.holds_iff]
  omega

theorem keptOutside_of_unreached
    (h : ranges.any (·.reachesInto offset (offset + byteLength cs)) = false) :
    keptOutside ranges offset cs = cs := by
  have hnil : keptOutside ranges offset cs = keptOutside [] offset cs :=
    keptOutside_congr fun byte hfirst hlast => any_holds_of_unreached h hfirst hlast
  rw [hnil, keptOutside_nil]

/-- Where only one range reaches into a text, that one decides what is kept. -/
theorem keptOutside_cons_of_unreached
    (h : ranges.any (·.reachesInto offset (offset + byteLength cs)) = false)
    (hstart : NoneAcross r.start offset cs) (hstop : NoneAcross r.stop offset cs) :
    keptOutside (r :: ranges) offset cs = keptChars r.start r.stop offset cs := by
  rw [← keptOutside_singleton hstart hstop]
  refine keptOutside_congr fun byte hfirst hlast => ?_
  rw [List.any_cons, any_holds_of_unreached h hfirst hlast, List.any_cons, List.any_nil]

/-- What later ranges leave of a text holds all that stands before the end of a range, so the range
can be cut out afterwards. -/
theorem keptOutside_cons (hlater : ∀ q ∈ ranges, r.stop ≤ q.start) (hfirst : offset ≤ r.stop)
    (hlast : r.stop ≤ offset + byteLength cs) (hstart : NoneAcross r.start offset cs)
    (hstop : NoneAcross r.stop offset cs) :
    keptOutside (r :: ranges) offset cs =
        keptChars r.start r.stop offset (keptOutside ranges offset cs) ∧
      r.stop ≤ offset + byteLength (keptOutside ranges offset cs) := by
  obtain ⟨before, after, rfl, hbefore⟩ := exists_split_of_noneAcross hstop hfirst hlast
  have hunreached : ranges.any (·.reachesInto offset (offset + byteLength before)) = false :=
    any_reachesInto_of_le fun q hq => hbefore ▸ hlater q hq
  have hkept : keptOutside ranges offset (before ++ after) =
      before ++ keptOutside ranges r.stop after := by
    rw [keptOutside_append, hbefore, keptOutside_of_unreached hunreached]
  rw [noneAcross_append] at hstart hstop
  rw [hkept]
  constructor
  · rw [keptOutside_append, keptChars_append r.le, hbefore,
      keptOutside_cons_of_unreached hunreached hstart.1 hstop.1,
      keptOutside_cons_of_le (Nat.le_refl _), keptChars_of_outside r.le (.inr (Nat.le_refl _))]
  · rw [Text.byteLength_append]
    omega

theorem cutRunsAll_text (ranges : List ByteRange) (offset : Nat) (s : String)
    (style : RunProperties) (runs : List Run) :
    cutRunsAll ranges offset (.ofText s style :: runs) =
      leftOfText ranges offset s style ++
        cutRunsAll ranges (offset + byteLength s.toList) runs := rfl

theorem cutRunsAll_other {run : Run} (hrun : run.text? = none) (ranges : List ByteRange)
    (offset : Nat) (runs : List Run) :
    cutRunsAll ranges offset (run :: runs) = run :: cutRunsAll ranges offset runs := by
  rw [cutRunsAll, hrun]

theorem reachesInto_of_le (h : r.stop ≤ offset) (last : Nat) :
    r.reachesInto offset last = false := by
  rw [Bool.eq_false_iff, ne_eq, ByteRange.reachesInto_iff]
  omega

/-- Runs behind the end of a range keep what they keep without it. -/
theorem cutRunsAll_cons_of_le (h : r.stop ≤ offset) (runs : List Run) :
    cutRunsAll (r :: ranges) offset runs = cutRunsAll ranges offset runs := by
  induction runs using runs_induction generalizing offset with
  | nil => rfl
  | text s style runs ih =>
    have htext : leftOfText (r :: ranges) offset s style = leftOfText ranges offset s style := by
      rw [leftOfText, leftOfText, List.any_cons, reachesInto_of_le h, Bool.false_or,
        keptOutside_cons_of_le h]
    rw [cutRunsAll_text, cutRunsAll_text, htext, ih (Nat.le_add_right_of_le h)]
  | other run runs hrun ih => rw [cutRunsAll_other hrun, cutRunsAll_other hrun, ih h]

/-- What a range leaves of a run with text, if it is the only one. -/
theorem cutRuns_text (r : ByteRange) (offset : Nat) (s : String) (style : RunProperties)
    (runs : List Run) :
    cutRuns r.start r.stop offset (.ofText s style :: runs) =
      (if r.reachesInto offset (offset + byteLength s.toList) then
        textRuns (keptChars r.start r.stop offset s.toList) style else [.ofText s style]) ++
        cutRuns r.start r.stop (offset + byteLength s.toList) runs := by
  have hreaches : r.reachesInto offset (offset + byteLength s.toList) = true ↔
      ¬ (offset + byteLength s.toList ≤ r.start ∨ r.stop ≤ offset) := by
    rw [ByteRange.reachesInto_iff]
    omega
  rw [cutRuns, Run.text?_ofText]
  dsimp only
  by_cases hout : offset + byteLength s.toList ≤ r.start ∨ r.stop ≤ offset
  · rw [if_pos hout, if_neg (mt hreaches.1 (not_not.2 hout)), List.singleton_append]
  · rw [if_neg hout, if_pos (hreaches.2 hout), textRuns, keptChars]
    split <;> rfl

/-- Of a text that is not empty there is left what is kept of it. -/
theorem cutRuns_textRuns (r : ByteRange) (offset : Nat) {cs : List Char} (hne : cs ≠ [])
    (style : RunProperties) (runs : List Run) :
    cutRuns r.start r.stop offset (textRuns cs style ++ runs) =
      textRuns (keptChars r.start r.stop offset cs) style ++
        cutRuns r.start r.stop (offset + byteLength cs) runs := by
  rw [textRuns, if_neg hne, List.singleton_append, cutRuns_text, String.toList_ofList]
  split
  · rfl
  · next hout =>
    have hkept : keptChars r.start r.stop offset cs = cs := by
      refine keptChars_of_outside r.le ?_
      rw [ByteRange.reachesInto_iff] at hout
      omega
    rw [hkept, textRuns, if_neg hne]

/-- Cutting a range out of what later ones have left is cutting out all of them. The runs behind the
range have moved, but not to before its end. -/
theorem cutRuns_cutRunsAll {runs : List Run} (hlater : ∀ q ∈ ranges, r.stop ≤ q.start)
    (hstart : NoneAcross r.start offset (runsText runs))
    (hstop : NoneAcross r.stop offset (runsText runs)) :
    cutRuns r.start r.stop offset (cutRunsAll ranges offset runs) =
      cutRunsAll (r :: ranges) offset runs := by
  induction runs using runs_induction generalizing offset with
  | nil => rfl
  | other run runs hrun ih =>
    rw [runsText_cons, hrun] at hstart hstop
    rw [cutRunsAll_other hrun, cutRunsAll_other hrun, cutRuns_other hrun, ih hstart hstop]
  | text s style runs ih =>
    have htext : runsText (.ofText s style :: runs) = s.toList ++ runsText runs := rfl
    rw [htext, noneAcross_append] at hstart hstop
    by_cases hbehind : r.stop ≤ offset
    · rw [cutRuns_of_le hbehind, cutRunsAll_cons_of_le hbehind]
    have hfirst : offset ≤ r.stop := Nat.le_of_not_le hbehind
    by_cases hreach : ranges.any (·.reachesInto offset (offset + byteLength s.toList)) = true
    · -- a later range starts within the text, so this one ends within it
      have hlast : r.stop ≤ offset + byteLength s.toList := by
        obtain ⟨q, hq, hreaches⟩ := List.any_eq_true.1 hreach
        have hstarts := (ByteRange.reachesInto_iff.1 hreaches).2
        have hle := hlater q hq
        omega
      obtain ⟨hkept, hmoved⟩ :=
        keptOutside_cons hlater (Nat.le_of_not_le hbehind) hlast hstart.1 hstop.1
      have hne : keptOutside ranges offset s.toList ≠ [] := by
        intro hnil
        rw [hnil] at hmoved
        exact hbehind hmoved
      have hboth : (r :: ranges).any
          (·.reachesInto offset (offset + byteLength s.toList)) = true := by
        rw [List.any_cons, hreach, Bool.or_true]
      rw [cutRunsAll_text, cutRunsAll_text, leftOfText, leftOfText, if_pos hreach, if_pos hboth,
        cutRuns_textRuns r offset hne, ← hkept, cutRuns_of_le hmoved, cutRunsAll_cons_of_le hlast]
    · rw [Bool.not_eq_true] at hreach
      have hkept := keptOutside_cons_of_unreached hreach hstart.1 hstop.1
      rw [cutRunsAll_text, cutRunsAll_text, leftOfText, hreach, if_neg Bool.false_ne_true,
        List.singleton_append, cutRuns_text, ih hstart.2 hstop.2, leftOfText, List.any_cons, hreach,
        Bool.or_false, hkept]

/-- Without the bytes of some ranges, the content of a text is what does not start in any of
them. -/
theorem charAtoms_keptOutside (number : Nat) (ranges : List ByteRange) (offset : Nat)
    (cs : List Char) (style : RunProperties) :
    charAtoms (keptOutside ranges offset cs) style =
      cutContentAll ranges (locate number offset (charAtoms cs style)) := by
  induction cs generalizing offset with
  | nil => rfl
  | cons c cs ih =>
    have hlocate : locate number offset (charAtoms (c :: cs) style) =
        [⟨number, offset, .char c style⟩] ++
          locate number (offset + c.utf8Size) (charAtoms cs style) := rfl
    have hwithin : (ranges.any fun r =>
        Located.isWithin r.start r.stop ⟨number, offset, .char c style⟩) =
        ranges.any (·.holds offset) := rfl
    rw [hlocate, cutContentAll_append, ← ih, keptOutside, cutContentAll]
    by_cases hholds : ranges.any (·.holds offset) = true
    · rw [if_pos hholds, List.filter_cons_of_neg (by simp [hwithin, hholds])]
      rfl
    · rw [if_neg hholds, List.filter_cons_of_pos (by simp [hwithin, hholds])]
      rfl

theorem runsAtoms_textRuns (cs : List Char) (style : RunProperties) :
    runsAtoms (textRuns cs style) = charAtoms cs style := by
  rw [textRuns]
  split
  · next hnil => rw [hnil]; rfl
  · simp [Run.ofText, Run.atoms, textAtoms, charAtoms]

/-- Cutting ranges out of runs takes the characters that start there out of their content. -/
theorem runsAtoms_cutRunsAll (number : Nat) (ranges : List ByteRange) (offset : Nat)
    (runs : List Run) : runsAtoms (cutRunsAll ranges offset runs) =
      cutContentAll ranges (locate number offset (runsAtoms runs)) := by
  induction runs using runs_induction generalizing offset with
  | nil => rfl
  | text s style runs ih =>
    have hatoms : runsAtoms (.ofText s style :: runs) =
        charAtoms s.toList style ++ runsAtoms runs := rfl
    have hleft : runsAtoms (leftOfText ranges offset s style) =
        charAtoms (keptOutside ranges offset s.toList) style := by
      rw [leftOfText]
      split
      · exact runsAtoms_textRuns _ style
      · next hreach =>
        rw [keptOutside_of_unreached (Bool.not_eq_true _ ▸ hreach)]
        exact List.append_nil _
    rw [cutRunsAll_text, runsAtoms_append, hleft, ih, charAtoms_keptOutside number, hatoms,
      locate_charAtoms, cutContentAll_append]
  | other run runs hrun ih =>
    have hlocate : locate number offset (runsAtoms (run :: runs)) =
        [⟨number, offset, .run run⟩] ++ locate number offset (runsAtoms runs) := by
      rw [runsAtoms_cons, atoms_of_text?_eq_none hrun]
      rfl
    have hrunStays : cutContentAll ranges [⟨number, offset, .run run⟩] = [.run run] :=
      congrArg contentOf (List.filter_cons_of_pos (by simp [Located.isWithin]))
    rw [cutRunsAll_other hrun, runsAtoms_cons, atoms_of_text?_eq_none hrun, ih, hlocate,
      cutContentAll_append, hrunStays]

end Several

/-! ## Paragraphs -/

namespace Paragraph

variable {p : Paragraph} {r : ByteRange}

/-- Cutting out a range that comes before others, after them, is cutting out all of them. -/
theorem cutAll_cons {ranges : List ByteRange} (h : r.Fits (runsText p.runs))
    (hlater : ∀ q ∈ ranges, r.stop ≤ q.start) :
    p.cutAll (r :: ranges) = (p.cutAll ranges).cut r.start r.stop := by
  rw [cut, cutAll, cutAll, cutRuns_cutRunsAll hlater h.start.noneAcross h.stop.noneAcross]

theorem cutAll_nil (p : Paragraph) : p.cutAll [] = p := by
  have hruns : ∀ offset runs, cutRunsAll [] offset runs = runs := by
    intro offset runs
    induction runs using runs_induction generalizing offset with
    | nil => rfl
    | text s style runs ih => rw [cutRunsAll_text, ih]; rfl
    | other run runs hrun ih => rw [cutRunsAll_other hrun, ih]
  rw [cutAll, hruns]

/-- Cutting out a single range is cutting out all ranges of a list that holds no other one. -/
theorem cutAll_singleton (h : r.Fits (runsText p.runs)) :
    p.cutAll [r] = p.cut r.start r.stop := by
  rw [cutAll_cons h (List.forall_mem_nil _), cutAll_nil]

/-- A range still fits once a later one is cut out. -/
theorem fits_cut {later : ByteRange} (h : r.Fits (runsText p.runs))
    (hlater : later.Fits (runsText p.runs)) (hle : r.stop ≤ later.start) :
    r.Fits (runsText (p.cut later.start later.stop).runs) := by
  obtain ⟨before, middle, after, htext, hbefore, hmiddle⟩ := hlater.exists_parts
  have hcut : runsText (p.cut later.start later.stop).runs = before ++ after := by
    rw [Text.byteLength_append, hbefore] at hmiddle
    exact runsText_cut htext hbefore.symm hmiddle.symm
  rw [htext, List.append_assoc] at h
  have hle' := r.le
  rw [hcut]
  exact ⟨h.start.of_append (by omega) after, h.stop.of_append (by omega) after⟩

/-- A range that fits can be cut out of a paragraph. The properties stay, the text is what stands
before and behind the range, and the content is what was there but for the characters of the range,
each with its formatting. Cutting out a later range first and then this one is cutting out both of
them at once. -/
theorem cut_exact (h : r.Fits (runsText p.runs)) :
    p.cut? r.start r.stop = some (p.cut r.start r.stop) ∧
      (p.cut r.start r.stop).properties = p.properties ∧
      (∃ before middle after, runsText p.runs = before ++ middle ++ after ∧
        byteLength before = r.start ∧ byteLength (before ++ middle) = r.stop ∧
        runsText (p.cut r.start r.stop).runs = before ++ after) ∧
      runsAtoms (p.cut r.start r.stop).runs =
        cutContent r.start r.stop (locate 0 0 (runsAtoms p.runs)) ∧
      p.cutAll [r] = p.cut r.start r.stop ∧
      (∀ ranges, runsAtoms (p.cutAll ranges).runs =
        cutContentAll ranges (locate 0 0 (runsAtoms p.runs))) ∧
      ∀ later : ByteRange, later.Fits (runsText p.runs) → r.stop ≤ later.start →
        (p.cut? later.start later.stop).bind (·.cut? r.start r.stop) =
          some (p.cutAll [r, later]) := by
  refine ⟨cut?_eq h, rfl, ?_, ?_, cutAll_singleton h, ?_, fun later hlater hle => ?_⟩
  · obtain ⟨before, middle, after, htext, hbefore, hmiddle⟩ := h.exists_parts
    refine ⟨before, middle, after, htext, hbefore, hmiddle, ?_⟩
    rw [Text.byteLength_append, hbefore] at hmiddle
    exact runsText_cut htext hbefore.symm hmiddle.symm
  · exact runsAtoms_cutRuns r.le 0 h.start.noneAcross h.stop.noneAcross
  · exact fun ranges => runsAtoms_cutRunsAll 0 ranges 0 p.runs
  · rw [cut?_eq hlater, Option.bind_some, cut?_eq (fits_cut h hlater hle),
      cutAll_cons h (List.forall_mem_singleton.2 hle), cutAll_singleton hlater]

/-- A marked paragraph, its opening marker in two runs with a line break and an empty run in
between. -/
def markedLine : Paragraph where
  runs := [.ofText "ab\x7b\x7b#ea", ⟨{}, .lineBreak⟩, .ofText "",
    .ofText "ch x\x7d\x7dcd" { bold := true }, .ofText "\x7b\x7b/each\x7d\x7d"]

/-- The markers are cut out, the text around them and the line break stay. -/
theorem markedLine_cut :
    runsText markedLine.runs =
        "ab\x7b\x7b#each x\x7d\x7dcd\x7b\x7b/each\x7d\x7d".toList ∧
      (markedLine.cut? 15 24).bind (·.cut? 2 13) =
        some { runs := [.ofText "ab", ⟨{}, .lineBreak⟩, .ofText "cd" { bold := true }] } := by
  have hopener : ByteRange.Fits ⟨2, 13, by decide⟩ (runsText markedLine.runs) :=
    ⟨by decide, by decide⟩
  have hcloser : ByteRange.Fits ⟨15, 24, by decide⟩ (runsText markedLine.runs) :=
    ⟨by decide, by decide⟩
  obtain ⟨-, -, -, -, -, -, htwice⟩ := cut_exact hopener
  have hall := htwice ⟨15, 24, by decide⟩ hcloser (by decide)
  exact ⟨by decide, hall.trans (by decide)⟩

end Paragraph

end StyledTemplate
