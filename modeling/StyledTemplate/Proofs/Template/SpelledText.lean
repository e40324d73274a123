import Mathlib.Data.List.TakeDrop
import Mathlib.Data.List.TakeWhile
import StyledTemplate.Proofs.Block.Backed
import StyledTemplate.Proofs.Block.Spelling
import StyledTemplate.Proofs.Directive.Tiling
import StyledTemplate.Proofs.Outcome
import StyledTemplate.Proofs.Template.ReadParagraph
import StyledTemplate.Proofs.Text.Slices

/-!
# Parsing literal text that is spelled out

The literal text between two directives gives one block for each run that it comes from. If the runs
are spelled out, it gives one block for each character, and these are what the other blocks are
spelled out to (`pushText_spell`).

Runs without text make the difference. They go in front of the first piece of text that starts
behind them, and a text run without characters is such a piece as well. So some of them are pushed
earlier than if the runs are spelled out; but nothing comes between, and the order stays the same.
-/

namespace StyledTemplate

open Text (byteLength sliceBytes)

/-! ## Cutting at the ends of a piece -/

/-- An offset between two characters of a text, or at one of its ends. -/
def IsBoundary (n : Nat) (text : List Char) : Prop :=
  ∃ before after, text = before ++ after ∧ byteLength before = n

namespace Token.Covers

variable {token : Token} {text before part after : List Char}

theorem isBoundary_start (h : token.Covers text before part after) :
    IsBoundary token.start text :=
  ⟨before, part ++ after, by rw [h.text_eq, List.append_assoc], h.start.symm⟩

theorem isBoundary_stop (h : token.Covers text before part after) : IsBoundary token.stop text :=
  ⟨before ++ part, after, h.text_eq, by rw [h.stop, h.start, Text.byteLength_append]⟩

end Token.Covers

theorem exists_middle {as bs cs ds : List Char} (h : as ++ bs = cs ++ ds)
    (hle : byteLength as ≤ byteLength cs) : ∃ middle, cs = as ++ middle ∧ bs = middle ++ ds := by
  rcases List.append_eq_append_iff.1 h with ⟨middle, hcs, hbs⟩ | ⟨middle, has, hds⟩
  · exact ⟨middle, hcs, hbs⟩
  · rw [has, Text.byteLength_append] at hle
    have hempty : byteLength middle = 0 := by omega
    obtain rfl := eq_nil_of_byteLength_eq_zero hempty
    rw [List.append_nil] at has
    rw [List.nil_append] at hds
    exact ⟨[], by rw [has, List.append_nil], by rw [hds, List.nil_append]⟩

/-- A part of a text can be cut in two at a boundary within it. -/
theorem IsBoundary.exists_cut {n : Nat} {pre cs post : List Char}
    (h : IsBoundary n (pre ++ cs ++ post)) (hpre : byteLength pre ≤ n)
    (hpost : n ≤ byteLength (pre ++ cs)) :
    ∃ left right, cs = left ++ right ∧ byteLength (pre ++ left) = n := by
  obtain ⟨before, after, htext, rfl⟩ := h
  obtain ⟨tail, hcs, -⟩ := exists_middle htext.symm hpost
  obtain ⟨left, hbefore, hright⟩ := exists_middle hcs hpre
  exact ⟨left, tail, hright, by rw [hbefore]⟩

theorem IsBoundary.max {m n : Nat} {text : List Char} (hm : IsBoundary m text)
    (hn : IsBoundary n text) : IsBoundary (max m n) text := by
  rcases Nat.le_total m n with hle | hle
  · rwa [Nat.max_eq_right hle]
  · rwa [Nat.max_eq_left hle]

theorem IsBoundary.min {m n : Nat} {text : List Char} (hm : IsBoundary m text)
    (hn : IsBoundary n text) : IsBoundary (min m n) text := by
  rcases Nat.le_total m n with hle | hle
  · rwa [Nat.min_eq_left hle]
  · rwa [Nat.min_eq_right hle]

/-- The bytes between two boundaries within a part of a text. -/
theorem exists_between {first last : Nat} {pre cs post : List Char}
    (hfirst : IsBoundary first (pre ++ cs ++ post)) (hlast : IsBoundary last (pre ++ cs ++ post))
    (hpre : byteLength pre ≤ first) (hlt : first < last) (hpost : last ≤ byteLength (pre ++ cs)) :
    ∃ left middle right, cs = left ++ middle ++ right ∧ middle ≠ [] ∧
      byteLength (pre ++ left) = first ∧ byteLength (pre ++ left ++ middle) = last := by
  obtain ⟨left, tail, rfl, rfl⟩ := hfirst.exists_cut hpre (by omega)
  rw [← List.append_assoc pre] at hlast hpost
  obtain ⟨middle, right, rfl, rfl⟩ := hlast.exists_cut (by omega) hpost
  refine ⟨left, middle, right, (List.append_assoc _ _ _).symm, ?_, rfl, rfl⟩
  rintro rfl
  rw [List.append_nil] at hlt
  exact Nat.lt_irrefl _ hlt

/-- The middle of a part of a text is what it has in common with the bytes from `start` to `stop`;
`pre` is what stands in front of the part. -/
structure Cut (start stop : Nat) (pre cs left middle right : List Char) : Prop where
  /-- The part falls into three. -/
  parts : cs = left ++ middle ++ right
  /-- They have something in common. -/
  middle_ne : middle ≠ []
  /-- The middle starts where the later of the two does. -/
  first : byteLength (pre ++ left) = max (byteLength pre) start
  /-- The middle ends where the earlier of the two does. -/
  last : byteLength (pre ++ left ++ middle) = min (byteLength pre + byteLength cs) stop

section Cut

variable {text pre cs post left middle right : List Char} {start stop : Nat}

theorem exists_cut (hstart : IsBoundary start text) (hstop : IsBoundary stop text)
    (hlt : start < stop) (htext : text = pre ++ cs ++ post) (hcs : cs ≠ [])
    (hin : ¬(byteLength pre + byteLength cs ≤ start ∨ stop ≤ byteLength pre)) :
    ∃ left middle right, Cut start stop pre cs left middle right := by
  have hpos := byteLength_pos hcs
  have hlength : byteLength (pre ++ cs) = byteLength pre + byteLength cs :=
    Text.byteLength_append _ _
  have hpre : IsBoundary (byteLength pre) text :=
    ⟨pre, cs ++ post, by rw [htext, List.append_assoc], rfl⟩
  have hend : IsBoundary (byteLength (pre ++ cs)) text := ⟨pre ++ cs, post, htext, rfl⟩
  have hfirst := hpre.max hstart
  have hlast := hend.min hstop
  rw [htext] at hfirst hlast
  obtain ⟨left, middle, right, hparts, hmiddle, hleft, hmid⟩ :=
    exists_between hfirst hlast (Nat.le_max_left _ _) (by omega) (Nat.min_le_left _ _)
  rw [hlength] at hmid
  exact ⟨left, middle, right, hparts, hmiddle, hleft, hmid⟩

namespace Cut

variable (h : Cut start stop pre cs left middle right)

include h

theorem text_eq (htext : text = pre ++ cs ++ post) :
    text = pre ++ left ++ middle ++ (right ++ post) := by
  rw [htext, h.parts]
  simp only [List.append_assoc]

theorem sliceBytes_eq (htext : text = pre ++ cs ++ post) :
    sliceBytes (max (byteLength pre) start) (min (byteLength pre + byteLength cs) stop) text =
      middle := by
  rw [← h.first, ← h.last, h.text_eq htext, sliceBytes_append]

theorem length_eq : byteLength (pre ++ left ++ middle) + byteLength right =
    byteLength pre + byteLength cs := by
  rw [h.parts]
  simp only [Text.byteLength_append]
  omega

theorem left_outside :
    left = [] ∨ byteLength pre + byteLength left ≤ start ∨ stop ≤ byteLength pre := by
  by_cases hnil : left = []
  · exact .inl hnil
  · have hpos := byteLength_pos hnil
    have hfirst := h.first
    rw [Text.byteLength_append] at hfirst
    exact .inr (.inl (by omega))

theorem right_outside :
    right = [] ∨ byteLength (pre ++ left ++ middle) + byteLength right ≤ start ∨
      stop ≤ byteLength (pre ++ left ++ middle) := by
  by_cases hnil : right = []
  · exact .inl hnil
  · have hpos := byteLength_pos hnil
    have hlast := h.last
    have hlength := h.length_eq
    exact .inr (.inr (by omega))

end Cut

end Cut

/-! ## Characters -/

section Characters

variable {text : List Char} {start stop : Nat}

theorem pushText_outside {span : Span} (h : span.stop ≤ start ∨ stop ≤ span.start) (b : Builder)
    (anchors : List Anchor) (spans : List Span) :
    pushText text start stop b anchors (span :: spans) =
      pushText text start stop b anchors spans := by
  rw [pushText, if_pos h]

theorem pushText_inside (span : Span) (h : ¬(span.stop ≤ start ∨ stop ≤ span.start)) (b : Builder)
    (anchors : List Anchor) (spans : List Span) {piece : List Char}
    (hpiece : sliceBytes (max span.start start) (min span.stop stop) text = piece) :
    pushText text start stop b anchors (span :: spans) =
      pushText text start stop
        ((b.pushRuns ((anchors.takeWhile (·.offset ≤ max span.start start)).map Anchor.run)).push
          (.text (String.ofList piece) span.style))
        (anchors.dropWhile (·.offset ≤ max span.start start)) spans := by
  rw [pushText, if_neg h]
  dsimp only
  rw [List.span_eq_takeWhile_dropWhile, hpiece]

theorem pushText_chars_outside {offset : Nat} {cs : List Char}
    (h : cs = [] ∨ offset + byteLength cs ≤ start ∨ stop ≤ offset) (b : Builder)
    (anchors : List Anchor) (style : RunProperties) (runs : List Run) :
    pushText text start stop b anchors (spansFrom offset (spellText cs style ++ runs)) =
      pushText text start stop b anchors (spansFrom (offset + byteLength cs) runs) := by
  induction cs generalizing offset with
  | nil => rfl
  | cons c cs ih =>
    have hout : offset + byteLength (c :: cs) ≤ start ∨ stop ≤ offset :=
      h.resolve_left (List.cons_ne_nil _ _)
    rw [Text.byteLength_cons] at hout ⊢
    have hone : byteLength (String.ofList [c]).toList = c.utf8Size := by simp
    rw [spellText_cons, List.cons_append, spansFrom_text, hone,
      pushText_outside (by dsimp only; omega), ih (.inr (by omega)), Nat.add_assoc]

theorem Block.spell_text (text : String) (style : RunProperties) :
    (Block.text text style).spell =
      text.toList.map fun c => .text (String.ofList [c]) style := by rw [Block.spell]

/-- A character lets the runs without text in front of it go first. -/
theorem pushText_char {pre post : List Char} {c : Char} (htext : text = pre ++ [c] ++ post)
    (hstart : start ≤ byteLength pre) (hstop : byteLength (pre ++ [c]) ≤ stop) (b : Builder)
    (anchors : List Anchor) (style : RunProperties) (spans : List Span) :
    pushText text start stop b anchors
        (⟨byteLength pre, byteLength (pre ++ [c]), style⟩ :: spans) =
      pushText text start stop
        ((b.pushRuns ((anchors.takeWhile (·.offset ≤ byteLength pre)).map Anchor.run)).push
          (.text (String.ofList [c]) style))
        (anchors.dropWhile (·.offset ≤ byteLength pre)) spans := by
  have hpos := c.utf8Size_pos
  have hlength : byteLength (pre ++ [c]) = byteLength pre + c.utf8Size := by simp
  have hfirst : max (byteLength pre) start = byteLength pre := Nat.max_eq_left hstart
  have hlast : min (byteLength (pre ++ [c])) stop = byteLength (pre ++ [c]) := Nat.min_eq_left hstop
  have hpiece : sliceBytes (max (byteLength pre) start)
      (min (byteLength (pre ++ [c])) stop) text = [c] := by
    rw [hfirst, hlast, htext, sliceBytes_append]
  rw [pushText_inside _ (by dsimp only; omega) b anchors _ hpiece]
  dsimp only
  rw [hfirst]

/-- The runs without text that are due are those in front of the first one that is not. -/
theorem takeWhile_append_of_late {due : Anchor → Bool} {now later : List Anchor}
    (hnow : ∀ a ∈ now, due a = true) (hlater : ∀ a ∈ later.head?, due a = false) :
    (now ++ later).takeWhile due = now ∧ (now ++ later).dropWhile due = later := by
  rw [List.takeWhile_append_of_pos hnow, List.dropWhile_append_of_pos hnow]
  cases later with
  | nil => simp
  | cons a later =>
    have hlate : due a = false := hlater a rfl
    simp [hlate]

theorem takeWhile_of_late {n : Nat} {now later : List Anchor} (hnow : ∀ a ∈ now, a.offset ≤ n)
    (hlater : ∀ a ∈ later.head?, n < a.offset) :
    (now ++ later).takeWhile (·.offset ≤ n) = now ∧
      (now ++ later).dropWhile (·.offset ≤ n) = later :=
  takeWhile_append_of_late (fun a ha => decide_eq_true (hnow a ha))
    fun a ha => decide_eq_false (Nat.not_le_of_lt (hlater a ha))

/-- Characters within the bytes are pushed one after the other, behind the runs without text that
are due before the first one. -/
theorem pushText_chars_inside {pre cs post : List Char} (htext : text = pre ++ cs ++ post)
    (hstart : start ≤ byteLength pre) (hstop : byteLength (pre ++ cs) ≤ stop) (b : Builder)
    {now later : List Anchor} (hnil : cs = [] → now = [])
    (hnow : ∀ a ∈ now, a.offset ≤ byteLength pre)
    (hlater : ∀ a ∈ later.head?, byteLength (pre ++ cs) ≤ a.offset)
    (style : RunProperties) (runs : List Run) :
    pushText text start stop b (now ++ later)
        (spansFrom (byteLength pre) (spellText cs style ++ runs)) =
      pushText text start stop
        ((b.pushRuns (now.map Anchor.run)).pushAll (Block.text (String.ofList cs) style).spell)
        later (spansFrom (byteLength (pre ++ cs)) runs) := by
  induction cs generalizing pre b now with
  | nil =>
    rw [hnil rfl, List.append_nil, Block.spell_text]
    rfl
  | cons c cs ih =>
    have hsplit : pre ++ c :: cs = pre ++ [c] ++ cs := by simp
    rw [hsplit] at htext hstop hlater ⊢
    have hpos := c.utf8Size_pos
    have hone : byteLength (pre ++ [c]) = byteLength pre + c.utf8Size := by simp
    have hchar : byteLength (String.ofList [c]).toList = c.utf8Size := by simp
    have hall : byteLength (pre ++ [c] ++ cs) = byteLength (pre ++ [c]) + byteLength cs :=
      Text.byteLength_append _ _
    obtain ⟨htake, hdrop⟩ := takeWhile_of_late hnow fun a ha => by
      have := hlater a ha
      omega
    have hnone : ∀ a ∈ ([] : List Anchor), a.offset ≤ byteLength (pre ++ [c]) := by simp
    have hrest := ih htext (by omega) hstop
      ((b.pushRuns (now.map Anchor.run)).push (.text (String.ofList [c]) style)) (fun _ => rfl)
      hnone hlater
    rw [spellText_cons, List.cons_append, spansFrom_text, hchar, ← hone,
      pushText_char (by rw [htext, List.append_assoc]) hstart (by omega), htake, hdrop]
    refine hrest.trans ?_
    rw [Block.spell_text, Block.spell_text, String.toList_ofList, String.toList_ofList]
    rfl

/-- Of the characters of a run, those among the bytes are pushed. -/
theorem pushText_cut {pre cs post left middle right : List Char}
    (h : Cut start stop pre cs left middle right) (htext : text = pre ++ cs ++ post) (b : Builder)
    {now later : List Anchor} (hnow : ∀ a ∈ now, a.offset ≤ max (byteLength pre) start)
    (hlater : ∀ a ∈ later.head?, byteLength pre + byteLength cs ≤ a.offset)
    (style : RunProperties) (runs : List Run) :
    pushText text start stop b (now ++ later)
        (spansFrom (byteLength pre) (spellText cs style ++ runs)) =
      pushText text start stop
        ((b.pushRuns (now.map Anchor.run)).pushAll (Block.text (String.ofList middle) style).spell)
        later (spansFrom (byteLength pre + byteLength cs) runs) := by
  have hlength := h.length_eq
  have hspell : spellText cs style =
      spellText left style ++ (spellText middle style ++ spellText right style) := by
    rw [h.parts, spellText_append, spellText_append, List.append_assoc]
  have hstart : start ≤ byteLength (pre ++ left) := by
    rw [h.first]
    exact Nat.le_max_right _ _
  have hstop : byteLength (pre ++ left ++ middle) ≤ stop := by
    rw [h.last]
    exact Nat.min_le_right _ _
  rw [← h.first] at hnow
  have hlater' : ∀ a ∈ later.head?, byteLength (pre ++ left ++ middle) ≤ a.offset := by
    intro a ha
    have hbehind := hlater a ha
    omega
  rw [hspell, List.append_assoc, List.append_assoc, pushText_chars_outside h.left_outside,
    ← Text.byteLength_append, pushText_chars_inside (h.text_eq htext) hstart hstop b
      (fun hnil => absurd hnil h.middle_ne) hnow hlater',
    pushText_chars_outside h.right_outside, hlength]

end Characters

/-! ## Runs -/

theorem Builder.pushRuns_append (b : Builder) (as bs : List Run) :
    b.pushRuns (as ++ bs) = (b.pushRuns as).pushRuns bs := List.foldl_append

theorem late_of_dropWhile (n : Nat) (anchors : List Anchor) :
    ∀ a ∈ (anchors.dropWhile (·.offset ≤ n)).head?, n < a.offset := by
  intro a ha
  have hhead := List.head?_dropWhile_not (fun a : Anchor => decide (a.offset ≤ n)) anchors
  rw [Option.mem_def.1 ha] at hhead
  simpa using hhead

/-- How far the literal text from `start` to `stop` has been pushed before the runs at `offset`: to
`b` for the runs as they are, and to `b'` for the runs spelled out. The runs without text in `ahead`
have been pushed to `b` only, because of a text run without characters, and `anchors` have not been
pushed to either. -/
structure Pushing (start stop offset : Nat) (runs : List Run) (ahead anchors : List Anchor)
    (b b' : Builder) : Prop where
  /-- The builders differ in the runs that have been pushed ahead. -/
  spell : b.spell = b'.pushRuns (ahead.map Anchor.run)
  /-- Those stand before the runs that are left. -/
  passed : ∀ a ∈ ahead, a.offset ≤ offset
  /-- There are some only in the midst of the literal text. -/
  midst : ahead ≠ [] → start < offset ∧ offset < stop
  /-- What has not been pushed has been passed or is still to come. -/
  places : ∀ a ∈ anchors, a.offset ≤ offset ∨ a ∈ anchorsFrom offset runs
  /-- It has no text. -/
  other : ∀ a ∈ anchors, a.run.text? = none
  /-- What has been built is backed. -/
  backed : b.IsBacked
  /-- In the midst of the literal text, the builder is at literal text. -/
  atLiteral : start < offset → offset < stop → b.atLiteral = true

namespace Pushing

variable {start stop offset : Nat} {run : Run} {runs : List Run} {ahead anchors : List Anchor}
  {b b' : Builder} {s : String} {style : RunProperties}

theorem skip_other (h : Pushing start stop offset (run :: runs) ahead anchors b b')
    (hrun : run.text? = none) : Pushing start stop offset runs ahead anchors b b' where
  spell := h.spell
  passed := h.passed
  midst := h.midst
  places := by
    intro a ha
    rcases h.places a ha with hle | hmem
    · exact .inl hle
    · rw [anchorsFrom_other hrun, List.mem_cons] at hmem
      rcases hmem with rfl | hmem
      · exact .inl (Nat.le_refl _)
      · exact .inr hmem
  other := h.other
  backed := h.backed
  atLiteral := h.atLiteral

theorem skip_outside (h : Pushing start stop offset (.ofText s style :: runs) ahead anchors b b')
    (hout : offset + byteLength s.toList ≤ start ∨ stop ≤ offset) :
    Pushing start stop (offset + byteLength s.toList) runs ahead anchors b b' where
  spell := h.spell
  passed a ha := Nat.le_trans (h.passed a ha) (Nat.le_add_right _ _)
  midst hne := by
    have := h.midst hne
    omega
  places := by
    intro a ha
    rcases h.places a ha with hle | hmem
    · exact .inl (Nat.le_trans hle (Nat.le_add_right _ _))
    · exact .inr hmem
  other := h.other
  backed := h.backed
  atLiteral hstart hstop := by omega

theorem now_other (h : Pushing start stop offset runs ahead anchors b b') (first : Nat) :
    ∀ run ∈ (anchors.takeWhile (·.offset ≤ first)).map Anchor.run, run.text? = none := by
  rw [List.forall_mem_map]
  intro a ha
  exact h.other a ((List.takeWhile_prefix _).subset ha)

/-- The runs without text that are left come behind the text run. -/
theorem later_behind (h : Pushing start stop offset (.ofText s style :: runs) ahead anchors b b')
    {first : Nat} (hfirst : offset ≤ first) {a : Anchor}
    (ha : a ∈ (anchors.dropWhile (·.offset ≤ first)).head?) :
    offset + byteLength s.toList ≤ a.offset := by
  have hlate := late_of_dropWhile first anchors a ha
  rcases h.places a ((List.dropWhile_suffix _).subset (List.mem_of_mem_head? ha)) with hle | hmem
  · omega
  · rw [anchorsFrom_text] at hmem
    exact (behind_of_mem_anchorsFrom hmem).1

/-- What is pushed for a text run, once the runs without text in front of it have been. -/
theorem spell_piece (h : Pushing start stop offset runs ahead anchors b b') (first : Nat)
    (piece : Block) :
    ((b.pushRuns ((anchors.takeWhile (·.offset ≤ first)).map Anchor.run)).push piece).spell =
      (b'.pushRuns ((ahead ++ anchors.takeWhile (·.offset ≤ first)).map Anchor.run)).pushAll
        piece.spell := by
  rw [Builder.spell_push, Builder.spell_pushRuns b (h.now_other first), h.spell,
    ← Builder.pushRuns_append, ← List.map_append]

/-- A text run without characters in the midst of the bytes. -/
theorem push_empty (h : Pushing start stop offset (.ofText "" style :: runs) ahead anchors b b')
    (hstart : start < offset) (hstop : offset < stop) :
    Pushing start stop offset runs (ahead ++ anchors.takeWhile (·.offset ≤ offset))
      (anchors.dropWhile (·.offset ≤ offset))
      ((b.pushRuns ((anchors.takeWhile (·.offset ≤ offset)).map Anchor.run)).push (.text "" style))
      b' where
  spell := by
    rw [h.spell_piece, Block.spell_text]
    rfl
  passed := by
    intro a ha
    rcases List.mem_append.1 ha with ha | ha
    · exact h.passed a ha
    · simpa using List.mem_takeWhile_imp ha
  midst _ := ⟨hstart, hstop⟩
  places a ha := h.places a ((List.dropWhile_suffix _).subset ha)
  other a ha := h.other a ((List.dropWhile_suffix _).subset ha)
  backed := by
    have hliteral := Builder.atLiteral_pushRuns (h.atLiteral hstart hstop)
      ((anchors.takeWhile (·.offset ≤ offset)).map Anchor.run)
    exact (h.backed.pushRuns (h.now_other offset)).pushText _ _ fun _ => hliteral
  atLiteral _ _ := Builder.atLiteral_push _ _

/-- The part of a text run that is among the bytes. -/
theorem push_piece (h : Pushing start stop offset (.ofText s style :: runs) ahead anchors b b')
    (first : Nat) {piece : List Char} (hpiece : piece ≠ []) :
    Pushing start stop (offset + byteLength s.toList) runs []
      (anchors.dropWhile (·.offset ≤ first))
      ((b.pushRuns ((anchors.takeWhile (·.offset ≤ first)).map Anchor.run)).push
        (.text (String.ofList piece) style))
      ((b'.pushRuns ((ahead ++ anchors.takeWhile (·.offset ≤ first)).map Anchor.run)).pushAll
        (Block.text (String.ofList piece) style).spell) where
  spell := h.spell_piece first _
  passed := by simp
  midst := by simp
  places := by
    intro a ha
    rcases h.places a ((List.dropWhile_suffix _).subset ha) with hle | hmem
    · exact .inl (Nat.le_trans hle (Nat.le_add_right _ _))
    · exact .inr hmem
  other a ha := h.other a ((List.dropWhile_suffix _).subset ha)
  backed := by
    refine (h.backed.pushRuns (h.now_other first)).pushText _ _ fun hempty => ?_
    exact absurd (by simpa using congrArg String.toList hempty) hpiece
  atLiteral _ _ := Builder.atLiteral_push _ _

end Pushing

section Text

variable {text : List Char} {start stop : Nat}

/-- One run further, both builders have been given what comes of the run: the first one of the run
as it is, and the second one of the run spelled out. -/
def PushesOn (text : List Char) (start stop offset next : Nat) (run : Run) (runs : List Run)
    (ahead anchors : List Anchor) (b b' : Builder) : Prop :=
  ∃ ahead' later c c', Pushing start stop next runs ahead' later c c' ∧ later ⊆ anchors ∧
    pushText text start stop b anchors (spansFrom offset (run :: runs)) =
      pushText text start stop c later (spansFrom next runs) ∧
    ∀ spelled, pushText text start stop b' (ahead ++ anchors)
        (spansFrom offset (run.spell ++ spelled)) =
      pushText text start stop c' (ahead' ++ later) (spansFrom next spelled)

section Step

variable {offset : Nat} {run : Run} {runs : List Run} {ahead anchors : List Anchor}
  {b b' : Builder} {s : String} {style : RunProperties}

theorem pushesOn_other (h : Pushing start stop offset (run :: runs) ahead anchors b b')
    (hrun : run.text? = none) :
    PushesOn text start stop offset offset run runs ahead anchors b b' := by
  refine ⟨ahead, anchors, b, b', h.skip_other hrun, List.Subset.refl _, ?_, fun spelled => ?_⟩
  · rw [spansFrom_other hrun]
  · rw [Run.spell_of_text?_eq_none hrun, List.singleton_append, spansFrom_other hrun]

theorem pushesOn_outside
    (h : Pushing start stop offset (.ofText s style :: runs) ahead anchors b b')
    (hout : offset + byteLength s.toList ≤ start ∨ stop ≤ offset) :
    PushesOn text start stop offset (offset + byteLength s.toList) (.ofText s style) runs ahead
      anchors b b' := by
  refine ⟨ahead, anchors, b, b', h.skip_outside hout, List.Subset.refl _, ?_, fun spelled => ?_⟩
  · rw [spansFrom_text, pushText_outside hout]
  · rw [Run.spell_ofText, pushText_chars_outside (.inr hout)]

theorem pushesOn_empty
    (h : Pushing start stop offset (.ofText "" style :: runs) ahead anchors b b')
    (hstart : start < offset) (hstop : offset < stop) :
    PushesOn text start stop offset offset (.ofText "" style) runs ahead anchors b b' := by
  have hin : ¬(offset ≤ start ∨ stop ≤ offset) := by omega
  have hmax : max offset start = offset := Nat.max_eq_left (Nat.le_of_lt hstart)
  have hpiece : sliceBytes (max offset start) (min offset stop) text = [] := by
    have hzero : min offset stop - max offset start = 0 := by omega
    rw [sliceBytes, hzero, Text.takeBytes_zero]
  refine ⟨_, _, _, _, h.push_empty hstart hstop, (List.dropWhile_suffix _).subset, ?_,
    fun spelled => ?_⟩
  · have hpush := pushText_inside ⟨offset, offset, style⟩ hin b anchors
      (spansFrom offset runs) hpiece
    rw [hmax] at hpush
    exact hpush
  · rw [List.append_assoc, List.takeWhile_append_dropWhile, Run.spell_ofText]
    rfl

theorem pushesOn_inside {pre post left middle right : List Char}
    (h : Pushing start stop (byteLength pre) (.ofText s style :: runs) ahead anchors b b')
    (hcut : Cut start stop pre s.toList left middle right)
    (htext : text = pre ++ s.toList ++ post)
    (hin : ¬(byteLength pre + byteLength s.toList ≤ start ∨ stop ≤ byteLength pre)) :
    PushesOn text start stop (byteLength pre) (byteLength pre + byteLength s.toList)
      (.ofText s style) runs ahead anchors b b' := by
  have hnow : ∀ a ∈ ahead ++ anchors.takeWhile (·.offset ≤ max (byteLength pre) start),
      a.offset ≤ max (byteLength pre) start := by
    intro a ha
    rcases List.mem_append.1 ha with ha | ha
    · exact Nat.le_trans (h.passed a ha) (Nat.le_max_left _ _)
    · simpa using List.mem_takeWhile_imp ha
  have hlater : ∀ a ∈ (anchors.dropWhile (·.offset ≤ max (byteLength pre) start)).head?,
      byteLength pre + byteLength s.toList ≤ a.offset :=
    fun a ha => h.later_behind (Nat.le_max_left _ _) ha
  refine ⟨[], _, _, _, h.push_piece (max (byteLength pre) start) hcut.middle_ne,
    (List.dropWhile_suffix _).subset, ?_, fun spelled => ?_⟩
  · rw [spansFrom_text, pushText_inside _ hin b anchors _ (hcut.sliceBytes_eq htext)]
  · have hchars := pushText_cut hcut htext b' hnow hlater style spelled
    rw [List.append_assoc, List.takeWhile_append_dropWhile] at hchars
    rw [Run.spell_ofText]
    exact hchars

end Step

/-- A text run is outside of the bytes, or without characters, or has something in common with
them. -/
theorem pushesOn_text (hstart : IsBoundary start text) (hstop : IsBoundary stop text)
    (hlt : start < stop) {pre post : List Char} {s : String} {style : RunProperties}
    {runs : List Run} {ahead anchors : List Anchor} {b b' : Builder}
    (h : Pushing start stop (byteLength pre) (.ofText s style :: runs) ahead anchors b b')
    (htext : text = pre ++ s.toList ++ post) :
    PushesOn text start stop (byteLength pre) (byteLength (pre ++ s.toList)) (.ofText s style) runs
      ahead anchors b b' := by
  rw [Text.byteLength_append]
  by_cases hout : byteLength pre + byteLength s.toList ≤ start ∨ stop ≤ byteLength pre
  · exact pushesOn_outside h hout
  · by_cases hs : s.toList = []
    · obtain rfl : s = "" := by simpa using hs
      have hmidst : start < byteLength pre ∧ byteLength pre < stop := by
        rw [hs, Text.byteLength_nil] at hout
        omega
      exact pushesOn_empty h hmidst.1 hmidst.2
    · obtain ⟨left, middle, right, hcut⟩ := exists_cut hstart hstop hlt htext hs hout
      exact pushesOn_inside h hcut htext hout

/-- From wherever the two have come, they end alike. -/
theorem exists_pushText_from (hstart : IsBoundary start text) (hstop : IsBoundary stop text)
    (hlt : start < stop) {pre : List Char} {runs : List Run} {ahead anchors : List Anchor}
    {b b' : Builder} (htext : text = pre ++ runsText runs)
    (h : Pushing start stop (byteLength pre) runs ahead anchors b b') :
    ∃ later last, pushText text start stop b anchors (spansFrom (byteLength pre) runs) =
        (last, later) ∧
      pushText text start stop b' (ahead ++ anchors) (spansFrom (byteLength pre) (spellRuns runs)) =
        (last.spell, later) ∧
      last.IsBacked ∧ later ⊆ anchors := by
  induction runs using runs_induction generalizing pre ahead anchors b b' with
  | nil =>
    -- Nothing is ahead behind the last byte.
    have hnone : ahead = [] := by
      by_contra hne
      obtain ⟨before, after, hcut, rfl⟩ := hstop
      have hwhole : text = pre := htext.trans (List.append_nil pre)
      have hlast := (h.midst hne).2
      rw [← hwhole, hcut, Text.byteLength_append] at hlast
      omega
    subst hnone
    refine ⟨anchors, b, rfl, ?_, h.backed, List.Subset.refl _⟩
    rw [h.spell]
    rfl
  | text s style runs ih =>
    have htext' : text = pre ++ s.toList ++ runsText runs := by
      rw [htext, runsText_cons, List.append_assoc]
      rfl
    obtain ⟨ahead', mid, c, c', hnext, hmid, hone, hspelled⟩ :=
      pushesOn_text hstart hstop hlt h htext'
    obtain ⟨later, last, hrest, hrest', hbacked, hlater⟩ := ih htext' hnext
    rw [spellRuns_cons]
    exact ⟨later, last, hone.trans hrest, (hspelled _).trans hrest', hbacked,
      List.Subset.trans hlater hmid⟩
  | other run runs hrun ih =>
    have htext' : text = pre ++ runsText runs := by
      rw [htext, runsText_cons, hrun]
      rfl
    obtain ⟨ahead', mid, c, c', hnext, hmid, hone, hspelled⟩ := pushesOn_other h hrun
    obtain ⟨later, last, hrest, hrest', hbacked, hlater⟩ := ih htext' hnext
    rw [spellRuns_cons]
    exact ⟨later, last, hone.trans hrest, (hspelled _).trans hrest', hbacked,
      List.Subset.trans hlater hmid⟩

/-- A piece of literal text gives blocks that are spelled out to those for the runs spelled out. -/
theorem exists_pushText {runs : List Run} {token : Token} {before part after : List Char}
    (hcovers : token.Covers (runsText runs) before part after) {b : Builder} (hb : b.IsBacked)
    {anchors : List Anchor} (hanchors : anchors ⊆ anchorsFrom 0 runs) :
    ∃ later last, pushText (runsText runs) token.start token.stop b anchors (spansFrom 0 runs) =
        (last, later) ∧
      pushText (runsText runs) token.start token.stop b.spell anchors
          (spansFrom 0 (spellRuns runs)) = (last.spell, later) ∧
      last.IsBacked ∧ later ⊆ anchors := by
  have hlt : token.start < token.stop := by
    have := byteLength_pos hcovers.part_ne
    have := hcovers.stop
    omega
  have hpushing : Pushing token.start token.stop (byteLength []) runs [] anchors b b.spell :=
    { spell := rfl
      passed := by simp
      midst := by simp
      places := fun a ha => .inr (hanchors ha)
      other := fun a ha => (behind_of_mem_anchorsFrom (hanchors ha)).2
      backed := hb
      atLiteral := fun hbehind => absurd hbehind (Nat.not_lt_zero _) }
  exact exists_pushText_from hcovers.isBoundary_start hcovers.isBoundary_stop hlt rfl hpushing

end Text

end StyledTemplate
