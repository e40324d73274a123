import StyledTemplate.Proofs.Template.SpelledText

/-!
# The slices of the text of a paragraph

Reading a paragraph takes slices of its text: the source of each directive, and of literal text what
it has in common with each text run. `parseParagraphChecked` reads a paragraph alike, but fails at a
slice that is not a part of the text or that cuts a character. It never does so
(`parseParagraphChecked_eq`).
-/

namespace StyledTemplate

open Text (byteLength sliceBytes)

/-! ## Slices between boundaries -/

theorem slice?_of_boundaries {start stop : Nat} {text : List Char} (hstart : IsBoundary start text)
    (hstop : IsBoundary stop text) (hle : start ≤ stop) :
    slice? start stop text = some (sliceBytes start stop text) := by
  obtain ⟨before, behind, htext, rfl⟩ := hstart
  obtain ⟨whole, after, hsame, rfl⟩ := hstop
  obtain ⟨part, rfl, -⟩ := exists_middle (htext.symm.trans hsame) hle
  have hpart := slice?_eq_some_iff.2 ⟨before, after, hsame, rfl, rfl⟩
  rw [hpart, hsame, sliceBytes_append]

/-! ## Reading with checked slices -/

/-- Parsing that may also fail because of a slice, with no error of the template. -/
abbrev CheckedParser := StateT Progress (Except (Option ParseError))

/-- Parsing that fails with errors of the template only. -/
def checked {α : Type} (x : Parser α) : CheckedParser α := fun s => (x s).mapError some

/-- Takes a slice of a text. -/
def takeSlice (start stop : Nat) (text : List Char) : CheckedParser (List Char) :=
  match slice? start stop text with
  | some part => pure part
  | none => throw none

/-- Feeds literal text to the builder like `pushText`. -/
def pushTextChecked (text : List Char) (start stop : Nat) (b : Builder) (anchors : List Anchor) :
    List Span → CheckedParser (Builder × List Anchor)
  | [] => return (b, anchors)
  | span :: spans =>
    if span.stop ≤ start ∨ stop ≤ span.start then pushTextChecked text start stop b anchors spans
    else do
      let first := max span.start start
      let last := min span.stop stop
      let (now, later) := anchors.span (·.offset ≤ first)
      let piece ← takeSlice first last text
      let b := (b.pushRuns (now.map Anchor.run)).push (.text (String.ofList piece) span.style)
      pushTextChecked text start stop b later spans

/-- Feeds the tokens of a paragraph to the builder like `pushTokens`. -/
def pushTokensChecked (strict : Bool) (ordinal : Nat) (map : RunMap) (b : Builder)
    (anchors : List Anchor) : List Token → CheckedParser Builder
  | [] => return b.pushRuns (anchors.map Anchor.run)
  | token :: tokens =>
    match token.kind with
    | .text _ => do
      let (b, anchors) ← pushTextChecked map.text token.start token.stop b anchors map.spans
      pushTokensChecked strict ordinal map b anchors tokens
    | .directive d => do
      let (now, later) := anchors.span (·.offset < token.stop)
      let opener ← takeSlice token.start token.stop map.text
      let position := { paragraph := ordinal, offset := token.start }
      let b ← checked (applyDirective strict (String.ofList opener) (map.styleAt token.start)
        position (b.pushRuns (now.map Anchor.run)) d)
      pushTokensChecked strict ordinal map b later tokens

/-- Parses a paragraph like `parseParagraph`. -/
def parseParagraphChecked (settings : TemplateSettings) (p : Paragraph) (map : RunMap)
    (tokens : List Token) (ordinal depth : Nat) : CheckedParser Block := do
  if tokens.any fun token => token.directive?.isSome then
    let builder : Builder := { baseDepth := depth, limit := settings.maxNestingDepth.toNat }
    let builder ← pushTokensChecked settings.strict ordinal map builder map.anchors tokens
    let children ← checked builder.finish
    return .paragraph p.properties children true
  else return .paragraph p.properties (p.runs.map .static) false

theorem checked_bind {α β : Type} (x : Parser α) (f : α → Parser β) :
    checked (x >>= f) = checked x >>= fun a => checked (f a) := by
  funext s
  show (x s >>= fun r => f r.1 r.2).mapError some =
    (x s).mapError some >>= fun r => (f r.1 r.2).mapError some
  cases x s <;> rfl

theorem takeSlice_of_boundaries {start stop : Nat} {text : List Char}
    (hstart : IsBoundary start text) (hstop : IsBoundary stop text) (hle : start ≤ stop) :
    takeSlice start stop text = pure (sliceBytes start stop text) := by
  rw [takeSlice, slice?_of_boundaries hstart hstop hle]

/-- The text runs take up whole characters. -/
theorem boundaries_of_mem_spansFrom (pre : List Char) (runs : List Run) :
    ∀ span ∈ spansFrom (byteLength pre) runs, IsBoundary span.start (pre ++ runsText runs) ∧
      IsBoundary span.stop (pre ++ runsText runs) ∧ span.start ≤ span.stop := by
  induction runs using runs_induction generalizing pre with
  | nil => exact List.forall_mem_nil _
  | text s style runs ih =>
    have htext : pre ++ runsText (.ofText s style :: runs) =
        pre ++ s.toList ++ runsText runs := (List.append_assoc _ _ _).symm
    rw [spansFrom_text, ← Text.byteLength_append, htext]
    refine List.forall_mem_cons.2 ⟨⟨?_, ?_, ?_⟩, ih _⟩
    · exact ⟨pre, s.toList ++ runsText runs, List.append_assoc _ _ _, rfl⟩
    · exact ⟨pre ++ s.toList, runsText runs, rfl, rfl⟩
    · dsimp only
      rw [Text.byteLength_append]
      exact Nat.le_add_right _ _
  | other run runs hrun ih =>
    rw [spansFrom_other hrun, runsText_cons, hrun]
    exact ih pre

/-- Literal text is cut between characters only. -/
theorem pushTextChecked_eq {text : List Char} {start stop : Nat} (hstart : IsBoundary start text)
    (hstop : IsBoundary stop text) (hle : start ≤ stop) (b : Builder) (anchors : List Anchor)
    {spans : List Span}
    (hspans : ∀ span ∈ spans, IsBoundary span.start text ∧ IsBoundary span.stop text ∧
      span.start ≤ span.stop) :
    pushTextChecked text start stop b anchors spans =
      pure (pushText text start stop b anchors spans) := by
  induction spans generalizing b anchors with
  | nil => rfl
  | cons span spans ih =>
    obtain ⟨⟨hfirst, hlast, horder⟩, hrest⟩ := List.forall_mem_cons.1 hspans
    rw [pushTextChecked, pushText]
    by_cases hout : span.stop ≤ start ∨ stop ≤ span.start
    · rw [if_pos hout, if_pos hout]
      exact ih b anchors hrest
    · rw [if_neg hout, if_neg hout]
      have hcommon : max span.start start ≤ min span.stop stop := by omega
      dsimp only
      rw [takeSlice_of_boundaries (hfirst.max hstart) (hlast.min hstop) hcommon, pure_bind]
      exact ih _ _ hrest

section Tokens

variable {runs : List Run} {tokens : List Token}

/-- Tokens of the text of a paragraph are read without a wrong slice. -/
theorem pushTokensChecked_eq (strict : Bool) (ordinal : Nat) (b : Builder) (anchors : List Anchor)
    (hcovers : ∀ token ∈ tokens, ∃ before part after,
      token.Covers (runsText runs) before part after) :
    pushTokensChecked strict ordinal (.ofRuns runs) b anchors tokens =
      checked (pushTokens strict ordinal (.ofRuns runs) b anchors tokens) := by
  induction tokens generalizing b anchors with
  | nil => rfl
  | cons token tokens ih =>
    obtain ⟨⟨before, part, after, htoken⟩, hrest⟩ := List.forall_mem_cons.1 hcovers
    have hstart := htoken.isBoundary_start
    have hstop := htoken.isBoundary_stop
    have hle := htoken.start_le_stop
    obtain ⟨kind, start, stop⟩ := token
    cases kind with
    | text literal =>
      have hspans := boundaries_of_mem_spansFrom [] runs
      have hpush : pushTextChecked (RunMap.ofRuns runs).text start stop b anchors
          (RunMap.ofRuns runs).spans = pure (pushText (runsText runs) start stop b anchors
            (spansFrom 0 runs)) := pushTextChecked_eq hstart hstop hle b anchors hspans
      rw [pushTokensChecked, pushTokens_text]
      dsimp only
      rw [hpush, pure_bind]
      exact ih _ _ hrest
    | directive d =>
      have hslice : takeSlice start stop (RunMap.ofRuns runs).text =
          pure (sliceBytes start stop (runsText runs)) :=
        takeSlice_of_boundaries hstart hstop hle
      rw [pushTokensChecked, pushTokens_directive]
      dsimp only
      rw [hslice, pure_bind, checked_bind]
      refine congrArg (_ >>= ·) (funext fun b => ?_)
      exact ih b _ hrest

end Tokens

/-- A paragraph is read without a slice that leaves its text or cuts a character. -/
theorem parseParagraphChecked_eq {settings : TemplateSettings} {p : Paragraph} {tokens : List Token}
    (htokens : tokenize settings.strict (runsText p.runs) = .ok tokens) (ordinal depth : Nat) :
    parseParagraphChecked settings p (.ofRuns p.runs) tokens ordinal depth =
      checked (parseParagraph settings p (.ofRuns p.runs) tokens ordinal depth) := by
  unfold parseParagraphChecked parseParagraph
  by_cases hany : tokens.any fun token => token.directive?.isSome
  · rw [if_pos hany, if_pos hany, checked_bind]
    dsimp only
    rw [pushTokensChecked_eq _ _ _ _ (exists_part_of_tokenize htokens)]
    refine congrArg (_ >>= ·) (funext fun b => ?_)
    rw [checked_bind]
    rfl
  · rw [if_neg hany, if_neg hany]
    rfl

end StyledTemplate
