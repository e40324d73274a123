import StyledTemplate.Document.Basic
import StyledTemplate.Text.Blank
import StyledTemplate.Text.Bytes

/-!
# The text of a paragraph and its runs

Directives are found in the text of a paragraph, whatever its runs are. A `RunMap` says which bytes
of the text each text run takes up, and at which offset every other run stands. `Paragraph.cut`
takes some bytes of the text out.
-/

namespace StyledTemplate

open Text (byteLength takeBytes dropBytes)

/-- The bytes that a text run takes up. -/
structure Span where
  /-- The offset of the first byte. -/
  start : Nat
  /-- The offset behind the last byte. -/
  stop : Nat
  /-- The formatting of the run. -/
  style : RunProperties

/-- A run without text, and the number of bytes of text before it. -/
structure Anchor where
  /-- The number of bytes of text before the run. -/
  offset : Nat
  /-- The run. -/
  run : Run

/-- The text of the text runs. -/
def runsText : List Run → List Char
  | [] => []
  | run :: runs =>
    match run.text? with
    | some s => s.toList ++ runsText runs
    | none => runsText runs

/-- The bytes that the text runs take up behind `offset`. -/
def spansFrom (offset : Nat) : List Run → List Span
  | [] => []
  | run :: runs =>
    match run.text? with
    | some s =>
      let stop := offset + byteLength s.toList
      ⟨offset, stop, run.properties⟩ :: spansFrom stop runs
    | none => spansFrom offset runs

/-- The runs without text and where they stand behind `offset`. -/
def anchorsFrom (offset : Nat) : List Run → List Anchor
  | [] => []
  | run :: runs =>
    match run.text? with
    | some s => anchorsFrom (offset + byteLength s.toList) runs
    | none => ⟨offset, run⟩ :: anchorsFrom offset runs

/-- The text of a paragraph with the places of its runs. -/
structure RunMap where
  /-- The text of the text runs. -/
  text : List Char
  /-- The text runs, in order. -/
  spans : List Span
  /-- The other runs, in order. -/
  anchors : List Anchor

namespace RunMap

/-- The map of some runs. -/
def ofRuns (runs : List Run) : RunMap := ⟨runsText runs, spansFrom 0 runs, anchorsFrom 0 runs⟩

/-- The formatting of the run that holds a byte of the text. -/
def styleAt (map : RunMap) (offset : Nat) : RunProperties :=
  match map.spans.find? fun span => span.start ≤ offset && offset < span.stop with
  | some span => span.style
  | none => {}

end RunMap

/-- Takes the bytes from `start` to `stop` out of runs that stand behind `offset`. A run that loses
all of its text is dropped. -/
def cutRuns (start stop offset : Nat) : List Run → List Run
  | [] => []
  | run :: runs =>
    match run.text? with
    | some s =>
      let last := offset + byteLength s.toList
      if last ≤ start ∨ stop ≤ offset then run :: cutRuns start stop last runs
      else
        let kept := takeBytes (start - offset) s.toList ++ dropBytes (stop - offset) s.toList
        if kept = [] then cutRuns start stop last runs
        else .ofText (String.ofList kept) run.properties :: cutRuns start stop last runs
    | none => run :: cutRuns start stop offset runs

namespace Paragraph

/-- The paragraph without the bytes of its text from `start` to `stop`. -/
def cut (p : Paragraph) (start stop : Nat) : Paragraph :=
  { p with runs := cutRuns start stop 0 p.runs }

/-- Has the paragraph nothing but blank text? -/
def isBlank (p : Paragraph) : Bool :=
  p.runs.all fun run => (run.text?.map fun s => Text.allBlank s.toList).getD false

end Paragraph

end StyledTemplate
