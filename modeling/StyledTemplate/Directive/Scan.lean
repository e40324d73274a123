import StyledTemplate.Directive.Basic
import StyledTemplate.Error
import StyledTemplate.Text.Blank
import StyledTemplate.Text.Bytes
import StyledTemplate.Text.Name

/-!
# Reading directives

`tokenize` splits a text into tokens. A directive stands between the first `}}` of the text and the
last `{{` before it; an opening pair without a closing one is literal text. Blank characters next to
the braces do not matter. What is no directive stays literal text, or is an error in strict mode; a
keyword with a wrong argument is always an error.
-/

namespace StyledTemplate

open Text (trim isBlank isValidName byteLength)

/-! ## What stands between the braces -/

/-- What stands between two pairs of braces. -/
inductive Reading where
  /-- A directive. -/
  | directive (d : Directive)
  /-- A keyword without a proper argument. -/
  | malformed
  /-- Nothing that belongs to the grammar. -/
  | unknown
  deriving Repr, DecidableEq

/-- The text between two quotes of one kind. -/
def unquoteWith? (quote : Char) : List Char → Option (List Char)
  | [] => none
  | c :: cs => if c = quote ∧ cs.getLast? = some quote then some cs.dropLast else none

/-- The text between two double or two single quotes. -/
def unquote? (argument : List Char) : Option (List Char) :=
  (unquoteWith? '"' argument).or (unquoteWith? '\'' argument)

/-- Reads a name, which may be quoted. -/
def nameArgument? (argument : List Char) : Option String :=
  let name := (unquote? argument).getD argument
  if isValidName name then some (String.ofList name) else none

/-- May this character stand in the id of a block or in the name of a parent? -/
def isIdChar (c : Char) : Bool := c != '"' && c != '\'' && c != '{' && c != '}'

/-- Reads the id of a block or the name of a parent, which is quoted or free of blanks. -/
def idArgument? (argument : List Char) : Option String :=
  let id? := match unquote? argument with
    | some id => some id
    | none => if argument.any isBlank then none else some argument
  match id? with
  | none => none
  | some id => if id ≠ [] ∧ id.all isIdChar then some (String.ofList id) else none

/-- The directives that take no argument. -/
def plainDirective? : String → Option Directive
  | "else" => some .otherwise
  | "/if" => some .ifClose
  | "/each" => some .eachClose
  | "/block" => some .blockClose
  | _ => none

/-- The keywords that take an argument, and what they make of it. -/
def keyword? : String → Option (List Char → Option Directive)
  | "#if" => some fun argument => (nameArgument? argument).map .ifOpen
  | "#each" => some fun argument => (nameArgument? argument).map .eachOpen
  | "#image" => some fun argument => (nameArgument? argument).map .image
  | "#block" => some fun argument => (idArgument? argument).map .blockOpen
  | "extends" => some fun argument => (idArgument? argument).map .inherits
  | _ => none

/-- Reads the text between two pairs of braces, blank characters at its ends taken off. -/
def Reading.ofContent (content : List Char) : Reading :=
  match plainDirective? (String.ofList content) with
  | some d => .directive d
  | none =>
    let head := content.takeWhile (!isBlank ·)
    let argument := trim (content.dropWhile (!isBlank ·))
    match keyword? (String.ofList head) with
    | some read =>
      match read argument with
      | some d => .directive d
      | none => .malformed
    | none =>
      if argument = [] ∧ isValidName head then .directive (.placeholder (String.ofList head))
      else .unknown

/-! ## Finding the braces -/

/-- Splits a text at the first two neighbouring braces. -/
def splitAtPair? (brace : Char) : List Char → Option (List Char × List Char)
  | c :: d :: cs =>
    if c = brace ∧ d = brace then some ([], cs)
    else (splitAtPair? brace (d :: cs)).map fun parts => (c :: parts.1, parts.2)
  | _ => none

/-- The parts of a text around the first closing pair of braces that has an opening one. -/
structure Candidate where
  /-- What stands before the braces. -/
  before : List Char
  /-- What stands between the braces. -/
  inner : List Char
  /-- What stands after the braces. -/
  after : List Char

/-- The text from the opening to the closing braces. -/
def Candidate.source (c : Candidate) : List Char := '{' :: '{' :: (c.inner ++ ['}', '}'])

/-- The first closing pair of braces after an opening one, with the last opening pair before it. -/
def candidate? (cs : List Char) : Option Candidate := do
  let (before, rest) ← splitAtPair? '{' cs
  let (inner, after) ← splitAtPair? '}' rest
  match splitAtPair? '{' inner.reverse with
  | none => some ⟨before, inner, after⟩
  | some (innermost, skipped) =>
    some ⟨before ++ '{' :: '{' :: skipped.reverse, innermost.reverse, after⟩

theorem splitAtPair?_eq_some {brace : Char} {cs before after : List Char}
    (h : splitAtPair? brace cs = some (before, after)) :
    cs = before ++ brace :: brace :: after := by
  induction cs generalizing before with
  | nil => simp [splitAtPair?] at h
  | cons c cs ih =>
    cases cs with
    | nil => simp [splitAtPair?] at h
    | cons d ds =>
      simp only [splitAtPair?] at h
      split at h
      · next hc =>
        obtain ⟨rfl, rfl⟩ := hc
        simp only [Option.some.injEq, Prod.mk.injEq] at h
        simp [← h.1, ← h.2]
      · obtain ⟨parts, hp, heq⟩ := Option.map_eq_some_iff.1 h
        obtain ⟨left, right⟩ := parts
        simp only [Prod.mk.injEq] at heq
        obtain ⟨rfl, rfl⟩ := heq
        rw [ih hp]
        rfl

/-- A candidate loses nothing of the text. -/
theorem candidate?_eq_some {cs : List Char} {c : Candidate} (h : candidate? cs = some c) :
    cs = c.before ++ c.source ++ c.after := by
  simp only [candidate?, Option.bind_eq_bind, Option.bind_eq_some_iff] at h
  obtain ⟨⟨before, rest⟩, hopen, ⟨inner, after⟩, hclose, h⟩ := h
  have h1 := splitAtPair?_eq_some hopen
  have h2 : rest = inner ++ '}' :: '}' :: after := splitAtPair?_eq_some hclose
  dsimp only at h
  split at h
  · simp only [Option.some.injEq] at h
    subst h
    simp [h1, h2, Candidate.source]
  · next innermost skipped hlast =>
    simp only [Option.some.injEq] at h
    subst h
    have h3 := congrArg List.reverse (splitAtPair?_eq_some hlast)
    simp only [List.reverse_reverse, List.reverse_append, List.reverse_cons] at h3
    simp [h1, h2, h3, Candidate.source]

theorem candidate?_length {cs : List Char} {c : Candidate} (h : candidate? cs = some c) :
    c.after.length < cs.length := by
  have := congrArg List.length (candidate?_eq_some h)
  simp only [List.length_append, Candidate.source, List.length_cons] at this
  omega

/-! ## Tokens -/

/-- The token of a stretch of literal text that starts at `offset`, if the text is not empty. -/
def textToken (offset : Nat) (cs : List Char) : List Token :=
  if cs = [] then [] else [⟨.text (String.ofList cs), offset, offset + byteLength cs⟩]

/-- Reads the tokens of `cs`, where `literal` is literal text before it that starts at `offset`. -/
def tokensFrom (strict : Bool) (offset : Nat) (literal cs : List Char) :
    Except ParseError (List Token) :=
  match _h : candidate? cs with
  | none => .ok (textToken offset (literal ++ cs))
  | some c =>
    let before := literal ++ c.before
    let start := offset + byteLength before
    let source := String.ofList c.source
    match Reading.ofContent (trim c.inner) with
    | .directive d => do
      let stop := start + byteLength c.source
      let rest ← tokensFrom strict stop [] c.after
      return textToken offset before ++ ⟨.directive d, start, stop⟩ :: rest
    | .malformed =>
      .error { fault := .malformedDirective source, position := { offset := start } }
    | .unknown =>
      if strict then
        .error { fault := .unknownDirective source, position := { offset := start } }
      else tokensFrom strict offset (before ++ c.source) c.after
termination_by cs.length
decreasing_by all_goals exact candidate?_length _h

/-- Splits a text into tokens. -/
def tokenize (strict : Bool) (text : List Char) : Except ParseError (List Token) :=
  tokensFrom strict 0 [] text

end StyledTemplate
