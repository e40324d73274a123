/-!
# Errors

Everything that can go wrong when a template is loaded or rendered, as a cause and not as a text.
`message` gives the text of an error and `Error.code` its category. An error that is raised while
rendering is wrapped once, by `Error.inTemplate`, with the template and the place it was raised in;
`Error.rootCause` takes the wrapping off.
-/

namespace StyledTemplate

/-- A place in a template: a paragraph, counted in document order with the paragraphs of table cells
included, and a byte offset into the text of its runs. -/
structure Position where
  /-- The number of paragraphs before the paragraph. -/
  paragraph : Nat := 0
  /-- The number of bytes before the place in the paragraph. -/
  offset : Nat := 0
  deriving Repr, DecidableEq, Inhabited

/-- The text that names a place. -/
def Position.text (p : Position) : String := s!"paragraph {p.paragraph}, offset {p.offset}"

/-- What is wrong with the directives of a template. -/
inductive ParseFault where
  /-- A directive is opened but not closed. -/
  | unclosedDirective (opener : String)
  /-- A closing directive has nothing to close. -/
  | unmatchedCloser (closer : String)
  /-- A closing directive does not fit the innermost open one. -/
  | mismatchedCloser (expected found : String)
  /-- An alternative stands outside of a condition. -/
  | unexpectedElse
  /-- A condition has two alternatives. -/
  | duplicateElse
  /-- What stands between the braces is no directive. -/
  | unknownDirective (source : String)
  /-- The argument of a directive is missing or wrong. -/
  | malformedDirective (source : String)
  /-- The parent is not declared by the first directive. -/
  | misplacedParent (name : String)
  /-- Directives are nested too deep. -/
  | nestingTooDeep (limit : Nat)
  deriving Repr, DecidableEq

/-- The text of a fault. -/
def ParseFault.message : ParseFault → String
  | .unclosedDirective opener => s!"unclosed directive '{opener}'"
  | .unmatchedCloser closer => s!"closing directive '{closer}' has no opening directive"
  | .mismatchedCloser expected found => s!"expected '{expected}' but found '{found}'"
  | .unexpectedElse => "'\x7b\x7belse\x7d\x7d' outside of '\x7b\x7b#if\x7d\x7d'"
  | .duplicateElse => "more than one '\x7b\x7belse\x7d\x7d' in the same '\x7b\x7b#if\x7d\x7d'"
  | .unknownDirective source => s!"unknown directive '{source}'"
  | .malformedDirective source => s!"malformed directive '{source}'"
  | .misplacedParent name => s!"'extends \"{name}\"' must be the first directive of a template"
  | .nestingTooDeep limit => s!"directives nested deeper than the limit of {limit}"

/-- A fault at its place in a template. -/
structure ParseError where
  /-- The name of the template, empty until it is known. -/
  template : String := ""
  /-- What is wrong. -/
  fault : ParseFault
  /-- Where it is wrong. -/
  position : Position
  deriving Repr, DecidableEq

namespace ParseError

/-- The text of a parse error. -/
def message (e : ParseError) : String := s!"{e.fault.message} at {e.position.text}"

/-- The error in a template of the given name. -/
def withTemplate (e : ParseError) (name : String) : ParseError := { e with template := name }

/-- The error in a given paragraph. -/
def atParagraph (e : ParseError) (paragraph : Nat) : ParseError :=
  { e with position := { e.position with paragraph } }

end ParseError

/-- Everything that can go wrong. -/
inductive Error where
  /-- The directives of a template are wrong. -/
  | parse (e : ParseError)
  /-- No template has this name. -/
  | templateNotFound (name : String)
  /-- Templates inherit from each other in a circle. -/
  | inheritanceCycle (names : List String)
  /-- Nothing is bound to this path. -/
  | variableResolution (path : String)
  /-- The image bound to a placeholder cannot be used. -/
  | imageLoad (name reason : String)
  /-- An error was raised while rendering a template. -/
  | render (template : String) (location : Option Position) (source : Error)
  /-- The settings or the data to bind are not in the right form. -/
  | configuration (reason : String)
  /-- Reading a file failed. -/
  | io (reason : String)
  deriving Repr, DecidableEq

namespace Error

/-- The place in an error message, empty if it is not known. -/
def locationText : Option Position → String
  | none => ""
  | some p => s!" at {p.text}"

/-- The text of an error. -/
def message : Error → String
  | .parse e => s!"Template parse error in '{e.template}': {e.message}"
  | .templateNotFound name => s!"Template not found: {name}"
  | .inheritanceCycle names => "Template inheritance cycle: " ++ " -> ".intercalate names
  | .variableResolution path => s!"Variable could not be resolved: {path}"
  | .imageLoad name reason => s!"Image '{name}' could not be loaded: {reason}"
  | .render template location source =>
    s!"Render error in template '{template}'{locationText location}: {source.message}"
  | .configuration reason => s!"Configuration error: {reason}"
  | .io reason => s!"IO error: {reason}"

/-- The category of an error; that of a wrapped error is that of its cause. -/
def code : Error → String
  | .parse _ => "parse_error"
  | .templateNotFound _ => "template_not_found"
  | .inheritanceCycle _ => "template_not_found"
  | .variableResolution _ => "variable_resolution"
  | .imageLoad _ _ => "image_load"
  | .render _ _ source => source.code
  | .configuration _ => "configuration"
  | .io _ => "io"

/-- Is a template missing, or inherits from itself? -/
def isTemplateNotFound (e : Error) : Bool := e.code == "template_not_found"

/-- The error without its wrapping. -/
def rootCause : Error → Error
  | .render _ _ source => source.rootCause
  | e => e

/-- Wraps an error with the template and the place it was raised in. An error that is wrapped
already is kept, so that the innermost place wins. -/
def inTemplate (e : Error) (template : String) (location : Option Position) : Error :=
  match e with
  | .render _ _ _ => e
  | _ => .render template location e

/-- An image error, named by the placeholder that shows the image. -/
def forImage (e : Error) (name : String) : Error :=
  match e with
  | .imageLoad _ reason => .imageLoad name reason
  | _ => e

end Error

end StyledTemplate
