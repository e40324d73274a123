/-!
# Directives

What stands between `{{` and `}}` in the text of a template. A text is split into tokens, each a
directive or a stretch of literal text, with the bytes it takes up.
-/

namespace StyledTemplate

/-- A directive. -/
inductive Directive where
  /-- Shows what is bound to a path. -/
  | placeholder (path : String)
  /-- Shows an image. -/
  | image (name : String)
  /-- Opens a condition. -/
  | ifOpen (condition : String)
  /-- Separates the two branches of a condition. -/
  | otherwise
  /-- Closes a condition. -/
  | ifClose
  /-- Opens a loop over the entries of a list. -/
  | eachOpen (list : String)
  /-- Closes a loop. -/
  | eachClose
  /-- Opens a block that a template further down may replace. -/
  | blockOpen (id : String)
  /-- Closes a named block. -/
  | blockClose
  /-- Declares the template that this one inherits from. -/
  | inherits (parent : String)
  deriving Repr, DecidableEq

/-- Does the directive open, close or split a region, or declare a parent? Such a directive may
stand alone in a paragraph, and then concerns the paragraphs and tables around it. -/
def Directive.isStructural : Directive → Bool
  | .placeholder _ => false
  | .image _ => false
  | _ => true

/-- What a token is. -/
inductive TokenKind where
  /-- Literal text. -/
  | text (s : String)
  /-- A directive. -/
  | directive (d : Directive)
  deriving Repr, DecidableEq

/-- A token and the bytes it was read from. -/
structure Token where
  /-- What the token is. -/
  kind : TokenKind
  /-- The offset of its first byte. -/
  start : Nat
  /-- The offset behind its last byte. -/
  stop : Nat
  deriving Repr, DecidableEq

namespace Token

/-- The directive, if the token is one. -/
def directive? (t : Token) : Option Directive :=
  match t.kind with
  | .directive d => some d
  | .text _ => none

end Token

end StyledTemplate
