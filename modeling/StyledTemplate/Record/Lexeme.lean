import StyledTemplate.Json.Reader
import StyledTemplate.Text.Blank
import StyledTemplate.Text.Identifier

/-!
# Lexemes of declarations

The declaration of a type is read as lexemes: words, lifetimes, literals, punctuation marks and
brackets. Blanks and comments only divide lexemes, but a comment that documents what follows it
counts as an attribute.
-/

namespace StyledTemplate

/-- A lexeme of a declaration. -/
inductive Lexeme where
  /-- An identifier or a keyword. A raw identifier keeps its mark `r#`. -/
  | word (text : List Char)
  /-- A lifetime, with the quote before its name. -/
  | lifetime (text : List Char)
  /-- A literal. -/
  | literal (text : List Char)
  /-- A punctuation mark. It is joined if another one follows it at once. -/
  | mark (c : Char) (joined : Bool)
  /-- An opening bracket. -/
  | opening (c : Char)
  /-- A closing bracket. -/
  | closing (c : Char)
  deriving Repr, DecidableEq

namespace Lexeme

/-- The lexeme as it is written. -/
def text : Lexeme → List Char
  | .word text => text
  | .lifetime text => text
  | .literal text => text
  | .mark c _ => [c]
  | .opening c => [c]
  | .closing c => [c]

/-- The words that are no identifiers. -/
def keywords : List String :=
  ["_", "abstract", "as", "async", "await", "become", "box", "break", "const", "continue", "crate",
   "do", "dyn", "else", "enum", "extern", "false", "final", "fn", "for", "if", "impl", "in", "let",
   "loop", "macro", "match", "mod", "move", "mut", "override", "priv", "pub", "ref", "return",
   "Self", "self", "static", "struct", "super", "trait", "true", "try", "type", "typeof", "unsafe",
   "unsized", "use", "virtual", "where", "while", "yield"]

/-- Is the word with these characters an identifier? -/
def isIdentifier (text : List Char) : Bool := !keywords.contains (String.ofList text)

/-! ## Blanks and comments -/

/-- Does the character divide lexemes? Besides the blank characters the two marks of writing
direction do. -/
def isDivider (c : Char) : Bool := Text.isBlank c || c.toNat == 0x200E || c.toNat == 0x200F

/-- The text after a comment in stars whose start was read; `depth` comments inside it are open. -/
def afterComment (depth : Nat) : List Char → Option (List Char)
  | '/' :: '*' :: rest => afterComment (depth + 1) rest
  | '*' :: '/' :: rest => if depth = 0 then some rest else afterComment (depth - 1) rest
  | _ :: rest => afterComment depth rest
  | [] => none

/-- The text from the end of its first line. -/
def afterLine (cs : List Char) : List Char := cs.dropWhile (· != '\n')

/-- The attribute that a comment which documents something stands for. It is about what contains the
comment if `inner`, and otherwise about what follows. -/
def documentation (inner : Bool) : List Lexeme :=
  .mark '#' inner :: (if inner then [.mark '!' false] else []) ++
    [.opening '[', .word "doc".toList, .closing ']']

/-! ## Words and literals -/

/-- An identifier or a keyword without a mark, and what follows it. -/
def readWord? : List Char → Option (List Char × List Char)
  | [] => none
  | c :: cs =>
    if Text.isIdentifierStart c then
      some (c :: cs.takeWhile Text.isIdentifierPart, cs.dropWhile Text.isIdentifierPart)
    else none

/-- An identifier or a keyword, maybe a raw one, and what follows it. -/
def readAnyWord? : List Char → Option (List Char × List Char)
  | 'r' :: '#' :: cs => do
    let (name, rest) ← readWord? cs
    if ["_", "super", "self", "Self", "crate"].contains (String.ofList name) then none
    else some ('r' :: '#' :: name, rest)
  | cs => readWord? cs

/-- The text without a word at its start. -/
def dropWord (cs : List Char) : List Char :=
  match readWord? cs with
  | some (_, rest) => rest
  | none => cs

/-- May the character follow a backslash in a literal? -/
def isEscape (c : Char) : Bool := ['n', 'r', 't', '\\', '0', '\'', '"', 'x', 'u'].contains c

/-- The text after the closing quote of a string. -/
def afterString : List Char → Option (List Char)
  | [] => none
  | '"' :: rest => some rest
  | '\\' :: '\r' :: '\n' :: rest => afterString rest
  | '\\' :: c :: rest => if isEscape c || c == '\n' then afterString rest else none
  | '\r' :: '\n' :: rest => afterString rest
  | '\r' :: _ => none
  | _ :: rest => afterString rest

/-- The text after the end of a raw string, which is a quote with the number signs `signs`. -/
def afterRawString (signs : List Char) : List Char → Option (List Char)
  | [] => none
  | '\r' :: '\n' :: rest => afterRawString signs rest
  | '\r' :: _ => none
  | '"' :: rest =>
    if signs.isPrefixOf rest then some (rest.drop signs.length) else afterRawString signs rest
  | _ :: rest => afterRawString signs rest

/-- The text after a raw string that starts with number signs and a quote. -/
def afterRaw (cs : List Char) : Option (List Char) :=
  match cs.dropWhile (· == '#') with
  | '"' :: rest => afterRawString (cs.takeWhile (· == '#')) rest
  | _ => none

/-- The text after the closing quote of a character. -/
def afterCharacter : List Char → Option (List Char)
  | '\\' :: 'u' :: '\x7b' :: rest =>
    let digits := rest.takeWhile fun c => (Json.hexDigit? c).isSome || c == '_'
    match rest.drop digits.length with
    | '\x7d' :: '\'' :: after => if digits.isEmpty then none else some after
    | _ => none
  | '\\' :: 'x' :: a :: b :: '\'' :: rest =>
    if (Json.hexDigit? a).isSome && (Json.hexDigit? b).isSome then some rest else none
  | '\\' :: c :: '\'' :: rest => if isEscape c && c != 'x' && c != 'u' then some rest else none
  | '\\' :: _ => none
  | _ :: '\'' :: rest => some rest
  | _ => none

/-- The text after a number that starts with a digit. A point belongs to it unless another point or
a word follows, and so does the sign of an exponent. -/
def afterNumber (cs : List Char) : List Char :=
  let afterExponent (digits rest : List Char) : List Char :=
    match digits.getLast?, rest with
    | some e, sign :: d :: rest =>
      if (e == 'e' || e == 'E') && (sign == '+' || sign == '-') && d.isDigit then
        rest.dropWhile Text.isIdentifierPart
      else sign :: d :: rest
    | _, rest => rest
  let whole := cs.takeWhile Text.isIdentifierPart
  match cs.drop whole.length with
  | '.' :: c :: rest =>
    if c == '.' || Text.isIdentifierStart c then '.' :: c :: rest
    else
      let fraction := (c :: rest).takeWhile Text.isIdentifierPart
      afterExponent fraction ((c :: rest).drop fraction.length)
  | ['.'] => []
  | rest => afterExponent whole rest

/-- The text after a literal, its suffix apart. -/
def afterQuoted? : List Char → Option (List Char)
  | '"' :: rest => afterString rest
  | 'r' :: rest => afterRaw rest
  | 'b' :: '"' :: rest => afterString rest
  | 'b' :: 'r' :: rest => afterRaw rest
  | 'b' :: '\'' :: rest => afterCharacter rest
  | 'c' :: '"' :: rest => afterString rest
  | 'c' :: 'r' :: rest => afterRaw rest
  | '\'' :: rest => afterCharacter rest
  | _ => none

/-- The text after a literal, if the text starts with one. A literal in quotes may have a word for a
suffix. -/
def afterLiteral? (cs : List Char) : Option (List Char) :=
  match afterQuoted? cs with
  | some rest => some (dropWord rest)
  | none =>
    match cs with
    | c :: _ => if c.isDigit then some (afterNumber cs) else none
    | [] => none

/-- Does the text start like a literal in quotes that is no plain string or character? -/
def startsPrefixed (cs : List Char) : Bool :=
  ["r\"", "r#\"", "r##", "b\"", "b'", "br\"", "br#", "c\"", "cr\"", "cr#"].any fun start =>
    start.toList.isPrefixOf cs

/-! ## Lexemes -/

/-- The punctuation marks, the quote of a lifetime apart. -/
def marks : List Char := "~!@#$%^&*-=+|;:,<.>/?".toList

/-- Does the text start with a punctuation mark? The slash of a comment is none. -/
def startsMark : List Char → Bool
  | '/' :: '/' :: _ => false
  | '/' :: '*' :: _ => false
  | c :: _ => marks.contains c || c == '\''
  | [] => false

/-- A lifetime after its quote, and what follows it. A name between two quotes is none. -/
def readLifetime? (cs : List Char) : Option (Lexeme × List Char) := do
  let (name, rest) ← readAnyWord? cs
  match rest with
  | '\'' :: _ => none
  | '#' :: _ => if ['r', '#'].isPrefixOf cs then some (.lifetime ('\'' :: name), rest) else none
  | _ => some (.lifetime ('\'' :: name), rest)

/-- The first lexeme of a text that starts with neither a blank nor a comment, and what follows
it. -/
def readLexeme? (cs : List Char) : Option (Lexeme × List Char) :=
  match cs with
  | [] => none
  | c :: rest =>
    if ['(', '[', '\x7b'].contains c then some (.opening c, rest)
    else if [')', ']', '\x7d'].contains c then some (.closing c, rest)
    else
      match afterLiteral? cs with
      | some after => some (.literal (cs.take (cs.length - after.length)), after)
      | none =>
        if c = '\'' then readLifetime? rest
        else if startsMark cs then some (.mark c (startsMark rest), rest)
        else if startsPrefixed cs then none
        else (readAnyWord? cs).map fun read => (.word read.1, read.2)

/-- What the text starts with, as the lexemes it stands for, and what follows it: blanks and
comments are no lexemes. -/
def readNext? : List Char → Option (List Lexeme × List Char)
  | '/' :: '/' :: '/' :: '/' :: rest => some ([], afterLine rest)
  | '/' :: '/' :: '/' :: rest => some (documentation false, afterLine rest)
  | '/' :: '/' :: '!' :: rest => some (documentation true, afterLine rest)
  | '/' :: '/' :: rest => some ([], afterLine rest)
  | '/' :: '*' :: '*' :: '/' :: rest => some ([], rest)
  | '/' :: '*' :: '*' :: '*' :: rest => (afterComment 0 ('*' :: '*' :: rest)).map ([], ·)
  | '/' :: '*' :: '*' :: rest => (afterComment 0 ('*' :: rest)).map (documentation false, ·)
  | '/' :: '*' :: '!' :: rest => (afterComment 0 ('!' :: rest)).map (documentation true, ·)
  | '/' :: '*' :: rest => (afterComment 0 rest).map ([], ·)
  | [] => none
  | c :: rest =>
    if isDivider c then some ([], rest)
    else (readLexeme? (c :: rest)).map fun read => ([read.1], read.2)

/-- The lexemes of a text, brackets not yet matched. -/
def lexemesFrom? (cs : List Char) : Option (List Lexeme) :=
  if cs.isEmpty then some []
  else
    match readNext? cs with
    | none => none
    | some (lexemes, rest) =>
      if rest.length < cs.length then (lexemesFrom? rest).map (lexemes ++ ·) else none
termination_by cs.length

/-- The bracket that closes an opening bracket. -/
def closerOf (c : Char) : Char := if c = '(' then ')' else if c = '[' then ']' else '\x7d'

/-- Do the brackets match, given the closing ones that are awaited? -/
def matched : List Char → List Lexeme → Bool
  | awaited, [] => awaited.isEmpty
  | awaited, .opening c :: rest => matched (closerOf c :: awaited) rest
  | [], .closing _ :: _ => false
  | closer :: awaited, .closing c :: rest => c == closer && matched awaited rest
  | awaited, _ :: rest => matched awaited rest

/-- The lexemes of a text. -/
def ofText? (cs : List Char) : Option (List Lexeme) := (lexemesFrom? cs).filter (matched [])

end Lexeme

end StyledTemplate
