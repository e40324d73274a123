import StyledTemplate.Toml.Table
import StyledTemplate.Toml.Date
import StyledTemplate.Json.Reader

/-!
# Reading TOML text

A reader of TOML documents that gives their JSON form: dates and times become strings, and the
numbers that JSON does not have become `null`. Arrays and inline tables may nest 79 levels deep.
-/

namespace StyledTemplate.Toml

open Decimal (digitsNumber)

/-! ## White space and comments -/

/-- White space inside a line. -/
def isSpace (c : Char) : Bool := c == ' ' || c == '\t'

/-- The text from its first character that is not white space inside a line. -/
def skipSpace (cs : List Char) : List Char := cs.dropWhile isSpace

/-- May the character stand in a comment? -/
def isCommentChar (c : Char) : Bool := c == '\t' || (0x20 ≤ c.toNat && c.toNat ≠ 0x7F)

/-- The text after a line break. -/
def takeNewline : List Char → Option (List Char)
  | '\n' :: cs => some cs
  | '\r' :: '\n' :: cs => some cs
  | _ => none

/-- The text after a comment, if there is one. -/
def skipComment : List Char → List Char
  | '#' :: cs => cs.dropWhile isCommentChar
  | cs => cs

/-- The text after the end of a line: white space, a comment, a line break or the end of the
text. -/
def takeLineEnd (cs : List Char) : Option (List Char) :=
  match skipComment (skipSpace cs) with
  | [] => some []
  | rest => takeNewline rest

/-- The text after white space, comments and line breaks, at most `fuel` lines of them. -/
def skipLines : Nat → List Char → List Char
  | 0, cs => cs
  | fuel + 1, cs =>
    let cs := skipSpace cs
    match takeNewline (skipComment cs) with
    | some rest => skipLines fuel rest
    | none => cs

/-! ## Strings -/

/-- May the character stand in a basic string as it is? -/
def isBasicChar (c : Char) : Bool := isCommentChar c && c != '"' && c != '\\'

/-- May the character stand in a literal string? -/
def isLiteralChar (c : Char) : Bool := isCommentChar c && c != '\''

/-- The scalar value written by hexadecimal digits. -/
def scalar? (digits : List Char) : Option Char := do
  let n ← digits.foldlM (fun acc c => (Json.hexDigit? c).map fun d => acc * 16 + d) 0
  if n < 0xD800 ∨ (0xE000 ≤ n ∧ n < 0x110000) then some (Char.ofNat n) else none

/-- The character of an escape of one letter. -/
def shortEscape? : Char → Option Char
  | '"' => some '"'
  | '\\' => some '\\'
  | 'b' => some (Char.ofNat 8)
  | 'f' => some (Char.ofNat 12)
  | 'n' => some '\n'
  | 'r' => some '\r'
  | 't' => some '\t'
  | _ => none

/-- The rest of a basic string after its opening quote, and what follows its closing quote. -/
def readBasic : List Char → Option (List Char × List Char)
  | [] => none
  | '"' :: rest => some ([], rest)
  | '\\' :: 'U' :: a :: b :: c :: d :: e :: f :: g :: h :: rest => do
    let code ← scalar? [a, b, c, d, e, f, g, h]
    let (tail, after) ← readBasic rest
    return (code :: tail, after)
  | '\\' :: 'u' :: a :: b :: c :: d :: rest => do
    let code ← scalar? [a, b, c, d]
    let (tail, after) ← readBasic rest
    return (code :: tail, after)
  | '\\' :: letter :: rest => do
    let c ← shortEscape? letter
    let (tail, after) ← readBasic rest
    return (c :: tail, after)
  | c :: rest =>
    if isBasicChar c then do
      let (tail, after) ← readBasic rest
      return (c :: tail, after)
    else none

/-- The rest of a literal string after its opening quote, and what follows its closing quote. -/
def readLiteral (cs : List Char) : Option (List Char × List Char) :=
  match cs.span isLiteralChar with
  | (body, '\'' :: rest) => some (body, rest)
  | _ => none

/-- The text after an escaped line break: the white space and line breaks after a backslash, of
which the first line must be blank. -/
def skipEscapedBreak (cs : List Char) : Option (List Char) :=
  (takeNewline (skipSpace cs)).map fun rest =>
    rest.dropWhile fun c => isSpace c || c == '\n' || c == '\r'

/-- Do the carriage returns of the text that a run of blanks skipped all belong to line breaks? -/
def returnsPaired : List Char → Bool
  | [] => true
  | '\r' :: '\n' :: cs => returnsPaired cs
  | '\r' :: _ => false
  | _ :: cs => returnsPaired cs

/-- The closing quotes of a string over several lines: three, after up to two that belong to it. -/
def takeClosing (quote : Char) : List Char → Option (List Char × List Char)
  | a :: b :: c :: d :: e :: rest =>
    if a = quote ∧ b = quote ∧ c = quote then
      if d = quote then
        if e = quote then some ([quote, quote], rest) else some ([quote], e :: rest)
      else some ([], d :: e :: rest)
    else none
  | [a, b, c, d] =>
    if a = quote ∧ b = quote ∧ c = quote then
      if d = quote then some ([quote], []) else some ([], [d])
    else none
  | [a, b, c] => if a = quote ∧ b = quote ∧ c = quote then some ([], []) else none
  | _ => none

/-- The rest of a basic string over several lines, and what follows its closing quotes. -/
def readLongBasic : Nat → List Char → Option (List Char × List Char)
  | 0, _ => none
  | fuel + 1, cs =>
    match takeClosing '"' cs with
    | some closing => some closing
    | none =>
      match cs with
      | [] => none
      | '\\' :: 'U' :: a :: b :: c :: d :: e :: f :: g :: h :: rest => do
        let code ← scalar? [a, b, c, d, e, f, g, h]
        let (tail, after) ← readLongBasic fuel rest
        return (code :: tail, after)
      | '\\' :: 'u' :: a :: b :: c :: d :: rest => do
        let code ← scalar? [a, b, c, d]
        let (tail, after) ← readLongBasic fuel rest
        return (code :: tail, after)
      | '\\' :: letter :: rest =>
        match shortEscape? letter with
        | some c => do
          let (tail, after) ← readLongBasic fuel rest
          return (c :: tail, after)
        | none => do
          let after ← skipEscapedBreak (letter :: rest)
          if returnsPaired ((letter :: rest).take ((letter :: rest).length - after.length)) then
            readLongBasic fuel after
          else none
      | '\r' :: '\n' :: rest => do
        let (tail, after) ← readLongBasic fuel rest
        return ('\n' :: tail, after)
      | c :: rest =>
        if isBasicChar c || c == '"' || c == '\n' then do
          let (tail, after) ← readLongBasic fuel rest
          return (c :: tail, after)
        else none

/-- The rest of a literal string over several lines, and what follows its closing quotes. -/
def readLongLiteral : Nat → List Char → Option (List Char × List Char)
  | 0, _ => none
  | fuel + 1, cs =>
    match takeClosing '\'' cs with
    | some closing => some closing
    | none =>
      match cs with
      | [] => none
      | '\r' :: '\n' :: rest => do
        let (tail, after) ← readLongLiteral fuel rest
        return ('\n' :: tail, after)
      | c :: rest =>
        if isCommentChar c || c == '\n' then do
          let (tail, after) ← readLongLiteral fuel rest
          return (c :: tail, after)
        else none

/-- The text without a line break at its start. -/
def dropNewline (cs : List Char) : List Char := (takeNewline cs).getD cs

/-- A string of any form, and what follows it. -/
def readText : List Char → Option (List Char × List Char)
  | '"' :: '"' :: '"' :: rest => readLongBasic (rest.length + 1) (dropNewline rest)
  | '\'' :: '\'' :: '\'' :: rest => readLongLiteral (rest.length + 1) (dropNewline rest)
  | '"' :: rest => readBasic rest
  | '\'' :: rest => readLiteral rest
  | _ => none

/-! ## Keys -/

/-- May the character stand in a bare key? -/
def isBareKeyChar (c : Char) : Bool := c.isAlphanum || c == '_' || c == '-'

/-- One part of a key, and what follows it. -/
def readSimpleKey : List Char → Option (List Char × List Char)
  | '"' :: rest => readBasic rest
  | '\'' :: rest => readLiteral rest
  | cs =>
    match cs.span isBareKeyChar with
    | ([], _) => none
    | (key, rest) => some (key, rest)

/-- The parts of a key, dots between them, and what follows it. A key has at most `fuel` parts. -/
def readKeyParts : Nat → List Char → Option (List String × List Char)
  | 0, _ => none
  | fuel + 1, cs => do
    let (part, cs) ← readSimpleKey (skipSpace cs)
    match skipSpace cs with
    | '.' :: rest =>
      let (parts, rest) ← readKeyParts fuel rest
      return (String.ofList part :: parts, rest)
    | rest => return ([String.ofList part], rest)

/-- How many parts a key may have, and one more than how deep values may nest. -/
def maxNesting : Nat := 80

/-- A key, split into the path to its table and its name, and what follows it. -/
def readKey (cs : List Char) : Option ((List String × String) × List Char) := do
  let (parts, rest) ← readKeyParts (maxNesting - 1) cs
  return ((parts.dropLast, ← parts.getLast?), rest)

/-! ## Numbers -/

/-- Digits with single underscores between them, the underscores left out, and what follows. -/
def readDigitRun (isDigit : Char → Bool) : List Char → Option (List Char × List Char)
  | [] => none
  | c :: cs =>
    if isDigit c then
      match cs with
      | '_' :: rest => do
        let (digits, rest) ← readDigitRun isDigit rest
        return (c :: digits, rest)
      | d :: rest =>
        if isDigit d then do
          let (digits, rest) ← readDigitRun isDigit (d :: rest)
          return (c :: digits, rest)
        else some ([c], d :: rest)
      | [] => some ([c], [])
    else none

/-- A whole number in a radix given by its letter, and what follows it. -/
def readRadix (radix : Nat) (isDigit : Char → Bool) (cs : List Char) :
    Option (Json × List Char) := do
  let (digits, rest) ← readDigitRun isDigit cs
  let n ← digits.foldlM (fun acc c => (Json.hexDigit? c).map fun d => acc * radix + d) 0
  if n < Nat.pow 2 63 then some (.integer n, rest) else none

/-- A sign, and what follows it. -/
def readSign : List Char → Bool × List Char
  | '-' :: cs => (true, cs)
  | '+' :: cs => (false, cs)
  | cs => (false, cs)

/-- Digits that do not start with a zero unless they are a zero alone, and what follows them. -/
def readWholeDigits (cs : List Char) : Option (List Char × List Char) :=
  match cs with
  | '0' :: rest => some (['0'], rest)
  | _ => readDigitRun Char.isDigit cs

/-- The exponent of a float, and what follows it. -/
def readExponent (cs : List Char) : Option (Int × List Char) := do
  let (negative, cs) := readSign cs
  let (digits, rest) ← readDigitRun Char.isDigit cs
  let n : Int := digitsNumber digits
  return (if negative then -n else n, rest)

/-- The value of a float, which is no JSON number if it is not finite. A float beyond the positive
doubles is refused. -/
def floatValue (negative : Bool) (whole fraction : List Char) (exponent : Int) : Option Json :=
  let magnitude : Decimal.Numeral :=
    ⟨digitsNumber (whole ++ fraction), exponent - fraction.length⟩
  let f := (Decimal.Reading.finite negative magnitude).toFloat
  if f.isInf then (if negative then some .null else none) else some (.float f)

/-- A whole number or a float in decimal, and what follows it. -/
def readDecimal (cs : List Char) : Option (Json × List Char) := do
  let (negative, cs) := readSign cs
  let (whole, rest) ← readWholeDigits cs
  let integer : Option (Json × List Char) :=
    let n := digitsNumber whole
    let value : Int := if negative then -(n : Int) else n
    if -Int.pow 2 63 ≤ value ∧ value < Int.pow 2 63 then some (.integer value, rest) else none
  match rest with
  | '.' :: after =>
    match readDigitRun Char.isDigit after with
    | some (fraction, e :: after) =>
      if e = 'e' ∨ e = 'E' then do
        let (exponent, after) ← readExponent after
        return (← floatValue negative whole fraction exponent, after)
      else return (← floatValue negative whole fraction 0, e :: after)
    | some (fraction, []) => return (← floatValue negative whole fraction 0, [])
    | none => integer
  | e :: after =>
    if e = 'e' ∨ e = 'E' then do
      let (exponent, after) ← readExponent after
      return (← floatValue negative whole [] exponent, after)
    else integer
  | [] => integer

/-- A number of any form, and what follows it. -/
def readNumber (cs : List Char) : Option (Json × List Char) :=
  match readSign cs with
  | (_, 'i' :: 'n' :: 'f' :: rest) => some (.null, rest)
  | (_, 'n' :: 'a' :: 'n' :: rest) => some (.null, rest)
  | _ =>
    match cs with
    | '0' :: 'x' :: rest => readRadix 16 (fun c => (Json.hexDigit? c).isSome) rest
    | '0' :: 'o' :: rest => readRadix 8 (fun c => '0' ≤ c && c ≤ '7') rest
    | '0' :: 'b' :: rest => readRadix 2 (fun c => c == '0' || c == '1') rest
    | _ => readDecimal cs

/-- A date, a time or a number, and what follows it. -/
def readDateOrNumber (cs : List Char) : Option (Item × List Char) :=
  match readDateTime cs with
  | .found text rest => some (.date text, rest)
  | .broken => none
  | .absent => (readNumber cs).map fun r => (.plain r.1, r.2)

/-! ## Values -/

mutual

/-- A value, and what follows it. Each step uses up one unit of `fuel`. -/
def readValue : Nat → Nat → List Char → Option (Item × List Char)
  | 0, _, _ => none
  | fuel + 1, depth, cs =>
    match cs with
    | '"' :: _ => (readText cs).map fun r => (.plain (.string (String.ofList r.1)), r.2)
    | '\'' :: _ => (readText cs).map fun r => (.plain (.string (String.ofList r.1)), r.2)
    | 't' :: 'r' :: 'u' :: 'e' :: rest => some (.plain (.bool true), rest)
    | 'f' :: 'a' :: 'l' :: 's' :: 'e' :: rest => some (.plain (.bool false), rest)
    | '[' :: rest =>
      match depth with
      | 0 => none
      | depth + 1 => (readItems fuel depth rest).map fun r => (.array r.1, r.2)
    | '{' :: rest =>
      match depth with
      | 0 => none
      | depth + 1 => do
        match skipSpace rest with
        | '}' :: rest => return (.inline [], rest)
        | rest =>
          let (pairs, rest) ← readPairs fuel depth rest
          return (.inline (← Node.empty.addPairs pairs).fields, rest)
    | _ => readDateOrNumber cs

/-- The items of an array up to its closing bracket. -/
def readItems : Nat → Nat → List Char → Option (List Item × List Char)
  | 0, _, _ => none
  | fuel + 1, depth, cs =>
    match skipLines cs.length cs with
    | ']' :: rest => some ([], rest)
    | cs => do
      let (item, cs) ← readValue fuel depth cs
      match skipLines cs.length cs with
      | ']' :: rest => return ([item], rest)
      | ',' :: rest =>
        let (items, rest) ← readItems fuel depth rest
        return (item :: items, rest)
      | _ => none

/-- The pairs of an inline table up to its closing brace, at least one. -/
def readPairs : Nat → Nat → List Char → Option (List Node.Pair × List Char)
  | 0, _, _ => none
  | fuel + 1, depth, cs => do
    let ((path, key), cs) ← readKey cs
    match cs with
    | '=' :: rest =>
      let (value, cs) ← readValue fuel depth (skipSpace rest)
      match skipSpace cs with
      | '}' :: rest => return ([⟨path, key, value⟩], rest)
      | ',' :: rest =>
        let (pairs, rest) ← readPairs fuel depth rest
        return (⟨path, key, value⟩ :: pairs, rest)
      | _ => none
    | _ => none

end

/-! ## Documents -/

/-- A pair up to the end of its line. -/
def readPair (cs : List Char) : Option (Node.Pair × List Char) := do
  let ((path, key), cs) ← readKey cs
  let cs ← takeChar '=' cs
  let cs := skipSpace cs
  let (value, cs) ← readValue (2 * cs.length + 2) (maxNesting - 1) cs
  return (⟨path, key, value⟩, ← takeLineEnd cs)

/-- A header up to the end of its line. -/
def readHeader : List Char → Option (Header × List Char)
  | '[' :: '[' :: cs => do
    let ((path, key), cs) ← readKey cs
    let cs ← takeChar ']' cs
    let cs ← takeChar ']' cs
    return (⟨path, key, true⟩, ← takeLineEnd cs)
  | '[' :: cs => do
    let ((path, key), cs) ← readKey cs
    let cs ← takeChar ']' cs
    return (⟨path, key, false⟩, ← takeLineEnd cs)
  | _ => none

/-- The pairs up to the next header, and the blocks from there on. Each step reads a line. -/
def readLines : Nat → List Char → Option (List Node.Pair × List Block)
  | 0, _ => none
  | fuel + 1, cs =>
    match skipSpace cs with
    | [] => some ([], [])
    | '[' :: rest => do
      let (header, cs) ← readHeader ('[' :: rest)
      let (pairs, blocks) ← readLines fuel cs
      return ([], ⟨header, pairs⟩ :: blocks)
    | c :: rest =>
      if c = '#' ∨ c = '\n' ∨ c = '\r' then do
        readLines fuel (← takeLineEnd (c :: rest))
      else do
        let (pair, cs) ← readPair (c :: rest)
        let (pairs, blocks) ← readLines fuel cs
        return (pair :: pairs, blocks)

/-- The JSON form of the document that a text writes. A byte order mark at its start is skipped. -/
def parse? (text : String) : Option Json := do
  let cs := match text.toList with
    | c :: rest => if c.toNat = 0xFEFF then rest else c :: rest
    | [] => []
  let (pairs, blocks) ← readLines (cs.length + 2) cs
  (← assemble? pairs blocks).toJson?

end StyledTemplate.Toml
