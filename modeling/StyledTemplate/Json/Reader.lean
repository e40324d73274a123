import StyledTemplate.Json.Basic
import StyledTemplate.Decimal.FloatText

/-!
# Reading JSON text

A strict reader: no comments, no trailing commas, one value with nothing but white space around it.
A number without a fraction and an exponent is a whole number if it fits 64 bits, except that `-0`
is the negative zero; any other number is the nearest double, and one beyond the doubles is refused.
Of repeated names in an object the last wins. Arrays and objects may nest 127 levels deep.
-/

namespace StyledTemplate.Json

open Decimal (spanDigits digitsNumber)

/-- The white space of JSON. -/
def isSpace (c : Char) : Bool := c == ' ' || c == '\n' || c == '\t' || c == '\r'

/-- The text from its first character that is not white space. -/
def skipSpace (cs : List Char) : List Char := cs.dropWhile isSpace

/-- The value of a hexadecimal digit. -/
def hexDigit? (c : Char) : Option Nat :=
  if c.isDigit then some (c.toNat - '0'.toNat)
  else if 'a' ≤ c ∧ c ≤ 'f' then some (c.toNat - 'a'.toNat + 10)
  else if 'A' ≤ c ∧ c ≤ 'F' then some (c.toNat - 'A'.toNat + 10)
  else none

/-- The number written by four hexadecimal digits. -/
def hexUnit? (a b c d : Char) : Option Nat := do
  return (← hexDigit? a) * 4096 + (← hexDigit? b) * 256 + (← hexDigit? c) * 16 + (← hexDigit? d)

/-- The character of an escape of one letter. -/
def shortEscape? : Char → Option Char
  | '"' => some '"'
  | '\\' => some '\\'
  | '/' => some '/'
  | 'b' => some (Char.ofNat 8)
  | 'f' => some (Char.ofNat 12)
  | 'n' => some '\n'
  | 'r' => some '\r'
  | 't' => some '\t'
  | _ => none

/-- Is the number the first half of a pair of surrogates? -/
def isHighSurrogate (n : Nat) : Bool := 0xD800 ≤ n && n < 0xDC00

/-- Is the number the second half of a pair of surrogates? -/
def isLowSurrogate (n : Nat) : Bool := 0xDC00 ≤ n && n < 0xE000

/-- The rest of a string after its opening quote, and what follows its closing quote. -/
def readString : List Char → Option (List Char × List Char)
  | [] => none
  | '"' :: rest => some ([], rest)
  | '\\' :: 'u' :: a :: b :: c :: d :: '\\' :: 'u' :: e :: f :: g :: h :: rest => do
    let first ← hexUnit? a b c d
    let second ← hexUnit? e f g h
    if isHighSurrogate first then
      if isLowSurrogate second then
        let code := 0x10000 + (first - 0xD800) * 1024 + (second - 0xDC00)
        let (tail, after) ← readString rest
        return (Char.ofNat code :: tail, after)
      else none
    else if isLowSurrogate first then none
    else
      let (tail, after) ← readString ('\\' :: 'u' :: e :: f :: g :: h :: rest)
      return (Char.ofNat first :: tail, after)
  | '\\' :: 'u' :: a :: b :: c :: d :: rest => do
    let code ← hexUnit? a b c d
    if isHighSurrogate code || isLowSurrogate code then none
    else
      let (tail, after) ← readString rest
      return (Char.ofNat code :: tail, after)
  | '\\' :: letter :: rest => do
    let c ← shortEscape? letter
    let (tail, after) ← readString rest
    return (c :: tail, after)
  | c :: rest =>
    if c.toNat < 0x20 then none
    else do
      let (tail, after) ← readString rest
      return (c :: tail, after)

/-- The digits before the point of a number: a zero alone, or digits that start with another. -/
def readWhole (cs : List Char) : Option (List Char × List Char) :=
  match spanDigits cs with
  | ([], _) => none
  | ('0' :: _ :: _, _) => none
  | (digits, rest) => some (digits, rest)

/-- The digits after the point of a number, none if it has no point. -/
def readFraction : List Char → Option (List Char × List Char)
  | '.' :: cs =>
    match spanDigits cs with
    | ([], _) => none
    | (digits, rest) => some (digits, rest)
  | cs => some ([], cs)

/-- The exponent of a number, if it has one. -/
def readExponent (cs : List Char) : Option (Option Int × List Char) :=
  match cs with
  | e :: rest =>
    if e = 'e' ∨ e = 'E' then
      let (negative, digits) := match rest with
        | '-' :: more => (true, more)
        | '+' :: more => (false, more)
        | _ => (false, rest)
      match spanDigits digits with
      | ([], _) => none
      | (digits, rest) =>
        let n : Int := digitsNumber digits
        some (some (if negative then -n else n), rest)
    else some (none, cs)
  | [] => some (none, cs)

/-- The value of a number from its parts. -/
def numberValue (negative : Bool) (whole fraction : List Char) (exponent : Option Int) :
    Option Json :=
  let n := digitsNumber whole
  let magnitude : Decimal.Numeral :=
    ⟨digitsNumber (whole ++ fraction), exponent.getD 0 - fraction.length⟩
  let float := (Decimal.Reading.finite negative magnitude).toFloat
  let rounded := if float.isInf then none else some (.float float)
  if fraction.isEmpty && exponent.isNone then
    if negative then
      if n ≠ 0 ∧ n ≤ Nat.pow 2 63 then some (.integer (-(n : Int))) else rounded
    else if n < Nat.pow 2 64 then some (.integer n) else rounded
  else rounded

/-- A number, and what follows it. -/
def readNumber (cs : List Char) : Option (Json × List Char) := do
  let (negative, cs) := match cs with
    | '-' :: rest => (true, rest)
    | _ => (false, cs)
  let (whole, cs) ← readWhole cs
  let (fraction, cs) ← readFraction cs
  let (exponent, cs) ← readExponent cs
  return (← numberValue negative whole fraction exponent, cs)

/-- How deep arrays and objects may nest. -/
def maxDepth : Nat := 127

mutual

/-- A value, and what follows it. Each step uses up one unit of `fuel`, and each reads at least one
character or enters a construct at one. -/
def readValue : Nat → Nat → List Char → Option (Json × List Char)
  | 0, _, _ => none
  | fuel + 1, depth, cs =>
    match skipSpace cs with
    | 'n' :: 'u' :: 'l' :: 'l' :: rest => some (.null, rest)
    | 't' :: 'r' :: 'u' :: 'e' :: rest => some (.bool true, rest)
    | 'f' :: 'a' :: 'l' :: 's' :: 'e' :: rest => some (.bool false, rest)
    | '"' :: rest => (readString rest).map fun r => (.string (String.ofList r.1), r.2)
    | '[' :: rest =>
      match depth with
      | 0 => none
      | depth + 1 =>
        match skipSpace rest with
        | ']' :: rest => some (.array [], rest)
        | rest => (readItems fuel depth rest).map fun r => (.array r.1, r.2)
    | '{' :: rest =>
      match depth with
      | 0 => none
      | depth + 1 =>
        match skipSpace rest with
        | '}' :: rest => some (.object [], rest)
        | rest => (readMembers fuel depth rest).map fun r => (.object (Fields.ofList r.1), r.2)
    | cs => readNumber cs

/-- The items of an array up to its closing bracket, at least one. -/
def readItems : Nat → Nat → List Char → Option (List Json × List Char)
  | 0, _, _ => none
  | fuel + 1, depth, cs => do
    let (item, cs) ← readValue fuel depth cs
    match skipSpace cs with
    | ']' :: rest => return ([item], rest)
    | ',' :: rest =>
      let (items, rest) ← readItems fuel depth rest
      return (item :: items, rest)
    | _ => none

/-- The members of an object up to its closing brace, at least one. -/
def readMembers : Nat → Nat → List Char → Option (List (String × Json) × List Char)
  | 0, _, _ => none
  | fuel + 1, depth, cs =>
    match skipSpace cs with
    | '"' :: rest => do
      let (name, cs) ← readString rest
      match skipSpace cs with
      | ':' :: rest =>
        let (value, cs) ← readValue fuel depth rest
        match skipSpace cs with
        | '}' :: rest => return ([(String.ofList name, value)], rest)
        | ',' :: rest =>
          let (members, rest) ← readMembers fuel depth rest
          return ((String.ofList name, value) :: members, rest)
        | _ => none
      | _ => none
    | _ => none

end

/-- The value that a text writes. Two steps for each character are more than enough. -/
def parse? (text : String) : Option Json :=
  let cs := text.toList
  match readValue (2 * cs.length + 2) maxDepth cs with
  | some (value, rest) => if (skipSpace rest).isEmpty then some value else none
  | none => none

end StyledTemplate.Json
