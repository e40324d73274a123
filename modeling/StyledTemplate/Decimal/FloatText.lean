import StyledTemplate.Decimal.Shortest

/-!
# Floating-point numbers as text

A finite number is written positionally with the fewest digits that read back as the same number, a
whole number without a point, and the sign of zero is kept. The other three are `NaN`, `inf` and
`-inf`.

Reading accepts an optional sign and then either one of the words `inf`, `infinity` and `nan` in any
mixture of cases, or decimal digits with at most one point and an optional exponent, and gives the
nearest number.
-/

namespace StyledTemplate.Decimal

/-- Bits of the fraction field of a double. -/
def fractionBits : Nat := 52

/-- The text of a finite positive or negative double, given by the fields of its binary form. -/
def finiteText (negative : Bool) (biased fraction : Nat) : List Char :=
  let sign := if negative then ['-'] else []
  if biased = 0 ∧ fraction = 0 then sign ++ ['0']
  else if biased = 0 then sign ++ (shortest fraction (-1074) false).positional
  else
    sign ++ (shortest (Nat.pow 2 fractionBits + fraction) (biased - 1075)
      (fraction == 0 && biased != 1)).positional

/-- The text of a double. -/
def floatText (f : Float) : String :=
  let bits := f.toBits.toNat
  let negative := bits / Nat.pow 2 63 == 1
  let biased := bits / Nat.pow 2 fractionBits % Nat.pow 2 11
  let fraction := bits % Nat.pow 2 fractionBits
  if biased = 2047 then
    if fraction = 0 then (if negative then "-inf" else "inf") else "NaN"
  else String.ofList (finiteText negative biased fraction)

/-- The longest prefix of decimal digits, and what follows it. -/
def spanDigits (cs : List Char) : List Char × List Char := cs.span Char.isDigit

/-- The whole number written by decimal digits. -/
def digitsNumber (cs : List Char) : Nat :=
  cs.foldl (fun acc c => acc * 10 + (c.toNat - '0'.toNat)) 0

/-- The exponent part of a number: absent, or `e` with an optional sign and at least one digit. -/
def readExponent? : List Char → Option Int
  | [] => some 0
  | e :: cs =>
    if e = 'e' ∨ e = 'E' then
      let (negative, digits) := match cs with
        | '-' :: rest => (true, rest)
        | '+' :: rest => (false, rest)
        | _ => (false, cs)
      if digits.isEmpty || !digits.all Char.isDigit then none
      else some (if negative then -(digitsNumber digits : Int) else digitsNumber digits)
    else none

/-- Digits with an optional point among or around them and an optional exponent. -/
def readDecimal? (cs : List Char) : Option Numeral :=
  let (whole, rest) := spanDigits cs
  let (fraction, rest) := match rest with
    | '.' :: rest => spanDigits rest
    | _ => ([], rest)
  if whole.isEmpty && fraction.isEmpty then none
  else (readExponent? rest).map fun e =>
    ⟨digitsNumber (whole ++ fraction), e - fraction.length⟩

/-- Is the decimal at least `10 ^ 310`, beyond every finite double? -/
def Numeral.isHuge (d : Numeral) : Bool :=
  d.coefficient ≠ 0 && (digitCount d.coefficient : Int) + d.exponent > 310

/-- Is the decimal below `10 ^ -400`, nearer to zero than to every double? -/
def Numeral.isTiny (d : Numeral) : Bool :=
  d.coefficient == 0 || (digitCount d.coefficient : Int) + d.exponent < -400

/-- The double nearest to a decimal. -/
def Numeral.toFloat (d : Numeral) : Float :=
  if d.isTiny then 0.0
  else if d.isHuge then 1.0 / 0.0
  else if 0 ≤ d.exponent then
    Float.ofScientific (d.coefficient * Nat.pow 10 d.exponent.toNat) false 0
  else Float.ofScientific d.coefficient true (-d.exponent).toNat

/-- The single-precision number nearest to a decimal. -/
def Numeral.toFloat32 (d : Numeral) : Float32 :=
  if d.isTiny then 0.0
  else if d.isHuge then 1.0 / 0.0
  else if 0 ≤ d.exponent then
    Float32.ofScientific (d.coefficient * Nat.pow 10 d.exponent.toNat) false 0
  else Float32.ofScientific d.coefficient true (-d.exponent).toNat

/-- What a text of a number says, before rounding. -/
inductive Reading where
  /-- Not a number. -/
  | nan
  /-- An infinity. -/
  | infinity (negative : Bool)
  /-- A finite number. -/
  | finite (negative : Bool) (magnitude : Numeral)
  deriving Repr

/-- Reads the text of a number. -/
def Reading.ofText? (cs : List Char) : Option Reading :=
  let (negative, body) := match cs with
    | '-' :: rest => (true, rest)
    | '+' :: rest => (false, rest)
    | _ => (false, cs)
  let word := String.ofList (body.map Char.toLower)
  if word = "inf" ∨ word = "infinity" then some (.infinity negative)
  else if word = "nan" then some .nan
  else (readDecimal? body).map (.finite negative)

/-- The double nearest to the number read. -/
def Reading.toFloat : Reading → Float
  | .nan => 0.0 / 0.0
  | .infinity negative => if negative then -1.0 / 0.0 else 1.0 / 0.0
  | .finite negative magnitude => if negative then -magnitude.toFloat else magnitude.toFloat

/-- The single-precision number nearest to the number read. -/
def Reading.toFloat32 : Reading → Float32
  | .nan => 0.0 / 0.0
  | .infinity negative => if negative then -1.0 / 0.0 else 1.0 / 0.0
  | .finite negative magnitude => if negative then -magnitude.toFloat32 else magnitude.toFloat32

/-- The double nearest to the number that a text writes. -/
def readFloat? (text : String) : Option Float := (Reading.ofText? text.toList).map Reading.toFloat

/-- The single-precision number nearest to the number that a text writes. -/
def readFloat32? (text : String) : Option Float32 :=
  (Reading.ofText? text.toList).map Reading.toFloat32

end StyledTemplate.Decimal
