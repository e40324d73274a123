/-!
# The shortest decimal of a binary number

A positive number `mantissa · 2 ^ exponent` is written with the fewest digits that still read back
as the same number: the decimals that do form an interval around it, and of the shortest ones inside
the one nearest to the number is taken. All arithmetic is on natural numbers, so nothing is rounded
on the way.

A decimal is a pair of a coefficient and an exponent, standing for `coefficient · 10 ^ exponent`.
-/

namespace StyledTemplate.Decimal

/-- A decimal number `coefficient · 10 ^ exponent`. -/
structure Numeral where
  /-- The digits, read as a whole number. -/
  coefficient : Nat
  /-- The power of ten they are scaled by. -/
  exponent : Int
  deriving Repr, DecidableEq

/-- A number on the binary grid together with the interval of reals that round to it. All three are
multiples of a common unit `unitNum / unitDen`. -/
structure Rounding where
  /-- The number itself, in units. -/
  value : Nat
  /-- The lower end of the interval, in units. -/
  low : Nat
  /-- The upper end of the interval, in units. -/
  high : Nat
  /-- Do the ends of the interval round to the number, too? -/
  closed : Bool
  /-- Numerator of the unit. -/
  unitNum : Nat
  /-- Denominator of the unit. -/
  unitDen : Nat

/-- The rounding interval of `mantissa · 2 ^ exponent`. Its unit is a quarter of the grid step: the
neighbours are one step away, except that the step below a power of two is half as wide. -/
def Rounding.of (mantissa : Nat) (exponent : Int) (narrowBelow : Bool) : Rounding where
  value := 4 * mantissa
  low := 4 * mantissa - (if narrowBelow then 1 else 2)
  high := 4 * mantissa + 2
  closed := mantissa % 2 == 0
  unitNum := Nat.pow 2 (exponent - 2).toNat
  unitDen := Nat.pow 2 (2 - exponent).toNat

/-- Is `n · 10 ^ k` inside the rounding interval? -/
def Rounding.contains (r : Rounding) (n : Nat) (k : Int) : Bool :=
  let point := n * Nat.pow 10 k.toNat * r.unitDen
  let scale := r.unitNum * Nat.pow 10 (-k).toNat
  if r.closed then r.low * scale ≤ point && point ≤ r.high * scale
  else r.low * scale < point && point < r.high * scale

/-- The largest `n` with `n · 10 ^ k` at most the number. -/
def Rounding.floorAt (r : Rounding) (k : Int) : Nat :=
  (r.value * r.unitNum * Nat.pow 10 (-k).toNat) / (r.unitDen * Nat.pow 10 k.toNat)

/-- Is the number nearer to `n · 10 ^ k` than to `(n + 1) · 10 ^ k`? -/
def Rounding.nearerBelow (r : Rounding) (n : Nat) (k : Int) : Bool :=
  2 * (r.value * r.unitNum * Nat.pow 10 (-k).toNat) <
    (2 * n + 1) * (r.unitDen * Nat.pow 10 k.toNat)

/-- The decimal of the grid with step `10 ^ k` that reads back as the number, if there is one. -/
def Rounding.onGrid? (r : Rounding) (k : Int) : Option Numeral :=
  let below := r.floorAt k
  match r.contains below k, r.contains (below + 1) k with
  | true, true => some ⟨if r.nearerBelow below k then below else below + 1, k⟩
  | true, false => some ⟨below, k⟩
  | false, true => some ⟨below + 1, k⟩
  | false, false => none

/-- The number of decimal digits of a positive number. -/
def digitCount (n : Nat) : Nat := (Nat.toDigits 10 n).length

/-- The least `e` for which the number is below `10 ^ e`. -/
def Rounding.magnitude (r : Rounding) : Int :=
  let num := r.value * r.unitNum
  if num ≥ r.unitDen then (digitCount (num / r.unitDen) : Nat)
  else
    let count := digitCount (r.unitDen / num)
    if num * Nat.pow 10 (count - 1) ≥ r.unitDen then 2 - (count : Int) else 1 - (count : Int)

/-- Tries the grids of `digits`, `digits + 1`, … digits, at most `more` of them. -/
def Rounding.search (r : Rounding) (magnitude : Int) (digits : Nat) : Nat → Numeral
  | 0 => ⟨r.floorAt (magnitude - digits), magnitude - digits⟩
  | more + 1 =>
    match r.onGrid? (magnitude - digits) with
    | some decimal => decimal
    | none => r.search magnitude (digits + 1) more

/-- Moves zeros at the end of the coefficient into the exponent, at most `limit` of them. -/
def dropZeros (coefficient : Nat) (exponent : Int) : Nat → Numeral
  | 0 => ⟨coefficient, exponent⟩
  | limit + 1 =>
    if coefficient % 10 = 0 ∧ coefficient ≠ 0 then dropZeros (coefficient / 10) (exponent + 1) limit
    else ⟨coefficient, exponent⟩

/-- The shortest decimal that reads back as the positive number `mantissa · 2 ^ exponent`. Seventeen
digits always suffice for a mantissa of at most 53 bits. -/
def shortest (mantissa : Nat) (exponent : Int) (narrowBelow : Bool) : Numeral :=
  let r := Rounding.of mantissa exponent narrowBelow
  let decimal := r.search r.magnitude 1 17
  dropZeros decimal.coefficient decimal.exponent 17

/-- The decimal without an exponent, zeros filling the places its digits do not reach. -/
def Numeral.positional (d : Numeral) : List Char :=
  let digits := Nat.toDigits 10 d.coefficient
  if 0 ≤ d.exponent then digits ++ List.replicate d.exponent.toNat '0'
  else
    let places := (-d.exponent).toNat
    if digits.length ≤ places then
      '0' :: '.' :: (List.replicate (places - digits.length) '0' ++ digits)
    else
      digits.take (digits.length - places) ++ '.' :: digits.drop (digits.length - places)

end StyledTemplate.Decimal
