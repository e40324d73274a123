/-!
# Whole numbers in text

A whole number is written with decimal digits, at least one, after an optional sign. A number that
does not fit the wanted width is refused, not wrapped.
-/

namespace StyledTemplate.Text

/-- The number that a list of decimal digits writes, read on from `acc`. -/
def digitsValue (acc : Nat) : List Char → Option Nat
  | [] => some acc
  | c :: cs => if c.isDigit then digitsValue (acc * 10 + (c.toNat - '0'.toNat)) cs else none

/-- The number written by one or more decimal digits. -/
def readDigits? : List Char → Option Nat
  | [] => none
  | cs => digitsValue 0 cs

/-- A number below `2 ^ bits`; a plus sign is allowed. -/
def readUnsigned? (bits : Nat) (cs : List Char) : Option Nat :=
  let digits := match cs with
    | '+' :: rest => rest
    | _ => cs
  (readDigits? digits).filter (· < Nat.pow 2 bits)

/-- A number of a signed type with `bits` bits; a plus or minus sign is allowed. -/
def readSigned? (bits : Nat) (cs : List Char) : Option Int :=
  let number : Option Int := match cs with
    | '+' :: rest => (readDigits? rest).map Int.ofNat
    | '-' :: rest => (readDigits? rest).map fun n => -(n : Int)
    | _ => (readDigits? cs).map Int.ofNat
  number.filter fun n => -Int.pow 2 (bits - 1) ≤ n && n < Int.pow 2 (bits - 1)

end StyledTemplate.Text
