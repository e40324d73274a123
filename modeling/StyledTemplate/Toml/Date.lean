import StyledTemplate.Decimal.FloatText

/-!
# TOML dates and times

A date, a time of day, or both, the latter with an optional offset from universal time. Their text
form has a `T` between date and time, two digits for each part and the fraction of a second without
zeros at its end.
-/

namespace StyledTemplate.Toml

open Decimal (spanDigits digitsNumber)

/-- Exactly `n` decimal digits, and what follows them. -/
def takeDigits (n : Nat) (cs : List Char) : Option (Nat × List Char) :=
  let digits := cs.take n
  if digits.length = n && digits.all Char.isDigit then some (digitsNumber digits, cs.drop n)
  else none

/-- A number of two digits in a range, and what follows it. -/
def takePart (low high : Nat) (cs : List Char) : Option (Nat × List Char) :=
  (takeDigits 2 cs).filter fun part => low ≤ part.1 && part.1 ≤ high

/-- One given character, and what follows it. -/
def takeChar (c : Char) : List Char → Option (List Char)
  | [] => none
  | d :: cs => if c = d then some cs else none

/-- The number in `width` digits or more, zeros put before it. -/
def padded (width n : Nat) : List Char :=
  let digits := Nat.toDigits 10 n
  List.replicate (width - digits.length) '0' ++ digits

/-- The number of days of a month. -/
def daysInMonth (year month : Nat) : Nat :=
  if month = 2 then
    if year % 4 = 0 ∧ (year % 100 ≠ 0 ∨ year % 400 = 0) then 29 else 28
  else if month = 4 ∨ month = 6 ∨ month = 9 ∨ month = 11 then 30
  else 31

/-- What reading something that may be absent finds: nothing like it, a broken form of it, or it
together with what follows. -/
inductive Outcome (α : Type) where
  /-- The text does not start such a thing. -/
  | absent
  /-- The text starts such a thing but does not finish it. -/
  | broken
  /-- The thing and what follows it. -/
  | found (value : α) (rest : List Char)

/-- An outcome that is broken if nothing was found. -/
def Outcome.ofCommitted {α : Type} : Option (α × List Char) → Outcome α
  | none => .broken
  | some (value, rest) => .found value rest

/-- A date, in its text form. A year and a hyphen commit to it. -/
def readDate (cs : List Char) : Outcome (List Char) :=
  match takeDigits 4 cs with
  | some (year, '-' :: cs) =>
    .ofCommitted do
      let (month, cs) ← takePart 1 12 cs
      let cs ← takeChar '-' cs
      let (day, cs) ← takePart 1 31 cs
      if day ≤ daysInMonth year month then
        some (padded 4 year ++ '-' :: padded 2 month ++ '-' :: padded 2 day, cs)
      else none
  | _ => .absent

/-- The fraction of a second in nanoseconds, further digits cut off, in its text form. -/
def fractionText (digits : List Char) : List Char :=
  let nanos := digits.take 9
  let filled := nanos ++ List.replicate (9 - nanos.length) '0'
  let kept := (filled.reverse.dropWhile (· == '0')).reverse
  if kept.isEmpty then [] else '.' :: kept

/-- A time of day, in its text form. An hour and a colon commit to it. -/
def readTime (cs : List Char) : Outcome (List Char) :=
  match takePart 0 23 cs with
  | some (hour, ':' :: cs) =>
    .ofCommitted do
      let (minute, cs) ← takePart 0 59 cs
      let cs ← takeChar ':' cs
      let (second, cs) ← takePart 0 60 cs
      let text := padded 2 hour ++ ':' :: padded 2 minute ++ ':' :: padded 2 second
      match cs with
      | '.' :: d :: rest =>
        if d.isDigit then
          let (digits, rest) := spanDigits (d :: rest)
          some (text ++ fractionText digits, rest)
        else some (text, cs)
      | _ => some (text, cs)
  | _ => .absent

/-- An offset from universal time, in its text form. A sign commits to it. -/
def readOffset : List Char → Outcome (List Char)
  | 'Z' :: cs => .found ['Z'] cs
  | 'z' :: cs => .found ['Z'] cs
  | sign :: cs =>
    if sign = '+' ∨ sign = '-' then
      .ofCommitted do
        let (hour, cs) ← takePart 0 23 cs
        let cs ← takeChar ':' cs
        let (minute, cs) ← takePart 0 59 cs
        let sign := if hour = 0 ∧ minute = 0 then '+' else sign
        some (sign :: padded 2 hour ++ ':' :: padded 2 minute, cs)
    else .absent
  | [] => .absent

/-- A time of day with an optional offset after the date `date`. -/
def readTimeAfter (date : List Char) (cs : List Char) : Outcome (List Char) :=
  match cs with
  | delimiter :: after =>
    if delimiter = 'T' ∨ delimiter = 't' ∨ delimiter = ' ' then
      match readTime after with
      | .absent => .found date cs
      | .broken => .broken
      | .found time rest =>
        match readOffset rest with
        | .absent => .found (date ++ 'T' :: time) rest
        | .broken => .broken
        | .found offset rest => .found (date ++ 'T' :: time ++ offset) rest
    else .found date cs
  | [] => .found date cs

/-- A date, a time, or both, in their text form. -/
def readDateTime (cs : List Char) : Outcome (List Char) :=
  match readDate cs with
  | .absent => readTime cs
  | .broken => .broken
  | .found date rest => readTimeAfter date rest

end StyledTemplate.Toml
