import StyledTemplate.Toml.Date

/-!
# Dates in strings

A date that is given as a string and not as a value of its own is read more freely: an hour may be
24, an offset counts its minutes beyond 59 as hours and reaches up to a day, and a date may have an
offset without a time. The text form is the same.
-/

namespace StyledTemplate.Toml

open Decimal (spanDigits)

/-- An offset from universal time that ends a string, in its text form, or nothing. -/
def offsetString? : List Char → Option (List Char)
  | [] => some []
  | ['Z'] => some ['Z']
  | ['z'] => some ['Z']
  | sign :: cs =>
    if sign = '+' ∨ sign = '-' then do
      let (hours, cs) ← takeDigits 2 cs
      let cs ← takeChar ':' cs
      let (minutes, cs) ← takeDigits 2 cs
      let total := hours * 60 + minutes
      let sign := if total = 0 then '+' else sign
      if cs.isEmpty && total ≤ 24 * 60 then
        some (sign :: padded 2 (total / 60) ++ ':' :: padded 2 (total % 60))
      else none
    else none

/-- A time of day in a string, in its text form, and what follows it. -/
def timeString? (cs : List Char) : Option (List Char × List Char) := do
  let (hour, cs) ← takePart 0 24 cs
  let cs ← takeChar ':' cs
  let (minute, cs) ← takePart 0 59 cs
  let cs ← takeChar ':' cs
  let (second, cs) ← takePart 0 60 cs
  let text := padded 2 hour ++ ':' :: padded 2 minute ++ ':' :: padded 2 second
  match cs with
  | '.' :: rest =>
    let (digits, rest) := spanDigits rest
    if digits.isEmpty then none else some (text ++ fractionText digits, rest)
  | _ => some (text, cs)

/-- The date, time or both that a string holds, in their text form. A colon after two digits tells a
time, which has no offset. -/
def dateString? (cs : List Char) : Option (List Char) :=
  if cs[2]? = some ':' then do
    let (time, rest) ← timeString? cs
    if rest.isEmpty then some time else none
  else
    match readDate cs with
    | .found date (delimiter :: rest) =>
      if delimiter = 'T' ∨ delimiter = 't' ∨ delimiter = ' ' then do
        let (time, rest) ← timeString? rest
        return date ++ 'T' :: time ++ (← offsetString? rest)
      else do return date ++ (← offsetString? (delimiter :: rest))
    | .found date [] => some date
    | _ => none

end StyledTemplate.Toml
