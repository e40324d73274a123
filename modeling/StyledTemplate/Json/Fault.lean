import StyledTemplate.Text.Digits

/-!
# Faults of JSON data

Something that fails to be read or written as JSON says why and, if the fault has a place in a text,
where: the message ends with the line and the column. Lines count from 1, so line 0 is no place.
-/

namespace StyledTemplate.Json

/-- What is wrong with JSON data, and where. -/
structure Fault where
  /-- What is wrong. -/
  reason : List Char
  /-- The line, or 0 if the fault has no place. -/
  line : Nat := 0
  /-- The column. -/
  column : Nat := 0
  deriving Repr, DecidableEq

/-- What stands before the line of a fault. -/
def lineLabel : List Char := " at line ".toList

/-- What stands between the line and the column of a fault. -/
def columnLabel : List Char := " column ".toList

/-- The text before the last occurrence of `label` and the text after it. -/
def splitLast (label : List Char) : List Char → Option (List Char × List Char)
  | [] => none
  | c :: cs =>
    match splitLast label cs with
    | some (before, after) => some (c :: before, after)
    | none =>
      if label.isPrefixOf (c :: cs) then some ([], (c :: cs).drop label.length) else none

namespace Fault

/-- The line and the column that a text of the form `<line> column <column>` names. -/
def place? (cs : List Char) : Option (Nat × Nat) := do
  let rest := cs.dropWhile Char.isDigit
  let line ← Text.readUnsigned? 64 (cs.takeWhile Char.isDigit)
  if columnLabel.isPrefixOf rest then
    let column ← Text.readUnsigned? 64 ((rest.drop columnLabel.length).takeWhile Char.isDigit)
    if (rest.drop columnLabel.length).all Char.isDigit then some (line, column) else none
  else none

/-- The fault that a message reports. A place that ends the message is not part of the reason. -/
def ofMessage (message : List Char) : Fault :=
  match splitLast lineLabel message with
  | some (reason, rest) =>
    match place? rest with
    | some (line, column) => { reason, line, column }
    | none => { reason := message }
  | none => { reason := message }

/-- The message that reports the fault. -/
def message (fault : Fault) : List Char :=
  if fault.line = 0 then fault.reason
  else
    fault.reason ++ lineLabel ++ Nat.toDigits 10 fault.line ++ columnLabel ++
      Nat.toDigits 10 fault.column

end Fault

end StyledTemplate.Json
