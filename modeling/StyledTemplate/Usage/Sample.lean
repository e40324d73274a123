import StyledTemplate.Bindings.Basic
import StyledTemplate.Usage.Basic

/-!
# Sample bindings

`Usage.sample` binds every name that a template uses to something that shows where it ends up: each
placeholder to a text made of its name, each condition to true, and each list to two entries.
-/

namespace StyledTemplate

/-- Stores a value below a path of segments. What is no record on the way becomes one. -/
def insertAt (value : Value) : List String → Fields Value → Fields Value
  | [], fields => fields
  | [segment], fields => fields.insert segment value
  | segment :: rest, fields =>
    let inner := ((fields.find? segment).bind Value.fields?).getD []
    fields.insert segment (.map (insertAt value rest inner))

/-- The record in which each of some paths holds a text. -/
def sampleFields (text : String → String) (paths : List String) : Fields Value :=
  paths.foldl (fun fields path => insertAt (.string (text path)) (Text.segments path) fields) []

/-- The text for a path. -/
def sampleText (path : String) : String := "sample_" ++ Text.leaf path

/-- The text for a path in the entry of a list with a given number. -/
def entryText (number : Nat) (path : String) : String := s!"{sampleText path}_{number}"

/-- The entry of a list with a given number: a text, or a record if fields of it are used. -/
def sampleEntry (list : String) (fields : NameSet) (number : Nat) : Value :=
  if fields.isEmpty then .string s!"sample_{list}_{number}"
  else .map (sampleFields (entryText number) fields.keys)

/-- Bindings of all the names that are used. -/
def Usage.sample (u : Usage) : Bindings where
  values := NameMap.ofList (sampleFields sampleText u.placeholders.keys)
  conditions := u.conditions.map fun _ => true
  lists := NameMap.ofList <| u.lists.entries.map fun list =>
    (list.1, [sampleEntry list.1 list.2 1, sampleEntry list.1 list.2 2])

end StyledTemplate
