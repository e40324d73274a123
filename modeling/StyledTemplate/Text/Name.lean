import StyledTemplate.Text.Letters

/-!
# Names and dotted paths

Variables, conditions, lists and images are called by name. A name starts with a letter, `_` or `@`
and goes on with letters, numbers and the marks `_`, `.`, `@` and `-`. The dots of a name are read
as a path: its first segment is looked up among the bindings, the others below what is bound there.
-/

namespace StyledTemplate.Text

/-- May a name start with this character? -/
def isNameStart (c : Char) : Bool := isLetter c || c == '_' || c == '@'

/-- May a name go on with this character? -/
def isNamePart (c : Char) : Bool :=
  isLetter c || isNumber c || c == '_' || c == '.' || c == '@' || c == '-'

/-- The grammar of names. -/
def isValidName : List Char → Bool
  | [] => false
  | c :: cs => isNameStart c && cs.all isNamePart

/-- The pieces of a text between the separators, one more than there are separators. -/
def splitOn (separator : Char) : List Char → List (List Char)
  | [] => [[]]
  | c :: cs =>
    if c = separator then [] :: splitOn separator cs
    else match splitOn separator cs with
      | [] => [[c]]
      | piece :: pieces => (c :: piece) :: pieces

/-- The text before the first separator and, if there is one, the text after it. -/
def splitFirst (separator : Char) : List Char → List Char × Option (List Char)
  | [] => ([], none)
  | c :: cs =>
    if c = separator then ([], some cs)
    else ((c :: (splitFirst separator cs).1), (splitFirst separator cs).2)

/-- The first segment of a path and the path below it, which is empty for a path of one segment. -/
def splitPath (path : String) : String × String :=
  let (root, rest) := splitFirst '.' path.toList
  (String.ofList root, String.ofList (rest.getD []))

/-- The segments of a path. -/
def segments (path : String) : List String := (splitOn '.' path.toList).map String.ofList

/-- The last segment of a path. -/
def leaf (path : String) : String := (segments path).getLastD path

end StyledTemplate.Text
