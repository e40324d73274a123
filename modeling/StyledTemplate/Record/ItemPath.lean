import StyledTemplate.Record.Parameters

/-!
# Paths of items

An item is named by a path: segments with two colons between them and maybe two colons before the
first, each an identifier or one of the words for a place, and each maybe with arguments.
-/

namespace StyledTemplate.ItemPath

/-- The words that name a place relative to where they stand. Such a segment has no arguments. -/
def places : List String := ["super", "self", "crate", "try"]

/-- Two colons. -/
def colons : List Char := [':', ':']

/-- The rank of an argument in the written list: lifetimes come first, then types and constants,
then what is said of the types that belong to the item. -/
def rank : List Lexeme → Nat
  | [.lifetime _] => 0
  | .word _ :: .mark '=' _ :: _ => 2
  | .word _ :: .mark ':' true :: .mark ':' _ :: _ => 1
  | .word _ :: .mark ':' _ :: _ => 2
  | _ => 1

/-- The list of arguments of a segment, in order of their ranks. -/
def argumentsText (members : List ListMember) : List Char :=
  let ranked (n : Nat) := (members.filter (rank ·.lexemes == n)).map fun member =>
    (member.lexemes.flatMap Lexeme.text, member.comma)
  ListMember.listText (ranked 0 ++ ranked 1 ++ ranked 2)

/-- The segments of a path, as they are written without blanks. Each step reads a segment. -/
def segmentsText? : Nat → List Lexeme → Option (List Char)
  | 0, _ => none
  | fuel + 1, .word name :: rest =>
    let isPlace := places.contains (String.ofList name)
    if isPlace || Lexeme.isIdentifier name || name == "Self".toList then
      match rest with
      | [] => some name
      | .mark ':' true :: .mark ':' _ :: .mark '<' _ :: rest =>
        if isPlace then none
        else do
          let (members, after) ← ListMember.split? 0 0 false [] rest
          let segment := name ++ colons ++ argumentsText members
          match after with
          | [] => some segment
          | .mark ':' true :: .mark ':' _ :: rest =>
            (segmentsText? fuel rest).map (segment ++ colons ++ ·)
          | _ => none
      | .mark ':' true :: .mark ':' _ :: rest =>
        (segmentsText? fuel rest).map (name ++ colons ++ ·)
      | _ => none
    else none
  | _, _ => none

/-- The path that some lexemes name, as it is written without blanks. -/
def text? (lexemes : List Lexeme) : Option (List Char) :=
  match lexemes with
  | .mark ':' true :: .mark ':' _ :: rest => (segmentsText? lexemes.length rest).map (colons ++ ·)
  | _ => segmentsText? lexemes.length lexemes

end StyledTemplate.ItemPath
