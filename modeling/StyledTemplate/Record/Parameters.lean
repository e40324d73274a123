import StyledTemplate.Record.Lexeme

/-!
# Lists of parameters

A list of parameters or arguments stands between angle brackets and is divided by commas. What
stands in brackets inside it has commas and angle brackets of its own. A list is written lifetimes
first, each of its members with the comma that followed it; only where a comma is missing between
two of them one is added.
-/

namespace StyledTemplate

/-- The lexemes of a member of a list, and whether a comma follows it. -/
structure ListMember where
  /-- The lexemes. -/
  lexemes : List Lexeme
  /-- Is there a comma after the member? -/
  comma : Bool

namespace ListMember

/-- The members of a list up to the angle bracket that closes it, and what follows that. `brackets`
brackets and `angles` angle brackets are open in the member that starts with `current`, and `arrow`
tells whether a hyphen stands right before the next lexeme, which makes an arrow of an angle
bracket. -/
def split? (brackets angles : Nat) (arrow : Bool) (current : List Lexeme) :
    List Lexeme → Option (List ListMember × List Lexeme)
  | [] => none
  | lexeme :: rest =>
    let proceed (brackets angles : Nat) (arrow : Bool) :=
      split? brackets angles arrow (current ++ [lexeme]) rest
    match lexeme with
    | .opening _ => proceed (brackets + 1) angles false
    | .closing _ => proceed (brackets - 1) angles false
    | .mark c joined =>
      if brackets ≠ 0 then proceed brackets angles false
      else if c = ',' ∧ angles = 0 then
        if current.isEmpty then none
        else do
          let (members, after) ← split? 0 0 false [] rest
          return (⟨current, true⟩ :: members, after)
      else if c = '<' then proceed 0 (angles + 1) false
      else if c = '>' ∧ !arrow then
        match angles with
        | angles + 1 => proceed 0 angles false
        | 0 => some (if current.isEmpty then [] else [⟨current, false⟩], rest)
      else proceed 0 angles (c == '-' && joined)
    | _ => proceed brackets angles false

/-- Members as they are written one after another, the first after a comma if `missing`. -/
def written (missing : Bool) : List (List Char × Bool) → List Char
  | [] => []
  | (text, comma) :: rest =>
    (if missing then [','] else []) ++ text ++ (if comma then [','] else []) ++
      written (!comma) rest

/-- The list of members in the given order, each with whether a comma follows it. -/
def listText (members : List (List Char × Bool)) : List Char :=
  '<' :: written false members ++ ['>']

end ListMember

/-! ## Parameters of a type -/

/-- A parameter of a type. -/
structure Parameter where
  /-- Is it a lifetime? -/
  isLifetime : Bool
  /-- Its name. -/
  name : List Char

namespace Parameter

/-- The lexemes after the square bracket that closes the one before them; `depth` brackets inside it
are open. -/
def afterBracket (depth : Nat) : List Lexeme → List Lexeme
  | [] => []
  | .opening _ :: rest => afterBracket (depth + 1) rest
  | .closing _ :: rest => if depth = 0 then rest else afterBracket (depth - 1) rest
  | _ :: rest => afterBracket depth rest

theorem afterBracket_length (depth : Nat) (lexemes : List Lexeme) :
    (afterBracket depth lexemes).length ≤ lexemes.length := by
  fun_induction afterBracket depth lexemes <;> simp_all <;> omega

/-- The lexemes after the attributes at their start. -/
def dropAttributes : List Lexeme → List Lexeme
  | .mark '#' _ :: .opening '[' :: rest =>
    have : (afterBracket 0 rest).length ≤ rest.length := afterBracket_length 0 rest
    dropAttributes (afterBracket 0 rest)
  | lexemes => lexemes
termination_by lexemes => lexemes.length
decreasing_by all_goals simp_all; omega

/-- Are these the bounds of a lifetime: lifetimes with plus signs between them? -/
def areLifetimeBounds : List Lexeme → Bool
  | [] => true
  | [.lifetime _] => true
  | .lifetime _ :: .mark '+' _ :: rest => areLifetimeBounds rest
  | _ => false

/-- Is something missing after an equals sign at the end of the lexemes? -/
def lacksDefault (lexemes : List Lexeme) : Bool :=
  match lexemes.getLast? with
  | some (.mark '=' _) => true
  | _ => false

/-- The parameter that some lexemes declare: a lifetime, a constant, which has a type, or a type. -/
def ofLexemes? (lexemes : List Lexeme) : Option Parameter :=
  match dropAttributes lexemes with
  | .lifetime name :: rest =>
    match rest with
    | [] => some ⟨true, name⟩
    | .mark ':' _ :: bounds => if areLifetimeBounds bounds then some ⟨true, name⟩ else none
    | _ => none
  | .word keyword :: .word name :: .mark ':' _ :: type :: rest =>
    if keyword = "const".toList ∧ Lexeme.isIdentifier name ∧ !lacksDefault (type :: rest) then
      match type with
      | .mark '=' _ => none
      | _ => some ⟨false, name⟩
    else none
  | .word name :: rest =>
    if lacksDefault rest then none
    else
      match rest with
      | [] => if Lexeme.isIdentifier name || name == ['_'] then some ⟨false, name⟩ else none
      | .mark ':' _ :: _ => if Lexeme.isIdentifier name then some ⟨false, name⟩ else none
      | .mark '=' _ :: _ => if Lexeme.isIdentifier name then some ⟨false, name⟩ else none
      | _ => none
  | _ => none

/-- The list of the names of parameters, lifetimes first. A list without parameters is left out. -/
def namesText (parameters : List (Parameter × Bool)) : List Char :=
  if parameters.isEmpty then []
  else
    let names (lifetimes : Bool) :=
      (parameters.filter (·.1.isLifetime == lifetimes)).map fun parameter =>
        (parameter.1.name, parameter.2)
    ListMember.listText (names true ++ names false)

end Parameter

/-- The type that is declared under a name with parameters, bounds on them left out. -/
def typeText? : List Lexeme → Option (List Char)
  | .word name :: rest =>
    if Lexeme.isIdentifier name then
      match rest with
      | .mark '<' _ :: rest => do
        let (members, after) ← ListMember.split? 0 0 false [] rest
        let parameters ← members.mapM fun member =>
          (Parameter.ofLexemes? member.lexemes).map (·, member.comma)
        if endsName after then some (name ++ Parameter.namesText parameters) else none
      | _ => if endsName rest then some name else none
    else none
  | _ => none
where
  /-- Nothing but conditions may follow the parameters. -/
  endsName : List Lexeme → Bool
    | [] => true
    | lexeme :: _ => lexeme == .word "where".toList

end StyledTemplate
