import StyledTemplate.Fields

/-!
# JSON values

The values of the JSON data format. Whole numbers and floating-point numbers are kept apart, and the
fields of an object are in order of their names.
-/

namespace StyledTemplate

/-- A JSON value. -/
inductive Json where
  /-- `null`. -/
  | null
  /-- `true` or `false`. -/
  | bool (b : Bool)
  /-- A whole number. -/
  | integer (n : Int)
  /-- A number with a fraction or an exponent, or one too large for a whole number. -/
  | float (f : Float)
  /-- A string. -/
  | string (s : String)
  /-- An array. -/
  | array (items : List Json)
  /-- An object. -/
  | object (fields : List (String × Json))
  deriving Inhabited

namespace Json

/-- What kind of value this is, for error messages. -/
def kind : Json → String
  | .null => "null"
  | .bool _ => "a boolean"
  | .integer _ => "a number"
  | .float _ => "a number"
  | .string _ => "a string"
  | .array _ => "an array"
  | .object _ => "an object"

mutual

/-- Lays `upper` on top of `base`: of two objects the result has the names of both, a name of both
holding the merge of what they hold, and otherwise `upper` replaces `base`. -/
def merge (base : Json) : Json → Json
  | .object upper =>
    match base with
    | .object fields => .object (mergeFields fields upper)
    | _ => .object upper
  | upper => upper

/-- Lays the fields of an object on top of others, one by one. -/
def mergeFields (base : Fields Json) : Fields Json → Fields Json
  | [] => base
  | (name, value) :: rest =>
    let merged := match base.find? name with
      | some old => merge old value
      | none => value
    mergeFields (base.insert name merged) rest

end

end Json

end StyledTemplate
