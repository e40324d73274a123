import StyledTemplate.Bindings.Basic
import StyledTemplate.Error

/-!
# Contexts

While a template is rendered, names are looked up in the bindings and in a stack of scopes, one for
each loop that is being run through. The innermost scope that binds the first segment of a path
hides all others and the bindings. Variables, conditions and lists are looked up in different
orders.
-/

namespace StyledTemplate

/-- The names that one run through a loop binds. -/
abbrev Scope := NameMap Value

/-- The scope of an entry of a list. The fields of a record are bound, then the entry itself and its
place in the list. -/
def Scope.ofEntry (entry : Value) (index length : Nat) : Scope :=
  NameMap.empty.insertAll <| entry.fields?.getD [] ++
    [("this", entry), ("@index", .integer (Int64.ofNat index)),
      ("@number", .integer (Int64.ofNat (index + 1))), ("@first", .bool (index == 0)),
      ("@last", .bool (index + 1 == length))]

/-- What names mean at one place of a template. -/
structure Context where
  /-- The bindings. -/
  bindings : Bindings
  /-- The scopes, innermost first. -/
  scopes : List Scope := []
  /-- Is it an error if a name is bound to nothing? -/
  strict : Bool := false
  deriving Inhabited

namespace Context

/-! ## Scopes -/

/-- The number of scopes. -/
def depth (c : Context) : Nat := c.scopes.length

/-- Adds an innermost scope. -/
def push (c : Context) (scope : Scope) : Context := { c with scopes := scope :: c.scopes }

/-- Takes the innermost scope away, if there is one. -/
def pop (c : Context) : Context := { c with scopes := c.scopes.tail }

/-- Binds a name in the innermost scope. If there is none, a scope is added. -/
def set (c : Context) (name : String) (value : Value) : Context :=
  match c.scopes with
  | [] => c.push (NameMap.empty.insert name value)
  | scope :: scopes => { c with scopes := scope.insert name value :: scopes }

/-- Adds the scope of an entry of a list. -/
def enter (c : Context) (entry : Value) (index length : Nat) : Context :=
  c.push (Scope.ofEntry entry index length)

/-- What the innermost scope that binds a name binds it to. -/
def scoped? (c : Context) (name : String) : Option Value := c.scopes.findSome? (·.find? name)

/-! ## Looking up -/

/-- What a path is bound to. Its first segment is looked up in the scopes, the variables, the lists
and the conditions, in this order, and the rest below what it is bound to first. -/
def get? (c : Context) (path : String) : Option Value :=
  let (root, rest) := Text.splitPath path
  match c.scoped? root with
  | some value => value.lookup rest
  | none =>
    match c.bindings.values.find? root with
    | some value => value.lookup rest
    | none =>
      match c.bindings.lists.find? root with
      | some entries => (Value.list entries).lookup rest
      | none =>
        match c.bindings.conditions.find? root with
        | some flag => if rest = "" then some (.bool flag) else none
        | none => none

/-- The text that a placeholder shows. What is bound to nothing shows nothing, or is an error in
strict mode. -/
def text (c : Context) (path : String) : Except Error String :=
  match c.get? path with
  | some value => .ok value.text
  | none => if c.strict then .error (.variableResolution path) else .ok ""

/-- Does what a path is bound to count as true? It is looked up in the scopes, the conditions, the
variables and the lists, in this order; conditions are called by the whole path. What is bound to
nothing does not count as true. -/
def holds (c : Context) (path : String) : Bool :=
  let (root, rest) := Text.splitPath path
  match c.scoped? root with
  | some value => ((value.lookup rest).map Value.isTruthy).getD false
  | none =>
    match c.bindings.conditions.find? path with
    | some flag => flag
    | none =>
      match c.bindings.values.find? root with
      | some value => ((value.lookup rest).map Value.isTruthy).getD false
      | none =>
        match c.bindings.lists.find? root with
        | some entries => (((Value.list entries).lookup rest).map Value.isTruthy).getD false
        | none => false

/-- The entries of a value that is a list; no value counts as a list without entries. -/
def entriesOf? : Value → Option (List Value)
  | .list items => some items
  | .null => some []
  | _ => none

/-- The entries of the list that a path is bound to, if it is bound to a list. It is looked up in
the scopes, the lists and the variables, in this order; lists are called by the whole path. -/
def entries? (c : Context) (path : String) : Option (List Value) :=
  let (root, rest) := Text.splitPath path
  match c.scoped? root with
  | some value => (value.lookup rest).bind entriesOf?
  | none =>
    match c.bindings.lists.find? path with
    | some entries => some entries
    | none =>
      match c.bindings.values.find? root with
      | some value => (value.lookup rest).bind entriesOf?
      | none => none

/-- The entries that a loop runs through. What is bound to no list has none, or is an error in
strict mode. -/
def entries (c : Context) (path : String) : Except Error (List Value) :=
  match c.entries? path with
  | some entries => .ok entries
  | none => if c.strict then .error (.variableResolution path) else .ok []

/-- The image that a placeholder is bound to. -/
def image? (c : Context) (name : String) : Option ImageBinding := c.bindings.images.find? name

end Context

end StyledTemplate
