import StyledTemplate.Record.ItemPath
import StyledTemplate.Record.Schema

/-!
# Declarations of record types

A type that is declared with named fields can be bound without further ado: it gets one
implementation that lists its fields and one that makes it a value. Both are for the type with its
parameters, without the bounds on them.
-/

namespace StyledTemplate

/-- What a declared type is made of. -/
inductive Shape where
  /-- Fields with names. -/
  | named
  /-- Anything else. -/
  | other
  deriving Repr, DecidableEq

/-- The declaration of a type. -/
structure Declaration where
  /-- The name of the type, with its parameters and the conditions on them. -/
  name : List Char
  /-- The path of the library that the implementations refer to. -/
  library : List Char
  /-- What the type is made of. -/
  shape : Shape
  /-- The fields. -/
  fields : List FieldLabel

/-- An implementation of an interface for a type. -/
structure Implementation where
  /-- The path of the interface. -/
  interface : String
  /-- The type. -/
  target : String
  deriving Repr, DecidableEq

/-- Can the field be declared? It is called by an identifier or by an underscore. -/
def FieldLabel.isDeclarable (label : FieldLabel) : Bool :=
  match Lexeme.ofText? label.ident.toList with
  | some [.word name] => Lexeme.isIdentifier name || name == ['_']
  | _ => false

namespace Declaration

/-- The names that the fields are bound under, with the identifiers of the fields. -/
def bindings (d : Declaration) : List (String × String) :=
  (d.fields.filter (!·.skip)).map fun label => (label.boundName, label.ident)

/-- The type with its parameters, if the name can be declared. -/
def target? (d : Declaration) : Option (List Char) := (Lexeme.ofText? d.name).bind typeText?

/-- The path of the library, if it is one. -/
def library? (d : Declaration) : Option (List Char) :=
  (Lexeme.ofText? d.library).bind ItemPath.text?

/-- The implementations that the type gets. Only a type with named fields gets any. -/
def implementations? (d : Declaration) : Option (List Implementation) := do
  let target ← d.target?
  let library ← d.library?
  if d.shape = .named ∧ d.fields.all (·.isDeclarable) then
    let written (cs : List Char) := String.ofList (cs.filter (· != ' '))
    let interface (name : String) := written library ++ "::binding::" ++ name
    some [⟨interface "TemplateFields", written target⟩, ⟨interface "ToValue", written target⟩]
  else none

end Declaration

end StyledTemplate
