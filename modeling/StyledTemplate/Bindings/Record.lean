import StyledTemplate.Bindings.Basic
import StyledTemplate.Error
import StyledTemplate.Json.Fault
import StyledTemplate.Value.Convert

/-!
# Binding records

A record is bound field by field. A field that holds a record itself is bound as a whole, and before
that the fields of the inner record are bound as if they were fields of the outer one. Of several
fields of one name the last one wins.
-/

namespace StyledTemplate

/-- The variables that a field of a record binds, in order. -/
def flattenField (field : String × Value) : List (String × Value) :=
  field.2.fields?.getD [] ++ [field]

namespace Bindings

/-- Binds the fields of a record. -/
def bindFields (b : Bindings) (fields : List (String × Value)) : Bindings :=
  b.setValues (fields.flatMap flattenField)

/-- The bindings of a record alone. -/
def ofFields (fields : List (String × Value)) : Bindings := empty.bindFields fields

/-- The bindings of a record that is written as a JSON object. -/
def ofJson (record : Json) : Except Error Bindings :=
  match record with
  | .object fields => .ok (ofFields (Value.ofJsonFields fields))
  | other =>
    .error (.configuration s!"Template data must serialize to an object, got {other.kind}")

/-- The bindings of a record that writes itself as a JSON object, or fails with a message. -/
def ofWritten (record : Except String Json) : Except Error Bindings :=
  match record with
  | .ok record => ofJson record
  | .error message =>
    let reason := String.ofList (Json.Fault.ofMessage message.toList).message
    .error (.configuration s!"Failed to serialize template data: {reason}")

end Bindings

end StyledTemplate
