import StyledTemplate.Json.Basic
import StyledTemplate.Toml.DateString

/-!
# Assembling TOML tables

A TOML document is a sequence of sections, each a header with key-value pairs below it. This module
puts the pairs where their headers and dotted keys say, and refuses a document that defines one name
twice: a table may be opened by a header only once, and neither a header nor a dotted key may reopen
what was written as a value.

The names of a table are kept in the order in which they came about, because the first of them
decides what the table is: one that starts with the reserved key stands for a date.
-/

namespace StyledTemplate.Toml

/-- What a name is bound to. -/
inductive Item where
  /-- A text, a number or a truth value. -/
  | plain (v : Json)
  /-- A date, in its text form. -/
  | date (text : List Char)
  /-- An array. -/
  | array (items : List Item)
  /-- A table that was written as a value. -/
  | inline (fields : List (String × Item))
  /-- A table. It is implicit if it only came about on the way to another, and dotted if it did so
  by a dotted key. -/
  | table (isImplicit isDotted : Bool) (fields : List (String × Item))
  /-- The tables opened by repeated headers. -/
  | tables (rows : List (List (String × Item)))

/-- A table that is being filled. -/
structure Node where
  /-- Did the table only come about on the way to another? -/
  isImplicit : Bool
  /-- Did the table come about by a dotted key? -/
  isDotted : Bool
  /-- What is in the table, the oldest name first. -/
  fields : List (String × Item)

/-- Binds a name anew where it stands, or after all others if it is new. -/
def putField (key : String) (item : Item) : List (String × Item) → List (String × Item)
  | [] => [(key, item)]
  | (name, old) :: rest =>
    if name = key then (name, item) :: rest else (name, old) :: putField key item rest

namespace Node

/-- An explicit table without fields. -/
def empty : Node := ⟨false, false, []⟩

/-- The table as something a name is bound to. -/
def toItem (node : Node) : Item := .table node.isImplicit node.isDotted node.fields

/-- What a name is bound to in the table. -/
def find? (node : Node) (key : String) : Option Item := Fields.find? key node.fields

/-- The table with a name bound anew. -/
def put (node : Node) (key : String) (item : Item) : Node :=
  { node with fields := putField key item node.fields }

/-- The table without a name. -/
def drop (node : Node) (key : String) : Node :=
  { node with fields := node.fields.filter fun field => field.1 ≠ key }

/-- Changes the table below `node` that a path leads to. Missing tables are created on the way, of
repeated tables the last is meant, and a path of dotted keys may only pass implicit tables. -/
def modifyAt (dotted : Bool) (f : Node → Option Node) : List String → Node → Option Node
  | [], node => f node
  | key :: path, node =>
    match node.find? key with
    | none => (modifyAt dotted f path ⟨true, dotted, []⟩).map fun child => node.put key child.toItem
    | some (.plain _) => none
    | some (.date _) => none
    | some (.array _) => none
    | some (.inline _) => none
    | some (.table isImplicit isDotted fields) =>
      if dotted && !isImplicit then none
      else
        (modifyAt dotted f path ⟨isImplicit, isDotted, fields⟩).map fun child =>
          node.put key child.toItem
    | some (.tables rows) =>
      match rows.getLast? with
      | none => none
      | some last =>
        (modifyAt dotted f path ⟨false, false, last⟩).map fun child =>
          node.put key (.tables (rows.dropLast ++ [child.fields]))

/-- Binds a new name. -/
def define (key : String) (item : Item) (node : Node) : Option Node :=
  match node.find? key with
  | none => some (node.put key item)
  | some _ => none

/-- A pair of a key, whose last part is the name and whose other parts lead to its table, and a
value. -/
structure Pair where
  /-- The parts of the key that lead to the table. -/
  path : List String
  /-- The name that is bound. -/
  key : String
  /-- The value. -/
  value : Item

/-- Adds a pair to a table. A dotted key must end in a table that came about by dotted keys. -/
def addPair (node : Node) (pair : Pair) : Option Node :=
  modifyAt true (fun table =>
    if table.isDotted = pair.path.isEmpty then none else table.define pair.key pair.value)
    pair.path node

/-- Adds pairs to a table, one after another. -/
def addPairs (node : Node) (pairs : List Pair) : Option Node := pairs.foldlM addPair node

end Node

/-- A header: the path it names, and whether it opens one more of repeated tables. -/
structure Header where
  /-- The parts of the key before the last. -/
  path : List String
  /-- The last part of the key. -/
  key : String
  /-- Was the header written in double brackets? -/
  repeated : Bool

/-- A header and the pairs below it. -/
structure Block where
  /-- The header. -/
  header : Header
  /-- The pairs. -/
  pairs : List Node.Pair

/-- Opens the table of a header, which must be new or implicit, and fills it. An implicit table that
is opened comes after the other names of its parent. -/
def Node.addBlock (root : Node) (block : Block) : Option Node :=
  let key := block.header.key
  modifyAt false (fun parent =>
    match parent.find? key, block.header.repeated with
    | none, false =>
      (Node.empty.addPairs block.pairs).map fun child => parent.put key child.toItem
    | some (.table true false fields), false =>
      ((Node.mk false false fields).addPairs block.pairs).map fun child =>
        (parent.drop key).put key child.toItem
    | none, true =>
      (Node.empty.addPairs block.pairs).map fun child => parent.put key (.tables [child.fields])
    | some (.tables rows), true =>
      (Node.empty.addPairs block.pairs).map fun child =>
        parent.put key (.tables (rows ++ [child.fields]))
    | _, _ => none)
    block.header.path root

/-- The root table of a document, from the pairs above its first header and its blocks. -/
def assemble? (pairs : List Node.Pair) (blocks : List Block) : Option Node := do
  blocks.foldlM Node.addBlock (← Node.empty.addPairs pairs)

/-! ## Tables as JSON -/

/-- The name that marks a date written as a table. -/
def dateKey : String := "$__toml_private_datetime"

/-- The date that is given as a text, as JSON. -/
def Item.dateJson? : Item → Option Json
  | .plain (.string text) => (dateString? text.toList).map fun date => .string (String.ofList date)
  | _ => none

mutual

/-- What a name is bound to, as JSON. -/
def Item.toJson? : Item → Option Json
  | .plain v => some v
  | .date text => some (.string (String.ofList text))
  | .array items => (itemsToJson? items).map .array
  | .inline fields => tableToJson? fields
  | .table _ _ fields => tableToJson? fields
  | .tables rows => (rowsToJson? rows).map .array

/-- A table, as JSON. If the reserved key is its first name, it is the date below that, and its
other names do not matter. -/
def tableToJson? : List (String × Item) → Option Json
  | [] => some (.object [])
  | (key, item) :: rest =>
    if key = dateKey then item.dateJson?
    else do
      let first ← item.toJson?
      let others ← fieldsToJson? rest
      return .object (Fields.ofList ((key, first) :: others))

/-- The fields of a table, as JSON. -/
def fieldsToJson? : List (String × Item) → Option (List (String × Json))
  | [] => some []
  | (key, item) :: rest => do
    let first ← item.toJson?
    let others ← fieldsToJson? rest
    return (key, first) :: others

/-- The items of an array, as JSON. -/
def itemsToJson? : List Item → Option (List Json)
  | [] => some []
  | item :: rest => do
    let first ← item.toJson?
    let others ← itemsToJson? rest
    return first :: others

/-- Repeated tables, as JSON. -/
def rowsToJson? : List (List (String × Item)) → Option (List Json)
  | [] => some []
  | fields :: rest => do
    let first ← tableToJson? fields
    let others ← rowsToJson? rest
    return first :: others

end

/-- A table, as JSON. -/
def Node.toJson? (node : Node) : Option Json := tableToJson? node.fields

end StyledTemplate.Toml
