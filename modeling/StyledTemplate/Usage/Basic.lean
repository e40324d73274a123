import StyledTemplate.Block.Basic
import StyledTemplate.Text.Name

/-!
# Names that a template uses

`Usage.ofBlocks` lists the names that a tree of blocks asks for. A name that is used within a loop
is recorded as a field of the list that the outermost loop runs through, and a name that is used
within a repeated row of a table is recorded with the table as well. Names that only a loop binds
are left out.
-/

namespace StyledTemplate

/-- What a table uses. -/
structure TableUsage where
  /-- The number of tables before it in document order. -/
  index : Nat
  /-- The number of rows. -/
  rows : Nat
  /-- The number of grid columns. -/
  columns : Nat
  /-- The index of the first row that is repeated. -/
  firstLoop : Option Nat := none
  /-- The lists that rows are repeated for, in order. -/
  loopLists : List String := []
  /-- The names that are used within repeated rows. -/
  loopNames : NameSet := NameMap.empty

/-- The names that a template uses. -/
structure Usage where
  /-- The name of the template. -/
  template : String
  /-- The paths of placeholders outside of loops. -/
  placeholders : NameSet := NameMap.empty
  /-- The conditions outside of loops. -/
  conditions : NameSet := NameMap.empty
  /-- The lists of the outermost loops, each with the names used within its loops. -/
  lists : NameMap NameSet := NameMap.empty
  /-- The names of images. -/
  images : NameSet := NameMap.empty
  /-- The names of blocks. -/
  namedBlocks : NameSet := NameMap.empty
  /-- The tables, in document order. -/
  tables : List TableUsage := []

/-- The place of a block: the list of the outermost loop and the table of the innermost repeated row
around it. -/
structure Place where
  /-- The list of the outermost loop. -/
  list : Option String := none
  /-- The index of the table whose row is repeated. -/
  table : Option Nat := none

/-- Is the name bound by loops only? -/
def isLoopName (path : String) : Bool :=
  path == "this" || path.toList.head? == some '@' || "this.".toList.isPrefixOf path.toList

namespace Usage

/-- Records a list with its names, none so far. -/
def addList (u : Usage) (list : String) : Usage :=
  { u with lists := u.lists.insert list ((u.lists.find? list).getD NameMap.empty) }

/-- Records a name that is used within the loops of a list. -/
def addField (u : Usage) (list path : String) : Usage :=
  { u with lists := u.lists.insert list (((u.lists.find? list).getD NameMap.empty).add path) }

/-- Changes what is recorded about a table. -/
def modifyTable (u : Usage) (index : Nat) (f : TableUsage → TableUsage) : Usage :=
  { u with tables := u.tables.modify index f }

/-- Records a name for the table whose repeated row it is used in, if there is one. -/
def mentionInTable (place : Place) (path : String) (u : Usage) : Usage :=
  match place.table with
  | none => u
  | some index => u.modifyTable index fun t => { t with loopNames := t.loopNames.add path }

/-- Records a name. -/
def mention (place : Place) (isCondition : Bool) (path : String) (u : Usage) : Usage :=
  if isLoopName path then u
  else
    let u := u.mentionInTable place path
    match place.list with
    | some list => u.addField list path
    | none =>
      if isCondition then { u with conditions := u.conditions.add path }
      else { u with placeholders := u.placeholders.add path }

/-- Records the list of a loop. -/
def mentionList (place : Place) (list : String) (u : Usage) : Usage :=
  match place.list with
  | none => u.addList list
  | some _ => u.mention place false list

/-- Records a table before its rows. -/
def addTable (u : Usage) (rows columns : Nat) : Usage :=
  { u with tables := u.tables ++ [{ index := u.tables.length, rows, columns }] }

/-- Records that the row `row` of a table is repeated for a list. -/
def addRowLoop (u : Usage) (index row : Nat) (list : String) : Usage :=
  u.modifyTable index fun t =>
    { t with
      firstLoop := some (t.firstLoop.getD row)
      loopLists := t.loopLists ++ [list] }

end Usage

/-- The place within a loop. -/
def Place.within (place : Place) (list : String) : Place :=
  { place with list := some (place.list.getD list) }

mutual

/-- Records the names that a block uses. -/
def Block.use (place : Place) : Block → Usage → Usage
  | .placeholder path _ _, u => u.mention place false path
  | .image name _ _, u => { u with images := u.images.add name }
  | .conditional condition thenBlocks elseBlocks _, u =>
    let u := useBlocks place thenBlocks (u.mention place true condition)
    match elseBlocks with
    | none => u
    | some blocks => useBlocks place blocks u
  | .loop list body _, u => useBlocks (place.within list) body (u.mentionList place list)
  | .named id body _ _, u =>
    useBlocks place body { u with namedBlocks := u.namedBlocks.add id }
  | .paragraph _ children _, u => useBlocks place children u
  | .table ⟨_, grid, rows⟩, u =>
    useRows place u.tables.length 0 rows (u.addTable rows.length grid.length)
  | .text _ _, u => u
  | .inherits _ _, u => u
  | .static _, u => u

/-- Records the names that blocks use. -/
def useBlocks (place : Place) : List Block → Usage → Usage
  | [], u => u
  | block :: blocks, u => useBlocks place blocks (block.use place u)

/-- Records the names that the rows of the table `index` use; `row` rows come before them. -/
def useRows (place : Place) (index row : Nat) : List (RowBlock Block) → Usage → Usage
  | [], u => u
  | .static ⟨_, cells⟩ :: rows, u => useRows place index (row + 1) rows (useCells place cells u)
  | .loop list ⟨_, cells⟩ _ :: rows, u =>
    let inner := { place with table := some index }
    let u := (u.addRowLoop index row list).mentionList inner list
    useRows place index (row + 1) rows (useCells (inner.within list) cells u)

/-- Records the names that the cells of a row use. -/
def useCells (place : Place) : List (Cell Block) → Usage → Usage
  | [], u => u
  | ⟨_, body⟩ :: cells, u => useCells place cells (useBlocks place body u)

end

/-- The names that a tree of blocks uses. -/
def Usage.ofBlocks (template : String) (blocks : List Block) : Usage :=
  useBlocks {} blocks { template }

end StyledTemplate
