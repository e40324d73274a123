import StyledTemplate.Proofs.Fields
import StyledTemplate.Usage.Basic

/-!
# The tables of a usage

What a usage says of a table depends on more than the table. Its repeated rows are loops, and the list
of a loop that stands in another one is recorded like any name: for a repeated row, among the names
that are used within the rows of its table. The list of an outermost loop is not. So putting a loop
around some blocks leaves the tables alone that stand in a loop already, and the names of all others
come to include the lists that their own rows are repeated for (`Usage.tables_ofLoop`). Nothing else
changes: not the order of the tables, their sizes, their first repeated row or their lists.
-/

namespace StyledTemplate

/-! ## Tables that stand in no loop -/

mutual

/-- For each table of a block, in document order: does it stand in no loop? -/
def Block.outerTables (inLoop : Bool) : Block → List Bool
  | .conditional _ thenBlocks elseBlocks _ =>
    outerTablesOf inLoop thenBlocks ++
      match elseBlocks with
      | none => []
      | some blocks => outerTablesOf inLoop blocks
  | .loop _ body _ => outerTablesOf true body
  | .named _ body _ _ => outerTablesOf inLoop body
  | .paragraph _ children _ => outerTablesOf inLoop children
  | .table ⟨_, _, rows⟩ => (!inLoop) :: rowOuterTables inLoop rows
  | .placeholder _ _ _ | .image _ _ _ | .text _ _ | .inherits _ _ | .static _ => []

/-- For each table of some blocks: does it stand in no loop? -/
def outerTablesOf (inLoop : Bool) : List Block → List Bool
  | [] => []
  | block :: blocks => block.outerTables inLoop ++ outerTablesOf inLoop blocks

/-- For each table in some rows: does it stand in no loop? A repeated row is a loop. -/
def rowOuterTables (inLoop : Bool) : List (RowBlock Block) → List Bool
  | [] => []
  | .static ⟨_, cells⟩ :: rows => cellOuterTables inLoop cells ++ rowOuterTables inLoop rows
  | .loop _ ⟨_, cells⟩ _ :: rows => cellOuterTables true cells ++ rowOuterTables inLoop rows

/-- For each table in some cells: does it stand in no loop? -/
def cellOuterTables (inLoop : Bool) : List (Cell Block) → List Bool
  | [] => []
  | ⟨_, body⟩ :: cells => outerTablesOf inLoop body ++ cellOuterTables inLoop cells

end

/-! ## Names of a table -/

namespace TableUsage

/-- Counts a name among those that are used within repeated rows. -/
def addName (name : String) (t : TableUsage) : TableUsage :=
  { t with loopNames := t.loopNames.add name }

/-- Notes that a row is repeated for a list. -/
def repeatRow (row : Nat) (list : String) (t : TableUsage) : TableUsage :=
  { t with firstLoop := some (t.firstLoop.getD row), loopLists := t.loopLists ++ [list] }

/-- Counts the lists that rows are repeated for among the names. -/
def withLists (t : TableUsage) : TableUsage :=
  { t with loopNames := (t.loopLists.filter (!isLoopName ·)).foldl NameSet.add t.loopNames }

/-- The table, if a loop is put around it. Only a table that has stood in no loop changes. -/
def enclosed (outer : Bool) (t : TableUsage) : TableUsage := if outer then t.withLists else t

theorem contains_withLists (t : TableUsage) (name : String) :
    t.withLists.loopNames.contains name =
      (decide (name ∈ t.loopLists ∧ isLoopName name = false) || t.loopNames.contains name) := by
  rw [withLists, NameSet.contains_foldl_add]
  simp

theorem withLists_eq_iff (t : TableUsage) : t.withLists = t ↔
    ∀ list ∈ t.loopLists, isLoopName list = false → t.loopNames.contains list = true := by
  constructor
  · intro h list hlist hdata
    have hcontains := t.contains_withLists list
    rw [h] at hcontains
    simpa [hlist, hdata] using hcontains
  · intro h
    have hnames : t.withLists.loopNames = t.loopNames := by
      refine NameSet.ext_contains fun name => ?_
      rw [t.contains_withLists]
      simpa using fun hlist hdata => h name hlist hdata
    calc t.withLists = { t with loopNames := t.withLists.loopNames } := rfl
      _ = t := by rw [hnames]

theorem enclosed_addName (outer : Bool) (name : String) (t : TableUsage) :
    (t.addName name).enclosed outer = (t.enclosed outer).addName name := by
  cases outer with
  | false => rfl
  | true =>
    have hnames : (t.addName name).withLists.loopNames = t.withLists.loopNames.add name := by
      refine NameSet.ext_contains fun other => ?_
      rw [contains_withLists, NameSet.contains_add, contains_withLists]
      simp only [addName, NameSet.contains_add]
      exact Bool.or_left_comm _ _ _
    calc (t.addName name).withLists
        = { t with loopNames := (t.addName name).withLists.loopNames } := rfl
      _ = t.withLists.addName name := by rw [hnames]; rfl

/-- The list of the row comes last, so it is the last one that is counted. -/
theorem withLists_repeatRow (row : Nat) (list : String) (t : TableUsage) :
    (t.repeatRow row list).withLists =
      if isLoopName list then t.withLists.repeatRow row list
      else (t.withLists.repeatRow row list).addName list := by
  unfold withLists repeatRow
  split
  · next h => simp [h]
  · next h => simp [h, addName]

end TableUsage

/-! ## Two walks -/

/-- The place of a block, if a loop is put around everything. -/
def Place.under (place : Place) (list : String) : Place := { place with list := some list }

namespace Usage

/-- The usage `v` is the usage `u` with a loop around everything, as far as tables go; `outer` says
which of the tables stand in no loop of `u`. -/
structure Encloses (outer : List Bool) (u v : Usage) : Prop where
  /-- There is an answer for each table. -/
  length : outer.length = u.tables.length
  /-- Each table that stood in no loop has recorded what it does in one. -/
  tables : v.tables = List.zipWith TableUsage.enclosed outer u.tables

variable {outer : List Bool} {u v u' v' : Usage}

theorem Encloses.length_eq (h : u.Encloses outer v) : v.tables.length = u.tables.length := by
  rw [h.tables, List.length_zipWith, h.length, Nat.min_self]

theorem Encloses.congr (h : Encloses outer u v) (hu : u'.tables = u.tables)
    (hv : v'.tables = v.tables) : Encloses outer u' v' :=
  ⟨by rw [hu, h.length], by rw [hv, h.tables, hu]⟩

theorem Encloses.tables_eq_iff (h : Encloses outer u v) : v.tables = u.tables ↔
    ∀ (i : Nat) (t : TableUsage), u.tables[i]? = some t → outer[i]? = some true →
      t.withLists = t := by
  have hat : ∀ (i : Nat) (t : TableUsage), u.tables[i]? = some t →
      ∃ b, outer[i]? = some b ∧ v.tables[i]? = some (t.enclosed b) := by
    intro i t ht
    have hi : i < outer.length := by
      rw [h.length]
      exact (List.getElem?_eq_some_iff.1 ht).1
    have hb := List.getElem?_eq_getElem hi
    refine ⟨outer[i], hb, ?_⟩
    rw [h.tables, List.getElem?_zipWith, hb, ht]
  constructor
  · intro htables i t ht hb
    obtain ⟨b, hb', hv⟩ := hat i t ht
    obtain rfl : true = b := Option.some.inj (hb.symm.trans hb')
    rw [htables, ht] at hv
    exact (Option.some.inj hv).symm
  · intro hnamed
    refine List.ext_getElem? fun i => ?_
    cases ht : u.tables[i]? with
    | none =>
      rw [List.getElem?_eq_none_iff] at ht ⊢
      rw [h.length_eq]
      exact ht
    | some t =>
      obtain ⟨b, hb, hv⟩ := hat i t ht
      cases b with
      | false => exact hv
      | true => exact hv.trans (congrArg some (hnamed i t ht hb))

/-- Corresponding changes of one table. -/
theorem Encloses.modify (h : Encloses outer u v) (index : Nat) {f f' : TableUsage → TableUsage}
    (hf : ∀ b, outer[index]? = some b → ∀ t, (f t).enclosed b = f' (t.enclosed b)) :
    Encloses outer (u.modifyTable index f) (v.modifyTable index f') where
  length := by rw [modifyTable, List.length_modify, h.length]
  tables := by
    refine List.ext_getElem? fun i => ?_
    rw [modifyTable, modifyTable, h.tables, List.getElem?_modify, List.getElem?_zipWith,
      List.getElem?_zipWith, List.getElem?_modify]
    cases hb : outer[i]? with
    | none => simp
    | some b =>
      cases u.tables[i]? with
      | none => rfl
      | some t =>
        by_cases hi : index = i
        · subst hi
          simp [hf b hb t]
        · simp [hi]

theorem Encloses.addTable (h : Encloses outer u v) (b : Bool) (rows columns : Nat) :
    Encloses (outer ++ [b]) (u.addTable rows columns) (v.addTable rows columns) where
  length := by simp [Usage.addTable, h.length]
  tables := by
    rw [Usage.addTable, Usage.addTable, h.length_eq, List.zipWith_append h.length, h.tables]
    cases b <;> rfl

theorem tables_mention (u : Usage) (place : Place) (isCondition : Bool) (path : String) :
    (u.mention place isCondition path).tables =
      if isLoopName path then u.tables else (u.mentionInTable place path).tables := by
  unfold mention
  split
  · rfl
  · split
    · rfl
    · split <;> rfl

theorem Encloses.mention (h : Encloses outer u v) (place : Place) (list : String)
    (isCondition : Bool) (path : String) :
    Encloses outer (u.mention place isCondition path)
      (v.mention (place.under list) isCondition path) := by
  have htable : Encloses outer (u.mentionInTable place path)
      (v.mentionInTable (place.under list) path) := by
    unfold mentionInTable Place.under
    cases place.table with
    | none => exact h
    | some index => exact h.modify index fun b _ t => t.enclosed_addName b path
  by_cases hpath : isLoopName path = true
  · exact h.congr (by rw [tables_mention, if_pos hpath]) (by rw [tables_mention, if_pos hpath])
  · exact htable.congr (by rw [tables_mention, if_neg hpath])
      (by rw [tables_mention, if_neg hpath])

/-- A loop that does not stand in a repeated row records its list with no table. -/
theorem Encloses.mentionList (h : Encloses outer u v) {place : Place}
    (hplace : place.list = none → place.table = none) (list inner : String) :
    Encloses outer (u.mentionList place inner) (v.mentionList (place.under list) inner) := by
  have hmention := h.mention place list false inner
  unfold Usage.mentionList
  cases hlist : place.list with
  | some outermost => exact hmention
  | none =>
    refine h.congr rfl ?_
    change (v.mention (place.under list) false inner).tables = v.tables
    rw [tables_mention, mentionInTable, Place.under, hplace hlist]
    exact ite_self _

/-- A repeated row of a table that stands in no loop has its list counted once there is one around
it. -/
theorem Encloses.rowLoop (h : Encloses outer u v) (place : Place) (list : String) {index : Nat}
    (hindex : outer[index]? = some place.list.isNone) (row : Nat) (inner : String) :
    Encloses outer
      ((u.addRowLoop index row inner).mentionList { place with table := some index } inner)
      ((v.addRowLoop index row inner).mentionList
        (Place.under { place with table := some index } list) inner) := by
  cases hlist : place.list with
  | some outermost =>
    have hrow : Encloses outer (u.addRowLoop index row inner) (v.addRowLoop index row inner) := by
      refine h.modify index fun b hb t => ?_
      obtain rfl : false = b := by simpa [hlist, hb] using hindex.symm
      rfl
    exact hrow.mentionList (fun hnone => by cases hnone) list inner
  | none =>
    have hrow : Encloses outer (u.modifyTable index (TableUsage.repeatRow row inner))
        (v.modifyTable index fun t =>
          if isLoopName inner then t.repeatRow row inner
          else (t.repeatRow row inner).addName inner) := by
      refine h.modify index fun b hb t => ?_
      obtain rfl : true = b := by simpa [hlist, hb] using hindex.symm
      exact t.withLists_repeatRow row inner
    refine hrow.congr ?_ ?_
    · simp only [Usage.mentionList]
      rfl
    · change (Usage.mention (Place.under _ list) false inner _).tables = _
      rw [tables_mention]
      by_cases hinner : isLoopName inner = true
      · simp only [hinner, if_true]
        rfl
      · simp only [if_neg hinner]
        exact List.modify_modify_eq _ _ index v.tables

end Usage

theorem getElem?_append_of_eq_some {α : Type} {l : List α} {i : Nat} {a : α} (h : l[i]? = some a)
    (l' : List α) : (l ++ l')[i]? = some a := by
  rw [List.getElem?_append_left (List.getElem?_eq_some_iff.1 h).1, h]

mutual

theorem Block.encloses_use : ∀ (block : Block) (place : Place) (list : String) {outer : List Bool}
    {u v : Usage}, (place.list = none → place.table = none) → Usage.Encloses outer u v →
    Usage.Encloses (outer ++ block.outerTables place.list.isSome) (block.use place u)
      (block.use (place.under list) v)
  | .placeholder path _ _, place, list, outer, u, v, _, h => by
    rw [Block.use, Block.use, Block.outerTables, List.append_nil]
    exact h.mention place list false path
  | .conditional condition thenBlocks none _, place, list, outer, u, v, hplace, h => by
    have hthen := encloses_useBlocks thenBlocks place list hplace (h.mention place list true condition)
    rw [Block.use, Block.use, Block.outerTables, List.append_nil]
    exact hthen
  | .conditional condition thenBlocks (some elseBlocks) _, place, list, outer, u, v, hplace, h => by
    have hthen := encloses_useBlocks thenBlocks place list hplace (h.mention place list true condition)
    have helse := encloses_useBlocks elseBlocks place list hplace hthen
    rw [Block.use, Block.use, Block.outerTables, ← List.append_assoc]
    exact helse
  | .loop inner body _, place, list, outer, u, v, hplace, h => by
    have hbody := encloses_useBlocks body (place.within inner) list nofun
      (h.mentionList hplace list inner)
    rw [Block.use, Block.use, Block.outerTables]
    exact hbody
  | .named id body _ _, place, list, outer, u, v, hplace, h => by
    have hid : Usage.Encloses outer { u with namedBlocks := u.namedBlocks.add id }
        { v with namedBlocks := v.namedBlocks.add id } := h.congr rfl rfl
    rw [Block.use, Block.use, Block.outerTables]
    exact encloses_useBlocks body place list hplace hid
  | .paragraph _ children _, place, list, outer, u, v, hplace, h => by
    rw [Block.use, Block.use, Block.outerTables]
    exact encloses_useBlocks children place list hplace h
  | .table ⟨_, grid, rows⟩, place, list, outer, u, v, hplace, h => by
    have htable := h.addTable (!place.list.isSome) rows.length grid.length
    have hindex : (outer ++ [!place.list.isSome])[u.tables.length]? = some place.list.isNone := by
      rw [← h.length, List.getElem?_concat_length, Option.not_isSome]
    have hrows := encloses_useRows rows place list hplace hindex 0 htable
    rw [Block.use, Block.use, Block.outerTables, h.length_eq]
    simpa using hrows
  | .image name _ _, place, list, outer, u, v, _, h => by
    rw [Block.use, Block.use, Block.outerTables, List.append_nil]
    exact h.congr rfl rfl
  | .text _ _, place, list, outer, u, v, _, h => by
    rw [Block.use, Block.use, Block.outerTables, List.append_nil]
    exact h
  | .inherits _ _, place, list, outer, u, v, _, h => by
    rw [Block.use, Block.use, Block.outerTables, List.append_nil]
    exact h
  | .static _, place, list, outer, u, v, _, h => by
    rw [Block.use, Block.use, Block.outerTables, List.append_nil]
    exact h

theorem encloses_useBlocks : ∀ (blocks : List Block) (place : Place) (list : String)
    {outer : List Bool} {u v : Usage}, (place.list = none → place.table = none) →
    Usage.Encloses outer u v →
    Usage.Encloses (outer ++ outerTablesOf place.list.isSome blocks) (useBlocks place blocks u)
      (useBlocks (place.under list) blocks v)
  | [], place, list, outer, u, v, _, h => by
    rw [useBlocks, useBlocks, outerTablesOf, List.append_nil]
    exact h
  | block :: blocks, place, list, outer, u, v, hplace, h => by
    rw [useBlocks, useBlocks, outerTablesOf, ← List.append_assoc]
    exact encloses_useBlocks blocks place list hplace (block.encloses_use place list hplace h)

theorem encloses_useRows : ∀ (rows : List (RowBlock Block)) (place : Place) (list : String)
    {outer : List Bool} {index : Nat} {u v : Usage}, (place.list = none → place.table = none) →
    outer[index]? = some place.list.isNone → ∀ row, Usage.Encloses outer u v →
    Usage.Encloses (outer ++ rowOuterTables place.list.isSome rows)
      (useRows place index row rows u) (useRows (place.under list) index row rows v)
  | [], place, list, outer, index, u, v, _, _, row, h => by
    rw [useRows, useRows, rowOuterTables, List.append_nil]
    exact h
  | .static ⟨_, cells⟩ :: rows, place, list, outer, index, u, v, hplace, hindex, row, h => by
    have hcells := encloses_useCells cells place list hplace h
    rw [useRows, useRows, rowOuterTables, ← List.append_assoc]
    exact encloses_useRows rows place list hplace (getElem?_append_of_eq_some hindex _) (row + 1) hcells
  | .loop inner ⟨_, cells⟩ _ :: rows, place, list, outer, index, u, v, hplace, hindex, row, h => by
    have hcells := encloses_useCells cells
      (Place.within { place with table := some index } inner) list nofun
      (h.rowLoop place list hindex row inner)
    rw [useRows, useRows, rowOuterTables, ← List.append_assoc]
    exact encloses_useRows rows place list hplace (getElem?_append_of_eq_some hindex _) (row + 1) hcells

theorem encloses_useCells : ∀ (cells : List (Cell Block)) (place : Place) (list : String)
    {outer : List Bool} {u v : Usage}, (place.list = none → place.table = none) →
    Usage.Encloses outer u v →
    Usage.Encloses (outer ++ cellOuterTables place.list.isSome cells) (useCells place cells u)
      (useCells (place.under list) cells v)
  | [], place, list, outer, u, v, _, h => by
    rw [useCells, useCells, cellOuterTables, List.append_nil]
    exact h
  | ⟨_, body⟩ :: cells, place, list, outer, u, v, hplace, h => by
    rw [useCells, useCells, cellOuterTables, ← List.append_assoc]
    exact encloses_useCells cells place list hplace (encloses_useBlocks body place list hplace h)

end

namespace Usage

theorem encloses_ofLoop (template list : String) (blocks : List Block) (position : Position) :
    Encloses (outerTablesOf false blocks) (ofBlocks template blocks)
      (ofBlocks template [.loop list blocks position]) := by
  have hstart : Encloses [] { template } ({ template : Usage }.addList list) := ⟨rfl, rfl⟩
  exact encloses_useBlocks blocks {} list (fun _ => rfl) hstart

/-- A loop around a tree of blocks changes just what is said of the tables that stand in no loop of
the tree: the lists of their repeated rows come to be counted among the names that are used within
these rows. So the tables stay the same if and only if all these lists are counted already. -/
theorem tables_ofLoop (template list : String) (blocks : List Block) (position : Position) :
    (outerTablesOf false blocks).length = (ofBlocks template blocks).tables.length ∧
    (ofBlocks template [.loop list blocks position]).tables =
      List.zipWith TableUsage.enclosed (outerTablesOf false blocks)
        (ofBlocks template blocks).tables ∧
    ((ofBlocks template [.loop list blocks position]).tables = (ofBlocks template blocks).tables ↔
      ∀ (i : Nat) (t : TableUsage), (ofBlocks template blocks).tables[i]? = some t →
        (outerTablesOf false blocks)[i]? = some true →
        ∀ rowList ∈ t.loopLists, isLoopName rowList = false →
          t.loopNames.contains rowList = true) := by
  have hencloses := encloses_ofLoop template list blocks position
  refine ⟨hencloses.length, hencloses.tables, ?_⟩
  simp only [hencloses.tables_eq_iff, TableUsage.withLists_eq_iff]

end Usage

/-- A table with a row for each item. -/
def itemTable : List Block :=
  [.table ⟨{}, [], [.loop "items" ⟨{}, [⟨{}, [.placeholder "name" {} {}]⟩]⟩ {}]⟩]

/-- In a loop through groups the table of items is said to use the items within its rows. -/
theorem itemTable_enclosed :
    (Usage.ofBlocks "t" itemTable).tables.map (·.loopNames.keys) = [["name"]] ∧
    (Usage.ofBlocks "t" [.loop "groups" itemTable {}]).tables.map (·.loopNames.keys) =
      [["items", "name"]] ∧
    (Usage.ofBlocks "t" [.loop "groups" itemTable {}]).tables ≠
      (Usage.ofBlocks "t" itemTable).tables := by
  have halone : (Usage.ofBlocks "t" itemTable).tables.map (·.loopNames.keys) = [["name"]] := by
    decide +kernel
  have henclosed : (Usage.ofBlocks "t" [.loop "groups" itemTable {}]).tables.map
      (·.loopNames.keys) = [["items", "name"]] := by decide +kernel
  refine ⟨halone, henclosed, fun heq => ?_⟩
  rw [heq, halone] at henclosed
  exact absurd henclosed (by decide)

end StyledTemplate
