import StyledTemplate.Document.Table
import StyledTemplate.Proofs.Bindings.Meanings
import StyledTemplate.Proofs.Document.RepeatedRow
import StyledTemplate.Proofs.Inheritance.Resolves
import StyledTemplate.Proofs.Render.Cells
import StyledTemplate.Proofs.Template.ReadBody

/-!
# The rows of rendered tables

`shownRows` lists the rows of a table with the scenes that they are shown in: a repeated row stands
there once for each entry of its list, in the scope of that entry. The rows of the rendered table
are these, one by one, with the formatting of the row in the document that they come from
(`renderBlock_table`). So they take up as many columns, and a table in which all rows fit the grid
is rendered to one in which all rows fit it.
-/

namespace StyledTemplate

/-! ## Layout -/

section Layout

variable {β γ δ : Type}

/-- The rows have the same formatting, and as many cells, with the same formatting. -/
structure Row.SameLayout (row : Row β) (other : Row γ) : Prop where
  /-- The rows have the same formatting. -/
  properties : row.properties = other.properties
  /-- Their cells have, one by one. -/
  cells : row.cells.map Cell.properties = other.cells.map Cell.properties

theorem Row.SameLayout.trans {row : Row β} {other : Row γ} {third : Row δ}
    (h : row.SameLayout other) (h' : other.SameLayout third) : row.SameLayout third :=
  ⟨h.properties.trans h'.properties, h.cells.trans h'.cells⟩

theorem Row.gridColumns_eq_foldl (row : Row β) :
    row.gridColumns = (row.cells.map Cell.properties).foldl
      (fun columns properties => columns + max properties.gridSpan.toNat 1) 0 := by
  unfold Row.gridColumns
  rw [List.foldl_map]

theorem Row.SameLayout.gridColumns_eq {row : Row β} {other : Row γ} (h : row.SameLayout other) :
    row.gridColumns = other.gridColumns := by
  rw [Row.gridColumns_eq_foldl, h.cells, ← Row.gridColumns_eq_foldl]

theorem Table.mem_badRows_iff {table : Table (Row β)} {i : Nat} :
    i ∈ table.badRows ↔
      ∃ row, table.rows[i]? = some row ∧ row.gridColumns ≠ table.grid.length := by
  unfold Table.badRows
  simp [List.mem_map, List.mem_filter, List.mem_zipIdx_iff_getElem?]

end Layout

/-- The rows of a parsed table have the layout of the rows of a document, one by one. -/
def LaidOutAs (source : List (Row Element)) (rows : List (RowBlock Block)) : Prop :=
  List.Forall₂ (fun row block => row.SameLayout block.row) source rows

/-! ## Parsed rows -/

section Parsed

variable {settings : TemplateSettings}

theorem map_properties_of_parseCells {depth : Nat} {cells : List (Cell Element)} {s s' : Progress}
    {blocks : List (Cell Block)} (h : parseCells settings depth cells s = .ok (blocks, s')) :
    cells.map Cell.properties = blocks.map Cell.properties := by
  induction cells generalizing s blocks s' with
  | nil =>
    rw [parseCells_nil] at h
    obtain ⟨rfl, rfl⟩ := Prod.mk.inj (Except.ok.inj h)
    rfl
  | cons cell cells ih =>
    rw [parseCells_cons] at h
    obtain ⟨b, s₁, -, h⟩ := exists_of_stateT_bind_eq_ok h
    obtain ⟨body, -, h⟩ := exists_of_lift_bind_eq_ok h
    obtain ⟨rest, s₂, hrest, h⟩ := exists_of_stateT_bind_eq_ok h
    obtain ⟨rfl, rfl⟩ := Prod.mk.inj (Except.ok.inj h)
    rw [List.map_cons, List.map_cons, ih hrest]

/-- Parsing a table keeps the layout of its rows, also of those whose markers are taken out. -/
theorem laidOutAs_of_parseRows {depth : Nat} {source : List (Row Element)} {s s' : Progress}
    {rows : List (RowBlock Block)} (h : parseRows settings depth source s = .ok (rows, s')) :
    LaidOutAs source rows := by
  induction source generalizing s rows s' with
  | nil =>
    rw [parseRows_nil] at h
    obtain ⟨rfl, rfl⟩ := Prod.mk.inj (Except.ok.inj h)
    exact .nil
  | cons row source ih =>
    obtain ⟨_ | markers, hmarkers⟩ := exists_of_parseRows_cons settings h
    · rw [parseRows_once settings hmarkers] at h
      obtain ⟨cells, s₁, hcells, h⟩ := exists_of_stateT_bind_eq_ok h
      obtain ⟨rest, s₂, hrest, h⟩ := exists_of_stateT_bind_eq_ok h
      obtain ⟨rfl, rfl⟩ := Prod.mk.inj (Except.ok.inj h)
      exact .cons ⟨rfl, map_properties_of_parseCells hcells⟩ (ih hrest)
    · rw [parseRows_repeated settings hmarkers] at h
      obtain ⟨-, -, h⟩ := exists_of_lift_bind_eq_ok h
      obtain ⟨cells, s₁, hcells, h⟩ := exists_of_stateT_bind_eq_ok h
      obtain ⟨rest, s₂, hrest, h⟩ := exists_of_stateT_bind_eq_ok h
      obtain ⟨rfl, rfl⟩ := Prod.mk.inj (Except.ok.inj h)
      -- The cells that are parsed are those without markers, which differ in their bodies only.
      have hmarked := map_withoutMarkers markers row (g := Cell.properties)
        (fun _ => rfl) fun _ => rfl
      exact .cons ⟨rfl, hmarked.symm.trans (map_properties_of_parseCells hcells)⟩ (ih hrest)

end Parsed

/-! ## Inherited rows -/

theorem CellsResolve.map_properties {defs : String → Option Override}
    {cells shown : List (Cell Block)} (h : CellsResolve defs cells shown) :
    cells.map Cell.properties = shown.map Cell.properties := by
  induction cells generalizing shown with
  | nil =>
    cases h
    rfl
  | cons cell cells ih =>
    cases h with
    | cons _ hrest => rw [List.map_cons, List.map_cons, ih hrest]

/-- Inheritance replaces what is in the cells of a row, and nothing else. -/
theorem RowsResolve.laidOutAs {defs : String → Option Override} :
    ∀ {source : List (Row Element)} {rows shown : List (RowBlock Block)},
      RowsResolve defs rows shown → LaidOutAs source rows → LaidOutAs source shown
  | _, _, _, .nil, .nil => .nil
  | _, _, _, .once hcells hrest, .cons hrow hrows =>
    .cons (hrow.trans ⟨rfl, hcells.map_properties⟩) (hrest.laidOutAs hrows)
  | _, _, _, .loop hcells hrest, .cons hrow hrows =>
    .cons (hrow.trans ⟨rfl, hcells.map_properties⟩) (hrest.laidOutAs hrows)

/-! ## Rows that are shown -/

/-- A row of a template with the scene that it is shown in. `index` rows of its table come before
it. -/
structure ShownRow where
  /-- The number of rows of the table before it. -/
  index : Nat
  /-- The row. -/
  row : Row Block
  /-- The scene. -/
  scene : Scene

/-- The row is rendered to the given one: cell by cell, with the same formatting. -/
structure ShownRow.Shows (r : ShownRow) (row : Row Element) : Prop where
  /-- The formatting is the same. -/
  layout : r.row.SameLayout row
  /-- Each cell shows its blocks. -/
  cells : List.Forall₂ (fun cell content => ShownCell.Shows ⟨r.scene, cell.body⟩ content.body)
    r.row.cells row.cells

/-- The scenes that a row is shown in: once as it is, or once for each entry of its list. -/
def Scene.rowScenes (scene : Scene) : RowBlock Block → List Scene
  | .static _ => [scene]
  | .loop list _ _ =>
    let entries := (scene.context.entries list).toOption.getD []
    entries.zipIdx.map fun entry => scene.enter entry.1 entry.2 entries.length

theorem Scene.rowScenes_loop {scene : Scene} {list : String} {entries : List Value}
    (h : scene.context.entries list = .ok entries) (row : Row Block) (position : Position) :
    scene.rowScenes (.loop list row position) =
      entries.zipIdx.map fun entry => scene.enter entry.1 entry.2 entries.length := by
  rw [Scene.rowScenes, h]
  rfl

/-- The rows that are shown, where `index` rows come before the given ones. -/
def Scene.shownRowsFrom (scene : Scene) (index : Nat) (rows : List (RowBlock Block)) :
    List ShownRow :=
  (rows.zipIdx index).flatMap fun block =>
    (scene.rowScenes block.1).map fun inner => ⟨block.2, block.1.row, inner⟩

/-- The rows of a table that are shown, in order. -/
def Scene.shownRows (scene : Scene) (rows : List (RowBlock Block)) : List ShownRow :=
  scene.shownRowsFrom 0 rows

theorem Scene.shownRowsFrom_cons (scene : Scene) (index : Nat) (block : RowBlock Block)
    (rows : List (RowBlock Block)) :
    scene.shownRowsFrom index (block :: rows) =
      (scene.rowScenes block).map (fun inner => ⟨index, block.row, inner⟩) ++
        scene.shownRowsFrom (index + 1) rows := by
  unfold shownRowsFrom
  rw [List.zipIdx_cons, List.flatMap_cons]

/-- A row that is shown is one of the table. -/
theorem Scene.exists_of_mem_shownRows {scene : Scene} {rows : List (RowBlock Block)} {r : ShownRow}
    (h : r ∈ scene.shownRows rows) :
    ∃ block, rows[r.index]? = some block ∧ block.row = r.row ∧ r.scene ∈ scene.rowScenes block := by
  obtain ⟨⟨block, index⟩, hblock, hr⟩ := List.mem_flatMap.1 h
  obtain ⟨inner, hinner, rfl⟩ := List.mem_map.1 hr
  exact ⟨block, List.mem_zipIdx_iff_getElem?.1 hblock, rfl, hinner⟩

/-! ## Rendering rows -/

section Rendering

variable {scene : Scene}

theorem shows_renderCells {cells : List (Cell Block)} {shown : List (Cell Element)}
    (h : renderCells scene cells = .ok shown) :
    cells.map Cell.properties = shown.map Cell.properties ∧
      List.Forall₂ (fun cell content => ShownCell.Shows ⟨scene, cell.body⟩ content.body)
        cells shown := by
  induction cells generalizing shown with
  | nil =>
    rw [renderCells] at h
    obtain rfl := Except.ok.inj h
    exact ⟨rfl, .nil⟩
  | cons cell cells ih =>
    obtain ⟨properties, body⟩ := cell
    rw [renderCells] at h
    obtain ⟨fragments, hfragments, h⟩ := exists_of_bind_eq_ok h
    obtain ⟨rest, hrest, h⟩ := exists_of_bind_eq_ok h
    obtain rfl := Except.ok.inj h
    obtain ⟨hlayout, hcells⟩ := ih hrest
    refine ⟨?_, .cons ⟨fragments, hfragments, rfl⟩ hcells⟩
    rw [List.map_cons, List.map_cons, hlayout]

theorem shows_of_renderCells {row : Row Block} {cells : List (Cell Element)}
    (h : renderCells scene row.cells = .ok cells) (index : Nat) :
    ShownRow.Shows ⟨index, row, scene⟩ ⟨row.properties, cells⟩ :=
  ⟨⟨rfl, (shows_renderCells h).1⟩, (shows_renderCells h).2⟩

/-- A repeated row is rendered once for each entry, in the scope of the entry. -/
theorem shows_renderEntries {row : Row Block} {length place : Nat} {entries : List Value}
    {shown : List (Row Element)}
    (h : scene.renderEntries
      (fun inner => do return [⟨row.properties, ← renderCells inner row.cells⟩])
      length place entries = .ok shown) (index : Nat) :
    List.Forall₂ ShownRow.Shows ((entries.zipIdx place).map fun entry =>
      ⟨index, row, scene.enter entry.1 entry.2 length⟩) shown := by
  induction entries generalizing place shown with
  | nil =>
    obtain rfl := Except.ok.inj h
    exact .nil
  | cons entry entries ih =>
    rw [Scene.renderEntries] at h
    obtain ⟨first, hfirst, h⟩ := exists_of_bind_eq_ok h
    obtain ⟨rest, hrest, h⟩ := exists_of_bind_eq_ok h
    obtain rfl := Except.ok.inj h
    obtain ⟨cells, hcells, hfirst⟩ := exists_of_bind_eq_ok hfirst
    obtain rfl := Except.ok.inj hfirst
    rw [List.zipIdx_cons, List.map_cons]
    exact .cons (shows_of_renderCells hcells index) (ih hrest)

/-- The rendered rows are those that are shown, and every list is found. -/
theorem shows_renderRows {rows : List (RowBlock Block)} {shown : List (Row Element)}
    (h : renderRows scene rows = .ok shown) (index : Nat) :
    List.Forall₂ ShownRow.Shows (scene.shownRowsFrom index rows) shown ∧
      ∀ list row position, .loop list row position ∈ rows →
        ∃ entries, scene.context.entries list = .ok entries := by
  induction rows generalizing index shown with
  | nil =>
    rw [renderRows] at h
    obtain rfl := Except.ok.inj h
    exact ⟨.nil, fun _ _ _ hmem => nomatch hmem⟩
  | cons block rows ih =>
    rw [Scene.shownRowsFrom_cons]
    cases block with
    | static row =>
      rw [renderRows] at h
      obtain ⟨cells, hcells, h⟩ := exists_of_bind_eq_ok h
      obtain ⟨rest, hrest, h⟩ := exists_of_bind_eq_ok h
      obtain rfl := Except.ok.inj h
      obtain ⟨hrows, hlists⟩ := ih hrest (index + 1)
      refine ⟨.cons (shows_of_renderCells hcells index) hrows, ?_⟩
      intro list row position hmem
      rcases List.mem_cons.1 hmem with heq | hmem
      · cases heq
      · exact hlists list row position hmem
    | loop list row position =>
      rw [renderRows] at h
      obtain ⟨entries, hentries, h⟩ := exists_of_bind_eq_ok h
      obtain ⟨first, hfirst, h⟩ := exists_of_bind_eq_ok h
      obtain ⟨rest, hrest, h⟩ := exists_of_bind_eq_ok h
      obtain rfl := Except.ok.inj h
      obtain ⟨hrows, hlists⟩ := ih hrest (index + 1)
      have hlist : scene.context.entries list = .ok entries := mapError_eq_ok_iff.1 hentries
      refine ⟨?_, ?_⟩
      · rw [Scene.rowScenes_loop hlist, List.map_map]
        exact List.rel_append (shows_renderEntries hfirst index) hrows
      · intro other row' position' hmem
        rcases List.mem_cons.1 hmem with heq | hmem
        · cases heq
          exact ⟨entries, hlist⟩
        · exact hlists other row' position' hmem

end Rendering

/-! ## The rendered table -/

/-- `inner` is the scene with one scope more, that of an entry. -/
def Scene.Enters (scene : Scene) (entry : Value) (index length : Nat) (inner : Scene) : Prop :=
  ∃ scope : Scope, inner = { scene with context := scene.context.push scope } ∧
    Scope.BindsEntry scope entry index length

theorem Scene.enters_enter (scene : Scene) (entry : Value) (index length : Nat) :
    scene.Enters entry index length (scene.enter entry index length) :=
  ⟨Scope.ofEntry entry index length, rfl, Scope.bindsEntry_ofEntry entry index length⟩

/-- A table of a document whose rows were parsed to `blocks` is rendered to `table`. -/
structure Scene.ShowsTable (scene : Scene) (source : Table (Row Element))
    (blocks : List (RowBlock Block)) (table : Table (Row Element)) : Prop where
  /-- The table keeps its formatting. -/
  properties : table.properties = source.properties
  /-- It keeps its grid. -/
  grid : table.grid = source.grid
  /-- Each row of the document has been parsed to one with its layout. -/
  layout : LaidOutAs source.rows blocks
  /-- A repeated row is shown once for each entry of its list, in the scope of the entry. -/
  entries : ∀ list row position, .loop list row position ∈ blocks →
    ∃ entries, scene.context.entries list = .ok entries ∧
      List.Forall₂ (fun entry inner => scene.Enters entry.1 entry.2 entries.length inner)
        entries.zipIdx (scene.rowScenes (.loop list row position))
  /-- The rendered rows are those that are shown, one by one. -/
  rows : List.Forall₂ ShownRow.Shows (scene.shownRows blocks) table.rows
  /-- A rendered row does not fit the grid exactly if the row that it comes from does not. -/
  badRows : ∀ i, i ∈ table.badRows ↔
    ∃ r, (scene.shownRows blocks)[i]? = some r ∧ r.index ∈ source.badRows
  /-- If all rows of the document fit the grid, then so do all rendered rows. -/
  consistent : source.badRows = [] → table.badRows = []

theorem exists_getElem?_of_forall₂ {α β : Type} {R : α → β → Prop} {as : List α} {bs : List β}
    (h : List.Forall₂ R as bs) {i : Nat} {a : α} (ha : as[i]? = some a) :
    ∃ b, bs[i]? = some b ∧ R a b := by
  obtain ⟨hlength, hget⟩ := List.forall₂_iff_get.1 h
  obtain ⟨hi, rfl⟩ := List.getElem?_eq_some_iff.1 ha
  have hi' : i < bs.length := hlength ▸ hi
  exact ⟨bs[i], List.getElem?_eq_getElem hi', hget i hi hi'⟩

section Grid

variable {scene : Scene} {source table : Table (Row Element)} {blocks : List (RowBlock Block)}

/-- A rendered row takes up as many columns as the row that it comes from. -/
theorem exists_rows_of_shownRows (hlayout : LaidOutAs source.rows blocks)
    (hrows : List.Forall₂ ShownRow.Shows (scene.shownRows blocks) table.rows) {i : Nat}
    {r : ShownRow} (hr : (scene.shownRows blocks)[i]? = some r) :
    ∃ row shown, source.rows[r.index]? = some row ∧ table.rows[i]? = some shown ∧
      row.gridColumns = shown.gridColumns := by
  obtain ⟨shown, hshown, hshows⟩ := exists_getElem?_of_forall₂ hrows hr
  obtain ⟨block, hblock, hrow, -⟩ := Scene.exists_of_mem_shownRows (List.mem_of_getElem? hr)
  obtain ⟨row, hsource, hlaid⟩ := exists_getElem?_of_forall₂ hlayout.flip hblock
  have hsame : row.SameLayout r.row := hrow ▸ hlaid
  exact ⟨row, shown, hsource, hshown, (hsame.trans hshows.layout).gridColumns_eq⟩

theorem mem_badRows_shown_iff (hgrid : table.grid = source.grid)
    (hlayout : LaidOutAs source.rows blocks)
    (hrows : List.Forall₂ ShownRow.Shows (scene.shownRows blocks) table.rows) (i : Nat) :
    i ∈ table.badRows ↔
      ∃ r, (scene.shownRows blocks)[i]? = some r ∧ r.index ∈ source.badRows := by
  constructor
  · intro h
    obtain ⟨shown, hshown, hbad⟩ := Table.mem_badRows_iff.1 h
    obtain ⟨r, hr, -⟩ := exists_getElem?_of_forall₂ hrows.flip hshown
    obtain ⟨row, shown', hrow, hshown', hcolumns⟩ := exists_rows_of_shownRows hlayout hrows hr
    obtain rfl := Option.some.inj (hshown.symm.trans hshown')
    refine ⟨r, hr, Table.mem_badRows_iff.2 ⟨row, hrow, ?_⟩⟩
    rw [hcolumns, ← hgrid]
    exact hbad
  · rintro ⟨r, hr, hmem⟩
    obtain ⟨row, hrow, hbad⟩ := Table.mem_badRows_iff.1 hmem
    obtain ⟨row', shown, hrow', hshown, hcolumns⟩ := exists_rows_of_shownRows hlayout hrows hr
    obtain rfl := Option.some.inj (hrow.symm.trans hrow')
    refine Table.mem_badRows_iff.2 ⟨shown, hshown, ?_⟩
    rw [← hcolumns, hgrid]
    exact hbad

end Grid

/-- A table whose rows were parsed, and perhaps went through inheritance, is rendered row by row. -/
theorem renderBlock_table {settings : TemplateSettings} {depth : Nat}
    {progress progress' : Progress} {source : Table (Row Element)}
    {parsed blocks : List (RowBlock Block)}
    (hparse : parseRows settings depth source.rows progress = .ok (parsed, progress'))
    (hblocks : blocks = parsed ∨ ∃ defs, RowsResolve defs parsed blocks) {scene : Scene}
    {shown : List Fragment}
    (h : renderBlock scene (.table ⟨source.properties, source.grid, blocks⟩) = .ok shown) :
    ∃ table, shown = [.element (.table table)] ∧ scene.ShowsTable source blocks table := by
  have hlayout : LaidOutAs source.rows blocks := by
    rcases hblocks with rfl | ⟨defs, hresolves⟩
    · exact laidOutAs_of_parseRows hparse
    · exact hresolves.laidOutAs (laidOutAs_of_parseRows hparse)
  rw [renderBlock] at h
  obtain ⟨rows, hrender, h⟩ := exists_of_bind_eq_ok h
  obtain rfl := Except.ok.inj h
  obtain ⟨hrows, hlists⟩ := shows_renderRows hrender 0
  let table : Table (Row Element) := ⟨source.properties, source.grid, rows⟩
  have hgrid : table.grid = source.grid := rfl
  have hbad := mem_badRows_shown_iff hgrid hlayout hrows
  refine ⟨table, rfl, rfl, hgrid, hlayout, ?_, hrows, hbad, ?_⟩
  · intro list row position hmem
    obtain ⟨entries, hentries⟩ := hlists list row position hmem
    refine ⟨entries, hentries, ?_⟩
    rw [Scene.rowScenes_loop hentries, List.forall₂_map_right_iff]
    exact List.forall₂_same.2 fun entry _ => scene.enters_enter entry.1 entry.2 entries.length
  · intro hfits
    refine List.eq_nil_iff_forall_not_mem.2 fun i hi => ?_
    obtain ⟨r, -, hmem⟩ := (hbad i).1 hi
    rw [hfits] at hmem
    cases hmem

/-- An order of items, with a total that is one column short. -/
def orderTable : Table (Row Element) :=
  let itemRow := Row.ofTexts ["\x7b\x7b#each items\x7d\x7d\x7b\x7bname\x7d\x7d",
    "\x7b\x7bquantity\x7d\x7d\x7b\x7b/each\x7d\x7d"]
  { Table.ofTexts [["Item", "Quantity"]] with
    rows := [.ofTexts ["Item", "Quantity"], itemRow, .ofTexts ["Total"]] }

/-- Two items are ordered. -/
def orderScene : Scene :=
  let item (name quantity : String) : Value :=
    .ofFields [("name", .string name), ("quantity", .string quantity)]
  (Engine.ofSettings {} default).scene
    (Bindings.empty.setList "items" [item "Nails" "400", item "Hammer" "1"]) "order"

/-- The items take up a row each, and the total still does not fit the grid. -/
theorem orderTable_rows : ∃ blocks progress table,
    parseRows {} 0 orderTable.rows {} = .ok (blocks, progress) ∧
      renderBlock orderScene (.table ⟨orderTable.properties, orderTable.grid, blocks⟩) =
        .ok [.element (.table table)] ∧
      orderTable.badRows = [2] ∧ table.rows.length = 4 ∧ table.badRows = [3] ∧
      orderScene.ShowsTable orderTable blocks table := by
  have hrun : ((parseRows {} 0 orderTable.rows {}).toOption.bind fun parsed =>
      (renderRows orderScene parsed.1).toOption.map fun rows =>
        (rows.length, ({ orderTable with rows } : Table (Row Element)).badRows)) =
      some (4, [3]) := by decide +kernel
  obtain ⟨⟨blocks, progress⟩, hparse, hrun⟩ := Option.bind_eq_some_iff.1 hrun
  obtain ⟨rows, hrows, hcounts⟩ := Option.map_eq_some_iff.1 hrun
  obtain ⟨hlength, hbad⟩ := Prod.mk.inj hcounts
  have hparse := toOption_eq_some_iff.1 hparse
  have hrender : renderBlock orderScene (.table ⟨orderTable.properties, orderTable.grid, blocks⟩) =
      .ok [.element (.table { orderTable with rows })] := by
    rw [renderBlock, toOption_eq_some_iff.1 hrows]
    rfl
  obtain ⟨table, htable, hshows⟩ := renderBlock_table hparse (.inl rfl) hrender
  obtain ⟨⟨⟩⟩ := htable
  exact ⟨blocks, progress, _, hparse, hrender, by decide +kernel, hlength, hbad, hshows⟩

end StyledTemplate
