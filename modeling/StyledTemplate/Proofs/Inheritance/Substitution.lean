import Mathlib.Data.List.Forall2
import StyledTemplate.Proofs.Inheritance.ResolveChain

/-!
# Substitution comes to an end

`Substitutes` says step by step how named blocks are replaced, with the stack of the names of the
blocks that are being worked on: a name is put on it before the body of its block is worked on, and
taken off behind it. A body may hold any named blocks, its own name and those that hold it among
them, so nothing in the blocks gets smaller on the way. What gets smaller is the list of the names
with an override that are not on the stack. So there is always a result, and it is the one that
`substitute` computes with its bound on how deep replacements are nested
(`substitutes_substituteBlocks`). No block that has received an override stands within another one
of its name (`Substitutes.apart`).
-/

namespace StyledTemplate

/-! ## Steps of a substitution -/

mutual

/-- With `active` on the stack, a block is turned into the second one, and `after` is left on the
stack. The flags tell for each named block of the result, in document order, whether it has received
an override. -/
inductive BlockSubstitutes (overrides : NameMap Override) :
    List String → Block → Block → List Bool → List String → Prop
  | replaced {active id body position origin override shown received after}
      (hfind : overrides.find? id = some override) (hnew : id ∉ active)
      (hbody : Substitutes overrides (id :: active) override.body shown received after) :
      BlockSubstitutes overrides active (.named id body position origin)
        (.named id shown position (some override.owner)) (true :: received) after.tail
  | kept {active id body position origin shown received after}
      (hnone : overrides.find? id = none ∨ id ∈ active)
      (hbody : Substitutes overrides (id :: active) body shown received after) :
      BlockSubstitutes overrides active (.named id body position origin)
        (.named id shown position origin) (false :: received) after.tail
  | whenTrue {active condition thenBlocks position shown received after}
      (hthen : Substitutes overrides active thenBlocks shown received after) :
      BlockSubstitutes overrides active (.conditional condition thenBlocks none position)
        (.conditional condition shown none position) received after
  | branches {active condition thenBlocks elseBlocks position shownThen receivedThen between
      shownElse receivedElse after}
      (hthen : Substitutes overrides active thenBlocks shownThen receivedThen between)
      (helse : Substitutes overrides between elseBlocks shownElse receivedElse after) :
      BlockSubstitutes overrides active
        (.conditional condition thenBlocks (some elseBlocks) position)
        (.conditional condition shownThen (some shownElse) position)
        (receivedThen ++ receivedElse) after
  | loop {active list body position shown received after}
      (hbody : Substitutes overrides active body shown received after) :
      BlockSubstitutes overrides active (.loop list body position) (.loop list shown position)
        received after
  | paragraph {active properties children hasDirectives shown received after}
      (hchildren : Substitutes overrides active children shown received after) :
      BlockSubstitutes overrides active (.paragraph properties children hasDirectives)
        (.paragraph properties shown hasDirectives) received after
  | table {active properties grid rows shown received after}
      (hrows : RowsSubstitute overrides active rows shown received after) :
      BlockSubstitutes overrides active (.table ⟨properties, grid, rows⟩)
        (.table ⟨properties, grid, shown⟩) received after
  | text (active text style) :
      BlockSubstitutes overrides active (.text text style) (.text text style) [] active
  | placeholder (active path style position) :
      BlockSubstitutes overrides active (.placeholder path style position)
        (.placeholder path style position) [] active
  | image (active name style position) :
      BlockSubstitutes overrides active (.image name style position) (.image name style position)
        [] active
  | inherits (active parent position) :
      BlockSubstitutes overrides active (.inherits parent position) (.inherits parent position)
        [] active
  | static (active run) : BlockSubstitutes overrides active (.static run) (.static run) [] active

/-- Some blocks are turned into the second ones. -/
inductive Substitutes (overrides : NameMap Override) :
    List String → List Block → List Block → List Bool → List String → Prop
  | nil (active) : Substitutes overrides active [] [] [] active
  | cons {active block blocks shown received between shownRest receivedRest after}
      (hblock : BlockSubstitutes overrides active block shown received between)
      (hrest : Substitutes overrides between blocks shownRest receivedRest after) :
      Substitutes overrides active (block :: blocks) (shown :: shownRest)
        (received ++ receivedRest) after

/-- The rows of a table are turned into the second ones. -/
inductive RowsSubstitute (overrides : NameMap Override) :
    List String → List (RowBlock Block) → List (RowBlock Block) → List Bool → List String → Prop
  | nil (active) : RowsSubstitute overrides active [] [] [] active
  | once {active properties cells rows shown received between shownRest receivedRest after}
      (hcells : CellsSubstitute overrides active cells shown received between)
      (hrest : RowsSubstitute overrides between rows shownRest receivedRest after) :
      RowsSubstitute overrides active (.static ⟨properties, cells⟩ :: rows)
        (.static ⟨properties, shown⟩ :: shownRest) (received ++ receivedRest) after
  | loop {active list properties cells position rows shown received between shownRest receivedRest
      after}
      (hcells : CellsSubstitute overrides active cells shown received between)
      (hrest : RowsSubstitute overrides between rows shownRest receivedRest after) :
      RowsSubstitute overrides active (.loop list ⟨properties, cells⟩ position :: rows)
        (.loop list ⟨properties, shown⟩ position :: shownRest) (received ++ receivedRest) after

/-- The cells of a row are turned into the second ones. -/
inductive CellsSubstitute (overrides : NameMap Override) :
    List String → List (Cell Block) → List (Cell Block) → List Bool → List String → Prop
  | nil (active) : CellsSubstitute overrides active [] [] [] active
  | cons {active properties body cells shown received between shownRest receivedRest after}
      (hbody : Substitutes overrides active body shown received between)
      (hrest : CellsSubstitute overrides between cells shownRest receivedRest after) :
      CellsSubstitute overrides active (⟨properties, body⟩ :: cells)
        (⟨properties, shown⟩ :: shownRest) (received ++ receivedRest) after

end

/-! ## There is one result -/

section Unique

variable {overrides : NameMap Override}

/-- With the names of `active` on the stack, `shown`, the flags and what is left on the stack are
those of any other result. -/
def Same {α : Type} (shown shown' : α) (received received' : List Bool)
    (after after' : List String) : Prop :=
  shown = shown' ∧ received = received' ∧ after = after'

mutual

theorem BlockSubstitutes.unique : ∀ {active after after' : List String} {block shown shown' : Block}
    {received received' : List Bool},
    BlockSubstitutes overrides active block shown received after →
    BlockSubstitutes overrides active block shown' received' after' →
    Same shown shown' received received' after after'
  | _, _, _, _, _, _, _, _, .replaced hfind hnew hbody, .replaced hfind' _ hbody' => by
    obtain rfl := Option.some.inj (hfind.symm.trans hfind')
    obtain ⟨rfl, rfl, rfl⟩ := hbody.unique hbody'
    exact ⟨rfl, rfl, rfl⟩
  | _, _, _, _, _, _, _, _, .replaced hfind hnew _, .kept hnone _ => by
    rcases hnone with hnone | hmem
    · cases hfind.symm.trans hnone
    · exact absurd hmem hnew
  | _, _, _, _, _, _, _, _, .kept hnone _, .replaced hfind hnew _ => by
    rcases hnone with hnone | hmem
    · cases hfind.symm.trans hnone
    · exact absurd hmem hnew
  | _, _, _, _, _, _, _, _, .kept _ hbody, .kept _ hbody' => by
    obtain ⟨rfl, rfl, rfl⟩ := hbody.unique hbody'
    exact ⟨rfl, rfl, rfl⟩
  | _, _, _, _, _, _, _, _, .whenTrue hthen, .whenTrue hthen' => by
    obtain ⟨rfl, rfl, rfl⟩ := hthen.unique hthen'
    exact ⟨rfl, rfl, rfl⟩
  | _, _, _, _, _, _, _, _, .branches hthen helse, .branches hthen' helse' => by
    obtain ⟨rfl, rfl, rfl⟩ := hthen.unique hthen'
    obtain ⟨rfl, rfl, rfl⟩ := helse.unique helse'
    exact ⟨rfl, rfl, rfl⟩
  | _, _, _, _, _, _, _, _, .loop hbody, .loop hbody' => by
    obtain ⟨rfl, rfl, rfl⟩ := hbody.unique hbody'
    exact ⟨rfl, rfl, rfl⟩
  | _, _, _, _, _, _, _, _, .paragraph hchildren, .paragraph hchildren' => by
    obtain ⟨rfl, rfl, rfl⟩ := hchildren.unique hchildren'
    exact ⟨rfl, rfl, rfl⟩
  | _, _, _, _, _, _, _, _, .table hrows, .table hrows' => by
    obtain ⟨rfl, rfl, rfl⟩ := hrows.unique hrows'
    exact ⟨rfl, rfl, rfl⟩
  | _, _, _, _, _, _, _, _, .text _ _ _, .text _ _ _ => ⟨rfl, rfl, rfl⟩
  | _, _, _, _, _, _, _, _, .placeholder _ _ _ _, .placeholder _ _ _ _ => ⟨rfl, rfl, rfl⟩
  | _, _, _, _, _, _, _, _, .image _ _ _ _, .image _ _ _ _ => ⟨rfl, rfl, rfl⟩
  | _, _, _, _, _, _, _, _, .inherits _ _ _, .inherits _ _ _ => ⟨rfl, rfl, rfl⟩
  | _, _, _, _, _, _, _, _, .static _ _, .static _ _ => ⟨rfl, rfl, rfl⟩
termination_by structural _ _ _ _ _ _ _ _ h => h

theorem Substitutes.unique : ∀ {active after after' : List String}
    {blocks shown shown' : List Block} {received received' : List Bool},
    Substitutes overrides active blocks shown received after →
    Substitutes overrides active blocks shown' received' after' →
    Same shown shown' received received' after after'
  | _, _, _, _, _, _, _, _, .nil _, .nil _ => ⟨rfl, rfl, rfl⟩
  | _, _, _, _, _, _, _, _, .cons hblock hrest, .cons hblock' hrest' => by
    obtain ⟨rfl, rfl, rfl⟩ := hblock.unique hblock'
    obtain ⟨rfl, rfl, rfl⟩ := hrest.unique hrest'
    exact ⟨rfl, rfl, rfl⟩
termination_by structural _ _ _ _ _ _ _ _ h => h

theorem RowsSubstitute.unique : ∀ {active after after' : List String}
    {rows shown shown' : List (RowBlock Block)} {received received' : List Bool},
    RowsSubstitute overrides active rows shown received after →
    RowsSubstitute overrides active rows shown' received' after' →
    Same shown shown' received received' after after'
  | _, _, _, _, _, _, _, _, .nil _, .nil _ => ⟨rfl, rfl, rfl⟩
  | _, _, _, _, _, _, _, _, .once hcells hrest, .once hcells' hrest' => by
    obtain ⟨rfl, rfl, rfl⟩ := hcells.unique hcells'
    obtain ⟨rfl, rfl, rfl⟩ := hrest.unique hrest'
    exact ⟨rfl, rfl, rfl⟩
  | _, _, _, _, _, _, _, _, .loop hcells hrest, .loop hcells' hrest' => by
    obtain ⟨rfl, rfl, rfl⟩ := hcells.unique hcells'
    obtain ⟨rfl, rfl, rfl⟩ := hrest.unique hrest'
    exact ⟨rfl, rfl, rfl⟩
termination_by structural _ _ _ _ _ _ _ _ h => h

theorem CellsSubstitute.unique : ∀ {active after after' : List String}
    {cells shown shown' : List (Cell Block)} {received received' : List Bool},
    CellsSubstitute overrides active cells shown received after →
    CellsSubstitute overrides active cells shown' received' after' →
    Same shown shown' received received' after after'
  | _, _, _, _, _, _, _, _, .nil _, .nil _ => ⟨rfl, rfl, rfl⟩
  | _, _, _, _, _, _, _, _, .cons hbody hrest, .cons hbody' hrest' => by
    obtain ⟨rfl, rfl, rfl⟩ := hbody.unique hbody'
    obtain ⟨rfl, rfl, rfl⟩ := hrest.unique hrest'
    exact ⟨rfl, rfl, rfl⟩
termination_by structural _ _ _ _ _ _ _ _ h => h

end

end Unique

/-! ## What stands around a named block -/

mutual

/-- For each named block of a tree, in document order, the names of the blocks around it, innermost
first, and its own name. `around` are the names of the blocks around the tree. -/
def Block.trails (around : List String) : Block → List (List String × String)
  | .named id body _ _ => (around, id) :: trailsOf (id :: around) body
  | .conditional _ thenBlocks none _ => trailsOf around thenBlocks
  | .conditional _ thenBlocks (some elseBlocks) _ =>
    trailsOf around thenBlocks ++ trailsOf around elseBlocks
  | .loop _ body _ => trailsOf around body
  | .paragraph _ children _ => trailsOf around children
  | .table ⟨_, _, rows⟩ => rowTrails around rows
  | .text _ _ => []
  | .placeholder _ _ _ => []
  | .image _ _ _ => []
  | .inherits _ _ => []
  | .static _ => []

/-- What stands around the named blocks within some blocks. -/
def trailsOf (around : List String) : List Block → List (List String × String)
  | [] => []
  | block :: blocks => block.trails around ++ trailsOf around blocks

/-- What stands around the named blocks within the rows of a table. -/
def rowTrails (around : List String) : List (RowBlock Block) → List (List String × String)
  | [] => []
  | .static ⟨_, cells⟩ :: rows => cellTrails around cells ++ rowTrails around rows
  | .loop _ ⟨_, cells⟩ _ :: rows => cellTrails around cells ++ rowTrails around rows

/-- What stands around the named blocks within the cells of a row. -/
def cellTrails (around : List String) : List (Cell Block) → List (List String × String)
  | [] => []
  | ⟨_, body⟩ :: cells => trailsOf around body ++ cellTrails around cells

end

/-- No named block that has received an override stands within another one of its name. -/
def Apart (trails : List (List String × String)) (received : List Bool) : Prop :=
  List.Forall₂ (fun trail received => received = true → trail.2 ∉ trail.1) trails received

theorem Apart.append {trails trails' : List (List String × String)} {received received' : List Bool}
    (h : Apart trails received) (h' : Apart trails' received') :
    Apart (trails ++ trails') (received ++ received') :=
  List.rel_append h h'

section Steps

variable {overrides : NameMap Override}

/-! ## The stack is as it was -/

mutual

theorem BlockSubstitutes.after_eq : ∀ {active after : List String} {block shown : Block}
    {received : List Bool}, BlockSubstitutes overrides active block shown received after →
    after = active
  | _, _, _, _, _, .replaced _ _ hbody => by
    have hpushed := hbody.after_eq
    rw [hpushed, List.tail_cons]
  | _, _, _, _, _, .kept _ hbody => by
    have hpushed := hbody.after_eq
    rw [hpushed, List.tail_cons]
  | _, _, _, _, _, .whenTrue hthen => hthen.after_eq
  | _, _, _, _, _, .branches hthen helse => helse.after_eq.trans hthen.after_eq
  | _, _, _, _, _, .loop hbody => hbody.after_eq
  | _, _, _, _, _, .paragraph hchildren => hchildren.after_eq
  | _, _, _, _, _, .table hrows => hrows.after_eq
  | _, _, _, _, _, .text _ _ _ => rfl
  | _, _, _, _, _, .placeholder _ _ _ _ => rfl
  | _, _, _, _, _, .image _ _ _ _ => rfl
  | _, _, _, _, _, .inherits _ _ _ => rfl
  | _, _, _, _, _, .static _ _ => rfl
termination_by structural _ _ _ _ _ h => h

/-- A substitution leaves the stack as it has found it. -/
theorem Substitutes.after_eq : ∀ {active after : List String} {blocks shown : List Block}
    {received : List Bool}, Substitutes overrides active blocks shown received after →
    after = active
  | _, _, _, _, _, .nil _ => rfl
  | _, _, _, _, _, .cons hblock hrest => hrest.after_eq.trans hblock.after_eq
termination_by structural _ _ _ _ _ h => h

theorem RowsSubstitute.after_eq : ∀ {active after : List String}
    {rows shown : List (RowBlock Block)} {received : List Bool},
    RowsSubstitute overrides active rows shown received after → after = active
  | _, _, _, _, _, .nil _ => rfl
  | _, _, _, _, _, .once hcells hrest => hrest.after_eq.trans hcells.after_eq
  | _, _, _, _, _, .loop hcells hrest => hrest.after_eq.trans hcells.after_eq
termination_by structural _ _ _ _ _ h => h

theorem CellsSubstitute.after_eq : ∀ {active after : List String}
    {cells shown : List (Cell Block)} {received : List Bool},
    CellsSubstitute overrides active cells shown received after → after = active
  | _, _, _, _, _, .nil _ => rfl
  | _, _, _, _, _, .cons hbody hrest => hrest.after_eq.trans hbody.after_eq
termination_by structural _ _ _ _ _ h => h

end

/-! ## No block within itself -/

mutual

theorem BlockSubstitutes.apart : ∀ {active after : List String} {block shown : Block}
    {received : List Bool}, BlockSubstitutes overrides active block shown received after →
    Apart (shown.trails active) received
  | _, _, _, _, _, .replaced _ hnew hbody => by
    rw [Block.trails]
    exact .cons (fun _ => hnew) hbody.apart
  | _, _, _, _, _, .kept _ hbody => by
    rw [Block.trails]
    exact .cons nofun hbody.apart
  | _, _, _, _, _, .whenTrue hthen => by
    rw [Block.trails]
    exact hthen.apart
  | _, _, _, _, _, .branches hthen helse => by
    have hsecond := helse.apart
    rw [hthen.after_eq] at hsecond
    rw [Block.trails]
    exact hthen.apart.append hsecond
  | _, _, _, _, _, .loop hbody => by
    rw [Block.trails]
    exact hbody.apart
  | _, _, _, _, _, .paragraph hchildren => by
    rw [Block.trails]
    exact hchildren.apart
  | _, _, _, _, _, .table hrows => by
    rw [Block.trails]
    exact hrows.apart
  | _, _, _, _, _, .text _ _ _ => by rw [Block.trails]; exact .nil
  | _, _, _, _, _, .placeholder _ _ _ _ => by rw [Block.trails]; exact .nil
  | _, _, _, _, _, .image _ _ _ _ => by rw [Block.trails]; exact .nil
  | _, _, _, _, _, .inherits _ _ _ => by rw [Block.trails]; exact .nil
  | _, _, _, _, _, .static _ _ => by rw [Block.trails]; exact .nil
termination_by structural _ _ _ _ _ h => h

/-- The stack holds the names of the blocks around, so a block that receives an override has no
block of its name around it. -/
theorem Substitutes.apart : ∀ {active after : List String} {blocks shown : List Block}
    {received : List Bool}, Substitutes overrides active blocks shown received after →
    Apart (trailsOf active shown) received
  | _, _, _, _, _, .nil _ => by
    rw [trailsOf]
    exact .nil
  | _, _, _, _, _, .cons hblock hrest => by
    have hsecond := hrest.apart
    rw [hblock.after_eq] at hsecond
    rw [trailsOf]
    exact hblock.apart.append hsecond
termination_by structural _ _ _ _ _ h => h

theorem RowsSubstitute.apart : ∀ {active after : List String}
    {rows shown : List (RowBlock Block)} {received : List Bool},
    RowsSubstitute overrides active rows shown received after →
    Apart (rowTrails active shown) received
  | _, _, _, _, _, .nil _ => by
    rw [rowTrails]
    exact .nil
  | _, _, _, _, _, .once hcells hrest => by
    have hsecond := hrest.apart
    rw [hcells.after_eq] at hsecond
    rw [rowTrails]
    exact hcells.apart.append hsecond
  | _, _, _, _, _, .loop hcells hrest => by
    have hsecond := hrest.apart
    rw [hcells.after_eq] at hsecond
    rw [rowTrails]
    exact hcells.apart.append hsecond
termination_by structural _ _ _ _ _ h => h

theorem CellsSubstitute.apart : ∀ {active after : List String}
    {cells shown : List (Cell Block)} {received : List Bool},
    CellsSubstitute overrides active cells shown received after →
    Apart (cellTrails active shown) received
  | _, _, _, _, _, .nil _ => by
    rw [cellTrails]
    exact .nil
  | _, _, _, _, _, .cons hbody hrest => by
    have hsecond := hrest.apart
    rw [hbody.after_eq] at hsecond
    rw [cellTrails]
    exact hbody.apart.append hsecond
termination_by structural _ _ _ _ _ h => h

end

/-! ## There is a result -/

/-- Putting a new name with an override on the stack leaves fewer of them. -/
theorem length_unvisited_cons_lt {active : List String} {id : String} {override : Override}
    (hfind : overrides.find? id = some override) (hnew : id ∉ active) :
    (unvisited overrides.keys (id :: active)).length <
      (unvisited overrides.keys active).length := by
  have hpush : unvisited overrides.keys (id :: active) =
      unvisited overrides.keys (active ++ [id]) := by
    refine List.filter_congr ?_
    intro name _
    simp [or_comm]
  rw [hpush]
  exact length_unvisited_lt (Fields.find?_mem_keys hfind) hnew

/-- Replacements nested `depth` deep are enough as long as no more names with an override are left
than that. -/
def Suffices (overrides : NameMap Override) (depth : Nat) : Prop :=
  ∀ active id override, (unvisited overrides.keys active).length ≤ depth →
    overrides.find? id = some override → id ∉ active →
    ∃ shown received, replacement overrides depth active id = some { override with body := shown } ∧
      Substitutes overrides (id :: active) override.body shown received (id :: active)

/-- A block that stands within another one of its name has no replacement. -/
theorem replacement_of_mem {depth : Nat} {active : List String} {id : String} (h : id ∈ active) :
    replacement overrides depth active id = none := by
  cases depth with
  | zero => rfl
  | succ depth => rw [replacement, if_pos h]

theorem length_unvisited_cons_le (names active : List String) (id : String) :
    (unvisited names (id :: active)).length ≤ (unvisited names active).length := by
  refine (List.monotone_filter_right names ?_).length_le
  intro name hname
  simp only [List.mem_cons, not_or, decide_eq_true_eq] at hname ⊢
  exact hname.2

section Bound

variable {depth : Nat}

mutual

theorem Suffices.substituteBlock (hsuffices : Suffices overrides depth) :
    ∀ (active : List String) (block : Block), (unvisited overrides.keys active).length ≤ depth →
    ∃ received, BlockSubstitutes overrides active block
      (substituteBlock (replacement overrides depth) active block) received active
  | active, .named id body position origin, hdepth => by
    rw [StyledTemplate.substituteBlock]
    have hpush := length_unvisited_cons_le overrides.keys active id
    have hdepthBody := Nat.le_trans hpush hdepth
    obtain ⟨received, hbody⟩ := hsuffices.substituteBlocks (id :: active) body hdepthBody
    by_cases hmem : id ∈ active
    · rw [replacement_of_mem hmem]
      exact ⟨_, .kept (.inr hmem) hbody⟩
    · cases hfind : overrides.find? id with
      | none =>
        rw [replacement_eq_none hfind]
        exact ⟨_, .kept (.inl hfind) hbody⟩
      | some override =>
        obtain ⟨shown, received, hreplacement, hshown⟩ :=
          hsuffices active id override hdepth hfind hmem
        rw [hreplacement]
        exact ⟨_, .replaced hfind hmem hshown⟩
  | active, .conditional _ thenBlocks none _, hdepth => by
    rw [StyledTemplate.substituteBlock]
    obtain ⟨received, hthen⟩ := hsuffices.substituteBlocks active thenBlocks hdepth
    exact ⟨received, .whenTrue hthen⟩
  | active, .conditional _ thenBlocks (some elseBlocks) _, hdepth => by
    rw [StyledTemplate.substituteBlock]
    obtain ⟨receivedThen, hthen⟩ := hsuffices.substituteBlocks active thenBlocks hdepth
    obtain ⟨receivedElse, helse⟩ := hsuffices.substituteBlocks active elseBlocks hdepth
    exact ⟨_, .branches hthen helse⟩
  | active, .loop _ body _, hdepth => by
    rw [StyledTemplate.substituteBlock]
    obtain ⟨received, hbody⟩ := hsuffices.substituteBlocks active body hdepth
    exact ⟨received, .loop hbody⟩
  | active, .paragraph _ children _, hdepth => by
    rw [StyledTemplate.substituteBlock]
    obtain ⟨received, hchildren⟩ := hsuffices.substituteBlocks active children hdepth
    exact ⟨received, .paragraph hchildren⟩
  | active, .table ⟨_, _, rows⟩, hdepth => by
    rw [StyledTemplate.substituteBlock]
    obtain ⟨received, hrows⟩ := hsuffices.substituteRows active rows hdepth
    exact ⟨received, .table hrows⟩
  | active, .text text style, _ => by
    rw [StyledTemplate.substituteBlock]
    exact ⟨[], .text active text style⟩
  | active, .placeholder path style position, _ => by
    rw [StyledTemplate.substituteBlock]
    exact ⟨[], .placeholder active path style position⟩
  | active, .image name style position, _ => by
    rw [StyledTemplate.substituteBlock]
    exact ⟨[], .image active name style position⟩
  | active, .inherits parent position, _ => by
    rw [StyledTemplate.substituteBlock]
    exact ⟨[], .inherits active parent position⟩
  | active, .static run, _ => by
    rw [StyledTemplate.substituteBlock]
    exact ⟨[], .static active run⟩

/-- Where the replacements for the names that are left suffice, the blocks that are computed are the
result of the substitution. -/
theorem Suffices.substituteBlocks (hsuffices : Suffices overrides depth) :
    ∀ (active : List String) (blocks : List Block),
    (unvisited overrides.keys active).length ≤ depth →
    ∃ received, Substitutes overrides active blocks
      (substituteBlocks (replacement overrides depth) active blocks) received active
  | active, [], _ => by
    rw [StyledTemplate.substituteBlocks]
    exact ⟨[], .nil active⟩
  | active, block :: blocks, hdepth => by
    rw [StyledTemplate.substituteBlocks]
    obtain ⟨received, hblock⟩ := hsuffices.substituteBlock active block hdepth
    obtain ⟨receivedRest, hrest⟩ := hsuffices.substituteBlocks active blocks hdepth
    exact ⟨_, .cons hblock hrest⟩

theorem Suffices.substituteRows (hsuffices : Suffices overrides depth) :
    ∀ (active : List String) (rows : List (RowBlock Block)),
    (unvisited overrides.keys active).length ≤ depth →
    ∃ received, RowsSubstitute overrides active rows
      (substituteRows (replacement overrides depth) active rows) received active
  | active, [], _ => by
    rw [StyledTemplate.substituteRows]
    exact ⟨[], .nil active⟩
  | active, .static ⟨_, cells⟩ :: rows, hdepth => by
    rw [StyledTemplate.substituteRows]
    obtain ⟨received, hcells⟩ := hsuffices.substituteCells active cells hdepth
    obtain ⟨receivedRest, hrest⟩ := hsuffices.substituteRows active rows hdepth
    exact ⟨_, .once hcells hrest⟩
  | active, .loop _ ⟨_, cells⟩ _ :: rows, hdepth => by
    rw [StyledTemplate.substituteRows]
    obtain ⟨received, hcells⟩ := hsuffices.substituteCells active cells hdepth
    obtain ⟨receivedRest, hrest⟩ := hsuffices.substituteRows active rows hdepth
    exact ⟨_, .loop hcells hrest⟩

theorem Suffices.substituteCells (hsuffices : Suffices overrides depth) :
    ∀ (active : List String) (cells : List (Cell Block)),
    (unvisited overrides.keys active).length ≤ depth →
    ∃ received, CellsSubstitute overrides active cells
      (substituteCells (replacement overrides depth) active cells) received active
  | active, [], _ => by
    rw [StyledTemplate.substituteCells]
    exact ⟨[], .nil active⟩
  | active, ⟨_, body⟩ :: cells, hdepth => by
    rw [StyledTemplate.substituteCells]
    obtain ⟨received, hbody⟩ := hsuffices.substituteBlocks active body hdepth
    obtain ⟨receivedRest, hrest⟩ := hsuffices.substituteCells active cells hdepth
    exact ⟨_, .cons hbody hrest⟩

end

end Bound

/-- As many nested replacements suffice as there are names left. -/
theorem suffices_replacement (overrides : NameMap Override) (depth : Nat) : Suffices overrides depth := by
  -- Working on a replacement takes its name away from those that are left, and the bound on the
  -- depth goes down with it. The body may be any blocks, so no induction on it would do.
  induction depth with
  | zero =>
    intro active id override hdepth hfind hnew
    have hlt := length_unvisited_cons_lt hfind hnew
    omega
  | succ depth ih =>
    intro active id override hdepth hfind hnew
    have hlt := length_unvisited_cons_lt hfind hnew
    have hdepthBody : (unvisited overrides.keys (id :: active)).length ≤ depth := by omega
    obtain ⟨received, hbody⟩ := ih.substituteBlocks (id :: active) override.body hdepthBody
    exact ⟨_, received, find?_replacement_succ hnew hfind, hbody⟩

/-- With as many nested replacements as there are overrides, the blocks that are computed are the
result of the substitution, whatever is on the stack. -/
theorem substitutes_substituteBlocks (overrides : NameMap Override) (active : List String)
    (blocks : List Block) : ∃ received, Substitutes overrides active blocks
      (substituteBlocks (replacement overrides overrides.size) active blocks) received active := by
  have hsize : (unvisited overrides.keys active).length ≤ overrides.size := by
    have hkeys : overrides.keys.length = overrides.size := List.length_map ..
    have hle := List.length_filter_le (fun name => name ∉ active) overrides.keys
    rw [← hkeys]
    exact hle
  exact (suffices_replacement overrides overrides.size).substituteBlocks active blocks hsize

end Steps

/-- Substitution comes to an end for any overrides, also for those whose bodies hold blocks of each
other's names or of their own. It has one result, which is what `substitute` computes when it starts
with no name on the stack. The stack is left as it was, and no block that has received an override
stands within another one of its name. -/
theorem substitute_ends (overrides : NameMap Override) (active : List String)
    (blocks : List Block) : ∃ shown received,
    Substitutes overrides active blocks shown received active ∧
    (∀ shown' received' after, Substitutes overrides active blocks shown' received' after →
      shown' = shown ∧ received' = received ∧ after = active) ∧
    (active = [] → substitute overrides blocks = shown) ∧
    Apart (trailsOf active shown) received := by
  obtain ⟨received, hshown⟩ := substitutes_substituteBlocks overrides active blocks
  refine ⟨_, received, hshown, ?_, ?_, hshown.apart⟩
  · intro shown' received' after hshown'
    exact hshown'.unique hshown
  · rintro rfl
    rfl

/-- Two blocks that are put into each other are not put into themselves. -/
example :
    let overrides : NameMap Override := .ofList
      [("a", ⟨"child", [.named "b" [] {} none]⟩), ("b", ⟨"child", [.named "a" [] {} none]⟩)]
    substitute overrides [.named "a" [] {} none] =
      [.named "a" [.named "b" [.named "a" [] {} none] {} (some "child")] {} (some "child")] := by
  rfl

end StyledTemplate
