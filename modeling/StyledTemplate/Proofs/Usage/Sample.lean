import StyledTemplate.Proofs.Bindings.Meanings
import StyledTemplate.Proofs.Outcome
import StyledTemplate.Proofs.Render.Lookups
import StyledTemplate.Proofs.Usage.Growth
import StyledTemplate.Proofs.Usage.SampleFields

/-!
# Rendering with sample bindings

Sample bindings answer every placeholder and every condition of a template, in and out of loops, and
every list of an outermost loop. The list of a loop within another one is recorded as a field of the
outer list, and a field is a text or a record, never a list. So strict rendering with sample bindings
succeeds if and only if no loop stands within another one (`renderDocument_sample_iff`).
-/

namespace StyledTemplate

/-- The path starts with no name that only loops bind, and none of its segments is empty. -/
def IsDataPath (path : String) : Prop :=
  isLoopName path = false ∧ ∀ segment ∈ Text.segments path, segment ≠ ""

instance (path : String) : Decidable (IsDataPath path) := inferInstanceAs (Decidable (_ ∧ _))

mutual

/-- Does no loop stand within another one? Else-branches do not count. -/
def Block.loopsApart (inLoop : Bool) : Block → Bool
  | .conditional _ thenBlocks _ _ => loopsApartIn inLoop thenBlocks
  | .loop _ body _ => !inLoop && loopsApartIn true body
  | .named _ body _ _ => loopsApartIn inLoop body
  | .paragraph _ children _ => loopsApartIn inLoop children
  | .table ⟨_, _, rows⟩ => rowLoopsApart inLoop rows
  | .placeholder _ _ _ | .image _ _ _ | .text _ _ | .inherits _ _ | .static _ => true

/-- Does no loop of the blocks stand within another one? -/
def loopsApartIn (inLoop : Bool) : List Block → Bool
  | [] => true
  | block :: blocks => block.loopsApart inLoop && loopsApartIn inLoop blocks

/-- Does no loop of the rows stand within another one? A repeated row is a loop. -/
def rowLoopsApart (inLoop : Bool) : List (RowBlock Block) → Bool
  | [] => true
  | .static ⟨_, cells⟩ :: rows => cellLoopsApart inLoop cells && rowLoopsApart inLoop rows
  | .loop _ ⟨_, cells⟩ _ :: rows =>
    (!inLoop && cellLoopsApart true cells) && rowLoopsApart inLoop rows

/-- Does no loop of the cells stand within another one? -/
def cellLoopsApart (inLoop : Bool) : List (Cell Block) → Bool
  | [] => true
  | ⟨_, body⟩ :: cells => loopsApartIn inLoop body && cellLoopsApart inLoop cells

end

/-! ## Looking up samples -/

theorem sampleText_ne_empty (path : String) : sampleText path ≠ "" := by
  intro h
  have hlength := congrArg String.length h
  simp [sampleText, String.length_append] at hlength

theorem entryText_ne_empty (number : Nat) (path : String) : entryText number path ≠ "" := by
  intro h
  have hlength := congrArg String.length h
  simp [entryText, String.length_append] at hlength

/-- In a sample record a path is found by its first segment, and its rest below that. -/
theorem exists_lookup_sampleFields {text : String → String} (htext : ∀ path, text path ≠ "")
    {names : NameSet} {path : String} (hmem : names.contains path = true) (hpath : IsDataPath path) :
    ∃ v part, (sampleFields text names.keys).find? (Text.splitPath path).1 = some v ∧
      v.lookup (Text.splitPath path).2 = some part ∧ part.isTruthy = true ∧
      Context.entriesOf? part = none := by
  obtain ⟨rest, hsegments, hlookup⟩ := Text.exists_segments_eq hpath.2
  obtain ⟨part, hleads, hsample⟩ :=
    exists_leads_sampleFields htext names.keys_sorted (NameMap.mem_keys_of_contains hmem)
  rw [hsegments] at hleads
  cases hleads with
  | @field _ _ v _ _ hfind h =>
    exact ⟨v, part, hfind, (hlookup v).trans h.partAt?_eq, hsample⟩

/-- The first segment of a path is none of the names that loops bind, unless the path starts with
one. -/
theorem root_not_mem {path : String} (h : isLoopName path = false) :
    (Text.splitPath path).1 ∉ ["this", "@index", "@number", "@first", "@last"] := by
  intro hmem
  have hpath := Text.eq_splitFirst '.' path.toList
  have hroot : (Text.splitFirst '.' path.toList).1 = (Text.splitPath path).1.toList := by
    simp [Text.splitPath]
  rw [hroot] at hpath
  have hthis : path ≠ "this" := by
    rintro rfl
    simp [isLoopName] at h
  simp only [isLoopName, Bool.or_eq_false_iff] at h
  simp only [List.mem_cons, List.not_mem_nil, or_false] at hmem
  rcases hmem with hname | hname | hname | hname | hname
  · rw [hname] at hpath
    cases hrest : (Text.splitFirst '.' path.toList).2 with
    | none =>
      rw [hrest] at hpath
      exact hthis (String.toList_inj.1 hpath)
    | some rest =>
      have hprefix : "this.".toList.isPrefixOf path.toList = true := by
        rw [hpath, hrest]
        rfl
      exact Bool.false_ne_true (h.2.symm.trans hprefix)
  all_goals
    rw [hname] at hpath
    have hhead : path.toList.head? = some '@' := by
      rw [hpath]
      rfl
    simp [hhead] at h

theorem find?_ofEntry {fields : Fields Value} (hsorted : fields.Sorted) {root : String}
    (hroot : root ∉ ["this", "@index", "@number", "@first", "@last"]) (index length : Nat) :
    (Scope.ofEntry (.map fields) index length).find? root = fields.find? root := by
  rw [(Scope.bindsEntry_ofEntry (.map fields) index length).field root hroot]
  exact hsorted.lastValue?_eq root

/-! ## Scenes with sample bindings -/

/-- The sample bindings, out of all loops. Every name has to be bound. -/
def Usage.sampleContext (u : Usage) : Context := { bindings := u.sample, strict := true }

/-- The context of a scene outside of loops, or in a loop through the sample entries of `list`. -/
inductive Usage.Shows (u : Usage) : Option String → Context → Prop
  | outside : u.Shows none u.sampleContext
  | within {list : String} {fields : NameSet} (hlist : u.lists.find? list = some fields)
      (number index : Nat) : u.Shows (some list)
        (u.sampleContext.enter (sampleEntry list fields number) index 2)

namespace Usage

variable {u : Usage} {list : String} {context : Context} {path : String}

theorem find?_sample_conditions (h : u.conditions.contains path = true) :
    u.sample.conditions.find? path = some true := by
  obtain ⟨value, hvalue⟩ := Option.isSome_iff_exists.1 h
  have hfind := Fields.find?_map (fun _ _ => true) u.conditions.entries path
  rw [show u.conditions.entries.find? path = some value from hvalue] at hfind
  exact hfind

/-- A list has two sample entries. -/
theorem find?_sample_lists {fields : NameSet} (h : u.lists.find? list = some fields) :
    u.sample.lists.find? list =
      some [sampleEntry list fields 1, sampleEntry list fields 2] := by
  have hsorted : Fields.Sorted (u.lists.entries.map fun entry =>
      (entry.1, [sampleEntry entry.1 entry.2 1, sampleEntry entry.1 entry.2 2])) :=
    List.pairwise_map.2 u.lists.sorted
  rw [Usage.sample, NameMap.find?_ofList hsorted, Fields.find?_map fun name fields =>
    [sampleEntry name fields 1, sampleEntry name fields 2]]
  rw [show u.lists.entries.find? list = some fields from h]
  rfl

theorem exists_sampleEntry {fields : NameSet} (h : fields.contains path = true) (list : String)
    (number : Nat) : sampleEntry list fields number =
      .map (sampleFields (entryText number) fields.keys) := by
  rw [sampleEntry, if_neg]
  intro hempty
  have hmem := NameMap.mem_keys_of_contains h
  rw [NameMap.keys, Fields.keys, List.isEmpty_iff.1 hempty] at hmem
  cases hmem

/-- Within the loops of a list, its fields are bound to samples. -/
theorem Shows.exists_scoped? (h : u.Shows (some list) context) (hfield : u.HasField list path)
    (hpath : IsDataPath path) :
    ∃ v part, context.scoped? (Text.splitPath path).1 = some v ∧
      v.lookup (Text.splitPath path).2 = some part ∧ part.isTruthy = true ∧
      Context.entriesOf? part = none := by
  cases h with
  | @within _ fields hlist number index =>
    obtain ⟨other, hother, hmem⟩ := hfield
    obtain rfl : other = fields := Option.some.inj (hother.symm.trans hlist)
    obtain ⟨v, part, hfind, hsample⟩ :=
      exists_lookup_sampleFields (entryText_ne_empty number) hmem hpath
    refine ⟨v, part, ?_, hsample⟩
    have hscope := find?_ofEntry (sampleFields_sorted (entryText number) other.keys)
      (root_not_mem hpath.1) index 2
    rw [← exists_sampleEntry hmem list number] at hscope
    simp only [sampleContext, Context.enter, Context.push, Context.scoped?, List.findSome?_cons,
      hscope, hfind]

theorem Shows.isOk_text {place : Option String} (h : u.Shows place context)
    (hmentions : u.Mentions place false path) (hpath : IsDataPath path) :
    (context.text path).isOk = true := by
  have hget : ∃ part, context.get? path = some part := by
    cases place with
    | some list =>
      obtain ⟨v, part, hscoped, hlookup, -⟩ := h.exists_scoped? hmentions hpath
      refine ⟨part, ?_⟩
      simp only [Context.get?, hscoped, hlookup]
    | none =>
      cases h
      obtain ⟨v, part, hfind, hlookup, -⟩ :=
        exists_lookup_sampleFields sampleText_ne_empty hmentions hpath
      rw [← find?_sample_values] at hfind
      refine ⟨part, ?_⟩
      simp only [sampleContext, Context.get?, Context.scoped?, List.findSome?_nil, hfind, hlookup]
  obtain ⟨part, hpart⟩ := hget
  rw [Context.text, hpart]
  rfl

theorem Shows.holds {place : Option String} (h : u.Shows place context)
    (hmentions : u.Mentions place true path) (hpath : IsDataPath path) :
    context.holds path = true := by
  cases place with
  | some list =>
    obtain ⟨v, part, hscoped, hlookup, htruthy, -⟩ := h.exists_scoped? hmentions hpath
    simp only [Context.holds, hscoped, hlookup, Option.map_some, Option.getD_some, htruthy]
  | none =>
    cases h
    have hcondition := find?_sample_conditions hmentions
    simp only [sampleContext, Context.holds, Context.scoped?, List.findSome?_nil, hcondition]

/-- A list that is used within the loops of another one is bound to no list. -/
theorem Shows.entries_within (h : u.Shows (some list) context)
    (hmentions : u.HasField list path) (hpath : IsDataPath path) :
    context.entries path = .error (.variableResolution path) := by
  obtain ⟨v, part, hscoped, hlookup, -, hentries⟩ := h.exists_scoped? hmentions hpath
  have hnone : context.entries? path = none := by
    simp only [Context.entries?, hscoped, hlookup, Option.bind_some, hentries]
  have hstrict : context.strict = true := by
    cases h
    rfl
  rw [Context.entries, hnone, hstrict]
  rfl

/-- Outside of loops a list has two entries. -/
theorem Shows.entries_outside (h : u.Shows none context) {fields : NameSet}
    (hlist : u.lists.find? list = some fields) :
    context.entries list = .ok [sampleEntry list fields 1, sampleEntry list fields 2] := by
  cases h
  have hentries := find?_sample_lists hlist
  simp only [sampleContext, Context.entries, Context.entries?, Context.scoped?, List.findSome?_nil,
    hentries]

theorem Shows.enter (h : u.Shows none context) {fields : NameSet}
    (hlist : u.lists.find? list = some fields) (number index : Nat) :
    u.Shows (some list) (context.enter (sampleEntry list fields number) index 2) := by
  cases h
  exact .within hlist number index

theorem Shows.image? {place : Option String} (h : u.Shows place context) (name : String) :
    context.image? name = none := by
  cases h <;> rfl

end Usage

/-! ## Rendering -/

section Rendering

theorem Scene.isOk_located {α : Type} (scene : Scene) (position : Position)
    (x : Except Error α) : (scene.located position x).isOk = x.isOk := by
  cases x <;> rfl

variable {u w : Usage} {scene : Scene}

/-- An outermost loop runs through two entries. A loop within another one fails. -/
theorem isOk_renderLoop {α : Type} {list : String} (place : Place) (hlist : IsDataPath list)
    (hgrows : (u.mentionList place list).Grows w) (hscene : w.Shows place.list scene.context)
    {render : Scene → Except Error (List α)} {apart : Bool}
    (hrender : ∀ inner : Scene, w.Shows (place.within list).list inner.context →
      (render inner).isOk = apart) (position : Position) :
    (do
      let entries ← scene.located position (scene.context.entries list)
      scene.renderEntries render entries.length 0 entries : Except Error (List α)).isOk =
        (!place.list.isSome && apart) := by
  unfold Usage.mentionList at hgrows
  unfold Place.within at hrender
  cases hplace : place.list with
  | some outer =>
    have hmention := u.mentions_mention place false hlist.1
    rw [hplace] at hgrows hscene hmention
    have hfield : w.HasField outer list := hgrows.mentions _ _ _ hmention
    rw [hscene.entries_within hfield hlist]
    rfl
  | none =>
    rw [hplace] at hgrows hscene hrender
    obtain ⟨fields, hfields⟩ :=
      Option.isSome_iff_exists.1 (hgrows.lists _ (u.contains_addList list))
    have hfirst := hrender (scene.enter (sampleEntry list fields 1) 0 2)
      (hscene.enter hfields 1 0)
    have hsecond := hrender (scene.enter (sampleEntry list fields 2) 1 2)
      (hscene.enter hfields 2 1)
    have hrest : (scene.renderEntries render 2 1 [sampleEntry list fields 2]).isOk = apart := by
      rw [Scene.renderEntries, isOk_bind_bind, hsecond]
      exact Bool.and_true apart
    rw [hscene.entries_outside hfields]
    change (scene.renderEntries render 2 0 _).isOk = _
    rw [Scene.renderEntries, isOk_bind_bind, hfirst, hrest]
    exact Bool.and_self apart

mutual

theorem isOk_renderBlock : ∀ (block : Block) (place : Place) {u w : Usage} {scene : Scene},
    (block.use place u).Grows w → w.Shows place.list scene.context →
    (∀ path, .path path ∈ block.lookups → IsDataPath path) →
    (renderBlock scene block).isOk = block.loopsApart place.list.isSome
  | .placeholder path style position, place, u, w, scene, hgrows, hscene, hpaths => by
    rw [Block.use] at hgrows
    have hpath : IsDataPath path := hpaths path List.mem_cons_self
    have hmention := hgrows.mentions _ _ _ (u.mentions_mention place false hpath.1)
    rw [renderBlock, isOk_bind_pure, Scene.isOk_located, Block.loopsApart]
    exact hscene.isOk_text hmention hpath
  | .image name style position, place, u, w, scene, hgrows, hscene, hpaths => by
    rw [renderBlock, isOk_bind_pure, Scene.isOk_located, Block.loopsApart, Scene.imageRun,
      hscene.image? name]
    rfl
  | .conditional condition thenBlocks elseBlocks position, place, u, w, scene, hgrows, hscene,
      hpaths => by
    have hcondition : .path condition ∈
        (Block.conditional condition thenBlocks elseBlocks position).lookups := by
      cases elseBlocks <;> exact List.mem_cons_self
    have hthenPaths : ∀ path, .path path ∈ lookupsOf thenBlocks → IsDataPath path := by
      intro path hpath
      refine hpaths path ?_
      cases elseBlocks with
      | none => exact List.mem_cons_of_mem _ hpath
      | some elseBlocks => exact List.mem_cons_of_mem _ (List.mem_append_left _ hpath)
    have hthen : (useBlocks place thenBlocks (u.mention place true condition)).Grows w := by
      cases elseBlocks with
      | none =>
        rw [Block.use] at hgrows
        exact hgrows
      | some elseBlocks =>
        rw [Block.use] at hgrows
        exact (grows_useBlocks elseBlocks place _).trans hgrows
    have hmention := ((grows_useBlocks thenBlocks place _).trans hthen).mentions _ _ _
      (u.mentions_mention place true (hpaths condition hcondition).1)
    have hholds := hscene.holds hmention (hpaths condition hcondition)
    have hrender : renderBlock scene (.conditional condition thenBlocks elseBlocks position) =
        renderBlocks scene thenBlocks := by
      cases elseBlocks <;> rw [renderBlock, if_pos hholds]
    rw [hrender, Block.loopsApart]
    exact isOk_renderBlocks thenBlocks place hthen hscene hthenPaths
  | .loop list body position, place, u, w, scene, hgrows, hscene, hpaths => by
    rw [Block.use] at hgrows
    have hlist : IsDataPath list := hpaths list List.mem_cons_self
    have hbody : ∀ inner : Scene, w.Shows (place.within list).list inner.context →
        (renderBlocks inner body).isOk = loopsApartIn true body := fun inner hinner =>
      isOk_renderBlocks body (place.within list) hgrows hinner fun path hpath =>
        hpaths path (List.mem_cons_of_mem _ hpath)
    rw [renderBlock, Block.loopsApart]
    exact isOk_renderLoop place hlist ((grows_useBlocks body _ _).trans hgrows) hscene hbody position
  | .named id body position origin, place, u, w, scene, hgrows, hscene, hpaths => by
    rw [Block.use] at hgrows
    rw [renderBlock, Block.loopsApart]
    exact isOk_renderBlocks body place hgrows hscene hpaths
  | .paragraph properties children hasDirectives, place, u, w, scene, hgrows, hscene, hpaths => by
    rw [Block.use] at hgrows
    rw [renderBlock, isOk_bind_pure, Block.loopsApart]
    exact isOk_renderBlocks children place hgrows hscene hpaths
  | .table ⟨properties, grid, rows⟩, place, u, w, scene, hgrows, hscene, hpaths => by
    rw [Block.use] at hgrows
    rw [renderBlock, isOk_bind_pure, Block.loopsApart]
    exact isOk_renderRows rows place hgrows hscene hpaths
  | .text _ _, _, _, _, _, _, _, _ => by
    rw [renderBlock, Block.loopsApart]
    rfl
  | .inherits _ _, _, _, _, _, _, _, _ => by
    rw [renderBlock, Block.loopsApart]
    rfl
  | .static _, _, _, _, _, _, _, _ => by
    rw [renderBlock, Block.loopsApart]
    rfl

theorem isOk_renderBlocks : ∀ (blocks : List Block) (place : Place) {u w : Usage} {scene : Scene},
    (useBlocks place blocks u).Grows w → w.Shows place.list scene.context →
    (∀ path, .path path ∈ lookupsOf blocks → IsDataPath path) →
    (renderBlocks scene blocks).isOk = loopsApartIn place.list.isSome blocks
  | [], _, _, _, _, _, _, _ => by
    rw [renderBlocks, loopsApartIn]
    rfl
  | block :: blocks, place, u, w, scene, hgrows, hscene, hpaths => by
    rw [useBlocks] at hgrows
    rw [lookupsOf] at hpaths
    rw [renderBlocks, loopsApartIn, isOk_bind_bind,
      isOk_renderBlock block place ((grows_useBlocks blocks place _).trans hgrows) hscene
        fun path hpath => hpaths path (List.mem_append_left _ hpath),
      isOk_renderBlocks blocks place hgrows hscene
        fun path hpath => hpaths path (List.mem_append_right _ hpath)]

theorem isOk_renderRows : ∀ (rows : List (RowBlock Block)) (place : Place) {index row : Nat}
    {u w : Usage} {scene : Scene},
    (useRows place index row rows u).Grows w → w.Shows place.list scene.context →
    (∀ path, .path path ∈ rowLookups rows → IsDataPath path) →
    (renderRows scene rows).isOk = rowLoopsApart place.list.isSome rows
  | [], _, _, _, _, _, _, _, _, _ => by
    rw [renderRows, rowLoopsApart]
    rfl
  | .static ⟨properties, cells⟩ :: rows, place, index, row, u, w, scene, hgrows, hscene,
      hpaths => by
    rw [useRows] at hgrows
    rw [rowLookups] at hpaths
    rw [renderRows, rowLoopsApart, isOk_bind_bind,
      isOk_renderCells cells place ((grows_useRows rows place index (row + 1) _).trans hgrows) hscene
        fun path hpath => hpaths path (List.mem_append_left _ hpath),
      isOk_renderRows rows place hgrows hscene
        fun path hpath => hpaths path (List.mem_append_right _ hpath)]
  | .loop list ⟨properties, cells⟩ position :: rows, place, index, row, u, w, scene, hgrows,
      hscene, hpaths => by
    rw [useRows] at hgrows
    rw [rowLookups] at hpaths
    have hlist : IsDataPath list := hpaths list List.mem_cons_self
    have hcellsGrow := (grows_useRows rows place index (row + 1) _).trans hgrows
    have hcells : ∀ inner : Scene,
        w.Shows (Place.within { place with table := some index } list).list inner.context →
        (do return [⟨properties, ← renderCells inner cells⟩] :
          Except Error (List (Row Element))).isOk = cellLoopsApart true cells := by
      intro inner hinner
      rw [isOk_bind_pure]
      exact isOk_renderCells cells (Place.within { place with table := some index } list)
        hcellsGrow hinner fun path hpath =>
          hpaths path (List.mem_cons_of_mem _ (List.mem_append_left _ hpath))
    have hloop := isOk_renderLoop { place with table := some index } hlist
      ((grows_useCells cells _ _).trans hcellsGrow) hscene hcells position
    have hrest := isOk_renderRows rows place hgrows hscene fun path hpath =>
      hpaths path (List.mem_cons_of_mem _ (List.mem_append_right _ hpath))
    rw [renderRows, rowLoopsApart, ← hloop, ← hrest, ← isOk_bind_bind, bind_assoc]

theorem isOk_renderCells : ∀ (cells : List (Cell Block)) (place : Place) {u w : Usage}
    {scene : Scene}, (useCells place cells u).Grows w → w.Shows place.list scene.context →
    (∀ path, .path path ∈ cellLookups cells → IsDataPath path) →
    (renderCells scene cells).isOk = cellLoopsApart place.list.isSome cells
  | [], _, _, _, _, _, _, _ => by
    rw [renderCells, cellLoopsApart]
    rfl
  | ⟨properties, body⟩ :: cells, place, u, w, scene, hgrows, hscene, hpaths => by
    rw [useCells] at hgrows
    rw [cellLookups] at hpaths
    rw [renderCells, cellLoopsApart, isOk_bind_bind,
      isOk_renderBlocks body place ((grows_useCells cells place _).trans hgrows) hscene
        fun path hpath => hpaths path (List.mem_append_left _ hpath),
      isOk_renderCells cells place hgrows hscene
        fun path hpath => hpaths path (List.mem_append_right _ hpath)]

end

end Rendering

/-- Strict rendering with the sample bindings of a template succeeds if and only if no loop of the
template stands within another one. -/
theorem renderDocument_sample_iff (template : String) (blocks : List Block)
    (hpaths : ∀ path, .path path ∈ lookupsOf blocks → IsDataPath path) (origin : String)
    (settings : TemplateSettings) (loader : ImageLoader) :
    (∃ document, renderDocument
      ⟨origin, (Usage.ofBlocks template blocks).sampleContext, settings, loader⟩ blocks =
        .ok document) ↔ loopsApartIn false blocks = true := by
  have hblocks : (renderBlocks
      ⟨origin, (Usage.ofBlocks template blocks).sampleContext, settings, loader⟩ blocks).isOk =
        loopsApartIn false blocks :=
    isOk_renderBlocks blocks {} (.refl _) .outside hpaths
  rw [← isOk_iff, renderDocument, isOk_bind_pure, hblocks]

/-- The orders of a customer, with their totals. -/
def orderBlocks : List Block :=
  [.paragraph {} [.placeholder "customer.name" {} {}, .loop "orders" [.placeholder "total" {} {}] {}]
    true]

/-- The orders of a customer are shown with sample bindings. -/
theorem orders_sample_renders : ∃ document, renderDocument
    ⟨"orders", (Usage.ofBlocks "orders" orderBlocks).sampleContext, {}, default⟩ orderBlocks =
      .ok document := by
  refine (renderDocument_sample_iff "orders" orderBlocks ?_ "orders" {} default).2 (by decide)
  intro path hpath
  simp only [orderBlocks, lookupsOf, Block.lookups, List.append_nil, List.cons_append,
    List.nil_append, List.mem_cons, Lookup.path.injEq, List.not_mem_nil, or_false] at hpath
  rcases hpath with rfl | rfl | rfl <;> decide +kernel

/-- Orders with lines: one loop stands within another. -/
def lineBlocks : List Block :=
  [.paragraph {} [.loop "orders" [.loop "lines" [] ⟨0, 16⟩, .text "x" {}] {}] true]

/-- Sample bindings bind the lines of an order to a text, so a loop through them fails. -/
theorem lines_sample_fails :
    (∀ path, .path path ∈ lookupsOf lineBlocks → IsDataPath path) ∧
    renderDocument
      ⟨"orders", (Usage.ofBlocks "orders" lineBlocks).sampleContext, {}, default⟩ lineBlocks =
        .error (.render "orders" (some ⟨0, 16⟩) (.variableResolution "lines")) := by
  refine ⟨?_, rfl⟩
  intro path hpath
  simp only [lineBlocks, lookupsOf, Block.lookups, List.append_nil,
    List.mem_cons, Lookup.path.injEq, List.not_mem_nil, or_false] at hpath
  rcases hpath with rfl | rfl <;> decide +kernel

end StyledTemplate
