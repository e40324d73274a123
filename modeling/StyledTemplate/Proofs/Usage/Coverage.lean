import StyledTemplate.Proofs.Fields
import StyledTemplate.Proofs.Render.Lookups
import StyledTemplate.Proofs.Usage.Walk

/-!
# The usage of a template covers what rendering looks up

Every path and every image that rendering looks up is recorded by the usage of the blocks, or is a
name that only loops bind. A path is looked up as a whole or by its first segment, so two bindings
that agree on these names give the same document or the same error
(`renderDocument_eq_of_agree`): nothing else in the bindings matters.
-/

namespace StyledTemplate

/-! ## Lookups of directives -/

/-- What is looked up for a directive. -/
def Directive.lookup? : Directive → Option Lookup
  | .placeholder path => some (.path path)
  | .image name => some (.image name)
  | .ifOpen condition => some (.path condition)
  | .eachOpen list => some (.path list)
  | _ => none

/-- What is looked up for some marks. -/
def markedLookups (marks : List Mark) : List Lookup := marks.filterMap (·.directive.lookup?)

@[simp] theorem markedLookups_nil : markedLookups [] = [] := rfl

@[simp] theorem markedLookups_append (as bs : List Mark) :
    markedLookups (as ++ bs) = markedLookups as ++ markedLookups bs := List.filterMap_append

@[simp] theorem markedLookups_cons (m : Mark) (ms : List Mark) :
    markedLookups (m :: ms) = m.directive.lookup?.toList ++ markedLookups ms := by
  rw [markedLookups, List.filterMap_cons]
  cases m.directive.lookup? <;> rfl

mutual

theorem Block.lookups_eq_marked : ∀ block : Block, block.lookups = markedLookups block.marks
  | .placeholder _ _ _ => by simp [Block.lookups, Block.marks, Directive.lookup?]
  | .image _ _ _ => by simp [Block.lookups, Block.marks, Directive.lookup?]
  | .conditional _ thenBlocks none _ => by
    have hthen := lookupsOf_eq_marked thenBlocks
    simp [Block.lookups, Block.marks, Directive.lookup?, hthen]
  | .conditional _ thenBlocks (some elseBlocks) _ => by
    have hthen := lookupsOf_eq_marked thenBlocks
    have helse := lookupsOf_eq_marked elseBlocks
    simp [Block.lookups, Block.marks, Directive.lookup?, hthen, helse]
  | .loop _ body _ => by
    have hbody := lookupsOf_eq_marked body
    simp [Block.lookups, Block.marks, Directive.lookup?, hbody]
  | .named _ body _ _ => by
    have hbody := lookupsOf_eq_marked body
    simp [Block.lookups, Block.marks, Directive.lookup?, hbody]
  | .paragraph _ children _ => by
    have hchildren := lookupsOf_eq_marked children
    simp [Block.lookups, Block.marks, hchildren]
  | .table ⟨_, _, rows⟩ => by
    have hrows := rowLookups_eq_marked rows
    simp [Block.lookups, Block.marks, hrows]
  | .text _ _ => by simp [Block.lookups, Block.marks]
  | .inherits _ _ => by simp [Block.lookups, Block.marks, Directive.lookup?]
  | .static _ => by simp [Block.lookups, Block.marks]

/-- Rendering looks up what the directives of a tree name. -/
theorem lookupsOf_eq_marked : ∀ blocks : List Block, lookupsOf blocks = markedLookups (marksOf blocks)
  | [] => by simp [lookupsOf]
  | block :: blocks => by
    have hblock := block.lookups_eq_marked
    have hblocks := lookupsOf_eq_marked blocks
    simp [lookupsOf, hblock, hblocks]

theorem rowLookups_eq_marked : ∀ rows : List (RowBlock Block),
    rowLookups rows = markedLookups (rowMarks rows)
  | [] => by simp [rowLookups, rowMarks]
  | .static ⟨_, cells⟩ :: rows => by
    have hcells := cellLookups_eq_marked cells
    have hrows := rowLookups_eq_marked rows
    simp [rowLookups, rowMarks, hcells, hrows]
  | .loop _ ⟨_, cells⟩ _ :: rows => by
    have hcells := cellLookups_eq_marked cells
    have hrows := rowLookups_eq_marked rows
    simp [rowLookups, rowMarks, Directive.lookup?, hcells, hrows]

theorem cellLookups_eq_marked : ∀ cells : List (Cell Block),
    cellLookups cells = markedLookups (cellMarks cells)
  | [] => by simp [cellLookups, cellMarks]
  | ⟨_, body⟩ :: cells => by
    have hbody := lookupsOf_eq_marked body
    have hcells := cellLookups_eq_marked cells
    simp [cellLookups, cellMarks, hbody, hcells]

end

/-! ## Names that count -/

namespace Usage

/-- The name is recorded, outside of loops, as a list, or within the loops of a list. -/
inductive Records (u : Usage) (name : String) : Prop
  | placeholder (h : u.placeholders.contains name = true)
  | condition (h : u.conditions.contains name = true)
  | list (h : u.lists.contains name = true)
  | field {list : String} {fields : NameSet} (hlist : u.lists.find? list = some fields)
      (h : fields.contains name = true)

/-- What is bound to the name may matter: it is recorded, the first segment of a recorded name, or
bound by loops. -/
inductive Covers (u : Usage) : String → Prop
  | recorded {name : String} (h : u.Records name) : u.Covers name
  | root {name : String} (h : u.Records name) : u.Covers (Text.splitPath name).1
  | loopName {name : String} (h : isLoopName name = true) : u.Covers name

/-- Two bindings that agree on all names that count. -/
structure Agree (u : Usage) (b b' : Bindings) : Prop where
  /-- They bind the same variables of these names. -/
  values : ∀ name, u.Covers name → b.values.find? name = b'.values.find? name
  /-- They bind the same lists. -/
  lists : ∀ name, u.Covers name → b.lists.find? name = b'.lists.find? name
  /-- They bind the same conditions. -/
  conditions : ∀ name, u.Covers name → b.conditions.find? name = b'.conditions.find? name
  /-- They bind the same images. -/
  images : ∀ name, u.images.contains name = true → b.images.find? name = b'.images.find? name

/-- Does the usage report a lookup? Paths that start with the name of a loop go unreported. -/
def Reports (u : Usage) : Lookup → Prop
  | .path path => u.Records path ∨ isLoopName path = true
  | .image name => u.images.contains name = true

/-- Going from `u` to `v`, no report is lost and the lookups come to be reported. -/
def Collects (u : Usage) (lookups : List Lookup) (v : Usage) : Prop :=
  ∀ l, u.Reports l ∨ l ∈ lookups → v.Reports l

end Usage

/-! ## Recording -/

namespace Usage

variable {u v w : Usage} {ls ms : List Lookup}

theorem Collects.refl (u : Usage) : u.Collects [] u := by
  intro l h
  rcases h with h | h
  · exact h
  · cases h

theorem Collects.trans (h : u.Collects ls v) (h' : v.Collects ms w) :
    u.Collects (ls ++ ms) w := by
  intro l hl
  rw [List.mem_append, ← or_assoc] at hl
  rcases hl with hl | hl
  · exact h' l (.inl (h l hl))
  · exact h' l (.inr hl)

/-- Reports depend on the recorded names and images only. -/
theorem Collects.of_eq (hplaceholders : v.placeholders = u.placeholders)
    (hconditions : v.conditions = u.conditions) (hlists : v.lists = u.lists)
    (himages : v.images = u.images) : u.Collects [] v := by
  intro l hl
  have hreports : u.Reports l := (Collects.refl u) l hl
  cases l with
  | image name =>
    unfold Reports
    rw [himages]
    exact hreports
  | path path =>
    rcases hreports with hrecords | hloop
    · left
      cases hrecords with
      | placeholder h => exact .placeholder (hplaceholders ▸ h)
      | condition h => exact .condition (hconditions ▸ h)
      | list h => exact .list (hlists ▸ h)
      | field hlist h => exact .field (hlists ▸ hlist) h
    · exact .inr hloop

/-- Recording one name reports it and keeps all that is recorded. -/
theorem Collects.of_records (path : String) (hrecords : v.Records path)
    (hkeeps : ∀ name, u.Records name → v.Records name) (himages : v.images = u.images) :
    u.Collects [.path path] v := by
  intro l hl
  rcases hl with hreports | hmem
  · cases l with
    | image name =>
      unfold Reports
      rw [himages]
      exact hreports
    | path other => exact hreports.imp_left (hkeeps other)
  · obtain rfl := List.mem_singleton.1 hmem
    exact .inl hrecords

/-- Storing more names for a list loses none of them. -/
theorem records_insert {list : String} {fields : NameSet}
    (hfields : ∀ old, u.lists.find? list = some old → ∀ name, old.contains name = true →
      fields.contains name = true) {name : String} (h : u.Records name) :
    Records { u with lists := u.lists.insert list fields } name := by
  cases h with
  | placeholder h => exact .placeholder h
  | condition h => exact .condition h
  | list h =>
    refine .list ?_
    unfold NameMap.contains at h ⊢
    rw [NameMap.find?_insert]
    by_cases heq : list = name
    · simp [heq]
    · simpa [heq] using h
  | @field other old hother h =>
    by_cases heq : list = other
    · subst heq
      have hname := hfields old hother name h
      have hnow : (u.lists.insert list fields).find? list = some fields := by simp
      exact .field hnow hname
    · have hstill : (u.lists.insert list fields).find? other = some old := by
        simpa [heq] using hother
      exact .field hstill h

theorem collects_addList (u : Usage) (list : String) :
    u.Collects [.path list] (u.addList list) := by
  refine .of_records list ?_ (fun name h => ?_) rfl
  · exact .list (by simp [addList, NameMap.contains])
  · refine records_insert ?_ h
    intro old hold other hother
    simpa [hold] using hother

theorem collects_addField (u : Usage) (list path : String) :
    u.Collects [.path path] (u.addField list path) := by
  refine .of_records path ?_ (fun name h => ?_) rfl
  · have hfound : (u.addField list path).lists.find? list =
        some (((u.lists.find? list).getD NameMap.empty).add path) := by
      simp [addField]
    refine .field hfound ?_
    rw [NameSet.contains_add]
    simp
  · refine records_insert ?_ h
    intro old hold other hother
    rw [hold, Option.getD_some, NameSet.contains_add, hother, Bool.or_true]

theorem collects_addCondition (u : Usage) (path : String) :
    u.Collects [.path path] { u with conditions := u.conditions.add path } := by
  refine .of_records path ?_ (fun name h => ?_) rfl
  · exact .condition (by simp [NameSet.contains_add])
  · cases h with
    | placeholder h => exact .placeholder h
    | condition h => exact .condition (by simp [NameSet.contains_add, h])
    | list h => exact .list h
    | field hlist h => exact .field hlist h

theorem collects_addPlaceholder (u : Usage) (path : String) :
    u.Collects [.path path] { u with placeholders := u.placeholders.add path } := by
  refine .of_records path ?_ (fun name h => ?_) rfl
  · exact .placeholder (by simp [NameSet.contains_add])
  · cases h with
    | placeholder h => exact .placeholder (by simp [NameSet.contains_add, h])
    | condition h => exact .condition h
    | list h => exact .list h
    | field hlist h => exact .field hlist h

theorem collects_addImage (u : Usage) (name : String) :
    u.Collects [.image name] { u with images := u.images.add name } := by
  intro l hl
  rcases hl with hreports | hmem
  · cases l with
    | image other => simp_all [Reports, NameSet.contains_add]
    | path path =>
      refine hreports.imp_left fun h => ?_
      cases h with
      | placeholder h => exact .placeholder h
      | condition h => exact .condition h
      | list h => exact .list h
      | field hlist h => exact .field hlist h
  · obtain rfl := List.mem_singleton.1 hmem
    simp [Reports, NameSet.contains_add]

theorem collects_mentionInTable (place : Place) (path : String) (u : Usage) :
    u.Collects [] (u.mentionInTable place path) := by
  unfold mentionInTable
  split
  · exact .refl u
  · exact .of_eq rfl rfl rfl rfl

theorem collects_mention (place : Place) (isCondition : Bool) (path : String) (u : Usage) :
    u.Collects [.path path] (u.mention place isCondition path) := by
  unfold mention
  split
  · next hloop =>
    intro l hl
    rcases hl with hreports | hmem
    · exact hreports
    · obtain rfl := List.mem_singleton.1 hmem
      exact .inr hloop
  · have htable := collects_mentionInTable place path u
    split
    · exact htable.trans (collects_addField _ _ path)
    · split
      · exact htable.trans (collects_addCondition _ path)
      · exact htable.trans (collects_addPlaceholder _ path)

theorem collects_mentionList (place : Place) (list : String) (u : Usage) :
    u.Collects [.path list] (u.mentionList place list) := by
  unfold mentionList
  split
  · exact collects_addList u list
  · exact collects_mention place false list u

theorem collects_record (u : Usage) (place : Place) (d : Directive) :
    u.Collects d.lookup?.toList (u.record place d) := by
  cases d with
  | placeholder path => exact u.collects_mention place false path
  | image name => exact u.collects_addImage name
  | ifOpen condition => exact u.collects_mention place true condition
  | eachOpen list => exact u.collects_mentionList place list
  | _ => exact .of_eq rfl rfl rfl rfl

end Usage

/-! ## Walking through a tree -/

theorem followsUse_collects : FollowsUse fun u ms v => u.Collects (markedLookups ms) v where
  refl := Usage.Collects.refl
  trans h h' := by
    rw [markedLookups_append]
    exact h.trans h'
  record u place mark := by
    rw [markedLookups_cons, markedLookups_nil, List.append_nil]
    exact u.collects_record place mark.directive
  table _ _ _ := .of_eq rfl rfl rfl rfl
  rowLoop _ _ _ _ := .of_eq rfl rfl rfl rfl

/-- The usage of some blocks reports every lookup that rendering makes. -/
theorem reports_ofBlocks (template : String) (blocks : List Block) :
    ∀ l ∈ lookupsOf blocks, (Usage.ofBlocks template blocks).Reports l := by
  intro l hl
  rw [lookupsOf_eq_marked] at hl
  exact followsUse_collects.useBlocks blocks {} { template } l (.inr hl)

/-! ## Answers -/

/-- The first segment of a name that only loops bind is such a name. -/
theorem isLoopName_root {path : String} (h : isLoopName path = true) :
    isLoopName (Text.splitPath path).1 = true := by
  unfold isLoopName at h
  rw [Bool.or_eq_true, Bool.or_eq_true] at h
  rcases h with (h | h) | h
  · have hthis : path = "this" := by simpa using h
    rw [hthis]
    decide
  · obtain ⟨cs, hcs⟩ := List.head?_eq_some_iff.1 (by simpa using h : path.toList.head? = some '@')
    have hroot : (Text.splitPath path).1.toList.head? = some '@' := by
      simp [Text.splitPath, hcs, Text.splitFirst]
    simp [isLoopName, hroot]
  · obtain ⟨cs, hcs⟩ := List.isPrefixOf_iff_prefix.1 h
    have hroot : (Text.splitPath path).1 = "this" := by
      rw [Text.splitPath, ← hcs]
      rfl
    rw [hroot]
    decide

namespace Usage

variable {u : Usage} {path : String}

theorem Reports.covers (h : u.Reports (.path path)) : u.Covers path := by
  rcases h with h | h
  · exact .recorded h
  · exact .loopName h

theorem Reports.covers_root (h : u.Reports (.path path)) :
    u.Covers (Text.splitPath path).1 := by
  rcases h with h | h
  · exact .root h
  · exact .loopName (isLoopName_root h)

variable {b b' : Bindings}

theorem Agree.get?_eq (h : u.Agree b b') (hpath : u.Reports (.path path)) (scopes : List Scope)
    (strict : Bool) :
    Context.get? ⟨b, scopes, strict⟩ path = Context.get? ⟨b', scopes, strict⟩ path := by
  have hvalues := h.values _ hpath.covers_root
  have hlists := h.lists _ hpath.covers_root
  have hconditions := h.conditions _ hpath.covers_root
  unfold Context.get?
  dsimp only
  rw [hvalues, hlists, hconditions]
  rfl

theorem Agree.holds_eq (h : u.Agree b b') (hpath : u.Reports (.path path)) (scopes : List Scope)
    (strict : Bool) :
    Context.holds ⟨b, scopes, strict⟩ path = Context.holds ⟨b', scopes, strict⟩ path := by
  have hconditions := h.conditions _ hpath.covers
  have hvalues := h.values _ hpath.covers_root
  have hlists := h.lists _ hpath.covers_root
  unfold Context.holds
  dsimp only
  rw [hvalues, hlists, hconditions]
  rfl

theorem Agree.entries?_eq (h : u.Agree b b') (hpath : u.Reports (.path path))
    (scopes : List Scope) (strict : Bool) :
    Context.entries? ⟨b, scopes, strict⟩ path = Context.entries? ⟨b', scopes, strict⟩ path := by
  have hlists := h.lists _ hpath.covers
  have hvalues := h.values _ hpath.covers_root
  unfold Context.entries?
  dsimp only
  rw [hvalues, hlists]
  rfl

end Usage

/-- The scene with other bindings. -/
def Scene.binding (scene : Scene) (bindings : Bindings) : Scene :=
  { scene with context := { scene.context with bindings } }

/-- Scenes with bindings that agree answer all reported lookups in the same way. -/
theorem Usage.Agree.compares {u : Usage} {b b' : Bindings} (h : u.Agree b b') (scene : Scene) :
    (scene.binding b).Compares (fun _ x y => x = y) u.Reports (scene.binding b') where
  template := rfl
  scopes := rfl
  merge := rfl
  text := by
    intro path hpath scopes
    have hget := h.get?_eq hpath scopes scene.context.strict
    unfold Context.text
    dsimp only [Scene.binding]
    rw [hget]
    rfl
  holds := by
    intro path hpath scopes
    exact h.holds_eq hpath scopes scene.context.strict
  entries := by
    intro path hpath scopes
    have hentries := h.entries?_eq hpath scopes scene.context.strict
    unfold Context.entries
    dsimp only [Scene.binding]
    rw [hentries]
    rfl
  image := by
    intro name hname style
    have himage : (scene.binding b).context.image? name = (scene.binding b').context.image? name :=
      h.images name hname
    unfold Scene.imageRun
    rw [himage]
    rfl

/-- Bindings that agree on the names that the usage of some blocks records, on their first segments
and on the names that loops bind, give the same document or the same error. -/
theorem renderDocument_eq_of_agree (scene : Scene) (template : String) (blocks : List Block)
    {b b' : Bindings} (h : (Usage.ofBlocks template blocks).Agree b b') :
    renderDocument (scene.binding b) blocks = renderDocument (scene.binding b') blocks :=
  renderDocument_compares comparison_eq (reports_ofBlocks template blocks) (h.compares scene)

/-! ## Names that do not count -/

namespace Usage

/-- All names that are recorded. -/
def recorded (u : Usage) : List String :=
  u.placeholders.keys ++ u.conditions.keys ++ u.lists.keys ++
    u.lists.entries.flatMap fun list => list.2.keys

theorem Records.mem_recorded {u : Usage} {name : String} (h : u.Records name) :
    name ∈ u.recorded := by
  unfold recorded
  rw [List.mem_append, List.mem_append, List.mem_append]
  cases h with
  | placeholder h => exact .inl (.inl (.inl (NameMap.mem_keys_of_contains h)))
  | condition h => exact .inl (.inl (.inr (NameMap.mem_keys_of_contains h)))
  | list h => exact .inl (.inr (NameMap.mem_keys_of_contains h))
  | @field list fields hlist h =>
    have hentry : (list, fields) ∈ u.lists.entries := Fields.mem_of_find? hlist
    exact .inr (List.mem_flatMap.2 ⟨_, hentry, NameMap.mem_keys_of_contains h⟩)

theorem not_covers {u : Usage} {name : String}
    (hrecorded : ∀ other ∈ u.recorded, other ≠ name ∧ (Text.splitPath other).1 ≠ name)
    (hloop : isLoopName name = false) : ¬ u.Covers name := by
  intro h
  cases h with
  | recorded h => exact (hrecorded _ h.mem_recorded).1 rfl
  | root h => exact (hrecorded _ h.mem_recorded).2 rfl
  | loopName h => simp [hloop] at h

/-- A variable that does not count may be bound to anything. -/
theorem agree_setValue {u : Usage} {name : String} (h : ¬ u.Covers name) (b : Bindings)
    (value : Value) : u.Agree b (b.setValue name value) where
  values := by
    intro other hother
    have hne : name ≠ other := by
      rintro rfl
      exact h hother
    simp [Bindings.setValue, hne]
  lists _ _ := rfl
  conditions _ _ := rfl
  images _ _ := rfl

end Usage

/-- A customer, and the quantities of some items. -/
def noticeBlocks : List Block :=
  [.paragraph {} [.placeholder "customer.name" {} {},
    .loop "items" [.placeholder "@number" {} {}, .placeholder "qty" {} {}] {}] true]

def noticeBindings : Bindings :=
  (Bindings.empty.setValue "customer" (.ofFields [("name", .string "Ada")])).setList "items"
    [.ofFields [("qty", .integer 3)], .ofFields [("qty", .integer 5)]]

/-- A variable that the notice does not use does not change it. -/
theorem notice_agree : ∃ b' : Bindings, b'.values.find? "draft" = some (.bool true) ∧
    (Usage.ofBlocks "notice" noticeBlocks).Agree noticeBindings b' ∧
    renderDocument (Scene.binding ⟨"notice", default, {}, default⟩ noticeBindings) noticeBlocks =
      renderDocument (Scene.binding ⟨"notice", default, {}, default⟩ b') noticeBlocks := by
  have hrecorded : ∀ other ∈ (Usage.ofBlocks "notice" noticeBlocks).recorded,
      other ≠ "draft" ∧ (Text.splitPath other).1 ≠ "draft" := by decide +kernel
  have hagree := Usage.agree_setValue (Usage.not_covers hrecorded (by decide)) noticeBindings
    (.bool true)
  refine ⟨noticeBindings.setValue "draft" (.bool true), ?_, hagree, ?_⟩
  · simp [Bindings.setValue]
  · exact renderDocument_eq_of_agree _ "notice" noticeBlocks hagree

end StyledTemplate
