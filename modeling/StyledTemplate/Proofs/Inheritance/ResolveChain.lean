import StyledTemplate.Proofs.Inheritance.Resolves
import StyledTemplate.Proofs.Template.Fresh

/-!
# What a chain of templates shows

The blocks of a chain of parsed templates are those of its last template, with every named block
that has a definition replaced. That a block is never replaced within itself, and that only so many
replacements are nested, leaves out nothing: a replacement only holds named blocks that are defined
further behind in the list of all definitions.
-/

namespace StyledTemplate

/-- The template has been parsed from a document. -/
def Template.IsParsed (t : Template) : Prop :=
  ∃ settings name document, Template.ofDocument settings name document = .ok t

theorem Template.IsParsed.fresh {t : Template} (h : t.IsParsed) : Fresh t.blocks := by
  obtain ⟨settings, name, document, hdocument⟩ := h
  exact Template.fresh_of_ofDocument hdocument

section Chain

variable {descendants : List Template} {id : String} {names : List String}

theorem definition?_ne_none_iff :
    definition? descendants id ≠ none ↔ id ∈ (allDefinitions descendants).map Prod.fst := by
  rw [← lastValue?_isSome_iff, lastValue?_allDefinitions, Option.isSome_map,
    Option.isSome_iff_ne_none]

/-- The bodies that fresh templates define are fresh. -/
theorem fresh_of_mem_allDefinitions (hfresh : ∀ t ∈ descendants, Fresh t.blocks)
    {body : List Block} (h : (id, body) ∈ allDefinitions descendants) : Fresh body := by
  obtain ⟨t, ht, hmem⟩ := List.mem_flatMap.1 h
  rw [definitions_eq_filterMap, List.mem_filterMap] at hmem
  obtain ⟨node, hnode, hdef⟩ := hmem
  intro b hb
  have hwithin : b ∈ node.nodes := by
    cases node <;> simp only [Block.definition?, reduceCtorEq] at hdef
    obtain ⟨rfl, rfl⟩ := Prod.mk.inj (Option.some.inj hdef)
    rw [Block.nodes]
    exact List.mem_cons_of_mem _ hb
  exact hfresh t (List.mem_reverse.1 ht) b (closed_nodesOf t.blocks node hnode hwithin)

theorem isReplaceable_of_listed {defs : String → Option Override} {blocks : List Block}
    (hfresh : Fresh blocks)
    (hlisted : ∀ id ∈ (definitions blocks).map Prod.fst, defs id ≠ none → id ∈ names) :
    ∀ b ∈ nodesOf blocks, b.IsReplaceable defs names := by
  intro b hb
  cases b with
  | named id body position origin =>
    refine ⟨(hfresh _ hb).2, hlisted id ?_⟩
    refine List.mem_map.2 ⟨(id, body), ?_, rfl⟩
    rw [definitions_eq_filterMap]
    exact List.mem_filterMap.2 ⟨_, hb, rfl⟩
  | _ => trivial

/-- The names in `names` that have an override. -/
def overridden (overrides : NameMap Override) (names : List String) : List String :=
  overrides.keys.filter fun name => name ∈ names

theorem length_overridden_lt {overrides : NameMap Override} {names' : List String}
    (hsub : names' ⊆ names) (hid : id ∈ overrides.keys) (hmem : id ∈ names) (hnew : id ∉ names') :
    (overridden overrides names').length < (overridden overrides names).length := by
  have h : overridden overrides names' =
      (overridden overrides names).filter fun name => name ∈ names' := by
    rw [overridden, overridden, List.filter_filter]
    refine List.filter_congr ?_
    intro name _
    by_cases hname : name ∈ names'
    · simp [hname, hsub hname]
    · simp [hname]
  rw [h]
  refine List.length_filter_lt_length_iff_exists.2 ⟨id, ?_, by simpa using hnew⟩
  exact List.mem_filter.2 ⟨hid, by simpa using hmem⟩

/-- The definition that counts is the last one of its name. -/
theorem exists_eq_append_of_definition? {rest : List (String × List Block)} {override : Override}
    (hsuffix : rest <:+ allDefinitions descendants) (hid : id ∈ rest.map Prod.fst)
    (hdef : definition? descendants id = some override) :
    ∃ pre post, rest = pre ++ (id, override.body) :: post ∧ id ∉ post.map Prod.fst := by
  rw [← lastValue?_eq_some_iff]
  obtain ⟨body, hbody⟩ := Option.isSome_iff_exists.1 (lastValue?_isSome_iff.2 hid)
  obtain ⟨front, hfront⟩ := hsuffix
  have hall := lastValue?_allDefinitions descendants id
  rw [← hfront, lastValue?_append, hbody, hdef] at hall
  rw [hbody]
  exact hall

theorem find?_replacement_succ {overrides : NameMap Override} {depth : Nat} {active : List String}
    {override : Override} (hactive : id ∉ active) (hfind : overrides.find? id = some override) :
    replacement overrides (depth + 1) active id = some { override with
      body := substituteBlocks (replacement overrides depth) (id :: active) override.body } := by
  rw [replacement, if_neg hactive, hfind]
  rfl

theorem replacement_eq_none {overrides : NameMap Override} {depth : Nat} {active : List String}
    (hfind : overrides.find? id = none) : replacement overrides depth active id = none := by
  cases depth with
  | zero => rfl
  | succ depth =>
    rw [replacement, hfind]
    split <;> rfl

/-- Of the names in a list of definitions, fewer have overrides behind the definition that counts
for one of them. -/
theorem length_overridden_rest_lt {pre post rest : List (String × List Block)} {body : List Block}
    (hrest : rest = pre ++ (id, body) :: post) (hpost : id ∉ post.map Prod.fst)
    (hdef : definition? descendants id ≠ none) :
    (overridden (overridesOf descendants) (post.map Prod.fst)).length <
      (overridden (overridesOf descendants) (rest.map Prod.fst)).length := by
  obtain ⟨override, hoverride⟩ := Option.ne_none_iff_exists'.1 hdef
  have hkey : id ∈ (overridesOf descendants).keys := by
    rw [← find?_overridesOf] at hoverride
    exact Fields.find?_mem_keys hoverride
  refine length_overridden_lt ?_ hkey ?_ hpost
  · have hsuffix : post <:+ rest := ⟨pre ++ [(id, body)], by rw [hrest]; simp⟩
    exact (hsuffix.map Prod.fst).subset
  · rw [hrest]
    simp

theorem definition?_ne_none_of_suffix {rest : List (String × List Block)}
    (hsuffix : rest <:+ allDefinitions descendants) :
    ∀ id ∈ rest.map Prod.fst, definition? descendants id ≠ none := by
  intro id hid
  exact definition?_ne_none_iff.2 ((hsuffix.map Prod.fst).subset hid)

/-- What a body holds is defined behind it. -/
theorem isReplaceable_of_suffix (hfresh : ∀ t ∈ descendants, Fresh t.blocks) {body : List Block}
    {post : List (String × List Block)}
    (hsuffix : (id, body) :: post <:+ allDefinitions descendants) :
    ∀ b ∈ nodesOf body, b.IsReplaceable (definition? descendants) (post.map Prod.fst) := by
  have hordered : Ordered ((id, body) :: post) := by
    obtain ⟨front, hfront⟩ := hsuffix
    exact Ordered.of_append (hfront ▸ ordered_allDefinitions descendants)
  have hmem : (id, body) ∈ allDefinitions descendants := hsuffix.subset List.mem_cons_self
  exact isReplaceable_of_listed (fresh_of_mem_allDefinitions hfresh hmem)
    fun name hname _ => hordered.1 name hname

/-- As many nested replacements as there are names left are enough. -/
theorem replaces_replacement (hfresh : ∀ t ∈ descendants, Fresh t.blocks) (depth : Nat) :
    ∀ rest, rest <:+ allDefinitions descendants →
    (overridden (overridesOf descendants) (rest.map Prod.fst)).length ≤ depth →
    Replaces (definition? descendants) (replacement (overridesOf descendants) depth)
      (rest.map Prod.fst) := by
  -- `rest` is what may still be replaced. A definition that counts is the last one of its name, so
  -- going on behind it takes that name away for good, and it may well stand around what follows.
  induction depth with
  | zero =>
    intro rest hsuffix hdepth
    have hdefined := definition?_ne_none_of_suffix hsuffix
    refine ⟨hdefined, ?_, fun active id hdef => rfl⟩
    intro active id override hactive hid hdef
    obtain ⟨pre, post, hrest, hpost⟩ := exists_eq_append_of_definition? hsuffix hid hdef
    have hlt := length_overridden_rest_lt hrest hpost (hdefined id hid)
    omega
  | succ depth ih =>
    intro rest hsuffix hdepth
    have hdefined := definition?_ne_none_of_suffix hsuffix
    refine ⟨hdefined, ?_, ?_⟩
    · intro active id override hactive hid hdef
      obtain ⟨pre, post, hrest, hpost⟩ := exists_eq_append_of_definition? hsuffix hid hdef
      have hbehind : (id, override.body) :: post <:+ allDefinitions descendants :=
        .trans ⟨pre, hrest.symm⟩ hsuffix
      have hlt := length_overridden_rest_lt hrest hpost (hdefined id hid)
      have hreplaces := ih post (.trans (List.suffix_cons _ _) hbehind) (by omega)
      have hactiveBody : ∀ a ∈ id :: active, a ∉ post.map Prod.fst := by
        rw [List.forall_mem_cons]
        refine ⟨hpost, fun a ha hmem => hactive a ha ?_⟩
        rw [hrest, List.map_append, List.map_cons]
        exact List.mem_append_right _ (List.mem_cons_of_mem _ hmem)
      have hshown := hreplaces.substituteBlocks (id :: active) hactiveBody override.body
        (isReplaceable_of_suffix hfresh hbehind)
      have hfind : (overridesOf descendants).find? id = some override := by
        rw [find?_overridesOf, hdef]
      exact ⟨_, hshown, find?_replacement_succ (fun h => hactive id h hid) hfind⟩
    · intro active id hdef
      exact replacement_eq_none (by rw [find?_overridesOf, hdef])

theorem resolves_substitute (hfresh : ∀ t ∈ descendants, Fresh t.blocks) {blocks : List Block}
    (hblocks : Fresh blocks) : Resolves (definition? descendants) blocks
      (substitute (overridesOf descendants) blocks) := by
  have hdepth : (overridden (overridesOf descendants)
      ((allDefinitions descendants).map Prod.fst)).length ≤ (overridesOf descendants).size := by
    refine Nat.le_trans (List.length_filter_le _ _) ?_
    rw [NameMap.keys, Fields.keys, List.length_map]
    exact Nat.le_refl _
  have hreplaces := replaces_replacement hfresh _ _ (List.suffix_refl _) hdepth
  refine hreplaces.substituteBlocks [] (by simp) blocks ?_
  exact isReplaceable_of_listed hblocks fun id _ hdef => definition?_ne_none_iff.1 hdef

end Chain

/-- What a chain of fresh templates shows resolves the blocks of the last one. -/
theorem resolves_resolveChain {descendants : List Template} {root : Template}
    (hne : descendants ≠ []) (hfresh : ∀ t ∈ descendants ++ [root], Fresh t.blocks) :
    Resolves (definition? descendants) root.blocks (resolveChain (descendants ++ [root])) := by
  rw [List.forall_mem_append, List.forall_mem_singleton] at hfresh
  obtain ⟨last, before, h⟩ := List.exists_cons_of_ne_nil (List.reverse_ne_nil_iff.2 hne)
  rw [resolveChain, List.reverse_append, List.reverse_singleton, List.singleton_append,
    List.dropLast_concat, h]
  exact resolves_substitute hfresh.1 hfresh.2

/-- A chain of parsed templates shows the blocks of its last template, in which every named block
that has a definition has been replaced by it, and nothing else. -/
theorem resolves_iff_eq_resolveChain {descendants : List Template} {root : Template}
    (hne : descendants ≠ []) (hparsed : ∀ t ∈ descendants ++ [root], t.IsParsed)
    (shown : List Block) : Resolves (definition? descendants) root.blocks shown ↔
      shown = resolveChain (descendants ++ [root]) := by
  have hresolves := resolves_resolveChain hne fun t ht => (hparsed t ht).fresh
  constructor
  · intro h
    exact h.unique hresolves
  · rintro rfl
    exact hresolves

/-- A letter with a greeting that others may replace. -/
def letterDocument : Document :=
  .ofText "\x7b\x7b#block greeting\x7d\x7dDear customer\x7b\x7b/block\x7d\x7d, please pay."

/-- A reminder that is a letter with another greeting. -/
def reminderDocument : Document :=
  .ofText ("\x7b\x7bextends letter\x7d\x7d" ++
    "\x7b\x7b#block greeting\x7d\x7dHello again\x7b\x7b/block\x7d\x7d")

theorem exists_reminder : ∃ reminder letter : Template,
    Template.ofDocument {} "reminder" reminderDocument = .ok reminder ∧
    Template.ofDocument {} "letter" letterDocument = .ok letter := by
  have hreminder : (Template.ofDocument {} "reminder" reminderDocument).toOption.isSome := by
    decide +kernel
  have hletter : (Template.ofDocument {} "letter" letterDocument).toOption.isSome := by
    decide +kernel
  obtain ⟨reminder, hreminder⟩ := exists_of_isSome_toOption hreminder
  obtain ⟨letter, hletter⟩ := exists_of_isSome_toOption hletter
  exact ⟨reminder, letter, hreminder, hletter⟩

theorem reminder_resolves : ∃ reminder letter : Template,
    Template.ofDocument {} "reminder" reminderDocument = .ok reminder ∧
    Template.ofDocument {} "letter" letterDocument = .ok letter ∧
    Resolves (definition? [reminder]) letter.blocks (resolveChain [reminder, letter]) := by
  obtain ⟨reminder, letter, hreminder, hletter⟩ := exists_reminder
  refine ⟨reminder, letter, hreminder, hletter, ?_⟩
  have hparsed : ∀ t ∈ [reminder] ++ [letter], t.IsParsed := by
    rw [List.forall_mem_append, List.forall_mem_singleton, List.forall_mem_singleton]
    exact ⟨⟨_, _, _, hreminder⟩, ⟨_, _, _, hletter⟩⟩
  exact (resolves_iff_eq_resolveChain (by simp) hparsed _).2 rfl

end StyledTemplate
