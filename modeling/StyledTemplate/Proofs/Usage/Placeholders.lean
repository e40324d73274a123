import StyledTemplate.Proofs.Template.Placeholders
import StyledTemplate.Proofs.Usage.Growth

/-!
# The placeholders that a usage records

The placeholders of a template are found twice: the parser notes their paths, and the usage of its
blocks records them by walking through the finished tree. The two agree: the usage records the path
of every placeholder, outside of loops as a placeholder and within loops as a field of a list, but
for the names that only loops bind; and it records no other path as a placeholder
(`Template.placeholders_recorded`).
-/

namespace StyledTemplate

namespace Usage

/-- Going from `u` to `v` records the placeholders with the given paths, and no others. -/
structure Finds (u : Usage) (paths : List String) (v : Usage) : Prop where
  /-- Nothing that has been recorded is lost. -/
  grows : u.Grows v
  /-- Each path is recorded, unless only loops bind it. -/
  records : ∀ path ∈ paths, isLoopName path = false → ∃ list, v.Mentions list false path
  /-- What has been added to the placeholders is one of the paths, and not bound by loops only. -/
  only : ∀ path, v.placeholders.contains path = true →
    u.placeholders.contains path = true ∨ (path ∈ paths ∧ isLoopName path = false)

variable {u v w : Usage} {ps qs : List String}

/-- A step that leaves the placeholders alone. -/
theorem Finds.of_grows (hgrows : u.Grows v) (hplaceholders : v.placeholders = u.placeholders) :
    u.Finds [] v := by
  refine ⟨hgrows, List.forall_mem_nil _, fun path h => .inl ?_⟩
  rw [← hplaceholders]
  exact h

theorem Finds.refl (u : Usage) : u.Finds [] u := .of_grows (.refl u) rfl

theorem Finds.trans (h : u.Finds ps v) (h' : v.Finds qs w) : u.Finds (ps ++ qs) w where
  grows := h.grows.trans h'.grows
  records path hpath hdata := by
    rcases List.mem_append.1 hpath with hpath | hpath
    · obtain ⟨list, hlist⟩ := h.records path hpath hdata
      exact ⟨list, h'.grows.mentions list false path hlist⟩
    · exact h'.records path hpath hdata
  only path hpath := by
    rcases h'.only path hpath with hv | ⟨hmem, hdata⟩
    · refine (h.only path hv).imp_right fun hp => ?_
      exact ⟨List.mem_append_left _ hp.1, hp.2⟩
    · exact .inr ⟨List.mem_append_right _ hmem, hdata⟩

theorem placeholders_mentionInTable (u : Usage) (place : Place) (path : String) :
    (u.mentionInTable place path).placeholders = u.placeholders := by
  unfold mentionInTable
  split <;> rfl

/-- Within loops nothing is recorded as a placeholder, and a condition never is. -/
theorem placeholders_mention (u : Usage) {place : Place} {isCondition : Bool}
    (h : place.list.isSome = true ∨ isCondition = true) (path : String) :
    (u.mention place isCondition path).placeholders = u.placeholders := by
  unfold mention
  split
  · rfl
  · split
    · exact u.placeholders_mentionInTable place path
    · next hlist =>
      have hcondition : isCondition = true := by simpa [hlist] using h
      rw [if_pos hcondition]
      exact u.placeholders_mentionInTable place path

theorem placeholders_mentionList (u : Usage) (place : Place) (list : String) :
    (u.mentionList place list).placeholders = u.placeholders := by
  unfold mentionList
  split
  · rfl
  · next hlist => exact u.placeholders_mention (.inl (by simp [hlist])) list

theorem finds_placeholder (u : Usage) (place : Place) (path : String) :
    u.Finds [path] (u.mention place false path) where
  grows := u.grows_mention place false path
  records other hother hdata := by
    obtain rfl := List.mem_singleton.1 hother
    exact ⟨place.list, u.mentions_mention place false hdata⟩
  only other h := by
    unfold mention at h
    split at h
    · exact .inl h
    · next hdata =>
      have htable := u.placeholders_mentionInTable place path
      split at h
      · exact .inl (htable ▸ h)
      · have hadded : (((u.mentionInTable place path).placeholders.add path).contains other) = true :=
          h
        rw [NameSet.contains_add, htable, Bool.or_eq_true, beq_iff_eq] at hadded
        rcases hadded with rfl | hold
        · exact .inr ⟨List.mem_singleton_self _, Bool.eq_false_iff.2 hdata⟩
        · exact .inl hold

theorem finds_condition (u : Usage) (place : Place) (condition : String) :
    u.Finds [] (u.mention place true condition) :=
  .of_grows (u.grows_mention place true condition) (u.placeholders_mention (.inr rfl) condition)

theorem finds_list (u : Usage) (place : Place) (list : String) :
    u.Finds [] (u.mentionList place list) :=
  .of_grows (u.grows_mentionList place list) (u.placeholders_mentionList place list)

theorem finds_record (u : Usage) (place : Place) (d : Directive) :
    u.Finds d.placeholder?.toList (u.record place d) := by
  cases d with
  | placeholder path => exact u.finds_placeholder place path
  | ifOpen condition => exact u.finds_condition place condition
  | eachOpen list => exact u.finds_list place list
  | _ => exact .of_grows (.of_eq rfl rfl rfl) rfl

end Usage

/-! ## Walking through a tree -/

theorem followsUse_finds : FollowsUse fun u ms v => u.Finds (markedPlaceholders ms) v where
  refl := Usage.Finds.refl
  trans h h' := by
    rw [markedPlaceholders_append]
    exact h.trans h'
  record u place mark := by
    rw [markedPlaceholders_cons, markedPlaceholders_nil, List.append_nil]
    exact u.finds_record place mark.directive
  table _ _ _ := .of_grows (.of_eq rfl rfl rfl) rfl
  rowLoop _ _ _ _ := .of_grows (.of_eq rfl rfl rfl) rfl

/-- The usage of some blocks records the placeholders in them. -/
theorem finds_ofBlocks (template : String) (blocks : List Block) :
    Usage.Finds { template } (placeholderPaths blocks) (Usage.ofBlocks template blocks) := by
  rw [placeholderPaths, placeholders_eq_marked]
  exact followsUse_finds.useBlocks blocks {} { template }

/-- The paths that a template has noted are those of the placeholders in its tree of blocks. The
usage of these blocks records all of them that not only loops bind, as placeholders or as fields of
lists, and it records no other paths as placeholders. -/
theorem Template.placeholders_recorded {settings : TemplateSettings} {name : String}
    {d : Document} {t : Template} (h : Template.ofDocument settings name d = .ok t)
    (template : String) :
    (∀ path, t.placeholders.contains path = true ↔
      ∃ style position, Block.placeholder path style position ∈ nodesOf t.blocks) ∧
    (∀ path, t.placeholders.contains path = true → isLoopName path = false →
      (Usage.ofBlocks template t.blocks).placeholders.contains path = true ∨
        ∃ list, (Usage.ofBlocks template t.blocks).HasField list path) ∧
    (∀ path, (Usage.ofBlocks template t.blocks).placeholders.contains path = true →
      t.placeholders.contains path = true ∧ isLoopName path = false) := by
  have hnoted := Template.contains_placeholders_iff h
  have hfinds := finds_ofBlocks template t.blocks
  refine ⟨fun path => ?_, fun path hpath hdata => ?_, fun path hpath => ?_⟩
  · rw [hnoted, mem_placeholderPaths_iff]
  · obtain ⟨_ | list, hrecorded⟩ := hfinds.records path ((hnoted path).1 hpath) hdata
    · exact .inl hrecorded
    · exact .inr ⟨list, hrecorded⟩
  · rcases hfinds.only path hpath with hnone | ⟨hmem, hdata⟩
    · cases hnone
    · exact ⟨(hnoted path).2 hmem, hdata⟩

/-- An offer with its date, or the day until which one is given, and with the names and prices of
some items: the price stands in a table within the repeated row. -/
def offer : Document :=
  let line (text : String) : Element := .paragraph { runs := [.ofText text] }
  { body := [
      line ("\x7b\x7b#if sent\x7d\x7d\x7b\x7bdate\x7d\x7d" ++
        "\x7b\x7belse\x7d\x7d\x7b\x7bdue\x7d\x7d\x7b\x7b/if\x7d\x7d"),
      .table { rows := [{ cells := [
        { body := [line "\x7b\x7b#each items\x7d\x7d\x7b\x7bname\x7d\x7d"] },
        { body := [
          .table { rows := [{ cells := [{ body := [line "\x7b\x7bthis.price\x7d\x7d"] }] }] },
          line "\x7b\x7b/each\x7d\x7d"] }] }] }] }

/-- The usage of the offer has the day of the else-branch and the name of an item. -/
theorem offer_recorded : ∃ t, Template.ofDocument {} "offer" offer = .ok t ∧
    t.placeholders.keys = ["date", "due", "name", "this.price"] ∧
    ∀ path ∈ ["due", "name"], (Usage.ofBlocks "offer" t.blocks).placeholders.contains path = true ∨
      ∃ list, (Usage.ofBlocks "offer" t.blocks).HasField list path := by
  have hkeys : (Template.ofDocument {} "offer" offer).toOption.map (·.placeholders.keys) =
      some ["date", "due", "name", "this.price"] := by decide +kernel
  obtain ⟨t, ht, hkeys⟩ := Option.map_eq_some_iff.1 hkeys
  have hparses := toOption_eq_some_iff.1 ht
  obtain ⟨-, hrecorded, -⟩ := Template.placeholders_recorded hparses "offer"
  refine ⟨t, hparses, hkeys, fun path hpath => ?_⟩
  have hdata : path ∈ t.placeholders.keys ∧ isLoopName path = false := by
    rw [hkeys]
    exact (by decide : ∀ path ∈ ["due", "name"],
      path ∈ ["date", "due", "name", "this.price"] ∧ isLoopName path = false) path hpath
  exact hrecorded path (NameMap.contains_of_mem_keys hdata.1) hdata.2

end StyledTemplate
