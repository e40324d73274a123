import StyledTemplate.Inheritance.Chain
import StyledTemplate.Proofs.Outcome

/-!
# Following parents

The four ways in which following the parents of a template goes on, as equations. From them: the
members of a chain are registered, and a chain fails only because a parent is missing or because it
comes back to a template.
-/

namespace StyledTemplate

section Ancestors

variable {registry : Registry} {visited : List String} {t next : Template} {parent : String}

theorem ancestors_of_root (hparent : t.parent = none) : ancestors registry visited t = .ok [] := by
  unfold ancestors
  simp [hparent]

theorem ancestors_of_visited (hparent : t.parent = some parent) (hvisited : parent ∈ visited) :
    ancestors registry visited t = .error (.inheritanceCycle (visited ++ [parent])) := by
  unfold ancestors
  simp [hparent, hvisited]

theorem ancestors_of_missing (hparent : t.parent = some parent) (hnew : parent ∉ visited)
    (hmissing : registry.find? parent = none) :
    ancestors registry visited t = .error (.templateNotFound parent) := by
  unfold ancestors
  simp only [hparent, hnew, ↓reduceDIte]
  split
  · rfl
  · next found hfound =>
    have hboth : none = some found := hmissing.symm.trans hfound
    cases hboth

theorem ancestors_of_found (hparent : t.parent = some parent) (hnew : parent ∉ visited)
    (hfound : registry.find? parent = some next) :
    ancestors registry visited t =
      (do
        let rest ← ancestors registry (visited ++ [next.name]) next
        return next :: rest) := by
  conv => lhs; unfold ancestors
  simp only [hparent, hnew, ↓reduceDIte]
  split
  · next hmissing =>
    have hboth : none = some next := hmissing.symm.trans hfound
    cases hboth
  · next found hfound' =>
    obtain rfl := Option.some.inj (hfound'.symm.trans hfound)
    rfl

/-- What holds of all registered templates holds of all ancestors. -/
theorem forall_mem_ancestors {P : Template → Prop}
    (hregistry : ∀ name t, registry.find? name = some t → P t) {ts : List Template}
    (h : ancestors registry visited t = .ok ts) : ∀ ancestor ∈ ts, P ancestor := by
  induction visited, t using ancestors.induct registry generalizing ts with
  | case1 visited t hparent =>
    rw [ancestors_of_root hparent] at h
    obtain rfl := Except.ok.inj h
    simp
  | case2 visited t parent hparent hvisited =>
    rw [ancestors_of_visited hparent hvisited] at h
    cases h
  | case3 visited t parent hparent hnew hmissing =>
    rw [ancestors_of_missing hparent hnew hmissing] at h
    cases h
  | case4 visited t parent hparent hnew next hfound ih =>
    rw [ancestors_of_found hparent hnew hfound] at h
    obtain ⟨rest, hrest, h⟩ := exists_of_bind_eq_ok h
    obtain rfl := Except.ok.inj h
    rw [List.forall_mem_cons]
    exact ⟨hregistry parent next hfound, ih hrest⟩

/-- A template is missing, or templates inherit from each other in a circle. -/
def Error.IsOfChain (e : Error) : Prop :=
  (∃ name, e = .templateNotFound name) ∨ ∃ names, e = .inheritanceCycle names

theorem ancestors_fails (registry : Registry) (visited : List String) (t : Template) :
    OnlyFails Error.IsOfChain (ancestors registry visited t) := by
  induction visited, t using ancestors.induct registry with
  | case1 visited t hparent =>
    rw [ancestors_of_root hparent]
    exact .ok _ _
  | case2 visited t parent hparent hvisited =>
    rw [ancestors_of_visited hparent hvisited]
    exact .error (.inr ⟨_, rfl⟩)
  | case3 visited t parent hparent hnew hmissing =>
    rw [ancestors_of_missing hparent hnew hmissing]
    exact .error (.inl ⟨_, rfl⟩)
  | case4 visited t parent hparent hnew next hfound ih =>
    rw [ancestors_of_found hparent hnew hfound]
    exact ih.bind fun rest => .ok _ _

end Ancestors

/-- What holds of a template and of all registered ones holds of its chain. -/
theorem forall_mem_chain {registry : Registry} {P : Template → Prop}
    (hregistry : ∀ name t, registry.find? name = some t → P t) {t : Template} (ht : P t)
    {ts : List Template} (h : chain registry t = .ok ts) : ∀ member ∈ ts, P member := by
  obtain ⟨rest, hrest, h⟩ := exists_of_bind_eq_ok h
  obtain rfl := Except.ok.inj h
  rw [List.forall_mem_cons]
  exact ⟨ht, forall_mem_ancestors hregistry hrest⟩

/-- A chain is never empty. -/
theorem exists_chain_eq_concat {registry : Registry} {t : Template} {ts : List Template}
    (h : chain registry t = .ok ts) : ∃ descendants root, ts = descendants ++ [root] := by
  obtain ⟨rest, -, h⟩ := exists_of_bind_eq_ok h
  obtain rfl := Except.ok.inj h
  rcases List.eq_nil_or_concat (t :: rest) with hnil | ⟨descendants, root, hconcat⟩
  · cases hnil
  · refine ⟨descendants, root, ?_⟩
    rw [hconcat, List.concat_eq_append]

theorem chain_fails (registry : Registry) (t : Template) :
    OnlyFails Error.IsOfChain (chain registry t) :=
  (ancestors_fails registry [t.name] t).bind fun _ => .ok _ _

end StyledTemplate
