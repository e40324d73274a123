import StyledTemplate.Block.Basic

/-!
# Inheritance chains

A template may declare a parent, the parent another one, and so on. The chain of a template lists it
with all its ancestors, up to the one without a parent. A chain that comes back to a template on it
is an error, and so is a parent that does not exist. Since each template is kept under its own name,
every template that a chain goes on to is new on it, and so the chain comes to an end.
-/

namespace StyledTemplate

/-- Templates by name, each kept under its own. -/
structure Registry extends NameMap Template where
  /-- Every template is kept under its name. -/
  named : ∀ field ∈ entries, field.2.name = field.1

namespace Registry

/-- The registry without templates. -/
def empty : Registry := ⟨NameMap.empty, List.forall_mem_nil _⟩

instance : Inhabited Registry := ⟨empty⟩

/-- Keeps a template under its name, in place of the one that was there. -/
def insert (registry : Registry) (template : Template) : Registry where
  toNameMap := registry.toNameMap.insert template.name template
  named field hfield := by
    rcases Fields.mem_insert hfield with rfl | hold
    · rfl
    · exact registry.named field hold

/-- Forgets the template of a name. -/
def erase (registry : Registry) (name : String) : Registry where
  toNameMap := registry.toNameMap.erase name
  named field hfield := registry.named field (List.mem_filter.1 hfield).1

@[simp] theorem find?_insert (registry : Registry) (template : Template) (name : String) :
    (registry.insert template).find? name =
      if template.name = name then some template else registry.find? name :=
  NameMap.find?_insert registry.toNameMap template.name name template

@[simp] theorem find?_erase (registry : Registry) (name other : String) :
    (registry.erase name).find? other = if name = other then none else registry.find? other :=
  NameMap.find?_erase registry.toNameMap name other

theorem name_of_find? {registry : Registry} {name : String} {template : Template}
    (h : registry.find? name = some template) : template.name = name :=
  registry.named (name, template) (Fields.mem_of_find? h)

end Registry

theorem Fields.find?_mem_keys {α : Type} {fields : Fields α} {name : String} {value : α}
    (h : fields.find? name = some value) : name ∈ fields.keys := by
  induction fields with
  | nil => simp [Fields.find?] at h
  | cons field rest ih =>
    obtain ⟨key, old⟩ := field
    simp only [Fields.find?] at h
    simp only [Fields.keys, List.map_cons, List.mem_cons] at ih ⊢
    split at h
    · next heq => exact .inl heq.symm
    · exact .inr (ih h)

/-- The names of a list that are not in another. -/
def unvisited (names visited : List String) : List String := names.filter fun n => n ∉ visited

theorem length_unvisited_lt {names visited : List String} {name : String} (hmem : name ∈ names)
    (hnew : name ∉ visited) :
    (unvisited names (visited ++ [name])).length < (unvisited names visited).length := by
  have h : unvisited names (visited ++ [name]) =
      (unvisited names visited).filter fun n => n ≠ name := by
    simp only [unvisited, List.filter_filter]
    congr 1
    funext n
    by_cases h1 : n ∈ visited <;> by_cases h2 : n = name <;> simp [h1, h2]
  rw [h]
  exact List.length_filter_lt_length_iff_exists.2 ⟨name, by simp [unvisited, hmem, hnew], by simp⟩

/-- The ancestors of a template, nearest first. `visited` are the names of the templates on the chain
so far. -/
def ancestors (registry : Registry) (visited : List String) (template : Template) :
    Except Error (List Template) :=
  match template.parent with
  | none => .ok []
  | some parent =>
    if _hnew : parent ∈ visited then .error (.inheritanceCycle (visited ++ [parent]))
    else
      match _hfound : registry.find? parent with
      | none => .error (.templateNotFound parent)
      | some next => do
        let rest ← ancestors registry (visited ++ [next.name]) next
        return next :: rest
termination_by (unvisited registry.keys visited).length
decreasing_by
  -- The template that is found has the name of the parent, so this name is new on the chain.
  rw [Registry.name_of_find? _hfound]
  exact length_unvisited_lt (Fields.find?_mem_keys _hfound) _hnew

/-- The chain of a template: the template itself and its ancestors, nearest first. -/
def chain (registry : Registry) (template : Template) : Except Error (List Template) := do
  let rest ← ancestors registry [template.name] template
  return template :: rest

end StyledTemplate
