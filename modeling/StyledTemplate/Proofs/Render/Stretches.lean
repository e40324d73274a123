import StyledTemplate.Proofs.Render.Visits

/-!
# The stretches of a paragraph

A paragraph with directives may come to hold paragraphs and tables, because a named block in it has
been replaced. What is rendered of it is cut at the elements that these show, and each stretch in
between is assembled by itself (`interleaves_renderBlock`). A stretch disappears only if it shows no
character and no run that is not text, and no placeholder has been come to in it; otherwise it is one
paragraph.
-/

namespace StyledTemplate

open Visit (isPlaceholder)

/-! ## Stretches -/

/-- Visits between which no element is shown, and the runs that are shown there. A paragraph that
shows nothing does not end a stretch. -/
inductive InLine : List Visit → List Run → Prop
  | nil : InLine [] []
  | run {visit : Visit} {run : Run} {visits runs} (hrun : visit.ShowsRun run)
      (hrest : InLine visits runs) : InLine (visit :: visits) (run :: runs)
  | silent {visit : Visit} {visits runs} (helements : visit.ShowsElements [])
      (hrest : InLine visits runs) : InLine (visit :: visits) runs

/-- Stretches of visits with elements between them. `Gives` says what comes of a stretch, and the
elements that are shown in between stay where they are. -/
inductive Interleaves (Gives : List Visit → List Element → Prop) :
    List Visit → List Element → Prop
  | last {stretch : List Visit} {shown : List Element} (hstretch : Gives stretch shown) :
      Interleaves Gives stretch shown
  | between {stretch visits : List Visit} {visit : Visit} {shown elements rest : List Element}
      (hstretch : Gives stretch shown) (helements : visit.ShowsElements elements)
      (hne : elements ≠ []) (hrest : Interleaves Gives visits rest) :
      Interleaves Gives (stretch ++ visit :: visits) (shown ++ elements ++ rest)

/-- What a stretch gives by the rule for paragraphs that show nothing: no element exactly if all runs
in it are without characters and it has no placeholder, and otherwise one paragraph with the
properties and all that the runs show. -/
structure KeptOrDropped (properties : ParagraphProperties) (stretch : List Visit) (runs : List Run)
    (shown : List Element) : Prop where
  /-- When there is no element. -/
  dropped : shown = [] ↔
    (∀ run ∈ runs, run.isEmptyText = true) ∧ ∀ visit ∈ stretch, visit.isPlaceholder = false
  /-- What the one paragraph is otherwise. -/
  kept : shown ≠ [] → ∃ kept, shown = [.paragraph ⟨properties, kept⟩] ∧
    runsAtoms kept = runsAtoms runs

theorem Interleaves.mono {Gives Gives' : List Visit → List Element → Prop}
    (h : ∀ stretch shown, Gives stretch shown → Gives' stretch shown) {visits : List Visit}
    {shown : List Element} (hshown : Interleaves Gives visits shown) :
    Interleaves Gives' visits shown := by
  induction hshown with
  | last hstretch => exact .last (h _ _ hstretch)
  | between hstretch helements hne hrest ih => exact .between (h _ _ hstretch) helements hne ih

namespace InLine

variable {visit : Visit} {visits visits' : List Visit} {runs runs' : List Run}

theorem append (h : InLine visits runs) (h' : InLine visits' runs') :
    InLine (visits ++ visits') (runs ++ runs') := by
  induction h with
  | nil => exact h'
  | run hrun hrest ih => exact .run hrun ih
  | silent helements hrest ih => exact .silent helements ih

theorem concat (h : InLine visits runs) {run : Run} (hrun : visit.ShowsRun run) :
    InLine (visits ++ [visit]) (runs ++ [run]) := h.append (.run hrun .nil)

theorem concat_silent (h : InLine visits runs) (helements : visit.ShowsElements []) :
    InLine (visits ++ [visit]) runs := by
  have hall := h.append (.silent helements .nil)
  rwa [List.append_nil] at hall

end InLine

/-! ## Assembling -/

section Assemble

variable (merge : Bool) (properties : ParagraphProperties)

/-- The paragraph that a stretch is assembled to. -/
def Assembles (stretch : List Visit) (shown : List Element) : Prop :=
  ∃ runs, InLine stretch runs ∧
    paragraphOf merge properties runs (stretch.any isPlaceholder) = shown.map .element

theorem exists_assembles {stretch : List Visit} {runs : List Run} (h : InLine stretch runs) :
    ∃ shown, paragraphOf merge properties runs (stretch.any isPlaceholder) =
      shown.map .element ∧ Assembles merge properties stretch shown := by
  have hassembled := assembled_paragraphOf merge properties runs (stretch.any isPlaceholder)
  obtain ⟨shown, hshown⟩ := hassembled.exists_elements
  exact ⟨shown, hshown, runs, h, hshown⟩

/-- Elements stay as they are, and between two neighbours there is nothing. -/
theorem assembleAfter_elements (elements : List Element) (fragments : List Fragment) :
    assembleAfter merge properties [] false (elements.map .element ++ fragments) =
      elements.map .element ++ assembleAfter merge properties [] false fragments := by
  induction elements with
  | nil => rfl
  | cons element elements ih =>
    have hnothing : paragraphOf merge properties [] false = [] := rfl
    rw [List.map_cons, List.cons_append, assembleAfter, ih, hnothing]
    rfl

/-- What is assembled behind the visits of an unfinished stretch. -/
theorem interleaves_assembleAfter {visits : List Visit} {parts : List (List Fragment)}
    (h : List.Forall₂ Visit.Shows visits parts) : ∀ {before : List Visit} {runs : List Run},
    InLine before runs → ∃ shown, assembleAfter merge properties runs (before.any isPlaceholder)
        parts.flatten = shown.map .element ∧
      Interleaves (Assembles merge properties) (before ++ visits) shown := by
  -- `before` is the stretch so far. A visit that shows a run goes to it, and so does one that shows
  -- nothing; one that shows elements ends it, and the next stretch starts with nothing.
  induction h with
  | nil =>
    intro before runs hbefore
    obtain ⟨shown, hshown, hassembles⟩ := exists_assembles merge properties hbefore
    refine ⟨shown, hshown, ?_⟩
    rw [List.append_nil]
    exact .last hassembles
  | @cons visit part visits parts hvisit hvisits ih =>
    intro before runs hbefore
    have hany : (before ++ [visit]).any isPlaceholder =
        (before.any isPlaceholder || visit.isPlaceholder) := by
      rw [List.any_append, List.any_cons, List.any_nil, Bool.or_false]
    have hsplit : before ++ visit :: visits = before ++ [visit] ++ visits := by
      rw [List.append_assoc, List.singleton_append]
    rw [List.flatten_cons, hsplit]
    cases hvisit with
    | run hrun hplain =>
      obtain ⟨shown, hshown, hinterleaves⟩ := ih (hbefore.concat hrun)
      rw [hany, hplain, Bool.or_false] at hshown
      exact ⟨shown, hshown, hinterleaves⟩
    | value hrun hplaceholder =>
      obtain ⟨shown, hshown, hinterleaves⟩ := ih (hbefore.concat hrun)
      rw [hany, hplaceholder, Bool.or_true] at hshown
      exact ⟨shown, hshown, hinterleaves⟩
    | @elements elements helements =>
      cases elements with
      | nil =>
        obtain ⟨shown, hshown, hinterleaves⟩ := ih (hbefore.concat_silent helements)
        rw [hany, helements.isPlaceholder, Bool.or_false] at hshown
        exact ⟨shown, hshown, hinterleaves⟩
      | cons element elements =>
        obtain ⟨first, hfirst, hassembles⟩ := exists_assembles merge properties hbefore
        obtain ⟨rest, hrest, hinterleaves⟩ := ih .nil
        have hbehind := assembleAfter_elements merge properties elements parts.flatten
        refine ⟨first ++ element :: elements ++ rest, ?_, ?_⟩
        · rw [List.map_cons, List.cons_append, assembleAfter, hbehind, hfirst]
          rw [List.any_nil] at hrest
          rw [hrest, List.map_append, List.map_append, List.map_cons]
          simp only [List.append_assoc, List.cons_append]
        · rw [← hsplit]
          exact .between hassembles helements (List.cons_ne_nil _ _) hinterleaves

end Assemble

/-- What a paragraph with directives shows: its stretches by themselves, and the elements between
them in their places. -/
theorem interleaves_renderBlock {scene : Scene} {properties : ParagraphProperties}
    {children : List Block} {fragments : List Fragment}
    (h : renderBlock scene (.paragraph properties children true) = .ok fragments) :
    ∃ shown, fragments = shown.map .element ∧
      Interleaves (Assembles scene.settings.coalesceRuns properties) (visitsOf scene children)
        shown := by
  rw [renderBlock] at h
  obtain ⟨inner, hinner, h⟩ := exists_of_bind_eq_ok h
  obtain rfl := Except.ok.inj h
  obtain ⟨parts, hparts, rfl⟩ := visitsShow_renderBlocks children scene inner hinner
  exact interleaves_assembleAfter _ _ hparts .nil

/-! ## What disappears -/

/-- Runs are dropped, or they make up one paragraph. -/
theorem cases_of_paragraphOf {merge keep : Bool} {properties : ParagraphProperties} {runs : List Run}
    {shown : List Element} (h : paragraphOf merge properties runs keep = shown.map .element) :
    (((∀ run ∈ runs, run.isEmptyText = true) ∧ keep = false) ∧ shown = []) ∨
    (¬((∀ run ∈ runs, run.isEmptyText = true) ∧ keep = false) ∧
      shown = [.paragraph ⟨properties, if merge then coalesce (runs.filter (!·.isEmptyText))
        else runs.filter (!·.isEmptyText)⟩]) := by
  have hempty : runs.filter (!·.isEmptyText) = [] ↔ ∀ run ∈ runs, run.isEmptyText = true := by
    simp [List.filter_eq_nil_iff]
  have hdrop : (runs.filter (!·.isEmptyText) = [] ∧ (!keep) = true) ↔
      (∀ run ∈ runs, run.isEmptyText = true) ∧ keep = false := by
    rw [hempty, Bool.not_eq_true']
  rw [paragraphOf] at h
  by_cases hnothing : (∀ run ∈ runs, run.isEmptyText = true) ∧ keep = false
  · rw [if_pos (hdrop.2 hnothing)] at h
    exact .inl ⟨hnothing, List.map_eq_nil_iff.1 h.symm⟩
  · rw [if_neg fun hcond => hnothing (hdrop.1 hcond)] at h
    obtain ⟨element, rest, rfl, helement, hrest⟩ := List.map_eq_cons_iff.1 h.symm
    obtain rfl := List.map_eq_nil_iff.1 hrest
    obtain rfl := Fragment.element.inj helement
    exact .inr ⟨hnothing, rfl⟩

/-- What is shown of a stretch follows the rule. -/
theorem Assembles.exists_keptOrDropped {merge : Bool} {properties : ParagraphProperties}
    {stretch : List Visit} {shown : List Element} (h : Assembles merge properties stretch shown) :
    ∃ runs, InLine stretch runs ∧ KeptOrDropped properties stretch runs shown := by
  obtain ⟨runs, hline, hparagraph⟩ := h
  have hplain : stretch.any isPlaceholder = false ↔
      ∀ visit ∈ stretch, visit.isPlaceholder = false := by
    simp [List.any_eq_false]
  have hatoms := fragmentsAtoms_paragraphOf merge properties runs (stretch.any isPlaceholder)
  refine ⟨runs, hline, ?_⟩
  rcases cases_of_paragraphOf hparagraph with ⟨hnothing, rfl⟩ | ⟨hsomething, rfl⟩
  · rw [hplain] at hnothing
    exact ⟨iff_of_true rfl hnothing, fun hne => absurd rfl hne⟩
  · rw [hplain] at hsomething
    refine ⟨iff_of_false (List.cons_ne_nil _ _) hsomething, fun _ => ⟨_, rfl, ?_⟩⟩
    rw [hparagraph, List.map_singleton, fragmentsAtoms_cons, Fragment.atoms,
      Element.atoms_paragraph, fragmentsAtoms_nil, List.append_nil] at hatoms
    exact hatoms

/-- Where only runs are shown, the whole paragraph is one stretch. -/
theorem Interleaves.eq_last {Gives : List Visit → List Element → Prop} {visits : List Visit}
    {shown : List Element} (h : Interleaves Gives visits shown)
    (hrun : ∀ visit ∈ visits, ∀ elements, ¬ visit.ShowsElements elements) : Gives visits shown := by
  cases h with
  | last hstretch => exact hstretch
  | @between stretch visits visit shown elements rest hstretch helements hne hrest =>
    have hmem : visit ∈ stretch ++ visit :: visits :=
      List.mem_append_right _ List.mem_cons_self
    exact absurd helements (hrun visit hmem elements)

theorem InLine.forall₂ {visits : List Visit} {runs : List Run} (h : InLine visits runs)
    (hrun : ∀ visit ∈ visits, ∀ elements, ¬ visit.ShowsElements elements) :
    List.Forall₂ Visit.ShowsRun visits runs := by
  induction h with
  | nil => exact .nil
  | run hfirst hrest ih =>
    exact .cons hfirst (ih (List.forall_mem_cons.1 hrun).2)
  | silent helements hrest ih =>
    exact absurd helements ((List.forall_mem_cons.1 hrun).1 [])

end StyledTemplate
