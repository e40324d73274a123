import StyledTemplate.Proofs.Render.Spelling

/-!
# Runs outside of paragraphs

Blocks are rendered to paragraphs and tables, and to loose runs where something that is shown within
a line stands outside of all paragraphs. Loose runs that follow each other get one paragraph, also
if they come from different blocks. So a body is rendered piece by piece, except that the paragraph
at a seam is shared if there are loose runs on both of its sides. `looseOwners` lists what can give
loose runs, with the template that each piece of it was taken from.
-/

namespace StyledTemplate

/-! ## Fragments -/

namespace Fragment

/-- A run outside of all paragraphs. -/
def isLoose : Fragment → Bool
  | .run _ => true
  | .value _ => true
  | .element _ => false

end Fragment

/-- There are loose runs at the start. -/
def startsLoose (fragments : List Fragment) : Bool := fragments.head?.any Fragment.isLoose

/-- There are loose runs at the end. -/
def endsLoose (fragments : List Fragment) : Bool := fragments.getLast?.any Fragment.isLoose

/-- The paragraph that loose runs get, if there are any. -/
def looseParagraph (runs : List Run) : List Element :=
  if runs = [] then [] else [.paragraph (.ofRuns runs)]

theorem looseParagraph_nil : looseParagraph [] = [] := rfl

theorem looseParagraph_of_ne_nil {runs : List Run} (h : runs ≠ []) :
    looseParagraph runs = [.paragraph (.ofRuns runs)] := if_neg h

theorem elementsAfter_nil (loose : List Run) : elementsAfter loose [] = looseParagraph loose := by
  rw [elementsAfter]
  rfl

theorem elementsAfter_element (loose : List Run) (element : Element) (rest : List Fragment) :
    elementsAfter loose (.element element :: rest) =
      looseParagraph loose ++ element :: elementsAfter [] rest := by
  rw [elementsAfter]
  rfl

theorem endsLoose_cons_cons (fragment next : Fragment) (rest : List Fragment) :
    endsLoose (fragment :: next :: rest) = endsLoose (next :: rest) := by
  rw [endsLoose, endsLoose, List.getLast?_cons_cons]

/-- The loose runs at the start go on with those before them. -/
theorem exists_elementsAfter_eq (fragments : List Fragment) : ∃ runs back,
    (∀ loose, elementsAfter loose fragments = looseParagraph (loose ++ runs) ++ back) ∧
      (startsLoose fragments = true ↔ runs ≠ []) := by
  induction fragments with
  | nil =>
    refine ⟨[], [], fun loose => ?_, by simp [startsLoose]⟩
    rw [elementsAfter_nil, List.append_nil, List.append_nil]
  | cons fragment rest ih =>
    obtain ⟨runs, back, hrest, -⟩ := ih
    have hrun : ∀ run loose, elementsAfter (loose ++ [run]) rest =
        looseParagraph (loose ++ run :: runs) ++ back := by
      intro run loose
      rw [hrest, List.append_assoc, List.singleton_append]
    cases fragment with
    | run run =>
      refine ⟨run :: runs, back, fun loose => ?_, by simp [startsLoose, Fragment.isLoose]⟩
      rw [elementsAfter]
      exact hrun run loose
    | value run =>
      refine ⟨run :: runs, back, fun loose => ?_, by simp [startsLoose, Fragment.isLoose]⟩
      rw [elementsAfter]
      exact hrun run loose
    | element element =>
      refine ⟨[], element :: elementsAfter [] rest, fun loose => ?_,
        by simp [startsLoose, Fragment.isLoose]⟩
      rw [elementsAfter_element, List.append_nil]

/-- What follows goes on with the loose runs at the end. -/
theorem exists_elementsAfter_append_eq (fragments : List Fragment) (loose : List Run) :
    ∃ front last,
      (∀ more, elementsAfter loose (fragments ++ more) = front ++ elementsAfter last more) ∧
      (fragments ≠ [] → (endsLoose fragments = true ↔ last ≠ [])) ∧
      (fragments = [] → last = loose) := by
  induction fragments generalizing loose with
  | nil => exact ⟨[], loose, fun more => rfl, fun h => absurd rfl h, fun _ => rfl⟩
  | cons fragment rest ih =>
    have hcons : ∀ last : List Run, fragment :: rest = [] → last = loose :=
      fun _ hnil => absurd hnil (List.cons_ne_nil _ _)
    have hends : ∀ last loose : List Run, (rest ≠ [] → (endsLoose rest = true ↔ last ≠ [])) →
        (rest = [] → last = loose) → (fragment.isLoose = true ↔ loose ≠ []) →
        (endsLoose (fragment :: rest) = true ↔ last ≠ []) := by
      intro last loose hrest hnil hloose
      cases rest with
      | nil =>
        rw [hnil rfl, ← hloose]
        rfl
      | cons next rest =>
        rw [endsLoose_cons_cons]
        exact hrest (List.cons_ne_nil _ _)
    cases fragment with
    | run run =>
      obtain ⟨front, last, hrest, hlast, hnil⟩ := ih (loose ++ [run])
      refine ⟨front, last, fun more => ?_, fun _ => ?_, hcons _⟩
      · rw [List.cons_append, elementsAfter, hrest]
      · exact hends last _ hlast hnil (by simp [Fragment.isLoose])
    | value run =>
      obtain ⟨front, last, hrest, hlast, hnil⟩ := ih (loose ++ [run])
      refine ⟨front, last, fun more => ?_, fun _ => ?_, hcons _⟩
      · rw [List.cons_append, elementsAfter, hrest]
      · exact hends last _ hlast hnil (by simp [Fragment.isLoose])
    | element element =>
      obtain ⟨front, last, hrest, hlast, hnil⟩ := ih []
      refine ⟨looseParagraph loose ++ element :: front, last, fun more => ?_, fun _ => ?_, hcons _⟩
      · rw [List.cons_append, elementsAfter_element, hrest, List.append_assoc, List.cons_append]
      · exact hends last _ hlast hnil (by simp [Fragment.isLoose])

/-- The parts of a body are assembled by themselves, up to the paragraph of the loose runs at the
seam. -/
theorem exists_elementsOf_append_eq (fs gs : List Fragment) : ∃ front last first back,
    elementsOf fs = front ++ looseParagraph last ∧ elementsOf gs = looseParagraph first ++ back ∧
      elementsOf (fs ++ gs) = front ++ looseParagraph (last ++ first) ++ back ∧
      (endsLoose fs = true ↔ last ≠ []) ∧ (startsLoose gs = true ↔ first ≠ []) := by
  obtain ⟨front, last, hfs, hlast, hnil⟩ := exists_elementsAfter_append_eq fs []
  obtain ⟨first, back, hgs, hfirst⟩ := exists_elementsAfter_eq gs
  refine ⟨front, last, first, back, ?_, hgs [], ?_, ?_, hfirst⟩
  · have hall := hfs []
    rwa [List.append_nil, elementsAfter_nil] at hall
  · rw [elementsOf, hfs, hgs, List.append_assoc]
  · cases fs with
    | nil => simp [endsLoose, hnil rfl]
    | cons fragment rest => exact hlast (List.cons_ne_nil _ _)

theorem elementsOf_append {fs gs : List Fragment}
    (h : ¬ (endsLoose fs = true ∧ startsLoose gs = true)) :
    elementsOf (fs ++ gs) = elementsOf fs ++ elementsOf gs := by
  obtain ⟨front, last, first, back, hfs, hgs, hall, hends, hstarts⟩ :=
    exists_elementsOf_append_eq fs gs
  rw [hall, hfs, hgs]
  by_cases hlast : last = []
  · rw [hlast, List.nil_append, looseParagraph_nil, List.append_nil, List.append_assoc]
  · -- nothing loose can follow
    have hfirst : first = [] := Classical.byContradiction fun hfirst =>
      h ⟨hends.2 hlast, hstarts.2 hfirst⟩
    rw [hfirst, List.append_nil, looseParagraph_nil, List.nil_append]

/-- The last paragraph of a document and the first one of another, of runs without any formatting
as a paragraph, are one in a third. -/
def Document.Joined (da db d : Document) : Prop :=
  ∃ front runs runs' back, runs ≠ [] ∧ runs' ≠ [] ∧
    da.body = front ++ [.paragraph (.ofRuns runs)] ∧
    db.body = .paragraph (.ofRuns runs') :: back ∧
    d.body = front ++ .paragraph (.ofRuns (runs ++ runs')) :: back

theorem joined_elementsOf {fs gs : List Fragment} (hfs : endsLoose fs = true)
    (hgs : startsLoose gs = true) :
    Document.Joined ⟨elementsOf fs⟩ ⟨elementsOf gs⟩ ⟨elementsOf (fs ++ gs)⟩ := by
  obtain ⟨front, last, first, back, hfront, hback, hall, hends, hstarts⟩ :=
    exists_elementsOf_append_eq fs gs
  have hlast := hends.1 hfs
  have hfirst := hstarts.1 hgs
  have hboth : last ++ first ≠ [] := List.append_ne_nil_of_left_ne_nil hlast _
  rw [looseParagraph_of_ne_nil hlast] at hfront
  rw [looseParagraph_of_ne_nil hfirst] at hback
  rw [looseParagraph_of_ne_nil hboth, List.append_assoc] at hall
  exact ⟨front, last, first, back, hlast, hfirst, hfront, hback, hall⟩

/-! ## Blocks -/

mutual

/-- What a block has outside of its paragraphs and tables that is shown within a line: for each of
these the template whose body it was taken with, if it was taken from elsewhere. -/
def Block.looseOwners (owner : Option String) : Block → List (Option String)
  | .text _ _ => [owner]
  | .static _ => [owner]
  | .placeholder _ _ _ => [owner]
  | .image _ _ _ => [owner]
  | .conditional _ thenBlocks none _ => looseOwners owner thenBlocks
  | .conditional _ thenBlocks (some elseBlocks) _ =>
    looseOwners owner thenBlocks ++ looseOwners owner elseBlocks
  | .loop _ body _ => looseOwners owner body
  | .named _ body _ origin => looseOwners (origin.or owner) body
  | .inherits _ _ => []
  | .paragraph _ _ _ => []
  | .table _ => []

/-- What some blocks have outside of paragraphs and tables that is shown within a line. -/
def looseOwners (owner : Option String) : List Block → List (Option String)
  | [] => []
  | block :: blocks => block.looseOwners owner ++ looseOwners owner blocks

end

theorem looseOwners_append (owner : Option String) (as bs : List Block) :
    looseOwners owner (as ++ bs) = looseOwners owner as ++ looseOwners owner bs := by
  induction as with
  | nil => rw [List.nil_append, looseOwners, List.nil_append]
  | cons a as ih => rw [List.cons_append, looseOwners, ih, looseOwners, List.append_assoc]

/-! ## Rendering -/

/-- There is no loose run among the fragments. -/
def Assembled (fragments : List Fragment) : Prop := ∀ f ∈ fragments, f.isLoose = false

theorem Assembled.append {fs gs : List Fragment} (hfs : Assembled fs) (hgs : Assembled gs) :
    Assembled (fs ++ gs) := List.forall_mem_append.2 ⟨hfs, hgs⟩

theorem assembled_nil : Assembled [] := by
  intro f hf
  cases hf

theorem assembled_element (element : Element) : Assembled [.element element] :=
  List.forall_mem_singleton.2 rfl

theorem Assembled.not_startsLoose {fragments : List Fragment} (h : Assembled fragments) :
    startsLoose fragments = false := by
  cases fragments with
  | nil => rfl
  | cons fragment rest => exact h fragment List.mem_cons_self

theorem Assembled.not_endsLoose {fragments : List Fragment} (h : Assembled fragments) :
    endsLoose fragments = false := by
  rw [endsLoose]
  cases hlast : fragments.getLast? with
  | none => rfl
  | some fragment => exact h fragment (List.mem_of_getLast? hlast)

theorem assembled_paragraphOf (merge : Bool) (properties : ParagraphProperties) (runs : List Run)
    (keep : Bool) : Assembled (paragraphOf merge properties runs keep) := by
  rw [paragraphOf]
  split
  · exact assembled_nil
  · exact assembled_element _

theorem assembled_assembleAfter (merge : Bool) (properties : ParagraphProperties)
    (runs : List Run) (keep : Bool) (fragments : List Fragment) :
    Assembled (assembleAfter merge properties runs keep fragments) := by
  induction fragments generalizing runs keep with
  | nil =>
    rw [assembleAfter]
    exact assembled_paragraphOf _ _ _ _
  | cons fragment rest ih =>
    cases fragment with
    | run run =>
      rw [assembleAfter]
      exact ih _ _
    | value run =>
      rw [assembleAfter]
      exact ih _ _
    | element element =>
      rw [assembleAfter]
      have hrest := (assembled_element element).append (ih [] false)
      exact (assembled_paragraphOf merge properties runs keep).append hrest

theorem assembled_renderEntries {render : Scene → Except Error (List Fragment)}
    (hrender : ∀ scene shown, render scene = .ok shown → Assembled shown) {scene : Scene}
    {length : Nat} {entries : List Value} {index : Nat} {shown : List Fragment}
    (h : scene.renderEntries render length index entries = .ok shown) : Assembled shown := by
  induction entries generalizing index shown with
  | nil =>
    obtain rfl := Except.ok.inj h
    exact assembled_nil
  | cons entry entries ih =>
    rw [Scene.renderEntries] at h
    obtain ⟨first, hfirst, h⟩ := exists_of_bind_eq_ok h
    obtain ⟨rest, hrest, h⟩ := exists_of_bind_eq_ok h
    obtain rfl := Except.ok.inj h
    exact (hrender _ first hfirst).append (ih hrest)

mutual

theorem assembled_renderBlock : ∀ (block : Block) (owner : Option String),
    block.looseOwners owner = [] → ∀ (scene : Scene) (shown : List Fragment),
    renderBlock scene block = .ok shown → Assembled shown
  | .text _ _, owner, hnone, _, _, _ => by
    rw [Block.looseOwners] at hnone
    cases hnone
  | .static _, owner, hnone, _, _, _ => by
    rw [Block.looseOwners] at hnone
    cases hnone
  | .placeholder _ _ _, owner, hnone, _, _, _ => by
    rw [Block.looseOwners] at hnone
    cases hnone
  | .image _ _ _, owner, hnone, _, _, _ => by
    rw [Block.looseOwners] at hnone
    cases hnone
  | .conditional condition thenBlocks none _, owner, hnone, scene, shown, h => by
    rw [Block.looseOwners] at hnone
    rw [renderBlock] at h
    split at h
    · exact assembled_renderBlocks thenBlocks owner hnone scene shown h
    · obtain rfl := Except.ok.inj h
      exact assembled_nil
  | .conditional condition thenBlocks (some elseBlocks) _, owner, hnone, scene, shown, h => by
    rw [Block.looseOwners, List.append_eq_nil_iff] at hnone
    rw [renderBlock] at h
    split at h
    · exact assembled_renderBlocks thenBlocks owner hnone.1 scene shown h
    · exact assembled_renderBlocks elseBlocks owner hnone.2 scene shown h
  | .loop list body position, owner, hnone, scene, shown, h => by
    rw [Block.looseOwners] at hnone
    rw [renderBlock] at h
    obtain ⟨entries, -, h⟩ := exists_of_bind_eq_ok h
    exact assembled_renderEntries (assembled_renderBlocks body owner hnone) h
  | .named _ body _ origin, owner, hnone, scene, shown, h => by
    rw [Block.looseOwners] at hnone
    rw [renderBlock] at h
    exact assembled_renderBlocks body _ hnone (scene.within origin) shown h
  | .inherits _ _, owner, _, scene, shown, h => by
    rw [renderBlock] at h
    obtain rfl := Except.ok.inj h
    exact assembled_nil
  | .paragraph properties children hasDirectives, owner, _, scene, shown, h => by
    rw [renderBlock] at h
    obtain ⟨fragments, -, h⟩ := exists_of_bind_eq_ok h
    obtain rfl := Except.ok.inj h
    rw [assembleParagraph]
    split
    · exact assembled_assembleAfter _ _ _ _ _
    · exact assembled_element _
  | .table ⟨properties, grid, rows⟩, owner, _, scene, shown, h => by
    rw [renderBlock] at h
    obtain ⟨shownRows, -, h⟩ := exists_of_bind_eq_ok h
    obtain rfl := Except.ok.inj h
    exact assembled_element _

/-- Blocks with nothing loose in them show no loose runs. -/
theorem assembled_renderBlocks : ∀ (blocks : List Block) (owner : Option String),
    looseOwners owner blocks = [] → ∀ (scene : Scene) (shown : List Fragment),
    renderBlocks scene blocks = .ok shown → Assembled shown
  | [], _, _, scene, shown, h => by
    rw [renderBlocks] at h
    obtain rfl := Except.ok.inj h
    exact assembled_nil
  | block :: blocks, owner, hnone, scene, shown, h => by
    rw [looseOwners, List.append_eq_nil_iff] at hnone
    rw [renderBlocks] at h
    obtain ⟨first, hfirst, h⟩ := exists_of_bind_eq_ok h
    obtain ⟨rest, hrest, h⟩ := exists_of_bind_eq_ok h
    obtain rfl := Except.ok.inj h
    exact (assembled_renderBlock block owner hnone.1 scene first hfirst).append
      (assembled_renderBlocks blocks owner hnone.2 scene rest hrest)

end

/-- The blocks are rendered to something that starts with loose runs. -/
def StartsLoose (scene : Scene) (blocks : List Block) : Prop :=
  ∃ fragments, renderBlocks scene blocks = .ok fragments ∧ startsLoose fragments = true

/-- The blocks are rendered to something that ends with loose runs. -/
def EndsLoose (scene : Scene) (blocks : List Block) : Prop :=
  ∃ fragments, renderBlocks scene blocks = .ok fragments ∧ endsLoose fragments = true

theorem StartsLoose.looseOwners_ne_nil {scene : Scene} {blocks : List Block}
    (h : StartsLoose scene blocks) (owner : Option String) : looseOwners owner blocks ≠ [] := by
  obtain ⟨fragments, hfragments, hstarts⟩ := h
  intro hnone
  have hassembled := assembled_renderBlocks blocks owner hnone scene fragments hfragments
  rw [hassembled.not_startsLoose] at hstarts
  cases hstarts

theorem EndsLoose.looseOwners_ne_nil {scene : Scene} {blocks : List Block}
    (h : EndsLoose scene blocks) (owner : Option String) : looseOwners owner blocks ≠ [] := by
  obtain ⟨fragments, hfragments, hends⟩ := h
  intro hnone
  have hassembled := assembled_renderBlocks blocks owner hnone scene fragments hfragments
  rw [hassembled.not_endsLoose] at hends
  cases hends

/-- A body is rendered piece by piece. Only the paragraph at the seam is shared, if there are loose
runs on both of its sides. -/
theorem renderDocument_append {scene : Scene} {as bs : List Block} {d : Document}
    (h : renderDocument scene (as ++ bs) = .ok d) :
    ∃ da db, renderDocument scene as = .ok da ∧ renderDocument scene bs = .ok db ∧
      (¬ (EndsLoose scene as ∧ StartsLoose scene bs) → d.body = da.body ++ db.body) ∧
      (EndsLoose scene as → StartsLoose scene bs → da.Joined db d) := by
  obtain ⟨fragments, hfragments, h⟩ := exists_of_bind_eq_ok h
  obtain rfl := Except.ok.inj h
  rw [renderBlocks_append] at hfragments
  obtain ⟨fs, hfs, h⟩ := exists_of_bind_eq_ok hfragments
  obtain ⟨gs, hgs, h⟩ := exists_of_bind_eq_ok h
  obtain rfl := Except.ok.inj h
  refine ⟨⟨elementsOf fs⟩, ⟨elementsOf gs⟩, ?_, ?_, fun hnot => ?_, fun hends hstarts => ?_⟩
  · rw [renderDocument, hfs]
    rfl
  · rw [renderDocument, hgs]
    rfl
  · exact elementsOf_append fun hboth => hnot ⟨⟨fs, hfs, hboth.1⟩, ⟨gs, hgs, hboth.2⟩⟩
  · obtain ⟨fs', hfs', hends⟩ := hends
    obtain ⟨gs', hgs', hstarts⟩ := hstarts
    obtain rfl := Except.ok.inj (hfs.symm.trans hfs')
    obtain rfl := Except.ok.inj (hgs.symm.trans hgs')
    exact joined_elementsOf hends hstarts

end StyledTemplate
