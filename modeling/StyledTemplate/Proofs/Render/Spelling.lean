import StyledTemplate.Proofs.Block.Backed
import StyledTemplate.Proofs.Block.Spelling
import StyledTemplate.Proofs.Outcome
import StyledTemplate.Render.Render

/-!
# Rendering blocks that are spelled out

Blocks are rendered to what the blocks spelled out are rendered to, up to how runs are split
(`renderDocument_spell`). A literal without characters is the only thing that is there and leaves
nothing when it is spelled out. Whether there are any runs decides whether there is a paragraph; so
it matters that such a literal always stands behind another one.
-/

namespace StyledTemplate

/-! ## Fragments -/

/-- The fragments are the same up to how literal text is split. `behind` tells whether other runs
stand in front of them, which a run without characters needs. -/
inductive SameShown : Bool → List Fragment → List Fragment → Prop
  | nil (behind : Bool) : SameShown behind [] []
  | literal {behind : Bool} {run : Run} {fs gs : List Fragment}
      (hempty : run.isEmptyText = true → behind = true) (hrest : SameShown true fs gs) :
      SameShown behind (.run run :: fs) (run.spell.map .run ++ gs)
  | run {behind : Bool} {fs gs : List Fragment} (run : Run) (hrest : SameShown true fs gs) :
      SameShown behind (.run run :: fs) (.run run :: gs)
  | value {behind : Bool} {fs gs : List Fragment} (run : Run) (hrest : SameShown true fs gs) :
      SameShown behind (.value run :: fs) (.value run :: gs)
  | element {behind : Bool} {fs gs : List Fragment} {element element' : Element}
      (helement : element.spell = element'.spell) (hrest : SameShown false fs gs) :
      SameShown behind (.element element :: fs) (.element element' :: gs)

namespace SameShown

variable {fs gs fs' gs' : List Fragment}

theorem of_false {behind : Bool} (h : SameShown false fs gs) : SameShown behind fs gs := by
  cases h with
  | nil => exact .nil behind
  | literal hempty hrest => exact .literal (fun h => absurd (hempty h) nofun) hrest
  | run run hrest => exact .run run hrest
  | value run hrest => exact .value run hrest
  | element helement hrest => exact .element helement hrest

theorem append {behind : Bool} (h : SameShown behind fs gs) (h' : SameShown false fs' gs') :
    SameShown behind (fs ++ fs') (gs ++ gs') := by
  induction h with
  | nil => exact h'.of_false
  | literal hempty hrest ih =>
    rw [List.append_assoc]
    exact .literal hempty ih
  | run run hrest ih => exact .run run ih
  | value run hrest ih => exact .value run ih
  | element helement hrest ih => exact .element helement ih

end SameShown

/-! ## Paragraphs -/

theorem isEmptyText_iff (run : Run) : run.isEmptyText = true ↔ run.spell = [] := by
  obtain ⟨properties, content⟩ := run
  cases content with
  | text s =>
    have hspell : Run.spell ⟨properties, .text s⟩ = spellText s.toList properties :=
      Run.spell_ofText s properties
    rw [hspell, spellText, List.map_eq_nil_iff]
    simp [Run.isEmptyText, Run.text?]
  | lineBreak => simp [Run.isEmptyText, Run.text?, Run.spell, Run.atoms]
  | image image => simp [Run.isEmptyText, Run.text?, Run.spell, Run.atoms]

/-- Runs show nothing exactly if none of them has any characters. -/
theorem filter_eq_nil_iff (runs : List Run) :
    runs.filter (!·.isEmptyText) = [] ↔ spellRuns runs = [] := by
  induction runs with
  | nil => simp
  | cons run runs ih =>
    rw [spellRuns_cons, List.append_eq_nil_iff, ← isEmptyText_iff, ← ih, List.filter_cons]
    cases run.isEmptyText <;> simp

section Assemble

variable (merge merge' : Bool) (properties : ParagraphProperties)

/-- What a paragraph shows does not depend on whether its runs are merged. -/
theorem sameShown_paragraphOf {runs runs' : List Run} (h : spellRuns runs = spellRuns runs')
    (keep : Bool) (behind : Bool) :
    SameShown behind (paragraphOf merge properties runs keep)
      (paragraphOf merge' properties runs' keep) := by
  have hspell : ∀ (merge : Bool) (runs : List Run), spellRuns (if merge then
      coalesce (runs.filter (!·.isEmptyText)) else runs.filter (!·.isEmptyText)) =
        spellRuns runs := by
    intro merge runs
    rw [spellRuns_eq_iff]
    split
    · rw [runsAtoms_coalesce, runsAtoms_filter]
    · exact runsAtoms_filter runs
  have hnil : runs.filter (!·.isEmptyText) = [] ↔ runs'.filter (!·.isEmptyText) = [] := by
    rw [filter_eq_nil_iff, filter_eq_nil_iff, h]
  unfold paragraphOf
  dsimp only
  by_cases hdrop : runs.filter (!·.isEmptyText) = [] ∧ !keep
  · rw [if_pos hdrop, if_pos ⟨hnil.1 hdrop.1, hdrop.2⟩]
    exact .nil behind
  · have hdrop' : ¬(runs'.filter (!·.isEmptyText) = [] ∧ !keep) := fun h =>
      hdrop ⟨hnil.2 h.1, h.2⟩
    rw [if_neg hdrop, if_neg hdrop']
    refine .element ?_ (.nil false)
    rw [Element.spell, Element.spell, Paragraph.spell, Paragraph.spell, hspell, hspell, h]

theorem assembleAfter_runs (runs run : List Run) (keep : Bool) (fs : List Fragment) :
    assembleAfter merge properties runs keep (run.map .run ++ fs) =
      assembleAfter merge properties (runs ++ run) keep fs := by
  induction run generalizing runs with
  | nil => rw [List.map_nil, List.nil_append, List.append_nil]
  | cons first run ih =>
    rw [List.map_cons, List.cons_append, assembleAfter, ih, List.append_assoc,
      List.singleton_append]

theorem sameShown_assembleAfter {behind : Bool} {fs gs : List Fragment}
    (h : SameShown behind fs gs) {runs runs' : List Run} (hruns : spellRuns runs = spellRuns runs')
    (keep : Bool) :
    SameShown false (assembleAfter merge properties runs keep fs)
      (assembleAfter merge' properties runs' keep gs) := by
  induction h generalizing runs runs' keep with
  | nil => exact sameShown_paragraphOf merge merge' properties hruns keep false
  | @literal _ run _ _ hempty hrest ih =>
    rw [assembleAfter, assembleAfter_runs]
    refine ih ?_ keep
    rw [spellRuns_append, spellRuns_append, hruns, spellRuns_spell, spellRuns_cons, spellRuns_nil,
      List.append_nil]
  | run run hrest ih =>
    rw [assembleAfter, assembleAfter]
    exact ih (by rw [spellRuns_append, spellRuns_append, hruns]) keep
  | value run hrest ih =>
    rw [assembleAfter, assembleAfter]
    exact ih (by rw [spellRuns_append, spellRuns_append, hruns]) true
  | element helement hrest ih =>
    rw [assembleAfter, assembleAfter]
    exact (sameShown_paragraphOf merge merge' properties hruns keep false).append
      (.element helement (ih rfl false))

theorem SameShown.spellRuns_eq {behind : Bool} {fs gs : List Fragment} (h : SameShown behind fs gs) :
    spellRuns (fs.filterMap Fragment.run?) = spellRuns (gs.filterMap Fragment.run?) := by
  induction h with
  | nil => rfl
  | @literal _ run _ gs hempty hrest ih =>
    have hruns : (run.spell.map Fragment.run).filterMap Fragment.run? = run.spell := by
      rw [List.filterMap_map]
      exact List.filterMap_some
    have hfirst : (Fragment.run run).run? = some run := rfl
    rw [List.filterMap_cons_some hfirst, List.filterMap_append, hruns, spellRuns_cons,
      spellRuns_append, spellRuns_spell, ih]
  | run run hrest ih =>
    have hfirst : (Fragment.run run).run? = some run := rfl
    rw [List.filterMap_cons_some hfirst, List.filterMap_cons_some hfirst, spellRuns_cons,
      spellRuns_cons, ih]
  | value run hrest ih =>
    have hfirst : (Fragment.value run).run? = some run := rfl
    rw [List.filterMap_cons_some hfirst, List.filterMap_cons_some hfirst, spellRuns_cons,
      spellRuns_cons, ih]
  | @element _ _ _ element element' helement hrest ih =>
    have hnone : ∀ element, (Fragment.element element).run? = none := fun _ => rfl
    rw [List.filterMap_cons_none (hnone element), List.filterMap_cons_none (hnone element'), ih]

theorem sameShown_assembleParagraph (hasDirectives : Bool) {behind : Bool} {fs gs : List Fragment}
    (h : SameShown behind fs gs) :
    SameShown false (assembleParagraph merge properties hasDirectives fs)
      (assembleParagraph merge' properties hasDirectives gs) := by
  unfold assembleParagraph
  cases hasDirectives with
  | true => exact sameShown_assembleAfter merge merge' properties h rfl false
  | false =>
    refine .element ?_ (.nil false)
    rw [Element.spell, Element.spell, Paragraph.spell, Paragraph.spell, h.spellRuns_eq]

end Assemble

/-! ## Bodies -/

theorem elementsAfter_runs (loose run : List Run) (fs : List Fragment) :
    elementsAfter loose (run.map .run ++ fs) = elementsAfter (loose ++ run) fs := by
  induction run generalizing loose with
  | nil => rw [List.map_nil, List.nil_append, List.append_nil]
  | cons first run ih =>
    rw [List.map_cons, List.cons_append, elementsAfter, ih, List.append_assoc,
      List.singleton_append]

/-- Loose runs that stand in front of the same fragments, or none in either place. -/
structure SameLoose (behind : Bool) (loose loose' : List Run) : Prop where
  /-- They are spelled out alike. -/
  spell : spellRuns loose = spellRuns loose'
  /-- There are none in one place if there are none in the other. -/
  nil : loose = [] ↔ loose' = []
  /-- There are some behind a loose run. -/
  behind : behind = true → loose' ≠ []

theorem sameLoose_nil : SameLoose false [] [] := ⟨rfl, Iff.rfl, nofun⟩

theorem SameLoose.concat {behind : Bool} {loose loose' : List Run}
    (h : SameLoose behind loose loose') (run : Run) :
    SameLoose true (loose ++ [run]) (loose' ++ [run]) where
  spell := by rw [spellRuns_append, spellRuns_append, h.spell]
  nil := by simp
  behind := by simp

theorem SameLoose.literal {behind : Bool} {loose loose' : List Run}
    (h : SameLoose behind loose loose') {run : Run} (hempty : run.isEmptyText = true → behind = true) :
    SameLoose true (loose ++ [run]) (loose' ++ run.spell) := by
  have hne : loose' ++ run.spell ≠ [] := by
    by_cases hrun : run.isEmptyText = true
    · exact List.append_ne_nil_of_left_ne_nil (h.behind (hempty hrun)) _
    · refine List.append_ne_nil_of_right_ne_nil _ ?_
      rw [ne_eq, ← isEmptyText_iff]
      exact hrun
  refine ⟨?_, ?_, fun _ => hne⟩
  · rw [spellRuns_append, spellRuns_append, h.spell, spellRuns_spell, spellRuns_cons,
      spellRuns_nil, List.append_nil]
  · simp [hne]

theorem SameLoose.spellBody_eq {behind : Bool} {loose loose' : List Run}
    (h : SameLoose behind loose loose') (rest : List Element) :
    spellBody ((if loose = [] then [] else [.paragraph (.ofRuns loose)]) ++ rest) =
      spellBody ((if loose' = [] then [] else [.paragraph (.ofRuns loose')]) ++ rest) := by
  by_cases hnil : loose = []
  · rw [if_pos hnil, if_pos (h.nil.1 hnil)]
  · have hnil' : ¬ loose' = [] := fun hnil' => hnil (h.nil.2 hnil')
    have hparagraph : (Paragraph.ofRuns loose).spell = (Paragraph.ofRuns loose').spell := by
      simp only [Paragraph.spell, Paragraph.ofRuns, h.spell]
    rw [if_neg hnil, if_neg hnil', List.singleton_append, List.singleton_append, spellBody,
      spellBody, Element.spell, Element.spell, hparagraph]

/-- The fragments make up the same elements. -/
theorem SameShown.elementsAfter_eq {behind : Bool} {fs gs : List Fragment}
    (h : SameShown behind fs gs) {loose loose' : List Run} (hloose : SameLoose behind loose loose') :
    spellBody (elementsAfter loose fs) = spellBody (elementsAfter loose' gs) := by
  induction h generalizing loose loose' with
  | nil =>
    have hbody := hloose.spellBody_eq []
    rw [List.append_nil, List.append_nil] at hbody
    exact hbody
  | literal hempty hrest ih =>
    rw [elementsAfter, elementsAfter_runs]
    exact ih (hloose.literal hempty)
  | run run hrest ih =>
    rw [elementsAfter, elementsAfter]
    exact ih (hloose.concat run)
  | value run hrest ih =>
    rw [elementsAfter, elementsAfter]
    exact ih (hloose.concat run)
  | element helement hrest ih =>
    rw [elementsAfter, elementsAfter, hloose.spellBody_eq, spellBody_append, spellBody_append,
      spellBody, spellBody, helement, ih sameLoose_nil]

theorem SameShown.elementsOf_eq {fs gs : List Fragment} (h : SameShown false fs gs) :
    spellBody (elementsOf fs) = spellBody (elementsOf gs) := h.elementsAfter_eq sameLoose_nil

theorem SameShown.cellBodyOf_eq {fs gs : List Fragment} (h : SameShown false fs gs) :
    spellBody (cellBodyOf fs) = spellBody (cellBodyOf gs) := by
  have hsame := h.elementsOf_eq
  unfold cellBodyOf
  cases hfs : elementsOf fs with
  | nil =>
    rw [hfs, spellBody_eq_map, spellBody_eq_map, List.map_nil] at hsame
    rw [List.map_eq_nil_iff.1 hsame.symm]
  | cons first rest =>
    rw [hfs] at hsame
    cases hgs : elementsOf gs with
    | nil =>
      rw [hgs, spellBody_eq_map, spellBody_eq_map] at hsame
      cases hsame
    | cons first' rest' =>
      rw [hgs] at hsame
      exact hsame

/-! ## Rendering -/

theorem renderBlocks_append (scene : Scene) (as bs : List Block) :
    renderBlocks scene (as ++ bs) =
      (do
        let first ← renderBlocks scene as
        let rest ← renderBlocks scene bs
        return first ++ rest) := by
  induction as with
  | nil =>
    rw [List.nil_append, renderBlocks]
    cases renderBlocks scene bs <;> rfl
  | cons a as ih =>
    rw [List.cons_append, renderBlocks, ih, renderBlocks]
    cases renderBlock scene a <;> cases renderBlocks scene as <;> cases renderBlocks scene bs <;>
      simp [bind, Except.bind, pure, Except.pure]

theorem renderBlocks_singleton (scene : Scene) (block : Block) :
    renderBlocks scene [block] = renderBlock scene block := by
  rw [renderBlocks, renderBlocks]
  cases renderBlock scene block <;> simp [bind, Except.bind, pure, Except.pure]

theorem renderBlocks_literals {α : Type} {literal : α → Block} {run : α → Run} {scene : Scene}
    (h : ∀ a, renderBlock scene (literal a) = .ok [.run (run a)]) (as : List α) :
    renderBlocks scene (as.map literal) = .ok ((as.map run).map .run) := by
  induction as with
  | nil => rw [List.map_nil, renderBlocks, List.map_nil, List.map_nil]
  | cons a as ih =>
    rw [List.map_cons, renderBlocks, h, ih]
    rfl

/-- A literal shows a run, and spelled out it shows the run spelled out. -/
theorem exists_run_of_isLiteral {block : Block} (h : block.isLiteral = true) :
    ∃ run, block.isEmptyText = run.isEmptyText ∧ ∀ scene,
      renderBlock scene block = .ok [.run run] ∧
      renderBlocks scene block.spell = .ok (run.spell.map .run) := by
  cases block with
  | text s style =>
    refine ⟨.ofText s style, ?_, fun scene => ⟨by rw [renderBlock], ?_⟩⟩
    · simp [Block.isEmptyText, Run.isEmptyText]
    · rw [Block.spell, Run.spell_ofText]
      exact renderBlocks_literals (fun c => by rw [renderBlock]) s.toList
  | static run =>
    refine ⟨run, rfl, fun scene => ⟨by rw [renderBlock], ?_⟩⟩
    have hstatic : ∀ run, renderBlock scene (.static run) = .ok [.run (id run)] := by
      intro run
      rw [renderBlock]
      rfl
    rw [Block.spell, renderBlocks_literals hstatic, List.map_id]
  | _ => cases h

theorem matches_renderEntries {α : Type} {R : List α → List α → Prop} (hnil : R [] [])
    (happend : ∀ as as' bs bs', R as as' → R bs bs' → R (as ++ bs) (as' ++ bs'))
    {render render' : Scene → Except Error (List α)}
    (hrender : ∀ scene, Matches R (render scene) (render' scene)) (scene : Scene)
    (length index : Nat) (entries : List Value) :
    Matches R (scene.renderEntries render length index entries)
      (scene.renderEntries render' length index entries) := by
  induction entries generalizing index with
  | nil => exact .ok hnil
  | cons entry entries ih =>
    rw [Scene.renderEntries, Scene.renderEntries]
    refine (hrender _).bind fun first first' hfirst => ?_
    refine (ih (index + 1)).bind fun rest rest' hrest => ?_
    exact .ok (happend _ _ _ _ hfirst hrest)

def SameRows (rows rows' : List (Row Element)) : Prop := spellRows rows = spellRows rows'

theorem SameRows.append {rows rows' more more' : List (Row Element)} (h : SameRows rows rows')
    (hmore : SameRows more more') : SameRows (rows ++ more) (rows' ++ more') := by
  unfold SameRows at h hmore ⊢
  rw [spellRows_eq_map] at h hmore ⊢
  rw [spellRows_eq_map] at h hmore ⊢
  rw [List.map_append, List.map_append, h, hmore]

mutual

/-- A block that is no literal is rendered to what it is rendered to spelled out. -/
theorem matches_renderBlock : ∀ block : Block, block.isLiteral = false →
    (∀ node ∈ block.nodes, node.IsBacked) → ∀ scene : Scene,
    Matches (SameShown false) (renderBlock scene block) (renderBlocks scene block.spell)
  | .text _ _, hliteral, _, _ => by cases hliteral
  | .static _, hliteral, _, _ => by cases hliteral
  | .placeholder path style position, _, _, scene => by
    rw [Block.spell, renderBlocks_singleton, renderBlock]
    refine (Matches.refl (scene.located position (scene.context.text path))).bind ?_
    rintro text _ rfl
    exact .ok (.value _ (.nil true))
  | .image name style position, _, _, scene => by
    rw [Block.spell, renderBlocks_singleton, renderBlock]
    refine (Matches.refl (scene.located position (scene.imageRun name style))).bind ?_
    rintro run _ rfl
    exact .ok (.run run (.nil true))
  | .conditional condition thenBlocks none _, _, h, scene => by
    rw [Block.nodes, List.forall_mem_cons] at h
    rw [Block.spell, renderBlocks_singleton, renderBlock, renderBlock]
    split
    · exact matches_renderBlocks thenBlocks h.1 h.2 scene
    · exact .ok (.nil false)
  | .conditional condition thenBlocks (some elseBlocks) _, _, h, scene => by
    rw [Block.nodes, List.forall_mem_cons, List.forall_mem_append] at h
    rw [Block.spell, renderBlocks_singleton, renderBlock, renderBlock]
    split
    · exact matches_renderBlocks thenBlocks h.1.1 h.2.1 scene
    · exact matches_renderBlocks elseBlocks h.1.2 h.2.2 scene
  | .loop list body position, _, h, scene => by
    rw [Block.nodes, List.forall_mem_cons] at h
    rw [Block.spell, renderBlocks_singleton, renderBlock, renderBlock]
    refine (Matches.refl (scene.located position (scene.context.entries list))).bind ?_
    rintro entries _ rfl
    exact matches_renderEntries (.nil false) (fun _ _ _ _ => SameShown.append)
      (matches_renderBlocks body h.1 h.2) scene _ _ entries
  | .named _ body _ origin, _, h, scene => by
    rw [Block.nodes, List.forall_mem_cons] at h
    rw [Block.spell, renderBlocks_singleton, renderBlock, renderBlock]
    exact matches_renderBlocks body h.1 h.2 (scene.within origin)
  | .inherits _ _, _, _, scene => by
    rw [Block.spell, renderBlocks_singleton, renderBlock]
    exact .ok (.nil false)
  | .paragraph properties children hasDirectives, _, h, scene => by
    rw [Block.nodes, List.forall_mem_cons] at h
    rw [Block.spell, renderBlocks_singleton, renderBlock, renderBlock]
    refine (matches_renderBlocks children h.1 h.2 scene).bind fun fs gs hfs => ?_
    exact .ok (sameShown_assembleParagraph _ _ properties hasDirectives hfs)
  | .table ⟨properties, grid, rows⟩, _, h, scene => by
    rw [Block.nodes, List.forall_mem_cons] at h
    rw [Block.spell, renderBlocks_singleton, renderBlock, renderBlock]
    refine (matches_renderRows rows h.1 h.2 scene).bind fun shown shown' hshown => ?_
    refine .ok (.element ?_ (.nil false))
    rw [Element.spell, Element.spell, hshown]

theorem matches_renderBlocks {behind : Bool} : ∀ blocks : List Block, Backed behind blocks →
    (∀ node ∈ nodesOf blocks, node.IsBacked) → ∀ scene : Scene,
    Matches (SameShown behind) (renderBlocks scene blocks) (renderBlocks scene (spellBlocks blocks))
  | [], _, _, scene => by
    rw [spellBlocks, renderBlocks]
    exact .ok (.nil behind)
  | block :: blocks, hbacked, h, scene => by
    rw [nodesOf_cons, List.forall_mem_append] at h
    rw [spellBlocks, renderBlocks_append, renderBlocks]
    have hrest := matches_renderBlocks blocks hbacked.2 h.2 scene
    by_cases hliteral : block.isLiteral = true
    · obtain ⟨run, hempty, hrender⟩ := exists_run_of_isLiteral hliteral
      rw [hliteral] at hrest
      rw [(hrender scene).1, (hrender scene).2]
      have hall : Matches (SameShown behind)
          (renderBlocks scene blocks >>= fun rest => .ok ([.run run] ++ rest))
          (renderBlocks scene (spellBlocks blocks) >>= fun rest =>
            .ok (run.spell.map .run ++ rest)) := by
        refine hrest.bind fun fs gs hfs => ?_
        exact .ok (.literal (fun hrun => hbacked.1 (hempty.trans hrun)) hfs)
      exact hall
    · have hnot : block.isLiteral = false := by simpa using hliteral
      rw [hnot] at hrest
      refine (matches_renderBlock block hnot h.1 scene).bind fun first first' hfirst => ?_
      refine hrest.bind fun fs gs hfs => ?_
      exact .ok (hfirst.of_false.append hfs)

theorem matches_renderRows : ∀ rows : List (RowBlock Block),
    (∀ row ∈ rows, ∀ cell ∈ row.row.cells, Backed false cell.body) →
    (∀ node ∈ rowNodes rows, node.IsBacked) → ∀ scene : Scene,
    Matches SameRows (renderRows scene rows) (renderRows scene (spellRowBlocks rows))
  | [], _, _, scene => by
    rw [spellRowBlocks, renderRows]
    exact .ok rfl
  | .static ⟨properties, cells⟩ :: rows, hbacked, h, scene => by
    rw [List.forall_mem_cons] at hbacked
    rw [rowNodes, List.forall_mem_append] at h
    rw [spellRowBlocks, renderRows, renderRows]
    refine (matches_renderCells cells hbacked.1 h.1 scene).bind fun shown shown' hshown => ?_
    refine (matches_renderRows rows hbacked.2 h.2 scene).bind fun rest rest' hrest => ?_
    refine .ok ?_
    rw [SameRows, spellRows, spellRows, hshown, hrest]
  | .loop list ⟨properties, cells⟩ position :: rows, hbacked, h, scene => by
    rw [List.forall_mem_cons] at hbacked
    rw [rowNodes, List.forall_mem_append] at h
    rw [spellRowBlocks, renderRows, renderRows]
    refine (Matches.refl (scene.located position (scene.context.entries list))).bind ?_
    rintro entries _ rfl
    have hrow : ∀ inner : Scene, Matches SameRows
        (do return [⟨properties, ← renderCells inner cells⟩])
        (do return [⟨properties, ← renderCells inner (spellCellBlocks cells)⟩]) := by
      intro inner
      refine (matches_renderCells cells hbacked.1 h.1 inner).bind fun shown shown' hshown => ?_
      refine .ok ?_
      rw [SameRows, spellRows_eq_map, spellRows_eq_map, List.map_singleton, List.map_singleton,
        Row.spell, Row.spell, hshown]
    have hnil : SameRows [] [] := rfl
    have hentries := matches_renderEntries hnil (fun _ _ _ _ => SameRows.append) hrow scene
      entries.length 0 entries
    refine hentries.bind fun first first' hfirst => ?_
    refine (matches_renderRows rows hbacked.2 h.2 scene).bind fun rest rest' hrest => ?_
    exact .ok (hfirst.append hrest)

theorem matches_renderCells : ∀ cells : List (Cell Block),
    (∀ cell ∈ cells, Backed false cell.body) →
    (∀ node ∈ cellNodes cells, node.IsBacked) → ∀ scene : Scene,
    Matches (fun shown shown' => spellCells shown = spellCells shown') (renderCells scene cells)
      (renderCells scene (spellCellBlocks cells))
  | [], _, _, scene => by
    rw [spellCellBlocks, renderCells]
    exact .ok rfl
  | ⟨properties, body⟩ :: cells, hbacked, h, scene => by
    rw [List.forall_mem_cons] at hbacked
    rw [cellNodes, List.forall_mem_append] at h
    rw [spellCellBlocks, renderCells, renderCells]
    refine (matches_renderBlocks body hbacked.1 h.1 scene).bind fun fs gs hfs => ?_
    refine (matches_renderCells cells hbacked.2 h.2 scene).bind fun rest rest' hrest => ?_
    refine .ok ?_
    rw [spellCells, spellCells, hfs.cellBodyOf_eq, hrest]

end

/-- A tree of blocks is rendered to what it is rendered to spelled out, up to how runs are split. -/
theorem matches_renderDocument {blocks : List Block} (h : BackedTree blocks) (scene : Scene) :
    Matches (fun d d' : Document => d.spell = d'.spell) (renderDocument scene blocks)
      (renderDocument scene (spellBlocks blocks)) := by
  unfold renderDocument
  refine (matches_renderBlocks blocks h.top h.nodes scene).bind fun fs gs hfs => ?_
  refine .ok ?_
  rw [Document.spell, Document.spell, hfs.elementsOf_eq]

end StyledTemplate
