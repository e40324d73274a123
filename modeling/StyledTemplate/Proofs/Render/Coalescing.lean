import StyledTemplate.Document.Text
import StyledTemplate.Proofs.Render.Spelling
import StyledTemplate.Proofs.Render.Stretches

/-!
# Merging runs changes nothing but where they end

Whether neighbouring text runs of one formatting are merged is a setting. With it and without it a
tree of blocks fails with the same error or is rendered to documents that are the same but for how
their characters are spread over runs, so they have the same text. Where runs are merged, a paragraph
with directives has no text run without characters, and no two neighbours are left to be merged
(`renderDocument_coalescing`).
-/

namespace StyledTemplate

/-! ## Merged runs -/

/-- Both are text runs, in one formatting. -/
structure Mergeable (a b : Run) : Prop where
  /-- The first one is a text run. -/
  first : a.text?.isSome = true
  /-- So is the second one. -/
  second : b.text?.isSome = true
  /-- They have the same formatting. -/
  same : a.properties = b.properties

/-- All text runs have characters, and no two neighbours can be merged. -/
structure Tidy (runs : List Run) : Prop where
  /-- Each text run has characters. -/
  characters : ∀ run ∈ runs, run.isEmptyText = false
  /-- No run can be merged with the next one. -/
  apart : runs.IsChain fun a b => ¬ Mergeable a b

section Coalesce

variable {last run : Run} {runs : List Run}

theorem coalesceAfter_of_mergeable (h : Mergeable last run) (runs : List Run) :
    ∃ a b, last.content = .text a ∧ run.content = .text b ∧
      coalesceAfter last (run :: runs) = coalesceAfter ⟨last.properties, .text (a ++ b)⟩ runs := by
  obtain ⟨properties, content⟩ := last
  obtain ⟨properties', content'⟩ := run
  obtain ⟨hfirst, hsecond, hsame⟩ := h
  cases content with
  | text a =>
    cases content' with
    | text b =>
      refine ⟨a, b, rfl, rfl, ?_⟩
      rw [coalesceAfter]
      exact if_pos hsame
    | lineBreak => cases hsecond
    | image image => cases hsecond
  | lineBreak => cases hfirst
  | image image => cases hfirst

theorem coalesceAfter_of_not_mergeable (h : ¬ Mergeable last run) (runs : List Run) :
    coalesceAfter last (run :: runs) = last :: coalesceAfter run runs := by
  rw [coalesceAfter]
  split
  · next a b ha hb =>
    have hfirst : last.text?.isSome = true := by rw [Run.text?, ha]; rfl
    have hsecond : run.text?.isSome = true := by rw [Run.text?, hb]; rfl
    exact if_neg fun hsame => h ⟨hfirst, hsecond, hsame⟩
  · rfl

/-- The first of the merged runs is of the kind and in the formatting of the run in front. -/
theorem exists_coalesceAfter_eq_cons (last : Run) (runs : List Run) : ∃ first rest,
    coalesceAfter last runs = first :: rest ∧ first.properties = last.properties ∧
      first.text?.isSome = last.text?.isSome := by
  induction runs generalizing last with
  | nil => exact ⟨last, [], rfl, rfl, rfl⟩
  | cons run runs ih =>
    by_cases h : Mergeable last run
    · obtain ⟨a, b, ha, -, hmerge⟩ := coalesceAfter_of_mergeable h runs
      obtain ⟨first, rest, hfirst, hproperties, htext⟩ := ih ⟨last.properties, .text (a ++ b)⟩
      refine ⟨first, rest, hmerge.trans hfirst, hproperties, htext.trans ?_⟩
      rw [Run.text?, Run.text?, ha]
      rfl
    · exact ⟨last, _, coalesceAfter_of_not_mergeable h runs, rfl, rfl⟩

theorem isChain_coalesceAfter (last : Run) (runs : List Run) :
    (coalesceAfter last runs).IsChain fun a b => ¬ Mergeable a b := by
  induction runs generalizing last with
  | nil => exact .singleton last
  | cons run runs ih =>
    by_cases h : Mergeable last run
    · obtain ⟨a, b, -, -, hmerge⟩ := coalesceAfter_of_mergeable h runs
      rw [hmerge]
      exact ih _
    · have hrest := ih run
      obtain ⟨first, rest, hfirst, hproperties, htext⟩ := exists_coalesceAfter_eq_cons run runs
      rw [coalesceAfter_of_not_mergeable h, hfirst]
      rw [hfirst] at hrest
      refine .cons_cons ?_ hrest
      rintro ⟨hone, htwo, hsame⟩
      exact h ⟨hone, htext.symm.trans htwo, hsame.trans hproperties⟩

theorem characters_coalesceAfter (hlast : last.isEmptyText = false)
    (h : ∀ run ∈ runs, run.isEmptyText = false) :
    ∀ run ∈ coalesceAfter last runs, run.isEmptyText = false := by
  induction runs generalizing last with
  | nil => exact List.forall_mem_singleton.2 hlast
  | cons run runs ih =>
    obtain ⟨hrun, hruns⟩ := List.forall_mem_cons.1 h
    by_cases hmergeable : Mergeable last run
    · obtain ⟨a, b, ha, -, hmerge⟩ := coalesceAfter_of_mergeable hmergeable runs
      rw [hmerge]
      refine ih ?_ hruns
      have hne : a ≠ "" := by simpa [Run.isEmptyText, Run.text?, ha] using hlast
      simp [Run.isEmptyText, Run.text?, hne]
    · rw [coalesceAfter_of_not_mergeable hmergeable]
      exact List.forall_mem_cons.2 ⟨hlast, ih hrun hruns⟩

/-- Runs with characters are tidy once they are merged. -/
theorem tidy_coalesce (h : ∀ run ∈ runs, run.isEmptyText = false) : Tidy (coalesce runs) := by
  cases runs with
  | nil => exact ⟨List.forall_mem_nil _, .nil⟩
  | cons run runs =>
    obtain ⟨hrun, hruns⟩ := List.forall_mem_cons.1 h
    exact ⟨characters_coalesceAfter hrun hruns, isChain_coalesceAfter run runs⟩

theorem coalesce_eq_self (h : runs.IsChain fun a b => ¬ Mergeable a b) : coalesce runs = runs := by
  cases runs with
  | nil => rfl
  | cons run runs =>
    rw [coalesce]
    induction runs generalizing run with
    | nil => rfl
    | cons next runs ih =>
      obtain ⟨hapart, hrest⟩ := List.isChain_cons_cons.1 h
      rw [coalesceAfter_of_not_mergeable hapart, ih next hrest]

/-- There is nothing left to be merged. -/
theorem coalesce_coalesce (runs : List Run) : coalesce (coalesce runs) = coalesce runs := by
  refine coalesce_eq_self ?_
  cases runs with
  | nil => exact .nil
  | cons run runs => exact isChain_coalesceAfter run runs

end Coalesce

/-! ## The text of what is spelled out -/

theorem Paragraph.chars_spell (p : Paragraph) : p.spell.chars = p.chars := by
  have hruns : ∀ runs : List Run, (spellRuns runs).flatMap Run.chars = runs.flatMap Run.chars := by
    intro runs
    induction runs using runs_induction with
    | nil => rfl
    | text s style runs ih =>
      have htext : (spellText s.toList style).flatMap Run.chars = s.toList := by
        rw [spellText, List.flatMap_map]
        simp [Run.chars, Run.ofText]
      rw [spellRuns_cons, Run.spell_ofText, List.flatMap_append, htext, ih, List.flatMap_cons]
      rfl
    | other run runs hrun ih =>
      rw [spellRuns_cons, Run.spell_of_text?_eq_none hrun, List.flatMap_append, ih,
        List.flatMap_cons, List.flatMap_cons, List.flatMap_nil, List.append_nil]
  exact hruns p.runs

mutual

theorem Element.chars_spell : ∀ element : Element, element.spell.chars = element.chars
  | .paragraph p => by
    rw [Element.spell, Element.chars, Element.chars, p.chars_spell]
  | .table ⟨properties, grid, rows⟩ => by
    rw [Element.spell, Element.chars, Element.chars, rowLines_spell rows]

theorem rowLines_spell : ∀ rows : List (Row Element), rowLines (spellRows rows) = rowLines rows
  | [] => by rw [spellRows]
  | ⟨properties, cells⟩ :: rows => by
    rw [spellRows, rowLines, rowLines, cellTexts_spell cells, rowLines_spell rows]

theorem cellTexts_spell : ∀ cells : List (Cell Element),
    cellTexts (spellCells cells) = cellTexts cells
  | [] => by rw [spellCells]
  | ⟨properties, body⟩ :: cells => by
    rw [spellCells, cellTexts, cellTexts, elementTexts_spell body, cellTexts_spell cells]

theorem elementTexts_spell : ∀ body : List Element,
    elementTexts (spellBody body) = elementTexts body
  | [] => by rw [spellBody]
  | element :: rest => by
    rw [spellBody, elementTexts, elementTexts, element.chars_spell, elementTexts_spell rest]

end

/-- Documents that are spelled out alike have the same text. -/
theorem Document.plainText_eq {d d' : Document} (h : d.spell = d'.spell) :
    d.plainText = d'.plainText := by
  have hspell : ∀ d : Document, d.spell.plainText = d.plainText := by
    intro d
    rw [Document.spell, Document.plainText, Document.plainText, bodyText, bodyText,
      elementTexts_spell]
  rw [← hspell d, h, hspell d']

/-! ## Rendering with and without merging -/

/-- The scene with the setting whether runs are merged. -/
def Scene.coalescing (scene : Scene) (merge : Bool) : Scene :=
  { scene with settings := { scene.settings with coalesceRuns := merge } }

theorem renderEntries_coalescing {α : Type} (scene : Scene) (merge : Bool)
    (render : Scene → Except Error (List α)) (length index : Nat) (entries : List Value) :
    (scene.coalescing merge).renderEntries render length index entries =
      scene.renderEntries (fun inner => render (inner.coalescing merge)) length index entries := by
  induction entries generalizing index with
  | nil => rfl
  | cons entry entries ih =>
    rw [Scene.renderEntries, Scene.renderEntries, ih]
    rfl

theorem matches_renderEntries_coalescing {α : Type} {R : List α → List α → Prop} (hnil : R [] [])
    (happend : ∀ as as' bs bs', R as as' → R bs bs' → R (as ++ bs) (as' ++ bs'))
    {merge merge' : Bool} (render : Scene → Except Error (List α))
    (hrender : ∀ inner : Scene,
      Matches R (render (inner.coalescing merge)) (render (inner.coalescing merge')))
    (scene : Scene) (length index : Nat) (entries : List Value) :
    Matches R ((scene.coalescing merge).renderEntries render length index entries)
      ((scene.coalescing merge').renderEntries render length index entries) := by
  rw [renderEntries_coalescing, renderEntries_coalescing]
  exact matches_renderEntries hnil happend hrender scene length index entries

section Merging

variable (merge merge' : Bool)

mutual

theorem matches_renderBlock_coalescing : ∀ (block : Block) (scene : Scene),
    Matches (SameShown false) (renderBlock (scene.coalescing merge) block)
      (renderBlock (scene.coalescing merge') block)
  | .text text style, scene => by
    rw [renderBlock, renderBlock]
    exact .ok (.run _ (.nil true))
  | .static run, scene => by
    rw [renderBlock, renderBlock]
    exact .ok (.run run (.nil true))
  | .placeholder path style position, scene => by
    rw [renderBlock, renderBlock]
    refine (Matches.refl (scene.located position (scene.context.text path))).bind ?_
    rintro text _ rfl
    exact .ok (.value _ (.nil true))
  | .image name style position, scene => by
    rw [renderBlock, renderBlock]
    refine (Matches.refl (scene.located position (scene.imageRun name style))).bind ?_
    rintro run _ rfl
    exact .ok (.run run (.nil true))
  | .conditional condition thenBlocks none _, scene => by
    rw [renderBlock, renderBlock]
    have hholds : ∀ merge, (scene.coalescing merge).context = scene.context := fun _ => rfl
    rw [hholds, hholds]
    by_cases h : scene.context.holds condition
    · rw [if_pos h, if_pos h]
      exact matches_renderBlocks_coalescing thenBlocks scene
    · rw [if_neg h, if_neg h]
      exact .ok (.nil false)
  | .conditional condition thenBlocks (some elseBlocks) _, scene => by
    rw [renderBlock, renderBlock]
    have hholds : ∀ merge, (scene.coalescing merge).context = scene.context := fun _ => rfl
    rw [hholds, hholds]
    by_cases h : scene.context.holds condition
    · rw [if_pos h, if_pos h]
      exact matches_renderBlocks_coalescing thenBlocks scene
    · rw [if_neg h, if_neg h]
      exact matches_renderBlocks_coalescing elseBlocks scene
  | .loop list body position, scene => by
    rw [renderBlock, renderBlock]
    refine (Matches.refl (scene.located position (scene.context.entries list))).bind ?_
    rintro entries _ rfl
    exact matches_renderEntries_coalescing (.nil false) (fun _ _ _ _ => SameShown.append)
      (fun inner => renderBlocks inner body) (matches_renderBlocks_coalescing body) scene _ _ entries
  | .named _ body _ origin, scene => by
    rw [renderBlock, renderBlock]
    exact matches_renderBlocks_coalescing body (scene.within origin)
  | .inherits _ _, scene => by
    rw [renderBlock, renderBlock]
    exact .ok (.nil false)
  | .paragraph properties children hasDirectives, scene => by
    rw [renderBlock, renderBlock]
    refine (matches_renderBlocks_coalescing children scene).bind fun fs gs hfs => ?_
    exact .ok (sameShown_assembleParagraph merge merge' properties hasDirectives hfs)
  | .table ⟨properties, grid, rows⟩, scene => by
    rw [renderBlock, renderBlock]
    refine (matches_renderRows_coalescing rows scene).bind fun shown shown' hshown => ?_
    refine .ok (.element ?_ (.nil false))
    rw [Element.spell, Element.spell, hshown]

/-- Blocks show the same whether runs are merged or not. -/
theorem matches_renderBlocks_coalescing : ∀ (blocks : List Block) (scene : Scene),
    Matches (SameShown false) (renderBlocks (scene.coalescing merge) blocks)
      (renderBlocks (scene.coalescing merge') blocks)
  | [], scene => by
    rw [renderBlocks, renderBlocks]
    exact .ok (.nil false)
  | block :: blocks, scene => by
    rw [renderBlocks, renderBlocks]
    refine (matches_renderBlock_coalescing block scene).bind fun first first' hfirst => ?_
    refine (matches_renderBlocks_coalescing blocks scene).bind fun rest rest' hrest => ?_
    exact .ok (hfirst.append hrest)

theorem matches_renderRows_coalescing : ∀ (rows : List (RowBlock Block)) (scene : Scene),
    Matches SameRows (renderRows (scene.coalescing merge) rows)
      (renderRows (scene.coalescing merge') rows)
  | [], scene => by
    rw [renderRows, renderRows]
    exact .ok rfl
  | .static ⟨properties, cells⟩ :: rows, scene => by
    rw [renderRows, renderRows]
    refine (matches_renderCells_coalescing cells scene).bind fun shown shown' hshown => ?_
    refine (matches_renderRows_coalescing rows scene).bind fun rest rest' hrest => ?_
    refine .ok ?_
    rw [SameRows, spellRows, spellRows, hshown, hrest]
  | .loop list ⟨properties, cells⟩ position :: rows, scene => by
    rw [renderRows, renderRows]
    refine (Matches.refl (scene.located position (scene.context.entries list))).bind ?_
    rintro entries _ rfl
    have hrow : ∀ inner : Scene, Matches SameRows
        (do return [⟨properties, ← renderCells (inner.coalescing merge) cells⟩])
        (do return [⟨properties, ← renderCells (inner.coalescing merge') cells⟩]) := by
      intro inner
      refine (matches_renderCells_coalescing cells inner).bind fun shown shown' hshown => ?_
      refine .ok ?_
      rw [SameRows, spellRows_eq_map, spellRows_eq_map, List.map_singleton, List.map_singleton,
        Row.spell, Row.spell, hshown]
    have hnil : SameRows [] [] := rfl
    have hentries := matches_renderEntries_coalescing hnil (fun _ _ _ _ => SameRows.append)
      (fun inner => do return [⟨properties, ← renderCells inner cells⟩]) hrow scene entries.length 0
      entries
    refine hentries.bind fun first first' hfirst => ?_
    refine (matches_renderRows_coalescing rows scene).bind fun rest rest' hrest => ?_
    exact .ok (hfirst.append hrest)

theorem matches_renderCells_coalescing : ∀ (cells : List (Cell Block)) (scene : Scene),
    Matches (fun shown shown' => spellCells shown = spellCells shown')
      (renderCells (scene.coalescing merge) cells) (renderCells (scene.coalescing merge') cells)
  | [], scene => by
    rw [renderCells, renderCells]
    exact .ok rfl
  | ⟨properties, body⟩ :: cells, scene => by
    rw [renderCells, renderCells]
    refine (matches_renderBlocks_coalescing body scene).bind fun fs gs hfs => ?_
    refine (matches_renderCells_coalescing cells scene).bind fun rest rest' hrest => ?_
    refine .ok ?_
    rw [spellCells, spellCells, hfs.cellBodyOf_eq, hrest]

end

end Merging

/-! ## Merged paragraphs -/

/-- What a stretch of a paragraph is assembled to is tidy if runs are merged. -/
theorem Assembles.tidy {properties : ParagraphProperties} {stretch : List Visit}
    {shown : List Element} (h : Assembles true properties stretch shown) :
    shown = [] ∨ ∃ runs, shown = [.paragraph ⟨properties, runs⟩] ∧ Tidy runs := by
  obtain ⟨runs, -, hparagraph⟩ := h
  rcases cases_of_paragraphOf hparagraph with ⟨-, hnone⟩ | ⟨-, hone⟩
  · exact .inl hnone
  · have hcharacters : ∀ run ∈ runs.filter (!·.isEmptyText), run.isEmptyText = false := by
      intro run hrun
      simpa using (List.mem_filter.1 hrun).2
    exact .inr ⟨_, hone, tidy_coalesce hcharacters⟩

/-- With merged runs and without, blocks fail with the same error or are rendered to documents that
differ only in where runs of one formatting end, and so have the same text. With merged runs, each
paragraph that is shown for a paragraph with directives is tidy, and merging its runs again changes
nothing, as it never does. -/
theorem renderDocument_coalescing (scene : Scene) (blocks : List Block) :
    Matches (fun merged plain : Document =>
        merged.spell = plain.spell ∧ merged.plainText = plain.plainText)
      (renderDocument (scene.coalescing true) blocks)
      (renderDocument (scene.coalescing false) blocks) ∧
    (∀ (inner : Scene) properties children fragments,
      renderBlock (inner.coalescing true) (.paragraph properties children true) = .ok fragments →
      ∃ shown, fragments = shown.map .element ∧
        Interleaves (fun _ shown => shown = [] ∨ ∃ runs, shown = [.paragraph ⟨properties, runs⟩] ∧
          Tidy runs ∧ coalesce runs = runs) (visitsOf (inner.coalescing true) children) shown) ∧
    ∀ runs, coalesce (coalesce runs) = coalesce runs := by
  refine ⟨?_, ?_, coalesce_coalesce⟩
  · unfold renderDocument
    refine (matches_renderBlocks_coalescing true false blocks scene).bind fun fs gs hfs => ?_
    have hspell : Document.spell ⟨elementsOf fs⟩ = Document.spell ⟨elementsOf gs⟩ := by
      rw [Document.spell, Document.spell, hfs.elementsOf_eq]
    exact .ok ⟨hspell, Document.plainText_eq hspell⟩
  · intro inner properties children fragments hrender
    obtain ⟨shown, rfl, hinterleaves⟩ := interleaves_renderBlock hrender
    refine ⟨shown, rfl, hinterleaves.mono ?_⟩
    intro stretch shown hassembles
    rcases hassembles.tidy with hnone | ⟨runs, hshown, htidy⟩
    · exact .inl hnone
    · exact .inr ⟨runs, hshown, htidy, coalesce_eq_self htidy.apart⟩

end StyledTemplate
