import StyledTemplate.Proofs.Document.SpelledRows
import StyledTemplate.Render.Fragment

/-!
# Splitting runs

Text runs of a document can be split, in any paragraph at any depth of tables: such a run is
replaced by some text runs in the same formatting whose texts join to its text. A document is
compact if no text run is empty and no two neighbours in one formatting are left to be merged.
Splitting changes neither what a document is spelled out to nor what it is compacted to.
-/

namespace StyledTemplate

/-! ## Splitting -/

/-- Some text runs of the first ones have been split. -/
inductive RunsSplit : List Run → List Run → Prop
  | nil : RunsSplit [] []
  | keep (run : Run) {runs runs' : List Run} (hrest : RunsSplit runs runs') :
      RunsSplit (run :: runs) (run :: runs')
  | split (properties : RunProperties) {parts : List String} (hne : parts ≠ [])
      {runs runs' : List Run} (hrest : RunsSplit runs runs') :
      RunsSplit (.ofText (String.join parts) properties :: runs)
        (parts.map (.ofText · properties) ++ runs')

mutual

/-- Some text runs within the first element have been split. -/
inductive Element.Splits : Element → Element → Prop
  | paragraph {properties runs runs'} (hruns : RunsSplit runs runs') :
      Element.Splits (.paragraph ⟨properties, runs⟩) (.paragraph ⟨properties, runs'⟩)
  | table {properties grid rows rows'} (hrows : RowsSplit rows rows') :
      Element.Splits (.table ⟨properties, grid, rows⟩) (.table ⟨properties, grid, rows'⟩)

inductive BodySplits : List Element → List Element → Prop
  | nil : BodySplits [] []
  | cons {element element' rest rest'} (helement : Element.Splits element element')
      (hrest : BodySplits rest rest') : BodySplits (element :: rest) (element' :: rest')

inductive RowsSplit : List (Row Element) → List (Row Element) → Prop
  | nil : RowsSplit [] []
  | cons {properties cells cells' rows rows'} (hcells : CellsSplit cells cells')
      (hrows : RowsSplit rows rows') :
      RowsSplit (⟨properties, cells⟩ :: rows) (⟨properties, cells'⟩ :: rows')

inductive CellsSplit : List (Cell Element) → List (Cell Element) → Prop
  | nil : CellsSplit [] []
  | cons {properties body body' cells cells'} (hbody : BodySplits body body')
      (hcells : CellsSplit cells cells') :
      CellsSplit (⟨properties, body⟩ :: cells) (⟨properties, body'⟩ :: cells')

end

/-- Some text runs of the first document have been split. -/
def Document.Splits (d d' : Document) : Prop := BodySplits d.body d'.body

theorem spellRuns_parts (parts : List String) (properties : RunProperties) :
    spellRuns (parts.map (.ofText · properties)) =
      spellText (parts.flatMap String.toList) properties := by
  induction parts with
  | nil => rfl
  | cons part parts ih =>
    rw [List.map_cons, spellRuns_cons, Run.spell_ofText, ih, List.flatMap_cons, spellText_append]

theorem RunsSplit.spell_eq {runs runs' : List Run} (h : RunsSplit runs runs') :
    spellRuns runs = spellRuns runs' := by
  induction h with
  | nil => rfl
  | keep run hrest ih => rw [spellRuns_cons, spellRuns_cons, ih]
  | split properties hne hrest ih =>
    rw [spellRuns_cons, spellRuns_append, Run.spell_ofText, String.toList_join, spellRuns_parts, ih]

mutual

theorem Element.Splits.spell_eq : ∀ {element element' : Element}, element.Splits element' →
    element.spell = element'.spell
  | _, _, .paragraph hruns => by
    rw [Element.spell, Element.spell, Paragraph.spell, Paragraph.spell, hruns.spell_eq]
  | _, _, .table hrows => by rw [Element.spell, Element.spell, hrows.spell_eq]

theorem BodySplits.spell_eq : ∀ {body body' : List Element}, BodySplits body body' →
    spellBody body = spellBody body'
  | _, _, .nil => rfl
  | _, _, .cons helement hrest => by
    rw [spellBody, spellBody, helement.spell_eq, hrest.spell_eq]

theorem RowsSplit.spell_eq : ∀ {rows rows' : List (Row Element)}, RowsSplit rows rows' →
    spellRows rows = spellRows rows'
  | _, _, .nil => rfl
  | _, _, .cons hcells hrows => by rw [spellRows, spellRows, hcells.spell_eq, hrows.spell_eq]

theorem CellsSplit.spell_eq : ∀ {cells cells' : List (Cell Element)}, CellsSplit cells cells' →
    spellCells cells = spellCells cells'
  | _, _, .nil => rfl
  | _, _, .cons hbody hcells => by rw [spellCells, spellCells, hbody.spell_eq, hcells.spell_eq]

end

/-- Splitting runs does not change what a document is spelled out to. -/
theorem Document.Splits.spell_eq {d d' : Document} (h : d.Splits d') : d.spell = d'.spell := by
  rw [Document.spell, Document.spell, BodySplits.spell_eq h]

/-! ## Compacting -/

/-- The runs without empty text runs, neighbours in one formatting merged. -/
def compactRuns (runs : List Run) : List Run := coalesce (runs.filter (!·.isEmptyText))

mutual

def Element.compact : Element → Element
  | .paragraph ⟨properties, runs⟩ => .paragraph ⟨properties, compactRuns runs⟩
  | .table ⟨properties, grid, rows⟩ => .table ⟨properties, grid, compactRows rows⟩

def compactRows : List (Row Element) → List (Row Element)
  | [] => []
  | ⟨properties, cells⟩ :: rows => ⟨properties, compactCells cells⟩ :: compactRows rows

def compactCells : List (Cell Element) → List (Cell Element)
  | [] => []
  | ⟨properties, body⟩ :: cells => ⟨properties, compactBody body⟩ :: compactCells cells

def compactBody : List Element → List Element
  | [] => []
  | element :: rest => element.compact :: compactBody rest

end

/-- The document with compact runs in all of its paragraphs. -/
def Document.compact (d : Document) : Document := ⟨compactBody d.body⟩

/-- Text in the formatting of the last run is merged into it, in one piece or in several ones. -/
theorem coalesceAfter_spellText (s : String) (style : RunProperties) (cs : List Char)
    (runs : List Run) :
    coalesceAfter (.ofText s style) (spellText cs style ++ runs) =
      coalesceAfter (.ofText (s ++ String.ofList cs) style) runs := by
  induction cs generalizing s with
  | nil => simp [spellText]
  | cons c cs ih =>
    have hmerge : coalesceAfter (.ofText s style) (spellText (c :: cs) style ++ runs) =
        coalesceAfter (.ofText (s ++ String.ofList [c]) style) (spellText cs style ++ runs) := by
      rw [spellText_cons, List.cons_append, coalesceAfter]
      exact if_pos rfl
    rw [hmerge, ih, String.append_assoc, ← String.ofList_append, List.singleton_append]

/-- So is any text, whatever the last run is. -/
theorem coalesceAfter_text (last : Run) {s : String} (hs : s ≠ "") (style : RunProperties)
    (runs : List Run) :
    coalesceAfter last (spellText s.toList style ++ runs) =
      coalesceAfter last (.ofText s style :: runs) := by
  obtain ⟨c, cs, hcs⟩ : ∃ c cs, s.toList = c :: cs :=
    List.exists_cons_of_ne_nil (by simpa using hs)
  have hjoin : String.ofList [c] ++ String.ofList cs = s := by
    rw [← String.ofList_append, List.singleton_append, ← hcs, String.ofList_toList]
  rw [hcs, spellText_cons, List.cons_append]
  have hapart : coalesceAfter (.ofText (String.ofList [c]) style) (spellText cs style ++ runs) =
      coalesceAfter (.ofText s style) runs := by
    rw [coalesceAfter_spellText, hjoin]
  obtain ⟨properties, content⟩ := last
  cases content with
  | text front =>
    by_cases hsame : properties = style
    · subst hsame
      have hmerged := coalesceAfter_spellText (front ++ String.ofList [c]) properties cs runs
      rw [String.append_assoc, hjoin] at hmerged
      rw [coalesceAfter, coalesceAfter]
      exact (if_pos rfl).trans (hmerged.trans (if_pos rfl).symm)
    · rw [coalesceAfter, coalesceAfter]
      refine (if_neg hsame).trans (Eq.trans ?_ (if_neg hsame).symm)
      rw [hapart]
  | lineBreak =>
    rw [coalesceAfter, coalesceAfter]
    exact congrArg _ hapart
  | image image =>
    rw [coalesceAfter, coalesceAfter]
    exact congrArg _ hapart

theorem filter_ofText (s : String) (style : RunProperties) (runs : List Run) :
    (Run.ofText s style :: runs).filter (!·.isEmptyText) =
      if s = "" then runs.filter (!·.isEmptyText)
      else .ofText s style :: runs.filter (!·.isEmptyText) := by
  rw [List.filter_cons]
  by_cases hs : s = "" <;> simp [Run.isEmptyText, hs]

theorem coalesceAfter_congr {as bs : List Run}
    (h : ∀ last, coalesceAfter last as = coalesceAfter last bs) (last run : Run) :
    coalesceAfter last (run :: as) = coalesceAfter last (run :: bs) := by
  rw [coalesceAfter, coalesceAfter]
  split
  · split
    · exact h _
    · rw [h run]
  · rw [h run]

theorem coalesceAfter_spellRuns (last : Run) (runs : List Run) :
    coalesceAfter last (spellRuns runs) = coalesceAfter last (runs.filter (!·.isEmptyText)) := by
  induction runs using runs_induction generalizing last with
  | nil => rfl
  | text s style runs ih =>
    rw [spellRuns_cons, Run.spell_ofText, filter_ofText]
    by_cases hs : s = ""
    · rw [if_pos hs, hs]
      exact ih last
    · rw [if_neg hs, coalesceAfter_text last hs]
      exact coalesceAfter_congr ih last _
  | other run runs hrun ih =>
    have hshown : (run :: runs).filter (!·.isEmptyText) = run :: runs.filter (!·.isEmptyText) :=
      List.filter_cons_of_pos (by simp [Run.isEmptyText, hrun])
    rw [spellRuns_cons, Run.spell_of_text?_eq_none hrun, List.singleton_append, hshown]
    exact coalesceAfter_congr ih last run

/-- Nothing is merged into a line break. -/
theorem coalesceAfter_lineBreak (runs : List Run) :
    coalesceAfter ⟨{}, .lineBreak⟩ runs = ⟨{}, .lineBreak⟩ :: coalesce runs := by
  cases runs <;> rfl

theorem compactRuns_eq (runs : List Run) : compactRuns runs = coalesce (spellRuns runs) := by
  have hbehind := coalesceAfter_spellRuns ⟨{}, .lineBreak⟩ runs
  rw [coalesceAfter_lineBreak, coalesceAfter_lineBreak] at hbehind
  exact (List.cons.inj hbehind).2.symm

/-- Runs that are spelled out are compacted to the same runs. -/
theorem compactRuns_spellRuns (runs : List Run) : compactRuns (spellRuns runs) = compactRuns runs := by
  have htwice := spellRuns_eq_iff.2 (runsAtoms_spellRuns runs)
  rw [compactRuns_eq, compactRuns_eq, htwice]

mutual

theorem Element.compact_spell : ∀ element : Element, element.spell.compact = element.compact
  | .paragraph ⟨properties, runs⟩ => by
    rw [Element.spell, Paragraph.spell, Element.compact, Element.compact, compactRuns_spellRuns]
  | .table ⟨properties, grid, rows⟩ => by
    rw [Element.spell, Element.compact, Element.compact, compactRows_spell rows]

theorem compactRows_spell : ∀ rows : List (Row Element),
    compactRows (spellRows rows) = compactRows rows
  | [] => by rw [spellRows]
  | ⟨properties, cells⟩ :: rows => by
    rw [spellRows, compactRows, compactRows, compactCells_spell cells, compactRows_spell rows]

theorem compactCells_spell : ∀ cells : List (Cell Element),
    compactCells (spellCells cells) = compactCells cells
  | [] => by rw [spellCells]
  | ⟨properties, body⟩ :: cells => by
    rw [spellCells, compactCells, compactCells, compactBody_spell body, compactCells_spell cells]

theorem compactBody_spell : ∀ body : List Element, compactBody (spellBody body) = compactBody body
  | [] => by rw [spellBody]
  | element :: rest => by
    rw [spellBody, compactBody, compactBody, element.compact_spell, compactBody_spell rest]

end

/-- Documents that are spelled out alike are compacted to the same document. -/
theorem Document.compact_eq {d d' : Document} (h : d.spell = d'.spell) : d.compact = d'.compact := by
  have hspell : ∀ d : Document, d.spell.compact = d.compact := by
    intro d
    rw [Document.spell, Document.compact, Document.compact, compactBody_spell]
  rw [← hspell d, h, hspell d']

end StyledTemplate
