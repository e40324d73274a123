import StyledTemplate.Render.Fragment

/-!
# The content of documents

`Document.atoms` lists what a document shows, in document order: characters with their formatting,
and the runs that are not text. How the content is spread over runs, paragraphs, rows and cells does
not matter to it, so it is what assembling fragments has to keep.
-/

namespace StyledTemplate

/-- The smallest piece of content. -/
inductive Atom where
  /-- A character. -/
  | char (c : Char) (style : RunProperties)
  /-- A run that is not text. -/
  | run (run : Run)
  deriving DecidableEq

/-- The content of a text in one formatting. -/
def textAtoms (text : String) (style : RunProperties) : List Atom :=
  text.toList.map fun c => .char c style

/-- The content of a run. -/
def Run.atoms (run : Run) : List Atom :=
  match run.content with
  | .text text => textAtoms text run.properties
  | _ => [.run run]

/-- The content of some runs. -/
def runsAtoms (runs : List Run) : List Atom := runs.flatMap Run.atoms

mutual

/-- The content of a paragraph or a table. -/
def Element.atoms : Element → List Atom
  | .paragraph p => runsAtoms p.runs
  | .table ⟨_, _, rows⟩ => rowsAtoms rows

/-- The content of a body. -/
def bodyAtoms : List Element → List Atom
  | [] => []
  | element :: elements => element.atoms ++ bodyAtoms elements

/-- The content of the rows of a table. -/
def rowsAtoms : List (Row Element) → List Atom
  | [] => []
  | ⟨_, cells⟩ :: rows => cellsAtoms cells ++ rowsAtoms rows

/-- The content of the cells of a row. -/
def cellsAtoms : List (Cell Element) → List Atom
  | [] => []
  | ⟨_, body⟩ :: cells => bodyAtoms body ++ cellsAtoms cells

end

/-- The content of a document. -/
def Document.atoms (d : Document) : List Atom := bodyAtoms d.body

/-- The content of a fragment. -/
def Fragment.atoms : Fragment → List Atom
  | .run r => r.atoms
  | .value r => r.atoms
  | .element e => e.atoms

/-- The content of some fragments. -/
def fragmentsAtoms (fragments : List Fragment) : List Atom := fragments.flatMap Fragment.atoms

@[simp] theorem textAtoms_append (a b : String) (style : RunProperties) :
    textAtoms (a ++ b) style = textAtoms a style ++ textAtoms b style := by
  simp [textAtoms]

@[simp] theorem runsAtoms_nil : runsAtoms [] = [] := rfl

@[simp] theorem runsAtoms_cons (run : Run) (runs : List Run) :
    runsAtoms (run :: runs) = run.atoms ++ runsAtoms runs := rfl

@[simp] theorem runsAtoms_append (as bs : List Run) :
    runsAtoms (as ++ bs) = runsAtoms as ++ runsAtoms bs := List.flatMap_append

@[simp] theorem Element.atoms_paragraph (p : Paragraph) :
    (Element.paragraph p).atoms = runsAtoms p.runs := by rw [Element.atoms]

@[simp] theorem bodyAtoms_nil : bodyAtoms [] = [] := by rw [bodyAtoms]

@[simp] theorem bodyAtoms_cons (element : Element) (elements : List Element) :
    bodyAtoms (element :: elements) = element.atoms ++ bodyAtoms elements := by rw [bodyAtoms]

@[simp] theorem rowsAtoms_append (as bs : List (Row Element)) :
    rowsAtoms (as ++ bs) = rowsAtoms as ++ rowsAtoms bs := by
  induction as with
  | nil => simp [rowsAtoms]
  | cons row as ih =>
    obtain ⟨properties, cells⟩ := row
    simp [rowsAtoms, ih]

@[simp] theorem fragmentsAtoms_nil : fragmentsAtoms [] = [] := rfl

@[simp] theorem fragmentsAtoms_cons (fragment : Fragment) (fragments : List Fragment) :
    fragmentsAtoms (fragment :: fragments) = fragment.atoms ++ fragmentsAtoms fragments := rfl

@[simp] theorem fragmentsAtoms_append (as bs : List Fragment) :
    fragmentsAtoms (as ++ bs) = fragmentsAtoms as ++ fragmentsAtoms bs := List.flatMap_append

/-! ## Assembling -/

theorem atoms_eq_nil_of_isEmptyText {run : Run} (h : run.isEmptyText = true) : run.atoms = [] := by
  obtain ⟨properties, content⟩ := run
  cases content with
  | text text =>
    obtain rfl : text = "" := by simpa [Run.isEmptyText, Run.text?] using h
    rfl
  | _ => simp [Run.isEmptyText, Run.text?] at h

/-- Runs without characters show nothing. -/
theorem runsAtoms_filter (runs : List Run) :
    runsAtoms (runs.filter (!·.isEmptyText)) = runsAtoms runs := by
  induction runs with
  | nil => rfl
  | cons run runs ih =>
    cases h : run.isEmptyText with
    | true =>
      rw [List.filter_cons_of_neg (by simp [h]), ih, runsAtoms_cons, atoms_eq_nil_of_isEmptyText h]
      rfl
    | false => rw [List.filter_cons_of_pos (by simp [h]), runsAtoms_cons, ih, runsAtoms_cons]

theorem runsAtoms_coalesceAfter (last : Run) (runs : List Run) :
    runsAtoms (coalesceAfter last runs) = last.atoms ++ runsAtoms runs := by
  induction runs generalizing last with
  | nil => rfl
  | cons run runs ih =>
    rw [coalesceAfter]
    split
    · next a b ha hb =>
      split
      · next hsame =>
        rw [ih, runsAtoms_cons, ← List.append_assoc]
        congr 1
        rw [Run.atoms, Run.atoms, Run.atoms, ha, hb, ← hsame]
        exact textAtoms_append a b last.properties
      · rw [runsAtoms_cons, ih, runsAtoms_cons]
    · rw [runsAtoms_cons, ih, runsAtoms_cons]

/-- Merging text runs of one formatting keeps each character in its formatting. -/
theorem runsAtoms_coalesce (runs : List Run) : runsAtoms (coalesce runs) = runsAtoms runs := by
  cases runs with
  | nil => rfl
  | cons run runs => exact runsAtoms_coalesceAfter run runs

section Assemble

variable (merge : Bool) (properties : ParagraphProperties)

/-- A paragraph is dropped only if its runs show nothing. -/
theorem fragmentsAtoms_paragraphOf (runs : List Run) (keep : Bool) :
    fragmentsAtoms (paragraphOf merge properties runs keep) = runsAtoms runs := by
  rw [← runsAtoms_filter runs, paragraphOf]
  split
  · next h => rw [h.1]; rfl
  · rw [fragmentsAtoms_cons, Fragment.atoms, Element.atoms_paragraph, fragmentsAtoms_nil,
      List.append_nil]
    cases merge with
    | true => exact runsAtoms_coalesce _
    | false => rfl

theorem fragmentsAtoms_assembleAfter (runs : List Run) (keep : Bool) (fragments : List Fragment) :
    fragmentsAtoms (assembleAfter merge properties runs keep fragments) =
      runsAtoms runs ++ fragmentsAtoms fragments := by
  induction fragments generalizing runs keep with
  | nil => rw [assembleAfter, fragmentsAtoms_paragraphOf, fragmentsAtoms_nil, List.append_nil]
  | cons fragment fragments ih =>
    cases fragment with
    | run run => rw [assembleAfter, ih]; simp [Fragment.atoms]
    | value run => rw [assembleAfter, ih]; simp [Fragment.atoms]
    | element element =>
      rw [assembleAfter, fragmentsAtoms_append, fragmentsAtoms_paragraphOf, fragmentsAtoms_cons,
        fragmentsAtoms_cons, ih]
      rfl

/-- A paragraph that is split around elements keeps its content. -/
theorem fragmentsAtoms_assembleParagraph (fragments : List Fragment) :
    fragmentsAtoms (assembleParagraph merge properties true fragments) =
      fragmentsAtoms fragments :=
  fragmentsAtoms_assembleAfter merge properties [] false fragments

/-- A paragraph that is not split keeps its content if there is no element in it. -/
theorem fragmentsAtoms_assembleParagraph_run (runs : List Run) :
    fragmentsAtoms (assembleParagraph merge properties false (runs.map Fragment.run)) =
      runsAtoms runs := by
  have hruns : (runs.map Fragment.run).filterMap Fragment.run? = runs := by
    rw [List.filterMap_map]
    exact List.filterMap_some
  rw [assembleParagraph, if_neg (by simp), hruns, fragmentsAtoms_cons, Fragment.atoms,
    Element.atoms_paragraph, fragmentsAtoms_nil, List.append_nil]

end Assemble

theorem bodyAtoms_elementsAfter (loose : List Run) (fragments : List Fragment) :
    bodyAtoms (elementsAfter loose fragments) = runsAtoms loose ++ fragmentsAtoms fragments := by
  have hloose : ∀ loose rest, bodyAtoms
      ((if loose = [] then [] else [.paragraph (.ofRuns loose)]) ++ rest) =
        runsAtoms loose ++ bodyAtoms rest := by
    intro loose rest
    split
    · next h => rw [h]; rfl
    · rw [List.singleton_append, bodyAtoms_cons, Element.atoms_paragraph]
      rfl
  induction fragments generalizing loose with
  | nil =>
    have h := hloose loose []
    rw [List.append_nil] at h
    rw [elementsAfter, h, bodyAtoms_nil, fragmentsAtoms_nil]
  | cons fragment fragments ih =>
    cases fragment with
    | run run => rw [elementsAfter, ih]; simp [Fragment.atoms]
    | value run => rw [elementsAfter, ih]; simp [Fragment.atoms]
    | element element =>
      rw [elementsAfter, hloose, bodyAtoms_cons, ih, fragmentsAtoms_cons]
      rfl

/-- Loose runs get paragraphs of their own, in their places. -/
theorem bodyAtoms_elementsOf (fragments : List Fragment) :
    bodyAtoms (elementsOf fragments) = fragmentsAtoms fragments :=
  bodyAtoms_elementsAfter [] fragments

theorem bodyAtoms_cellBodyOf (fragments : List Fragment) :
    bodyAtoms (cellBodyOf fragments) = fragmentsAtoms fragments := by
  rw [← bodyAtoms_elementsOf, cellBodyOf]
  split
  · next h =>
    rw [h, bodyAtoms_cons, Element.atoms_paragraph]
    rfl
  · rfl

end StyledTemplate
