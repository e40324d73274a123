import StyledTemplate.Document.Basic

/-!
# Fragments of rendered documents

Rendering a block gives fragments: runs, and whole paragraphs and tables. A paragraph is assembled
from the fragments of its children; it is split around the elements among them, and a part in which
nothing is shown and no placeholder stood is dropped.
-/

namespace StyledTemplate

/-- A piece of a rendered document. -/
inductive Fragment where
  /-- A run. -/
  | run (run : Run)
  /-- A run that shows what a placeholder is bound to. It keeps its paragraph even if it is
  empty. -/
  | value (run : Run)
  /-- A paragraph or a table. -/
  | element (element : Element)

namespace Fragment

/-- The run, if the fragment is one. -/
def run? : Fragment → Option Run
  | .run r => some r
  | .value r => some r
  | .element _ => none

end Fragment

/-- Merges neighbouring text runs of one formatting. `last` is the run before the others. -/
def coalesceAfter (last : Run) : List Run → List Run
  | [] => [last]
  | run :: runs =>
    match last.content, run.content with
    | .text a, .text b =>
      if last.properties = run.properties then
        coalesceAfter ⟨last.properties, .text (a ++ b)⟩ runs
      else last :: coalesceAfter run runs
    | _, _ => last :: coalesceAfter run runs

/-- Merges neighbouring text runs of one formatting. -/
def coalesce : List Run → List Run
  | [] => []
  | run :: runs => coalesceAfter run runs

/-- The paragraph that some runs make up. Without any text it is dropped, unless it has to be
kept. -/
def paragraphOf (merge : Bool) (properties : ParagraphProperties) (runs : List Run)
    (keep : Bool) : List Fragment :=
  let shown := runs.filter (!·.isEmptyText)
  if shown = [] ∧ !keep then []
  else [.element (.paragraph ⟨properties, if merge then coalesce shown else shown⟩)]

/-- Assembles a paragraph that had directives from the fragments of its children. `runs` and `keep`
tell what stands before the fragments. -/
def assembleAfter (merge : Bool) (properties : ParagraphProperties) (runs : List Run)
    (keep : Bool) : List Fragment → List Fragment
  | [] => paragraphOf merge properties runs keep
  | .run run :: rest => assembleAfter merge properties (runs ++ [run]) keep rest
  | .value run :: rest => assembleAfter merge properties (runs ++ [run]) true rest
  | .element element :: rest =>
    paragraphOf merge properties runs keep ++
      .element element :: assembleAfter merge properties [] false rest

/-- Assembles a paragraph from the fragments of its children. A paragraph that had no directives
keeps its runs as they are. -/
def assembleParagraph (merge : Bool) (properties : ParagraphProperties) (hasDirectives : Bool)
    (children : List Fragment) : List Fragment :=
  if hasDirectives then assembleAfter merge properties [] false children
  else [.element (.paragraph ⟨properties, children.filterMap Fragment.run?⟩)]

/-- The elements that fragments make up, where `loose` runs stand before them. Runs that stand in no
paragraph get one of their own. -/
def elementsAfter (loose : List Run) : List Fragment → List Element
  | [] => if loose = [] then [] else [.paragraph (.ofRuns loose)]
  | .run run :: rest => elementsAfter (loose ++ [run]) rest
  | .value run :: rest => elementsAfter (loose ++ [run]) rest
  | .element element :: rest =>
    (if loose = [] then [] else [.paragraph (.ofRuns loose)]) ++ element :: elementsAfter [] rest

/-- The elements that fragments make up. -/
def elementsOf (fragments : List Fragment) : List Element := elementsAfter [] fragments

/-- The body of a cell that fragments make up. It has at least one element. -/
def cellBodyOf (fragments : List Fragment) : List Element :=
  match elementsOf fragments with
  | [] => [.paragraph {}]
  | elements => elements

end StyledTemplate
