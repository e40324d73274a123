import StyledTemplate.Document.Basic
import StyledTemplate.Error
import StyledTemplate.Fields

/-!
# Parsed templates

A parsed template is a tree of blocks. The paragraphs and tables of its document are blocks, and so
is every directive in them; conditions, loops and named blocks hold the blocks between their opening
and their closing directive.
-/

namespace StyledTemplate

/-- A row of a parsed table, whose cells hold things of type `β`. -/
inductive RowBlock (β : Type) where
  /-- A row that is shown once. -/
  | static (row : Row β)
  /-- A row that is shown once for each entry of a list. -/
  | loop (list : String) (row : Row β) (position : Position)

namespace RowBlock

/-- The row, shown once or repeated. -/
def row {β : Type} : RowBlock β → Row β
  | .static row => row
  | .loop _ row _ => row

end RowBlock

/-- A node of a parsed template. -/
inductive Block where
  /-- Literal text. -/
  | text (text : String) (style : RunProperties)
  /-- A placeholder for what is bound to a path. -/
  | placeholder (path : String) (style : RunProperties) (position : Position)
  /-- A placeholder for an image. -/
  | image (name : String) (style : RunProperties) (position : Position)
  /-- A condition with one or two branches. -/
  | conditional (condition : String) (thenBlocks : List Block) (elseBlocks : Option (List Block))
    (position : Position)
  /-- A loop over the entries of a list. -/
  | loop (list : String) (body : List Block) (position : Position)
  /-- A block that a template further down may replace. `origin` is the template that its body was
  taken from, if that is another one. -/
  | named (id : String) (body : List Block) (position : Position) (origin : Option String)
  /-- The declaration of the template that this one inherits from. It shows nothing. -/
  | inherits (parent : String) (position : Position)
  /-- A paragraph. -/
  | paragraph (properties : ParagraphProperties) (children : List Block) (hasDirectives : Bool)
  /-- A table. -/
  | table (table : Table (RowBlock Block))
  /-- A run that is shown as it is. -/
  | static (run : Run)
  deriving Inhabited

/-- A parsed template. -/
structure Template where
  /-- The name the template goes by. -/
  name : String
  /-- The tree of blocks. -/
  blocks : List Block
  /-- The template that this one inherits from. -/
  parent : Option String
  /-- The paths of all placeholders. -/
  placeholders : NameSet
  /-- The document the template was parsed from. -/
  source : Document
  deriving Inhabited

end StyledTemplate
