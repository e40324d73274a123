import StyledTemplate.Block.Builder
import StyledTemplate.Block.RowLoop
import StyledTemplate.Document.Text
import StyledTemplate.Settings.Basic

/-!
# Parsing templates

`Template.ofDocument` turns a styled document into a tree of blocks. Directives work at two levels.
A directive inside a paragraph works on the rest of the paragraph, and has to be closed there. A
paragraph that consists of one structural directive is taken out, and the directive works on the
paragraphs and tables up to its partner.

Literal text keeps the formatting of the run it came from, and a placeholder takes that of the run
in which it starts.
-/

namespace StyledTemplate

/-- How far a template has been parsed, and what has been found. -/
structure Progress where
  /-- The number of paragraphs parsed. -/
  paragraph : Nat := 0
  /-- Has a directive been parsed? -/
  seenDirective : Bool := false
  /-- The parent that has been declared. -/
  parent : Option String := none
  /-- The paths of the placeholders. -/
  placeholders : NameSet := NameMap.empty

/-- Parsing with progress and errors. -/
abbrev Parser := StateT Progress (Except ParseError)

/-! ## Directives -/

/-- Declares the parent. Only the first directive of a template may do so; elsewhere the declaration
is ignored, or an error in strict mode. -/
def declareParent (strict : Bool) (parent : String) (position : Position) (b : Builder) :
    Parser Builder := do
  let progress ← get
  if !progress.seenDirective && progress.parent.isNone then
    set { progress with seenDirective := true, parent := some parent }
    return b.push (.inherits parent position)
  else if strict then
    throw { fault := .misplacedParent parent, position }
  else return b

/-- Notes that a directive has been parsed. -/
def noteDirective : Parser Unit := modify fun progress => { progress with seenDirective := true }

/-- Notes the path of a placeholder. -/
def notePlaceholder (path : String) : Parser Unit :=
  modify fun progress => { progress with placeholders := progress.placeholders.add path }

/-- Feeds a directive to the builder. `opener` is its text and `style` its formatting. -/
def applyDirective (strict : Bool) (opener : String) (style : RunProperties) (position : Position)
    (b : Builder) : Directive → Parser Builder
  | .inherits parent => declareParent strict parent position b
  | .placeholder path => do
    noteDirective
    notePlaceholder path
    return b.push (.placeholder path style position)
  | .image name => do
    noteDirective
    return b.push (.image name style position)
  | .ifOpen condition => do
    noteDirective
    b.openRegion (.condition condition [] none) opener position
  | .otherwise => do
    noteDirective
    b.otherwise position
  | .ifClose => do
    noteDirective
    b.close .condition position
  | .eachOpen list => do
    noteDirective
    b.openRegion (.loop list []) opener position
  | .eachClose => do
    noteDirective
    b.close .loop position
  | .blockOpen id => do
    noteDirective
    b.openRegion (.named id []) opener position
  | .blockClose => do
    noteDirective
    b.close .named position

/-! ## Paragraphs -/

/-- Feeds the literal text from `start` to `stop` to the builder, one block for each run it came
from. Runs without text that stand before a piece go before it; those that are left are returned. -/
def pushText (text : List Char) (start stop : Nat) (b : Builder) (anchors : List Anchor) :
    List Span → Builder × List Anchor
  | [] => (b, anchors)
  | span :: spans =>
    if span.stop ≤ start ∨ stop ≤ span.start then pushText text start stop b anchors spans
    else
      let first := max span.start start
      let last := min span.stop stop
      let (now, later) := anchors.span (·.offset ≤ first)
      let piece := Text.sliceBytes first last text
      let b := (b.pushRuns (now.map Anchor.run)).push (.text (String.ofList piece) span.style)
      pushText text start stop b later spans

/-- Feeds the tokens of a paragraph to the builder. A run without text goes before the first piece
of text that starts behind it or the first directive that ends behind it. -/
def pushTokens (strict : Bool) (ordinal : Nat) (map : RunMap) (b : Builder)
    (anchors : List Anchor) : List Token → Parser Builder
  | [] => return b.pushRuns (anchors.map Anchor.run)
  | token :: tokens =>
    match token.kind with
    | .text _ =>
      let (b, anchors) := pushText map.text token.start token.stop b anchors map.spans
      pushTokens strict ordinal map b anchors tokens
    | .directive d => do
      let (now, later) := anchors.span (·.offset < token.stop)
      let opener := String.ofList (Text.sliceBytes token.start token.stop map.text)
      let position := { paragraph := ordinal, offset := token.start }
      let b ← applyDirective strict opener (map.styleAt token.start) position
        (b.pushRuns (now.map Anchor.run)) d
      pushTokens strict ordinal map b later tokens

/-- Splits the text of the paragraph with a given number into tokens. -/
def tokensOf (strict : Bool) (ordinal : Nat) (text : List Char) : Except ParseError (List Token) :=
  (tokenize strict text).mapError (·.atParagraph ordinal)

/-- Parses a paragraph that does not stand for a directive of its body. Without directives its runs
stay exactly as they are. -/
def parseParagraph (settings : TemplateSettings) (p : Paragraph) (map : RunMap)
    (tokens : List Token) (ordinal depth : Nat) : Parser Block := do
  if tokens.any fun token => token.directive?.isSome then
    let builder : Builder := { baseDepth := depth, limit := settings.maxNestingDepth.toNat }
    let builder ← pushTokens settings.strict ordinal map builder map.anchors tokens
    return .paragraph p.properties (← builder.finish) true
  else return .paragraph p.properties (p.runs.map .static) false

/-- The directive that a paragraph stands for: a structural directive with nothing but blank text
around it. -/
def standalone? (map : RunMap) (tokens : List Token) : Option (Token × Directive) :=
  if map.anchors.isEmpty then
    match tokens.filter (!·.isBlank) with
    | [token] => do
      let d ← token.directive?
      if d.isStructural then some (token, d) else none
    | _ => none
  else none

/-- Feeds a paragraph to the builder of its body. -/
def feedParagraph (settings : TemplateSettings) (b : Builder) (p : Paragraph) :
    Parser Builder := do
  let ordinal := (← get).paragraph
  modify fun progress => { progress with paragraph := ordinal + 1 }
  let map := RunMap.ofRuns p.runs
  let tokens ← tokensOf settings.strict ordinal map.text
  match standalone? map tokens with
  | some (token, d) =>
    let opener := String.ofList (Text.sliceBytes token.start token.stop map.text)
    applyDirective settings.strict opener {} { paragraph := ordinal, offset := token.start } b d
  | none => return b.push (← parseParagraph settings p map tokens ordinal b.depth)

/-! ## Bodies and tables -/

/-- The markers of a row whose first paragraph has a given number. -/
def markersOf (strict : Bool) (ordinal : Nat) (row : Row Element) :
    Except ParseError (Option RowMarkers) :=
  (rowMarkers? strict row).mapError (·.atParagraph ordinal)

mutual

/-- Feeds the elements of a body to its builder. -/
def feedBody (settings : TemplateSettings) (b : Builder) : List Element → Parser Builder
  | [] => return b
  | .paragraph p :: rest => do
    let b ← feedParagraph settings b p
    feedBody settings b rest
  | .table t :: rest => do
    let rows ← parseRows settings b.depth t.rows
    feedBody settings (b.push (.table ⟨t.properties, t.grid, rows⟩)) rest
termination_by body => bodySize body
decreasing_by
  · simp [bodySize, Element.size]
  · simp [bodySize, Element.size]
    omega
  · have := Element.size_pos (.table t)
    simp only [bodySize]
    omega

/-- Parses the rows of a table. A row that is repeated counts as one more open region for what is in
its cells. -/
def parseRows (settings : TemplateSettings) (depth : Nat) :
    List (Row Element) → Parser (List (RowBlock Block))
  | [] => return []
  | row :: rows => do
    let ordinal := (← get).paragraph
    let position : Position := { paragraph := ordinal }
    let block ← match ← markersOf settings.strict ordinal row with
      | some markers => do
        checkDepth depth settings.maxNestingDepth.toNat position
        let cells ← parseCells settings (depth + 1) (row.withoutMarkers markers).cells
        pure (RowBlock.loop markers.list ⟨row.properties, cells⟩ position)
      | none => do
        let cells ← parseCells settings depth row.cells
        pure (RowBlock.static ⟨row.properties, cells⟩)
    return block :: (← parseRows settings depth rows)
termination_by rows => rowsSize rows
decreasing_by
  · simp only [rowsSize]
    omega
  · have := cellsSize_withoutMarkers row markers
    simp only [rowsSize]
    omega
  · simp only [rowsSize]
    omega

/-- Parses the cells of a row. -/
def parseCells (settings : TemplateSettings) (depth : Nat) :
    List (Cell Element) → Parser (List (Cell Block))
  | [] => return []
  | cell :: cells => do
    let builder : Builder := { baseDepth := depth, limit := settings.maxNestingDepth.toNat }
    let builder ← feedBody settings builder cell.body
    let body ← builder.finish
    return ⟨cell.properties, body⟩ :: (← parseCells settings depth cells)
termination_by cells => cellsSize cells
decreasing_by
  · simp only [cellsSize]
    omega
  · simp only [cellsSize]
    omega

end

/-- Parses a body of elements. -/
def parseBody (settings : TemplateSettings) (body : List Element) : Parser (List Block) := do
  let builder : Builder := { baseDepth := 0, limit := settings.maxNestingDepth.toNat }
  let builder ← feedBody settings builder body
  builder.finish

namespace Template

/-- Parses a document as the template `name`. -/
def ofDocument (settings : TemplateSettings) (name : String) (document : Document) :
    Except ParseError Template :=
  match (parseBody settings document.body).run {} with
  | .ok (blocks, progress) =>
    .ok { name, blocks, parent := progress.parent, placeholders := progress.placeholders,
          source := document }
  | .error e => .error (e.withTemplate name)

/-- Parses a text as the template `name`, each line as a paragraph. -/
def ofText (settings : TemplateSettings) (name text : String) : Except ParseError Template :=
  ofDocument settings name (.ofText text)

end Template

end StyledTemplate
