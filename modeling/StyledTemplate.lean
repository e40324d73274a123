import StyledTemplate.Bindings.Codec
import StyledTemplate.Bindings.Record
import StyledTemplate.Engine.Basic
import StyledTemplate.Record.Declaration
import StyledTemplate.Settings.Load
import StyledTemplate.Usage.Sample
import StyledTemplate.Document.Table
import StyledTemplate.Proofs.Block.Marks
import StyledTemplate.Proofs.Block.Nesting
import StyledTemplate.Proofs.Document.RowMarkers
import StyledTemplate.Proofs.Template.Outline
import StyledTemplate.Proofs.Template.Directives
import StyledTemplate.Proofs.Template.Fits
import StyledTemplate.Proofs.Template.ReadParagraph
import StyledTemplate.Proofs.Template.ReadBody
import StyledTemplate.Proofs.Template.Limit
import StyledTemplate.Proofs.Template.Nesting
import StyledTemplate.Proofs.Template.Occurrences
import StyledTemplate.Proofs.Template.Progress
import StyledTemplate.Proofs.Template.Placeholders
import StyledTemplate.Proofs.Template.Parent
import StyledTemplate.Proofs.Template.Parsing
import StyledTemplate.Proofs.Template.Places
import StyledTemplate.Proofs.Template.Misread
import StyledTemplate.Proofs.Block.Nodes
import StyledTemplate.Proofs.Inheritance.Definitions
import StyledTemplate.Proofs.Template.Fresh
import StyledTemplate.Proofs.Inheritance.Resolves
import StyledTemplate.Proofs.Inheritance.ResolveChain
import StyledTemplate.Proofs.Render.Atoms
import StyledTemplate.Proofs.Inheritance.Steady
import StyledTemplate.Proofs.Render.Output
import StyledTemplate.Proofs.Directive.Tiling
import StyledTemplate.Proofs.Document.Spelling
import StyledTemplate.Proofs.Document.SpelledRows
import StyledTemplate.Proofs.Block.Spelling
import StyledTemplate.Proofs.Block.Backed
import StyledTemplate.Proofs.Template.Lenient
import StyledTemplate.Proofs.Template.SpelledText
import StyledTemplate.Proofs.Inheritance.Owners
import StyledTemplate.Proofs.Inheritance.Ancestors
import StyledTemplate.Proofs.Inheritance.Walk
import StyledTemplate.Proofs.Render.Lookups
import StyledTemplate.Proofs.Render.Failures
import StyledTemplate.Proofs.Usage.Coverage
import StyledTemplate.Proofs.Text.Paths
import StyledTemplate.Proofs.Bindings.Meanings
import StyledTemplate.Proofs.Usage.SampleFields
import StyledTemplate.Proofs.Usage.Walk
import StyledTemplate.Proofs.Usage.Growth
import StyledTemplate.Proofs.Usage.Placeholders
import StyledTemplate.Proofs.Usage.Sample
import StyledTemplate.Proofs.Usage.Tables
import StyledTemplate.Proofs.Value.WholeNumbers
import StyledTemplate.Proofs.Document.RowLoops
import StyledTemplate.Proofs.Document.RowContent
import StyledTemplate.Proofs.Document.RepeatedRow
import StyledTemplate.Proofs.Engine.Reached
import StyledTemplate.Proofs.Engine.Failures
import StyledTemplate.Proofs.Engine.Strictness
import StyledTemplate.Proofs.Template.SpelledBody
import StyledTemplate.Proofs.Inheritance.Spelling
import StyledTemplate.Proofs.Render.Spelling
import StyledTemplate.Proofs.Document.Splitting
import StyledTemplate.Proofs.Engine.Splitting
import StyledTemplate.Proofs.Template.Literal
import StyledTemplate.Proofs.Text.Returns
import StyledTemplate.Proofs.Engine.Literal
import StyledTemplate.Proofs.Engine.Conditional
import StyledTemplate.Proofs.Text.Slices
import StyledTemplate.Proofs.Text.Trim
import StyledTemplate.Proofs.Directive.Written
import StyledTemplate.Proofs.Directive.Lines
import StyledTemplate.Proofs.Directive.Sources
import StyledTemplate.Proofs.Directive.Scanner
import StyledTemplate.Proofs.Directive.Ranges
import StyledTemplate.Proofs.Directive.Openers
import StyledTemplate.Proofs.Engine.History
import StyledTemplate.Proofs.Engine.Unrelated
import StyledTemplate.Proofs.Bindings.Records
import StyledTemplate.Proofs.Document.Defaults
import StyledTemplate.Proofs.Document.Codec
import StyledTemplate.Proofs.Inheritance.Nesting
import StyledTemplate.Proofs.Render.Cells
import StyledTemplate.Proofs.Render.Loose
import StyledTemplate.Proofs.Template.Bodily
import StyledTemplate.Proofs.Inheritance.Siblings
import StyledTemplate.Proofs.Block.Pieces
import StyledTemplate.Proofs.Document.Portions
import StyledTemplate.Proofs.Template.Pieces
import StyledTemplate.Proofs.Template.Slices
import StyledTemplate.Proofs.Template.RunMapping
import StyledTemplate.Proofs.Render.Rows
import StyledTemplate.Proofs.Inheritance.Substitution
import StyledTemplate.Proofs.Bindings.Flattening
import StyledTemplate.Proofs.Render.Visits
import StyledTemplate.Proofs.Render.Stretches
import StyledTemplate.Proofs.Template.Built
import StyledTemplate.Proofs.Render.Dropped
import StyledTemplate.Proofs.Render.Coalescing
import StyledTemplate.Proofs.Image.Headers
import StyledTemplate.Proofs.Image.Reading
import StyledTemplate.Proofs.Bindings.Registers
import StyledTemplate.Proofs.Settings.Partial
import StyledTemplate.Proofs.Render.Restored
import StyledTemplate.Proofs.Json.Union
import StyledTemplate.Proofs.Value.Equality
import StyledTemplate.Proofs.Document.Cutting
