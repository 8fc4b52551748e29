import PromptMarkup.Block.Basic
import PromptMarkup.Block.Markup
import PromptMarkup.Block.Presenting
import PromptMarkup.Block.Style
import PromptMarkup.Block.Table
import PromptMarkup.Chat.Format
import PromptMarkup.Chat.Frame
import PromptMarkup.Chat.LangChain
import PromptMarkup.Chat.OpenAi
import PromptMarkup.Chat.Style
import PromptMarkup.CommandLine.Arguments
import PromptMarkup.CommandLine.Memory
import PromptMarkup.CommandLine.Run
import PromptMarkup.CommandLine.RunRecord
import PromptMarkup.Compilation
import PromptMarkup.Component.Basic
import PromptMarkup.Component.Catalogue
import PromptMarkup.Component.Registry
import PromptMarkup.Component.Stylesheet
import PromptMarkup.Component.Tree
import PromptMarkup.Decimal.Binary
import PromptMarkup.Decimal.Reader
import PromptMarkup.Decimal.Shortest
import PromptMarkup.Editor.Analysis
import PromptMarkup.Editor.Completion
import PromptMarkup.Evaluation.Attribute
import PromptMarkup.Evaluation.Binding
import PromptMarkup.Evaluation.Declaration
import PromptMarkup.Evaluation.Document
import PromptMarkup.Evaluation.Include
import PromptMarkup.Evaluation.State
import PromptMarkup.Evaluation.Trace
import PromptMarkup.Expr.Basic
import PromptMarkup.Expr.Error
import PromptMarkup.Expr.Evaluate
import PromptMarkup.Expr.Functions
import PromptMarkup.Expr.Parser
import PromptMarkup.Expr.Printer
import PromptMarkup.Expr.Token
import PromptMarkup.Files.Disk
import PromptMarkup.Files.Loader
import PromptMarkup.Files.Path
import PromptMarkup.Json.Basic
import PromptMarkup.Json.Printer
import PromptMarkup.Json.Reader
import PromptMarkup.Main
import PromptMarkup.Markup.Attribute
import PromptMarkup.Markup.Document
import PromptMarkup.Markup.Lexer
import PromptMarkup.Markup.Name
import PromptMarkup.Markup.Node
import PromptMarkup.Markup.Piece
import PromptMarkup.Markup.Problem
import PromptMarkup.Markup.Token
import PromptMarkup.Markup.Tree
import PromptMarkup.Output.Fragment
import PromptMarkup.Output.Layout
import PromptMarkup.Output.Part
import PromptMarkup.Output.SourceMap
import PromptMarkup.Output.Speakers
import PromptMarkup.Output.Writer
import PromptMarkup.Output.Xml
import PromptMarkup.Output.Yaml
import PromptMarkup.Proofs.Block.DocumentRanges
import PromptMarkup.Proofs.Block.Lowering
import PromptMarkup.Proofs.Block.MarkupReading
import PromptMarkup.Proofs.Block.Positions
import PromptMarkup.Proofs.Block.Regions
import PromptMarkup.Proofs.Chat.Agreement
import PromptMarkup.Proofs.Chat.RequestFields
import PromptMarkup.Proofs.Chat.RuntimeKeys
import PromptMarkup.Proofs.CommandLine.Outcomes
import PromptMarkup.Proofs.CommandLine.Records
import PromptMarkup.Proofs.Component.Cascade
import PromptMarkup.Proofs.Component.Names
import PromptMarkup.Proofs.Component.RenamedTree
import PromptMarkup.Proofs.Editor.Completions
import PromptMarkup.Proofs.Editor.PropertyNames
import PromptMarkup.Proofs.Evaluation.Conduct
import PromptMarkup.Proofs.Evaluation.Coupling
import PromptMarkup.Proofs.Evaluation.Declarations
import PromptMarkup.Proofs.Evaluation.IncludeStack
import PromptMarkup.Proofs.Evaluation.Isolation
import PromptMarkup.Proofs.Evaluation.Journal
import PromptMarkup.Proofs.Evaluation.Provenance
import PromptMarkup.Proofs.Evaluation.Quiet
import PromptMarkup.Proofs.Evaluation.Reporting
import PromptMarkup.Proofs.Evaluation.Restoring
import PromptMarkup.Proofs.Evaluation.Scopes
import PromptMarkup.Proofs.Evaluation.Sorting
import PromptMarkup.Proofs.Evaluation.TraceOrder
import PromptMarkup.Proofs.Evaluation.TraceRanges
import PromptMarkup.Proofs.Evaluation.TwinDocuments
import PromptMarkup.Proofs.Evaluation.TwinElements
import PromptMarkup.Proofs.Evaluation.TwinSteps
import PromptMarkup.Proofs.Evaluation.Twins
import PromptMarkup.Proofs.Evaluation.Walk
import PromptMarkup.Proofs.Expr.Braces
import PromptMarkup.Proofs.Expr.FreeNames
import PromptMarkup.Proofs.Expr.Height
import PromptMarkup.Proofs.Expr.Outcome
import PromptMarkup.Proofs.Expr.Printing
import PromptMarkup.Proofs.Expr.Ranks
import PromptMarkup.Proofs.Expr.Spelling
import PromptMarkup.Proofs.Expr.Tallest
import PromptMarkup.Proofs.Expr.TokenPlaces
import PromptMarkup.Proofs.Files.Disk
import PromptMarkup.Proofs.Files.Location
import PromptMarkup.Proofs.Markup.DeepElements
import PromptMarkup.Proofs.Markup.ElementDepth
import PromptMarkup.Proofs.Markup.ExpressionTemplate
import PromptMarkup.Proofs.Markup.Lexemes
import PromptMarkup.Proofs.Markup.LexerLocality
import PromptMarkup.Proofs.Markup.LexerRun
import PromptMarkup.Proofs.Markup.LexerSteps
import PromptMarkup.Proofs.Markup.LiteralBody
import PromptMarkup.Proofs.Markup.LiteralLexemes
import PromptMarkup.Proofs.Markup.NamePlaces
import PromptMarkup.Proofs.Markup.NodeOrigins
import PromptMarkup.Proofs.Markup.NodePlaces
import PromptMarkup.Proofs.Markup.Outline
import PromptMarkup.Proofs.Markup.OutlineLexemes
import PromptMarkup.Proofs.Markup.PiecePlaces
import PromptMarkup.Proofs.Markup.ProblemPlaces
import PromptMarkup.Proofs.Markup.RenamedDocument
import PromptMarkup.Proofs.Markup.RenamedPieces
import PromptMarkup.Proofs.Markup.RenamedTags
import PromptMarkup.Proofs.Markup.Renaming
import PromptMarkup.Proofs.Markup.Respelling
import PromptMarkup.Proofs.Markup.RoundTrip
import PromptMarkup.Proofs.Markup.TagFront
import PromptMarkup.Proofs.Markup.TagLexemes
import PromptMarkup.Proofs.Markup.TagLexing
import PromptMarkup.Proofs.Markup.TagOrigins
import PromptMarkup.Proofs.Markup.TagPlaces
import PromptMarkup.Proofs.Markup.TemplatePlaces
import PromptMarkup.Proofs.Markup.TemplateText
import PromptMarkup.Proofs.Markup.TokenTiling
import PromptMarkup.Proofs.Markup.TreePlaces
import PromptMarkup.Proofs.Markup.TreeTiling
import PromptMarkup.Proofs.Output.Carriers
import PromptMarkup.Proofs.Output.ComponentNames
import PromptMarkup.Proofs.Output.CopyAnswers
import PromptMarkup.Proofs.Output.ElementReading
import PromptMarkup.Proofs.Output.FilteredText
import PromptMarkup.Proofs.Output.FragmentEdits
import PromptMarkup.Proofs.Output.FragmentResemblance
import PromptMarkup.Proofs.Output.FragmentText
import PromptMarkup.Proofs.Output.LayoutResemblance
import PromptMarkup.Proofs.Output.ListMarkers
import PromptMarkup.Proofs.Output.OffsetAnswers
import PromptMarkup.Proofs.Output.ParagraphText
import PromptMarkup.Proofs.Output.PieceLaws
import PromptMarkup.Proofs.Output.PieceOrigins
import PromptMarkup.Proofs.Output.PlainLayout
import PromptMarkup.Proofs.Output.RichParts
import PromptMarkup.Proofs.Output.SingleSpeaker
import PromptMarkup.Proofs.Output.SpeakerRuns
import PromptMarkup.Proofs.Output.SpeakerUnits
import PromptMarkup.Proofs.Output.Tables
import PromptMarkup.Proofs.Output.XmlValues
import PromptMarkup.Proofs.Schema.Acceptance
import PromptMarkup.Proofs.Schema.BodyPlaces
import PromptMarkup.Proofs.Schema.Collecting
import PromptMarkup.Proofs.Schema.FaultPlaces
import PromptMarkup.Proofs.Schema.Interpolation
import PromptMarkup.Proofs.Schema.Making
import PromptMarkup.Proofs.Schema.Modifiers
import PromptMarkup.Proofs.Schema.Pointers
import PromptMarkup.Proofs.Schema.TermMeaning
import PromptMarkup.Proofs.Schema.Terms
import PromptMarkup.Proofs.Schema.Usability
import PromptMarkup.Proofs.Source.Lines
import PromptMarkup.Proofs.Source.Reading
import PromptMarkup.Proofs.Value.Fields
import PromptMarkup.Proofs.Value.WholeNumbers
import PromptMarkup.Schema.Builder
import PromptMarkup.Schema.Collector
import PromptMarkup.Schema.Declaration
import PromptMarkup.Schema.Namespace
import PromptMarkup.Schema.Validation
import PromptMarkup.Scope
import PromptMarkup.Source.Diagnostic
import PromptMarkup.Source.Lines
import PromptMarkup.Source.Span
import PromptMarkup.Text.Base64
import PromptMarkup.Text.Blank
import PromptMarkup.Text.Case
import PromptMarkup.Text.Cut
import PromptMarkup.Text.Entities
import PromptMarkup.Text.Letters
import PromptMarkup.Text.Quoted
import PromptMarkup.Text.Ranges
import PromptMarkup.Text.Utf8
import PromptMarkup.Value.Basic
import PromptMarkup.Value.Libraries
import PromptMarkup.Value.Methods
import PromptMarkup.Value.Number
