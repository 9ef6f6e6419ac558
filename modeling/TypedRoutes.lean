import TypedRoutes.Binding
import TypedRoutes.Command.Arguments
import TypedRoutes.Command.Disk
import TypedRoutes.Command.Path
import TypedRoutes.Command.Run
import TypedRoutes.Diagnostic
import TypedRoutes.Document
import TypedRoutes.Emission.Block
import TypedRoutes.Emission.Code
import TypedRoutes.Emission.Codec
import TypedRoutes.Emission.EnumTable
import TypedRoutes.Emission.Getter
import TypedRoutes.Emission.Helper
import TypedRoutes.Emission.Library
import TypedRoutes.Emission.Query
import TypedRoutes.Emission.Route
import TypedRoutes.Json.Reader
import TypedRoutes.Json.Record
import TypedRoutes.Json.Schema
import TypedRoutes.Json.Value
import TypedRoutes.Json.Writer
import TypedRoutes.Layout.Doc
import TypedRoutes.Main
import TypedRoutes.Navigation.Location
import TypedRoutes.Navigation.Match
import TypedRoutes.Navigation.Route
import TypedRoutes.Path.Join
import TypedRoutes.Path.Template
import TypedRoutes.Sample.Tree
import TypedRoutes.Sample.Value
import TypedRoutes.Schema.Annotation
import TypedRoutes.Schema.Catalog
import TypedRoutes.Schema.Type
import TypedRoutes.Settings
import TypedRoutes.Suggestion
import TypedRoutes.Syntax.Grouping
import TypedRoutes.Syntax.Lexer
import TypedRoutes.Syntax.Literal
import TypedRoutes.Syntax.Parser.Basic
import TypedRoutes.Syntax.Parser.Expr
import TypedRoutes.Syntax.Parser.Item
import TypedRoutes.Syntax.Parser.Pattern
import TypedRoutes.Syntax.Parser.Source
import TypedRoutes.Syntax.Parser.Statement
import TypedRoutes.Syntax.Parser.Type
import TypedRoutes.Syntax.Printer.Expr
import TypedRoutes.Syntax.Printer.Invocation
import TypedRoutes.Syntax.Printer.Item
import TypedRoutes.Syntax.Printer.Pattern
import TypedRoutes.Syntax.Printer.Source
import TypedRoutes.Syntax.Printer.Type
import TypedRoutes.Syntax.Token
import TypedRoutes.Syntax.Tree
import TypedRoutes.Text.Alphanumeric
import TypedRoutes.Text.CharClass
import TypedRoutes.Text.Decimal
import TypedRoutes.Text.EditDistance
import TypedRoutes.Text.Identifier
import TypedRoutes.Text.Lowercase
import TypedRoutes.Text.Percent
import TypedRoutes.Text.Printable
import TypedRoutes.Text.Quoted
import TypedRoutes.Text.Words
import TypedRoutes.Toml.Reader
import TypedRoutes.Toml.Settings
import TypedRoutes.Toml.Value
import TypedRoutes.Tree.Basic
import TypedRoutes.Tree.Build
import TypedRoutes.Proofs.Percent
import TypedRoutes.Proofs.Query
import TypedRoutes.Proofs.QueryInvariant
import TypedRoutes.Proofs.Match
import TypedRoutes.Proofs.Sample
import TypedRoutes.Proofs.Binding
import TypedRoutes.Proofs.Build
import TypedRoutes.Proofs.Chain
import TypedRoutes.Proofs.PostOrder
import TypedRoutes.Proofs.Fragment
import TypedRoutes.Proofs.QueryMeaning
import TypedRoutes.Proofs.QueryParameter
import TypedRoutes.Proofs.ScalarParameter
import TypedRoutes.Proofs.ListParameter
import TypedRoutes.Proofs.Template
import TypedRoutes.Proofs.Numbering
import TypedRoutes.Proofs.Arena
import TypedRoutes.Proofs.JoinLaws
import TypedRoutes.Proofs.Continuation
import TypedRoutes.Proofs.FilledTemplate
import TypedRoutes.Proofs.JoinedTemplate
import TypedRoutes.Proofs.FaultyMarker
import TypedRoutes.Proofs.Inherited
import TypedRoutes.Proofs.WellBound
import TypedRoutes.Proofs.NavigatorKey
import TypedRoutes.Proofs.QueryKey
import TypedRoutes.Proofs.Blocks
import TypedRoutes.Proofs.Assembly
import TypedRoutes.Proofs.Mention
import TypedRoutes.Proofs.References
import TypedRoutes.Proofs.HelperScan
import TypedRoutes.Proofs.HelperOrder
import TypedRoutes.Proofs.Lexing
import TypedRoutes.Proofs.SelfContained
import TypedRoutes.Proofs.Substitution
import TypedRoutes.Proofs.Outline
import TypedRoutes.Proofs.Quoted
import TypedRoutes.Proofs.RouteReader
import TypedRoutes.Proofs.Getter
import TypedRoutes.Proofs.PlainName
import TypedRoutes.Proofs.Locals
import TypedRoutes.Proofs.Hygiene
import TypedRoutes.Proofs.NormalForm
import TypedRoutes.Proofs.FirstFault
import TypedRoutes.Proofs.Footprint
import TypedRoutes.Proofs.Escapes
import TypedRoutes.Proofs.JsonText
import TypedRoutes.Proofs.JsonRecord
import TypedRoutes.Proofs.JsonSchema
import TypedRoutes.Proofs.Document
import TypedRoutes.Proofs.Files
import TypedRoutes.Proofs.Command
import TypedRoutes.Proofs.PathText
import TypedRoutes.Proofs.EnumTable
import TypedRoutes.Proofs.SampleOutcome
import TypedRoutes.Proofs.Readers
import TypedRoutes.Proofs.GrammarLevels
import TypedRoutes.Proofs.Operand
import TypedRoutes.Proofs.BlockAhead
import TypedRoutes.Proofs.TypesAhead
import TypedRoutes.Proofs.OperandAhead
import TypedRoutes.Proofs.Precedence
import TypedRoutes.Proofs.DefaultComparison
import TypedRoutes.Proofs.Classification
import TypedRoutes.Proofs.AssemblyOrder
import TypedRoutes.Proofs.Reading
import TypedRoutes.Proofs.ReadableTypes
import TypedRoutes.Proofs.ReadableTerms
import TypedRoutes.Proofs.ReadableExpressions
import TypedRoutes.Proofs.ReadableStatements
import TypedRoutes.Proofs.ReadableItems
import TypedRoutes.Proofs.ReadableBindings
import TypedRoutes.Proofs.ReadableRoutes
import TypedRoutes.Proofs.ReadableBlocks
import TypedRoutes.Proofs.Rendering
import TypedRoutes.Proofs.EditDistance
import TypedRoutes.Proofs.Suggestion
import TypedRoutes.Proofs.ByteOrder
import TypedRoutes.Proofs.CatalogMap
import TypedRoutes.Proofs.NameStyles
import TypedRoutes.Proofs.ConfiguredNames
import TypedRoutes.Proofs.EditScript
import TypedRoutes.Proofs.EmissionFaults
import TypedRoutes.Proofs.RepeatedChecks
import TypedRoutes.Proofs.SampleCode
