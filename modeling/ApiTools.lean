import ApiTools.Acceptance.Consistency
import ApiTools.Acceptance.Grammar
import ApiTools.Acceptance.Instance
import ApiTools.Acceptance.Shape
import ApiTools.Acceptance.Template
import ApiTools.CommandLine.Arguments
import ApiTools.CommandLine.Failure
import ApiTools.CommandLine.Run
import ApiTools.Document.Basic
import ApiTools.Document.Load
import ApiTools.Document.Loader
import ApiTools.Document.Read
import ApiTools.Document.Source
import ApiTools.Emission.Project
import ApiTools.Emission.Signature
import ApiTools.Emission.Write
import ApiTools.Encoding.Detect
import ApiTools.Encoding.Utf8
import ApiTools.Exchange.Execution
import ApiTools.Exchange.Reply
import ApiTools.Files.Path
import ApiTools.Json.Equivalence
import ApiTools.Json.Fields
import ApiTools.Json.Reader
import ApiTools.Json.Value
import ApiTools.Json.Writer
import ApiTools.Literal.Basic
import ApiTools.Literal.Reader
import ApiTools.Logged
import ApiTools.Number.Arithmetic
import ApiTools.Number.Double
import ApiTools.Number.Numeral
import ApiTools.Number.Seconds
import ApiTools.Number.Shortest
import ApiTools.Number.Typed
import ApiTools.Redaction
import ApiTools.Request.Argument
import ApiTools.Request.Basic
import ApiTools.Request.Query
import ApiTools.Schema.NullUnion
import ApiTools.Schema.Repair
import ApiTools.Server.Basic
import ApiTools.Server.Http
import ApiTools.Service
import ApiTools.Settings.Basic
import ApiTools.Settings.Read
import ApiTools.Spec.Normal
import ApiTools.Spec.Reference
import ApiTools.Spec.Version
import ApiTools.Text.Basic
import ApiTools.Text.Blank
import ApiTools.Text.Case
import ApiTools.Text.Letter
import ApiTools.Text.Numeral
import ApiTools.Text.Pattern
import ApiTools.Text.Printable
import ApiTools.Text.Ranges
import ApiTools.Tool.Basic
import ApiTools.Tool.Catalog
import ApiTools.Tool.Identifier
import ApiTools.Tool.InputModel
import ApiTools.Tool.Record
import ApiTools.Tool.Registry
import ApiTools.Validation.Issue
import ApiTools.Validation.Lenient
import ApiTools.Yaml.Atom
import ApiTools.Yaml.Content
import ApiTools.Yaml.Cursor
import ApiTools.Yaml.Graph
import ApiTools.Yaml.Lexer
import ApiTools.Yaml.Merge
import ApiTools.Yaml.Scalar
import ApiTools.Yaml.Tag
import ApiTools.Yaml.Timestamp
import ApiTools.Yaml.Token
import ApiTools.Yaml.Data
import ApiTools.Main
import ApiTools.Proofs.PathSubstitution
import ApiTools.Proofs.Slots
import ApiTools.Proofs.OwnArguments
import ApiTools.Proofs.RequestParts
import ApiTools.Proofs.ArgumentPlaces
import ApiTools.Proofs.AsciiTexts
import ApiTools.Proofs.Assignment
import ApiTools.Proofs.Collection
import ApiTools.Proofs.CatalogTools
import ApiTools.Proofs.ToolRecord
import ApiTools.Proofs.EmittedAgreement
import ApiTools.Proofs.EmbeddedTools
import ApiTools.Proofs.LiteralTexts
import ApiTools.Proofs.LiteralValues
import ApiTools.Proofs.ModuleText
import ApiTools.Proofs.NormalDocuments
import ApiTools.Proofs.NormalForm
import ApiTools.Proofs.UntouchedParts
import ApiTools.Proofs.NullableParameters
import ApiTools.Proofs.MethodNames
import ApiTools.Proofs.ReadDocuments
import ApiTools.Proofs.DeclaredOperations
import ApiTools.Proofs.OperationTools
import ApiTools.Proofs.EffectiveParameters
import ApiTools.Proofs.Loads
import ApiTools.Proofs.RegistryRuns
import ApiTools.Proofs.BoundedStaleness
import ApiTools.Proofs.FailedLoads
import ApiTools.Proofs.HiddenValues
import ApiTools.Proofs.ContainedFailures
import ApiTools.Proofs.JsonArguments
import ApiTools.Proofs.FieldOrder
import ApiTools.Proofs.BodyTexts
import ApiTools.Proofs.GivenArguments
import ApiTools.Proofs.SharedIdentifiers
import ApiTools.Proofs.CallSequences
import ApiTools.Proofs.SlotNames
import ApiTools.Proofs.HeaderPolicy
import ApiTools.Proofs.Signatures
import ApiTools.Proofs.QueryRoundTrip
import ApiTools.Proofs.RequestUrl
import ApiTools.Proofs.CollidingIdentifiers
import ApiTools.Proofs.WritableDocuments
import ApiTools.Proofs.RejectedDocuments
import ApiTools.Proofs.UnfoldedData
import ApiTools.Proofs.FetchedDocuments
import ApiTools.Proofs.LiftedMembers
import ApiTools.Request.QueryReader
import ApiTools.Toml.Reader
import ApiTools.Proofs.SplitTexts
import ApiTools.Proofs.QuotedValues
import ApiTools.Proofs.ProjectNames
import ApiTools.Proofs.PackageDescriptions
import ApiTools.Proofs.CleanTexts
import ApiTools.Proofs.ProjectTexts
import ApiTools.Proofs.InlinedReferences
import ApiTools.Proofs.LoadedTexts
import ApiTools.Proofs.WrittenProjects
import ApiTools.Proofs.CachedCatalogs
import ApiTools.Proofs.ServerUrls
import ApiTools.Proofs.ReplacedTexts
import ApiTools.Proofs.TrimmedTexts
import ApiTools.Proofs.BearerTokens
import ApiTools.Proofs.AllowedTools
import ApiTools.Proofs.UniqueNames
import ApiTools.Proofs.RepairDepth
import ApiTools.Proofs.CatalogTexts
import ApiTools.Proofs.RepeatedNames
import ApiTools.Proofs.PrintedCatalogs
import ApiTools.Proofs.Correspondence
import ApiTools.Proofs.DecimalNotation
import ApiTools.Proofs.DistinctNames
import ApiTools.Proofs.EmittedPrograms
import ApiTools.Proofs.Fields
import ApiTools.Proofs.FreshName
import ApiTools.Proofs.JsonNumbers
import ApiTools.Proofs.JsonRoundTrip
import ApiTools.Proofs.JsonStrings
import ApiTools.Proofs.NullUnions
import ApiTools.Proofs.Outcome
import ApiTools.Proofs.Placeholder
import ApiTools.Proofs.Places
import ApiTools.Proofs.Rounding
import ApiTools.Proofs.ShortestDecimal
import ApiTools.Proofs.SlotValues
import ApiTools.Proofs.SourceLines
import ApiTools.Proofs.Utf8RoundTrip
