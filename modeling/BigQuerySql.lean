import BigQuerySql.Calendar.Basic
import BigQuerySql.Calendar.Reader
import BigQuerySql.Command.Arguments
import BigQuerySql.Command.Basic
import BigQuerySql.Command.Files
import BigQuerySql.Command.Run
import BigQuerySql.Compiler
import BigQuerySql.DataType.Basic
import BigQuerySql.DataType.Codec
import BigQuerySql.DispatchTable
import BigQuerySql.Expr.Basic
import BigQuerySql.Expr.Build
import BigQuerySql.Expr.Codec
import BigQuerySql.Expr.Kind
import BigQuerySql.Json.Basic
import BigQuerySql.Json.Decode
import BigQuerySql.Json.Printer
import BigQuerySql.Json.Reader
import BigQuerySql.Lowering.Pass
import BigQuerySql.Lowering.Rule
import BigQuerySql.Main
import BigQuerySql.Number.Binary64
import BigQuerySql.Number.Shortest
import BigQuerySql.Number.Text
import BigQuerySql.Parameter.Basic
import BigQuerySql.Parameter.Bind
import BigQuerySql.Proofs.Lexis
import BigQuerySql.Proofs.Rendering
import BigQuerySql.Settings.Basic
import BigQuerySql.Settings.File
import BigQuerySql.Settings.Logging
import BigQuerySql.Sql.BigQuery
import BigQuerySql.Sql.Error
import BigQuerySql.Sql.Formatter
import BigQuerySql.Sql.Generic
import BigQuerySql.Sql.Layout
import BigQuerySql.Sql.Literal
import BigQuerySql.Sql.Quote
import BigQuerySql.Sql.Render
import BigQuerySql.Sql.TypeName
import BigQuerySql.Text.Base64
import BigQuerySql.Text.Blank
import BigQuerySql.Text.Sha256
import BigQuerySql.Text.Upper
import BigQuerySql.Value.Basic
import BigQuerySql.Value.Codec
import BigQuerySql.Warehouse.Client
import BigQuerySql.Warehouse.FieldSchema
import BigQuerySql.Warehouse.Session
import BigQuerySql.Warehouse.Table
import BigQuerySql.Yaml.Basic
import BigQuerySql.Yaml.Cursor
import BigQuerySql.Yaml.Reader
import BigQuerySql.Yaml.Scalar
import BigQuerySql.Yaml.Scan
import BigQuerySql.Yaml.Token
import BigQuerySql.Proofs.SetOperations
import BigQuerySql.Proofs.LiteralTokens
import BigQuerySql.Proofs.Nesting
import BigQuerySql.Proofs.Shapes
import BigQuerySql.Proofs.Names
import BigQuerySql.Proofs.Binding
import BigQuerySql.Proofs.WireConformance
import BigQuerySql.Proofs.Lowering
import BigQuerySql.Proofs.TruthValues
import BigQuerySql.Proofs.Renaming
import BigQuerySql.Proofs.ParameterNaming
import BigQuerySql.Proofs.WrittenParameters
import BigQuerySql.Proofs.Readings
import BigQuerySql.Proofs.Adjacency
import BigQuerySql.Proofs.Precedence
import BigQuerySql.Proofs.NormalForms
import BigQuerySql.Proofs.Digits
import BigQuerySql.Proofs.NumberText
import BigQuerySql.Proofs.DoubleText
import BigQuerySql.Proofs.JsonText
import BigQuerySql.Proofs.CalendarText
import BigQuerySql.Proofs.SteadyDocuments
import BigQuerySql.Proofs.Documents
import BigQuerySql.Proofs.DistinctTexts
import BigQuerySql.Proofs.Masks
import BigQuerySql.Proofs.Fingerprints
import BigQuerySql.Proofs.ContentErrors
import BigQuerySql.Proofs.RecordedParameters
import BigQuerySql.Proofs.ParameterValues
import BigQuerySql.Proofs.FailingNodes
import BigQuerySql.Proofs.Inlining
import BigQuerySql.Proofs.Connections
import BigQuerySql.Proofs.SubmittedJobs
import BigQuerySql.Proofs.BindableValues
import BigQuerySql.Proofs.FirstAppearances
import BigQuerySql.Proofs.FieldTypes
import BigQuerySql.Proofs.TableReferences
import BigQuerySql.Proofs.ResolvedSchemas
import BigQuerySql.Proofs.StringScanning
import BigQuerySql.Proofs.Formulas
import BigQuerySql.Proofs.Placeholders
import BigQuerySql.Proofs.ParameterOrder
import BigQuerySql.Proofs.NumberedPlaceholders
import BigQuerySql.Proofs.Operands
import BigQuerySql.Proofs.TemporalLiterals
import BigQuerySql.Proofs.TableHistories
import BigQuerySql.Proofs.JsonNesting
import BigQuerySql.Proofs.QueryIdentities
import BigQuerySql.Proofs.Termination
import BigQuerySql.Proofs.SetChains
