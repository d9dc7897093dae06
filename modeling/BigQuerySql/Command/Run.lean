import BigQuerySql.Command.Arguments
import BigQuerySql.Command.Files
import BigQuerySql.Expr.Codec
import BigQuerySql.Json.Printer
import BigQuerySql.Json.Reader
import BigQuerySql.Settings.File

namespace BigQuerySql

inductive CommandError where
  | usage (error : UsageError)
  | settings (error : SettingsError)
  | unreadable (path : String)
  | unparsable (path : String)
  | sql (error : SqlError)
  | client (error : ClientError)

namespace CommandError

def message : CommandError → String
  | .usage error => error.message
  | .settings error => error.message
  | .unreadable path => "reading " ++ path
  | .unparsable path => "parsing " ++ path
  | .sql error => error.message
  | .client error => error.message

end CommandError

structure Report where
  output : String
  settings : Settings

namespace Command

def readJson {α : Type} (files : Files) (decode : Json → Option α) (path : String) :
    Except CommandError α :=
  match files path with
  | .missing | .unreadable => .error (.unreadable path)
  | .text text =>
    match (Json.document? text).bind decode with
    | some a => .ok a
    | none => .error (.unparsable path)

def queryText (q : CompiledQuery) : String :=
  q.sql ++ "\n" ++
    if q.parameters.isEmpty then ""
    else "\n" ++ (Json.arr (q.parameters.map QueryParameter.toWire)).pretty ++ "\n"

def compileText (files : Files) (settings : Settings) (expr : String) (params : Option String) :
    Except CommandError String := do
  let e ← readJson files Expr.ofJson? expr
  let values ← match params with
    | some path => readJson files Params.ofJson? path
    | none => .ok []
  let q ← ((Compiler.bigQuery settings.naming).compile e values).mapError .sql
  return queryText q

def columnText (f : FieldType) : String :=
  "  " ++ f.name ++ ": " ++ f.dtype.display ++ (if f.nullable then "" else " NOT NULL") ++ "\n"

/-- The columns of a table, which is looked up by its full name. Its project is billed unless the settings
name another one. -/
def schemaText (files : Files) (settings : Settings) (table : String) :
    Except CommandError String := do
  let metadata ← readJson files TableMetadata.ofJson? table
  let name := metadata.reference.display
  let connection := settings.connection.withProject metadata.reference.project
  let config ← (connection.client settings.naming).mapError .settings
  let session ← (Session.connect config).mapError .client
  let scan ← (session.table (Warehouse.empty.addTable metadata) name).mapError .client
  match scan.op with
  | .tableScan _ columns => return name ++ "\n" ++ String.join (columns.fields.map columnText)
  | _ => throw (.client (.tableNotFound name))

def run (command : Command) (files : Files) (settings : Settings) : Except CommandError String :=
  match command with
  | .compile expr params => compileText files settings expr params
  | .schema table => schemaText files settings table

end Command

def loadSettings (files : Files) (path : String) (env : Environment) : Except SettingsError Settings :=
  match files path with
  | .missing => Settings.load none env
  | .unreadable => .error .unreadable
  | .text text => Settings.load (some text) env

namespace Invocation

def run (i : Invocation) (files : Files) (env : Environment) : Except CommandError Report := do
  let settings ← (loadSettings files i.config env).mapError .settings
  return ⟨← i.command.run files settings, settings⟩

end Invocation

namespace Command

def execute (args : List String) (files : Files) (env : Environment) : Except CommandError Report := do
  let i ← (Arguments.read args).mapError .usage
  i.run files env

end Command

end BigQuerySql
