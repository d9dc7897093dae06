import BigQuerySql.Warehouse.Session

namespace BigQuerySql

abbrev Environment := String → Option String

structure ConnectionSettings where
  project : Option String
  dataset : Option String
  applicationName : Option String
  partitionColumn : Option String
deriving DecidableEq, Repr

structure LoggingSettings where
  level : String
  format : String
  output : String
  directory : String
deriving DecidableEq, Repr

structure Settings where
  connection : ConnectionSettings
  naming : ParamNaming
  logging : LoggingSettings
deriving DecidableEq, Repr

inductive SettingsError where
  | unreadable
  | malformed
  | missing (setting : String)
  | invalid (key value : String)
deriving DecidableEq, Repr

namespace SettingsError

def message : SettingsError → String
  | .unreadable => "Failed to read config file"
  | .malformed => "Failed to parse YAML"
  | .missing setting => "Missing required setting: " ++ setting
  | .invalid key value => "Invalid value for " ++ key ++ ": '" ++ value ++ "'"

end SettingsError

namespace ConnectionSettings

def default : ConnectionSettings :=
  ⟨none, none, some "bqsql-cli", some TableMetadata.defaultPartitionColumn⟩

def toJson (c : ConnectionSettings) : Json :=
  .obj [("project_id", Json.ofOption .str c.project), ("dataset_id", Json.ofOption .str c.dataset),
    ("application_name", Json.ofOption .str c.applicationName),
    ("partition_column", Json.ofOption .str c.partitionColumn)]

def withProject (c : ConnectionSettings) (project : String) : ConnectionSettings :=
  ⟨some (c.project.getD project), c.dataset, c.applicationName, c.partitionColumn⟩

def client (c : ConnectionSettings) (naming : ParamNaming) : Except SettingsError ClientConfig :=
  match c.project with
  | some project => .ok ⟨project, c.dataset, c.applicationName, c.partitionColumn, naming⟩
  | none => .error (.missing "connection.project_id (BQSQL_PROJECT_ID)")

end ConnectionSettings

namespace LoggingSettings

def default : LoggingSettings := ⟨"warn", "compact", "stderr", "./logs"⟩

def toJson (l : LoggingSettings) : Json :=
  .obj [("level", .str l.level), ("format", .str l.format), ("output", .str l.output),
    ("directory", .str l.directory)]

end LoggingSettings

namespace Settings

def default : Settings := ⟨.default, .declared, .default⟩

def toJson (s : Settings) : Json :=
  .obj [("connection", s.connection.toJson),
    ("compiler", .obj [("param_naming", .str s.naming.name)]), ("logging", s.logging.toJson)]

def overrides : List String :=
  ["BQSQL_PROJECT_ID", "BQSQL_DATASET_ID", "BQSQL_APPLICATION_NAME", "BQSQL_PARTITION_COLUMN",
   "BQSQL_PARAM_NAMING", "RUST_LOG", "LOG_FORMAT", "LOG_OUTPUT", "LOG_DIR"]

def overrideNaming (naming : ParamNaming) : Option String → Except SettingsError ParamNaming
  | none => .ok naming
  | some word =>
    match ParamNaming.ofName? word with
    | some naming => .ok naming
    | none => .error (.invalid "BQSQL_PARAM_NAMING" word)

/-- A variable replaces a setting; an empty one takes it away. -/
def overrideColumn (column : Option String) : Option String → Option String
  | none => column
  | some word => if word.isEmpty then none else some word

def overrideConnection (env : Environment) (c : ConnectionSettings) : ConnectionSettings where
  project := env "BQSQL_PROJECT_ID" <|> c.project
  dataset := env "BQSQL_DATASET_ID" <|> c.dataset
  applicationName := env "BQSQL_APPLICATION_NAME" <|> c.applicationName
  partitionColumn := overrideColumn c.partitionColumn (env "BQSQL_PARTITION_COLUMN")

def overrideLogging (env : Environment) (l : LoggingSettings) : LoggingSettings where
  level := (env "RUST_LOG").getD l.level
  format := (env "LOG_FORMAT").getD l.format
  output := (env "LOG_OUTPUT").getD l.output
  directory := (env "LOG_DIR").getD l.directory

def override (env : Environment) (s : Settings) : Except SettingsError Settings := do
  let naming ← overrideNaming s.naming (env "BQSQL_PARAM_NAMING")
  return ⟨overrideConnection env s.connection, naming, overrideLogging env s.logging⟩

def exported (s : Settings) (env : Environment) : Environment
  | "RUST_LOG" => some s.logging.level
  | "LOG_FORMAT" => some s.logging.format
  | "LOG_OUTPUT" => some s.logging.output
  | "LOG_DIR" => some s.logging.directory
  | name => env name

def client (s : Settings) : Except SettingsError ClientConfig :=
  s.connection.client s.naming

end Settings

end BigQuerySql
