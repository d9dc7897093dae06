import BigQuerySql.Settings.Basic

namespace BigQuerySql

inductive LogFormat where
  | pretty
  | json
  | compact
deriving DecidableEq, Repr

inductive LogOutput where
  | stderr
  | file
  | both
deriving DecidableEq, Repr

namespace LogFormat

def ofEnvironment (env : Environment) : LogFormat :=
  match env "LOG_FORMAT" with
  | some "json" => .json
  | some "pretty" => .pretty
  | _ => .compact

end LogFormat

namespace LogOutput

def ofEnvironment (env : Environment) : LogOutput :=
  match env "LOG_OUTPUT" with
  | some "file" => .file
  | some "both" => .both
  | _ => .stderr

end LogOutput

end BigQuerySql
