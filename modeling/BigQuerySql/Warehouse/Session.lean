import BigQuerySql.Text.Blank
import BigQuerySql.Warehouse.Client

namespace BigQuerySql

/-- The settings of a connection. The dataset may be qualified with the project that holds its data. -/
structure ClientConfig where
  project : String
  dataset : Option String
  applicationName : Option String
  partitionColumn : Option String
  naming : ParamNaming

namespace ClientConfig

def version : String := "0.1.0"

def toJson (c : ClientConfig) : Json :=
  .obj [("project_id", .str c.project), ("dataset_id", Json.ofOption .str c.dataset),
    ("application_name", Json.ofOption .str c.applicationName),
    ("partition_column", Json.ofOption .str c.partitionColumn),
    ("param_naming", .str c.naming.name)]

def ofJson? (j : Json) : Option ClientConfig :=
  match j.record? ["project_id", "dataset_id", "application_name", "partition_column",
      "param_naming"] 1 with
  | some [some project, dataset, applicationName, partitionColumn, naming] => do
    return ⟨← project.str?, ← Json.optional? Json.str? dataset,
      ← Json.optional? Json.str? applicationName,
      ← Json.orDefault? (some TableMetadata.defaultPartitionColumn) (Json.nullable? Json.str?)
        partitionColumn,
      ← Json.orDefault? .declared (Json.named? false ParamNaming.ofName?) naming⟩
  | _ => none

def userAgent (c : ClientConfig) : String :=
  let own := "bqsql/" ++ version
  match c.applicationName with
  | some application => application ++ " " ++ own
  | none => own

end ClientConfig

structure Location where
  dataProject : String
  billingProject : String
  dataset : Option String
deriving DecidableEq, Repr

namespace Location

/-- A qualified dataset is read from its own project; jobs are always billed to the given one. -/
def ofNames (project dataset : String) : Except ClientError Location :=
  match Text.split '.' dataset with
  | [name] => .ok ⟨project, project, if name.isEmpty then none else some name⟩
  | [dataProject, name] => .ok ⟨dataProject, project, some name⟩
  | _ => .error (.invalidDataset dataset)

end Location

structure Session where
  config : ClientConfig
  location : Location

structure Cursor where
  jobId : String
  result : QueryResult

namespace Session

def connect (config : ClientConfig) : Except ClientError Session := do
  if config.project.isEmpty then throw (.connection .emptyProject)
  return ⟨config, ← Location.ofNames config.project (config.dataset.getD "")⟩

def compile (s : Session) (e : Expr) (params : Params) : Except ClientError CompiledQuery :=
  ((Compiler.bigQuery s.config.naming).compile e params).mapError .sql

def job (s : Session) (jobId : String) (q : CompiledQuery) : QueryJob where
  id := jobId
  billingProject := s.location.billingProject
  dataset := s.location.dataset
  sql := q.sql
  parameters := q.parameters
  userAgent := s.config.userAgent

def execute (s : Session) (w : Warehouse) (jobId : String) (e : Expr) (params : Params) :
    Except ClientError Cursor × Warehouse :=
  match s.compile e params with
  | .error error => (.error error, w)
  | .ok query =>
    let (answer, w) := w.submit (s.job jobId query)
    (answer.map fun result => ⟨jobId, result⟩, w)

def tableRef (s : Session) (name : String) : Except ClientError TableRef :=
  match Text.split '.' name with
  | [table] =>
    match s.location.dataset with
    | some dataset => .ok ⟨s.location.dataProject, dataset, table⟩
    | none => .error (.connection (.noDataset name))
  | [dataset, table] => .ok ⟨s.location.dataProject, dataset, table⟩
  | [project, dataset, table] => .ok ⟨project, dataset, table⟩
  | _ => .error (.connection (.tableName name))

def table (s : Session) (w : Warehouse) (name : String) : Except ClientError Expr := do
  let reference ← s.tableRef name
  let metadata ← w.getTable reference
  let schema ← metadata.schema.mapError .sql
  return Expr.table reference.display (metadata.renamePartition s.config.partitionColumn schema)

end Session

end BigQuerySql
