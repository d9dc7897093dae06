import BigQuerySql.Compiler
import BigQuerySql.Warehouse.Table

namespace BigQuerySql

inductive ConnectionFault where
  | emptyProject
  | noDataset (table : String)
  | tableName (name : String)
deriving DecidableEq, Repr

inductive ClientError where
  | sql (error : SqlError)
  | noResult (statement : String)
  | invalidDataset (dataset : String)
  | tableNotFound (table : String)
  | connection (fault : ConnectionFault)

namespace ConnectionFault

def message : ConnectionFault → String
  | .emptyProject => "project_id must not be empty"
  | .noDataset table => "no dataset configured to resolve table '" ++ table ++ "'"
  | .tableName name => "invalid table name '" ++ name ++ "'"

end ConnectionFault

namespace ClientError

def message : ClientError → String
  | .sql error => "Translation error: " ++ error.message
  | .noResult statement => "no canned result for query: " ++ statement
  | .invalidDataset dataset =>
    dataset ++ " is not a BigQuery dataset. More info " ++
      "https://cloud.google.com/bigquery/docs/datasets-intro"
  | .tableNotFound table => "Table '" ++ table ++ "' not found"
  | .connection fault => "Configuration error: " ++ fault.message

end ClientError

structure QueryJob where
  id : String
  billingProject : String
  dataset : Option String
  sql : String
  parameters : List QueryParameter
  userAgent : String

structure QueryResult where
  columns : List String
  rows : List (List Json)
  rowCount : Nat

namespace QueryJob

def toJson (job : QueryJob) : Json :=
  .obj [("job_id", .str job.id), ("billing_project", .str job.billingProject),
    ("default_dataset", Json.ofOption .str job.dataset), ("sql", .str job.sql),
    ("parameters", .arr (QueryParameter.listToJson job.parameters)),
    ("user_agent", .str job.userAgent)]

def defaultDataset? (job : QueryJob) : Option (String × String) :=
  job.dataset.map fun dataset => (job.billingProject, dataset)

def request (job : QueryJob) : Json :=
  .obj ((job.defaultDataset?.toList.map fun d =>
      ("defaultDataset", Json.obj [("datasetId", .str d.2), ("projectId", .str d.1)])) ++
    [("parameterMode", .str "NAMED"), ("query", .str job.sql),
     ("queryParameters", .arr (job.parameters.map QueryParameter.toWire)),
     ("requestId", .str job.id), ("useLegacySql", .bool false)])

end QueryJob

structure Warehouse where
  tables : List TableMetadata
  results : List (String × QueryResult)
  jobs : List QueryJob

namespace Warehouse

def empty : Warehouse := ⟨[], [], []⟩

def addTable (w : Warehouse) (m : TableMetadata) : Warehouse :=
  ⟨m :: w.tables, w.results, w.jobs⟩

def addResult (w : Warehouse) (sql : String) (result : QueryResult) : Warehouse :=
  ⟨w.tables, (sql, result) :: w.results, w.jobs⟩

def submit (w : Warehouse) (job : QueryJob) : Except ClientError QueryResult × Warehouse :=
  let recorded : Warehouse := ⟨w.tables, w.results, w.jobs ++ [job]⟩
  match w.results.lookup job.sql with
  | some result => (.ok result, recorded)
  | none => (.error (.noResult job.sql), recorded)

def getTable (w : Warehouse) (reference : TableRef) : Except ClientError TableMetadata :=
  match w.tables.find? fun m => m.reference = reference with
  | some m => .ok m
  | none => .error (.tableNotFound reference.display)

end Warehouse

end BigQuerySql
