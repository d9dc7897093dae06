import BigQuerySql.DataType.Codec
import BigQuerySql.Warehouse.FieldSchema

namespace BigQuerySql

structure TableRef where
  project : String
  dataset : String
  table : String
deriving DecidableEq, Repr

/-- How a table is partitioned by time; without a field it is partitioned by the time of loading. -/
structure TimePartitioning where
  kind : Option String
  field : Option String
deriving DecidableEq, Repr

structure TableMetadata where
  reference : TableRef
  fields : List FieldSchema
  partitioning : Option TimePartitioning

namespace TableRef

def display (r : TableRef) : String :=
  r.project ++ "." ++ r.dataset ++ "." ++ r.table

def toJson (r : TableRef) : Json :=
  .obj [("projectId", .str r.project), ("datasetId", .str r.dataset), ("tableId", .str r.table)]

def ofJson? (j : Json) : Option TableRef :=
  match j.record? ["projectId", "datasetId", "tableId"] 3 with
  | some [some project, some dataset, some table] => do
    return ⟨← project.str?, ← dataset.str?, ← table.str?⟩
  | _ => none

end TableRef

namespace TimePartitioning

def toJson (p : TimePartitioning) : Json :=
  .obj ((p.kind.toList.map fun kind => ("type", Json.str kind)) ++
    p.field.toList.map fun field => ("field", Json.str field))

def ofJson? (j : Json) : Option TimePartitioning :=
  match j.record? ["type", "field"] 0 with
  | some [kind, field] => do
    return ⟨← Json.optional? Json.str? kind, ← Json.optional? Json.str? field⟩
  | _ => none

end TimePartitioning

namespace TableMetadata

def toJson (m : TableMetadata) : Json :=
  .obj ([("tableReference", m.reference.toJson),
      ("schema", .obj [("fields", .arr (m.fields.map FieldSchema.toJson))])] ++
    m.partitioning.toList.map fun p => ("timePartitioning", p.toJson))

def fieldsOf? (j : Json) : Option (List FieldSchema) :=
  match j.record? ["fields"] 0 with
  | some [fields] => do
    (← Json.orDefault? [] Json.arr? fields).mapM FieldSchema.ofJson?
  | _ => none

def ofJson? (j : Json) : Option TableMetadata :=
  match j.record? ["tableReference", "schema", "timePartitioning"] 1 with
  | some [some reference, schema, partitioning] => do
    return ⟨← TableRef.ofJson? reference, ← Json.orDefault? [] fieldsOf? schema,
      ← Json.optional? TimePartitioning.ofJson? partitioning⟩
  | _ => none

def nativePartitionColumn : String := "_PARTITIONTIME"

def defaultPartitionColumn : String := "PARTITIONTIME"

def partitionColumn? (m : TableMetadata) : Option String :=
  m.partitioning.map fun p => p.field.getD nativePartitionColumn

/-- The columns of a table; one that is partitioned on a column it does not list has that one too. -/
def schema (m : TableMetadata) : Except SqlError Schema := do
  let fields ← FieldSchema.dataTypes m.fields
  match m.partitionColumn? with
  | some column =>
    if fields.any (·.name == column) then return ⟨fields⟩
    else return ⟨fields ++ [⟨column, .utcTimestamp, true⟩]⟩
  | none => return ⟨fields⟩

/-- Gives the native partition column its configured name, if there is one. Tables that are partitioned on a
column of their own stay as they are. -/
def renamePartition (m : TableMetadata) (configured : Option String) (schema : Schema) : Schema :=
  match m.partitionColumn?, configured with
  | some column, some newName =>
    if column = nativePartitionColumn then
      ⟨schema.fields.map fun f =>
        if f.name = nativePartitionColumn then ⟨newName, f.dtype, f.nullable⟩ else f⟩
    else schema
  | _, _ => schema

end TableMetadata

end BigQuerySql
