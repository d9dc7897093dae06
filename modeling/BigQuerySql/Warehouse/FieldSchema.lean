import BigQuerySql.Json.Decode
import BigQuerySql.Sql.TypeName

namespace BigQuerySql

inductive FieldMode where
  | nullable
  | required
  | repeated
deriving DecidableEq, Repr

namespace FieldMode

def name : FieldMode → String
  | .nullable => "NULLABLE"
  | .required => "REQUIRED"
  | .repeated => "REPEATED"

def ofName? : String → Option FieldMode
  | "NULLABLE" => some .nullable
  | "REQUIRED" => some .required
  | "REPEATED" => some .repeated
  | _ => none

end FieldMode

inductive FieldSchema where
  | mk (name typeName : String) (mode : FieldMode) (fields : List FieldSchema)

namespace FieldSchema

def name : FieldSchema → String
  | ⟨name, _, _, _⟩ => name

def typeName : FieldSchema → String
  | ⟨_, typeName, _, _⟩ => typeName

def mode : FieldSchema → FieldMode
  | ⟨_, _, mode, _⟩ => mode

def fields : FieldSchema → List FieldSchema
  | ⟨_, _, _, fields⟩ => fields

mutual

def toJson : FieldSchema → Json
  | ⟨name, typeName, mode, fields⟩ =>
    .obj ([("name", .str name), ("type", .str typeName), ("mode", .str mode.name)] ++
      if fields.isEmpty then [] else [("fields", .arr (listToJson fields))])

def listToJson : List FieldSchema → List Json
  | [] => []
  | f :: rest => f.toJson :: listToJson rest

end

def decode : Nat → Json → Option FieldSchema
  | 0, _ => none
  | n + 1, j =>
    match j.record? ["name", "type", "mode", "fields"] 2 with
    | some [some name, some typeName, mode, fields] => do
      let fields ← Json.orDefault? [] Json.arr? fields
      return ⟨← name.str?, ← typeName.str?,
        ← Json.orDefault? .nullable (Json.named? false FieldMode.ofName?) mode,
        ← fields.mapM (decode n)⟩
    | _ => none

def ofJson? (j : Json) : Option FieldSchema :=
  decode (j.depth + 1) j

def isRecordName (name : String) : Bool :=
  name == "RECORD" || name == "STRUCT"

def wrapped (mode : FieldMode) (dtype : DataType) : DataType :=
  if mode = .repeated then .array dtype else dtype

mutual

def dataType : FieldSchema → Except SqlError DataType
  | ⟨name, typeName, mode, fields⟩ => do
    if isRecordName typeName then
      if fields.isEmpty then throw (.unsupportedType (.emptyRecord name))
      return wrapped mode (.struct (← dataTypes fields))
    else return wrapped mode (← DataType.ofSqlName typeName)

def dataTypes : List FieldSchema → Except SqlError (List FieldType)
  | [] => .ok []
  | f :: rest => do
    let dtype ← f.dataType
    let others ← dataTypes rest
    return ⟨f.name, dtype, f.mode ≠ .required⟩ :: others

end

end FieldSchema

end BigQuerySql
