import BigQuerySql.Parameter.Basic
import BigQuerySql.Sql.TypeName

namespace BigQuerySql

namespace Value

/-- The instant that a value of a timestamp type stands for. A wall clock reading is taken to be in UTC. -/
def instant? : Value → Option DateTime
  | .instant t => some t
  | v => v.dateTime?

end Value

namespace QueryParameter

def noBinding (dtype : DataType) (v : Value) : SqlError :=
  .parameterBinding (.noBinding dtype v.shape)

def bindScalar (name : String) (dtype : DataType) (v : Value) : Except SqlError QueryParameter :=
  match dtype, v with
  | .timestamp _, v =>
    match v.instant? with
    | some t => .ok (.scalar name "TIMESTAMP" (.instant t))
    | none => .error (noBinding dtype v)
  | .date, v =>
    match v.date? with
    | some d => .ok (.scalar name "DATE" (.date d))
    | none => .error (noBinding dtype v)
  | .string, .string s => .ok (.scalar name "STRING" (.string s))
  | .bool, .bool b => .ok (.scalar name "BOOL" (.bool b))
  | dtype, .int i =>
    if dtype.isInteger then .ok (.scalar name "INT64" (.int i)) else .error (noBinding dtype v)
  | dtype, .float x =>
    if dtype.isFloating then .ok (.scalar name "FLOAT64" (.float x)) else .error (noBinding dtype v)
  | _, _ => .error (noBinding dtype v)

def itemName (i : Nat) : String := "element_" ++ toString i

mutual

def bind (name : String) (dtype : DataType) : Value → Except SqlError QueryParameter
  | .struct members =>
    match dtype with
    | .struct fields => do return .struct name (← bindMembers name fields members)
    | dtype => bindScalar name dtype (.struct members)
  | .array items =>
    match dtype with
    | .array (.struct fields) => do return .structs name (← bindStructs fields 0 items)
    | .array (.array _) => .error (.unsupportedType .nestedArray)
    | .array element => do
      let values ← bindItems name element items
      return .array name (← element.sqlName) values
    | dtype => bindScalar name dtype (.array items)
  | v => bindScalar name dtype v

/-- Binds the members of a struct, each at the type of the first field of its name. -/
def bindMembers (name : String) (fields : List FieldType) :
    List (String × Value) → Except SqlError (List QueryParameter)
  | [] => .ok []
  | (member, v) :: rest =>
    match fields.find? fun f => f.name == member with
    | none => .error (.parameterBinding (.noField name member))
    | some field => do
      let p ← bind member field.dtype v
      let others ← bindMembers name fields rest
      return p :: others

def bindItems (name : String) (element : DataType) : List Value → Except SqlError (List Value)
  | [] => .ok []
  | .null :: rest => do return .null :: (← bindItems name element rest)
  | v :: rest => do
    match ← bind name element v with
    | .scalar _ _ bound => return bound :: (← bindItems name element rest)
    | _ => throw (noBinding element v)

def bindStructs (fields : List FieldType) (i : Nat) :
    List Value → Except SqlError (List (String × List QueryParameter))
  | [] => .ok []
  | .struct members :: rest => do
    let bound ← bindMembers (itemName i) fields members
    return (itemName i, bound) :: (← bindStructs fields (i + 1) rest)
  | v :: _ => .error (noBinding (.struct fields) v)

end

end QueryParameter

end BigQuerySql
