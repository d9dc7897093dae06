import BigQuerySql.Sql.Error
import BigQuerySql.Sql.Quote

namespace BigQuerySql

namespace DataType

def isArray : DataType → Bool
  | .array _ => true
  | _ => false

mutual

def sqlName : DataType → Except SqlError String
  | .bool => .ok "BOOL"
  | .int8 => .ok "INT64"
  | .int16 => .ok "INT64"
  | .int32 => .ok "INT64"
  | .int64 => .ok "INT64"
  | .uint8 => .ok "INT64"
  | .uint16 => .ok "INT64"
  | .uint32 => .ok "INT64"
  | .uint64 => .error (.unsupportedType .lossyInteger)
  | .float32 => .ok "FLOAT64"
  | .float64 => .ok "FLOAT64"
  | .decimal precision scale =>
    if precision = 38 ∧ scale = 9 then .ok "NUMERIC"
    else if precision = 76 ∧ scale = 38 then .ok "BIGNUMERIC"
    else .error (.unsupportedType (.decimalSize (.decimal precision scale)))
  | .string => .ok "STRING"
  | .binary => .ok "BYTES"
  | .date => .ok "DATE"
  | .time => .ok "TIME"
  | .timestamp (some _) => .ok "TIMESTAMP"
  | .timestamp none => .ok "DATETIME"
  | .interval unit => .error (.unsupportedType (.noColumnType (.interval unit)))
  | .geography => .ok "GEOGRAPHY"
  | .array element =>
    if element.isArray then .error (.unsupportedType .nestedArray)
    else do return "ARRAY<" ++ (← element.sqlName) ++ ">"
  | .struct fields => do
    return "STRUCT<" ++ String.intercalate ", " (← sqlFields fields) ++ ">"
  | .null => .error (.unsupportedType (.noColumnType .null))
  | .unknown => .error (.unsupportedType (.noColumnType .unknown))

def sqlFields : List (Field DataType) → Except SqlError (List String)
  | [] => .ok []
  | ⟨name, dtype, _⟩ :: rest => do
    let typeName ← dtype.sqlName
    let others ← sqlFields rest
    return (Sql.identifier name ++ " " ++ typeName) :: others

end

def primitives : List (String × DataType) :=
  [("INT64", .int64), ("FLOAT64", .float64), ("BOOL", .bool), ("STRING", .string), ("DATE", .date),
   ("DATETIME", .timestamp none), ("TIMESTAMP", utcTimestamp), ("TIME", .time), ("BYTES", .binary),
   ("NUMERIC", .decimal 38 9), ("BIGNUMERIC", .decimal 76 38), ("GEOGRAPHY", .geography)]

def standardName : String → String
  | "INTEGER" => "INT64"
  | "FLOAT" => "FLOAT64"
  | "BOOLEAN" => "BOOL"
  | name => name

def ofSqlName (name : String) : Except SqlError DataType :=
  match primitives.lookup (standardName name) with
  | some dtype => .ok dtype
  | none => .error (.unsupportedType (.unknownName (standardName name)))

end DataType

end BigQuerySql
