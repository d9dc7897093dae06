import BigQuerySql.Calendar.Reader
import BigQuerySql.Number.Text
import BigQuerySql.Sql.TypeName
import BigQuerySql.Text.Base64
import BigQuerySql.Value.Basic

namespace BigQuerySql

namespace Sql

/-- Doubles are written in place from `0.0001` up to `10^16`. -/
def doubleStyle : DoubleStyle where
  inPlace := some (-4, 16)
  pointZero := true
  plusSign := false
  tie := .up

end Sql

namespace Value

def genericLiteral (v : Value) (dtype : DataType) : Except SqlError String :=
  match v with
  | .null => .ok "NULL"
  | .bool true => .ok "TRUE"
  | .bool false => .ok "FALSE"
  | .int i => .ok (toString i.toInt)
  | .float x => .ok (x.text Sql.doubleStyle)
  | .decimal digits => .ok digits
  | .string s => .ok (Sql.stringLiteral s)
  | .interval count =>
    match dtype with
    | .interval unit => .ok ("INTERVAL " ++ toString count.toInt ++ " " ++ unit.sqlName)
    | _ => .error (.notImplemented (.literal v.shape dtype))
  | _ => .error (.notImplemented (.literal v.shape dtype))

def date? : Value → Option Date
  | .date d => some d
  | .timestamp t => some t.date
  | .instant t => some t.date
  | .string s => Date.parse? s
  | _ => none

def dateTime? : Value → Option DateTime
  | .timestamp t => some t
  | .date d => some (.atMidnight d)
  | .string s => DateTime.parse? s
  | _ => none

def time? : Value → Option TimeOfDay
  | .time t => some t
  | .timestamp t => some t.time
  | .string s => TimeOfDay.parse? s
  | _ => none

def instantText (t : DateTime) : String :=
  t.text " " ++ "+00:00"

def plainLiteral (v : Value) (dtype : DataType) : Except SqlError String :=
  let refused : Except SqlError String := .error (.unrepresentableLiteral v.shape dtype)
  match dtype, v with
  | _, .float .nan => .ok "CAST('nan' AS FLOAT64)"
  | _, .float (.infinite negative) => .ok ("CAST('" ++ signText negative ++ "inf' AS FLOAT64)")
  | _, .null => .ok "NULL"
  | .date, v =>
    match v.date? with
    | some d => .ok ("DATE '" ++ d.text ++ "'")
    | none => refused
  | .timestamp _, .instant t => .ok ("TIMESTAMP '" ++ instantText t ++ "'")
  | .timestamp _, v =>
    match v.dateTime? with
    | some t => .ok ("TIMESTAMP '" ++ t.text " " ++ "'")
    | none => refused
  | .time, v =>
    match v.time? with
    | some t => .ok ("TIME '" ++ t.text ++ "'")
    | none => refused
  | .binary, .bytes bs => .ok ("FROM_BASE64('" ++ Text.base64 bs ++ "')")
  | .decimal precision scale, .decimal digits => do
    return (← (DataType.decimal precision scale).sqlName) ++ " " ++ Sql.stringLiteral digits
  | .binary, _ => refused
  | .struct _, _ => refused
  | .array _, _ => refused
  | dtype, v =>
    match v.genericLiteral dtype with
    | .ok text => .ok text
    | .error _ => refused

mutual

def literal (dtype : DataType) : Value → Except SqlError String
  | .struct members =>
    match dtype with
    | .struct fields => do
      return "STRUCT(" ++ String.intercalate ", " (← memberLiterals fields members) ++ ")"
    | dtype => (Value.struct members).plainLiteral dtype
  | .array items =>
    match dtype with
    | .array element => do
      return "[" ++ String.intercalate ", " (← itemLiterals element items) ++ "]"
    | dtype => (Value.array items).plainLiteral dtype
  | v => v.plainLiteral dtype

def itemLiterals (element : DataType) : List Value → Except SqlError (List String)
  | [] => .ok []
  | v :: rest => do
    let text ← v.literal element
    let others ← itemLiterals element rest
    return text :: others

/-- A member is written at the type of the first field of its name. -/
def memberLiterals (fields : List FieldType) : List (String × Value) → Except SqlError (List String)
  | [] => .ok []
  | (name, v) :: rest =>
    match fields.find? fun f => f.name == name with
    | none => .error (.unrepresentableLiteral "ordered mapping" (.struct fields))
    | some field => do
      let text ← v.literal field.dtype
      let others ← memberLiterals fields rest
      return (text ++ " AS " ++ Sql.backtick name) :: others

end

end Value

end BigQuerySql
