import BigQuerySql.Calendar.Basic
import BigQuerySql.Number.Binary64

namespace BigQuerySql

/-- Constants, and values of parameters. An instant is a date and time in UTC; a decimal is kept as it
was written; the members of a struct are in order. -/
inductive Value where
  | null
  | bool (b : Bool)
  | int (i : Int64)
  | float (x : Binary64)
  | decimal (digits : String)
  | string (s : String)
  | bytes (bytes : List UInt8)
  | date (d : Date)
  | time (t : TimeOfDay)
  | timestamp (t : DateTime)
  | instant (t : DateTime)
  | interval (count : Int64)
  | array (items : List Value)
  | struct (members : List (String × Value))

abbrev Params := List (String × Value)

namespace Value

def shape : Value → String
  | .null => "null"
  | .bool _ => "bool"
  | .int _ => "int"
  | .float _ => "float"
  | .decimal _ => "decimal"
  | .string _ => "string"
  | .bytes _ => "bytes"
  | .date _ => "date"
  | .time _ => "time"
  | .timestamp _ => "datetime"
  | .instant _ => "zoned datetime"
  | .interval _ => "interval"
  | .array _ => "list"
  | .struct _ => "ordered mapping"

def int? : Value → Option Int64
  | .int i => some i
  | _ => none

def bool? : Value → Option Bool
  | .bool b => some b
  | _ => none

end Value

end BigQuerySql
