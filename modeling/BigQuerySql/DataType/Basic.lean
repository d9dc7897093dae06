namespace BigQuerySql

inductive IntervalUnit where
  | year | quarter | month | week | day | hour | minute | second | millisecond | microsecond
  | nanosecond
deriving DecidableEq, Repr

namespace IntervalUnit

def all : List IntervalUnit :=
  [.year, .quarter, .month, .week, .day, .hour, .minute, .second, .millisecond, .microsecond,
   .nanosecond]

def code : IntervalUnit → String
  | .year => "Y"
  | .quarter => "Q"
  | .month => "M"
  | .week => "W"
  | .day => "D"
  | .hour => "h"
  | .minute => "m"
  | .second => "s"
  | .millisecond => "ms"
  | .microsecond => "us"
  | .nanosecond => "ns"

def ofCode? (code : String) : Option IntervalUnit :=
  all.find? fun unit => unit.code == code

theorem ofCode?_code (unit : IntervalUnit) : ofCode? unit.code = some unit := by
  cases unit <;> decide

def sqlName : IntervalUnit → String
  | .year => "YEAR"
  | .quarter => "QUARTER"
  | .month => "MONTH"
  | .week => "WEEK"
  | .day => "DAY"
  | .hour => "HOUR"
  | .minute => "MINUTE"
  | .second => "SECOND"
  | .millisecond => "MILLISECOND"
  | .microsecond => "MICROSECOND"
  | .nanosecond => "NANOSECOND"

end IntervalUnit

structure Field (α : Type) where
  name : String
  dtype : α
  nullable : Bool
deriving DecidableEq, Repr

/-- The types that expressions are declared with. A timestamp without a time zone is a wall clock
reading. -/
inductive DataType where
  | bool
  | int8 | int16 | int32 | int64
  | uint8 | uint16 | uint32 | uint64
  | float32 | float64
  | decimal (precision scale : UInt8)
  | string
  | binary
  | date
  | time
  | timestamp (timezone : Option String)
  | interval (unit : IntervalUnit)
  | geography
  | array (element : DataType)
  | struct (fields : List (Field DataType))
  | null
  | unknown

abbrev FieldType := Field DataType

structure Schema where
  fields : List FieldType

namespace DataType

def utcTimestamp : DataType := .timestamp (some "UTC")

def isInteger : DataType → Bool
  | .int8 | .int16 | .int32 | .int64 | .uint8 | .uint16 | .uint32 | .uint64 => true
  | _ => false

def isFloating : DataType → Bool
  | .float32 | .float64 => true
  | _ => false

def isDecimal : DataType → Bool
  | .decimal _ _ => true
  | _ => false

def isNumeric (t : DataType) : Bool :=
  t.isInteger || t.isFloating || t.isDecimal

def isBoolean : DataType → Bool
  | .bool => true
  | _ => false

def isTemporal : DataType → Bool
  | .date | .time | .timestamp _ => true
  | _ => false

mutual

def display : DataType → String
  | .bool => "boolean"
  | .int8 => "int8"
  | .int16 => "int16"
  | .int32 => "int32"
  | .int64 => "int64"
  | .uint8 => "uint8"
  | .uint16 => "uint16"
  | .uint32 => "uint32"
  | .uint64 => "uint64"
  | .float32 => "float32"
  | .float64 => "float64"
  | .decimal precision scale =>
    "decimal(" ++ toString precision.toNat ++ ", " ++ toString scale.toNat ++ ")"
  | .string => "string"
  | .binary => "binary"
  | .date => "date"
  | .time => "time"
  | .timestamp none => "timestamp"
  | .timestamp (some zone) => "timestamp('" ++ zone ++ "')"
  | .interval unit => "interval('" ++ unit.code ++ "')"
  | .geography => "geography"
  | .array element => "array<" ++ element.display ++ ">"
  | .struct fields => "struct<" ++ String.intercalate ", " (displayFields fields) ++ ">"
  | .null => "null"
  | .unknown => "unknown"

def displayFields : List (Field DataType) → List String
  | [] => []
  | ⟨name, dtype, _⟩ :: rest => (name ++ ": " ++ dtype.display) :: displayFields rest

end

end DataType

namespace Schema

def names (schema : Schema) : List String :=
  schema.fields.map (·.name)

def find? (schema : Schema) (name : String) : Option FieldType :=
  schema.fields.find? fun f => f.name == name

end Schema

end BigQuerySql
