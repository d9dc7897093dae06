import BigQuerySql.Calendar.Reader
import BigQuerySql.Json.Decode
import BigQuerySql.Value.Basic

namespace BigQuerySql

namespace Value

mutual

def toJson : Value → Json
  | .null => .str "Null"
  | .bool b => .obj [("Bool", .bool b)]
  | .int i => .obj [("Int", .int i.toInt)]
  | .float x => .obj [("Float", .float x)]
  | .decimal digits => .obj [("Decimal", .str digits)]
  | .string s => .obj [("String", .str s)]
  | .bytes bs => .obj [("Bytes", .arr (bs.map fun b => .int b.toNat))]
  | .date d => .obj [("Date", .str d.text)]
  | .time t => .obj [("Time", .str t.text)]
  | .timestamp t => .obj [("Timestamp", .str (t.text "T"))]
  | .instant t => .obj [("TimestampTz", .str (t.text "T" ++ "Z"))]
  | .interval count => .obj [("Interval", .int count.toInt)]
  | .array items => .obj [("Array", .arr (itemsToJson items))]
  | .struct members => .obj [("Struct", .obj (membersToJson members))]

def itemsToJson : List Value → List Json
  | [] => []
  | v :: rest => v.toJson :: itemsToJson rest

def membersToJson : List (String × Value) → List (String × Json)
  | [] => []
  | (name, v) :: rest => (name, v.toJson) :: membersToJson rest

end

def decode (inner : Bool) : Nat → Json → Option Value
  | 0, _ => none
  | n + 1, j =>
    match j.choice? with
    | some ("Bool", some payload) => payload.bool?.map .bool
    | some ("Int", some payload) => payload.int64?.map .int
    | some ("Float", some payload) => payload.float?.map .float
    | some ("Decimal", some payload) => payload.str?.map .decimal
    | some ("String", some payload) => payload.str?.map .string
    | some ("Bytes", some (.arr items)) => (items.mapM Json.byte?).map .bytes
    | some ("Date", some payload) => (payload.str?.bind Date.read?).map .date
    | some ("Time", some payload) => (payload.str?.bind TimeOfDay.read?).map .time
    | some ("Timestamp", some payload) => (payload.str?.bind DateTime.read?).map .timestamp
    | some ("TimestampTz", some payload) => (payload.str?.bind DateTime.readZoned?).map .instant
    | some ("Interval", some payload) => payload.int64?.map .interval
    | some ("Array", some (.arr items)) => (items.mapM (decode inner n)).map .array
    | some ("Struct", some (.obj members)) =>
      (members.mapM fun m => (decode inner n m.2).map (m.1, ·)).map fun decoded =>
        .struct (Json.orderedEntries decoded)
    | _ => j.named? inner fun name => if name = "Null" then some .null else none

def ofJson? (j : Json) : Option Value :=
  decode false (j.depth + 1) j

def ofInnerJson? (j : Json) : Option Value :=
  decode true (j.depth + 1) j

end Value

namespace Params

def ofJson? : Json → Option Params
  | .obj members =>
    (members.mapM fun m => (Value.ofJson? m.2).map (m.1, ·)).map Json.orderedEntries
  | _ => none

end Params

end BigQuerySql
