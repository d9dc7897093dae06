import BigQuerySql.DataType.Basic
import BigQuerySql.Json.Decode

namespace BigQuerySql

namespace DataType

def plainNames : List (String × DataType) :=
  [("Bool", .bool), ("Int8", .int8), ("Int16", .int16), ("Int32", .int32), ("Int64", .int64),
   ("UInt8", .uint8), ("UInt16", .uint16), ("UInt32", .uint32), ("UInt64", .uint64),
   ("Float32", .float32), ("Float64", .float64), ("String", .string), ("Binary", .binary),
   ("Date", .date), ("Time", .time), ("Geography", .geography), ("Null", .null),
   ("Unknown", .unknown)]

mutual

def toJson : DataType → Json
  | .bool => .str "Bool"
  | .int8 => .str "Int8"
  | .int16 => .str "Int16"
  | .int32 => .str "Int32"
  | .int64 => .str "Int64"
  | .uint8 => .str "UInt8"
  | .uint16 => .str "UInt16"
  | .uint32 => .str "UInt32"
  | .uint64 => .str "UInt64"
  | .float32 => .str "Float32"
  | .float64 => .str "Float64"
  | .decimal precision scale =>
    .obj [("Decimal", .obj [("precision", .int precision.toNat), ("scale", .int scale.toNat)])]
  | .string => .str "String"
  | .binary => .str "Binary"
  | .date => .str "Date"
  | .time => .str "Time"
  | .timestamp zone => .obj [("Timestamp", .obj [("timezone", Json.ofOption .str zone)])]
  | .interval unit => .obj [("Interval", .obj [("unit", .str unit.code)])]
  | .geography => .str "Geography"
  | .array element => .obj [("Array", element.toJson)]
  | .struct fields => .obj [("Struct", .arr (fieldsToJson fields))]
  | .null => .str "Null"
  | .unknown => .str "Unknown"

def fieldsToJson : List (Field DataType) → List Json
  | [] => []
  | ⟨name, dtype, nullable⟩ :: rest =>
    .obj [("name", .str name), ("data_type", dtype.toJson), ("nullable", .bool nullable)] ::
      fieldsToJson rest

end

def fieldOf? (decode : Json → Option DataType) (j : Json) : Option FieldType :=
  match j.record? ["name", "data_type", "nullable"] 3 with
  | some [some name, some dtype, some nullable] => do
    return ⟨← name.str?, ← decode dtype, ← nullable.bool?⟩
  | _ => none

def decode (inner : Bool) : Nat → Json → Option DataType
  | 0, _ => none
  | n + 1, j =>
    match j.choice? with
    | some ("Decimal", some payload) =>
      match payload.record? ["precision", "scale"] 2 with
      | some [some precision, some scale] => do return .decimal (← precision.byte?) (← scale.byte?)
      | _ => none
    | some ("Timestamp", some payload) =>
      match payload.record? ["timezone"] 1 with
      | some [zone] => (Json.optional? Json.str? zone).map .timestamp
      | _ => none
    | some ("Interval", some payload) =>
      match payload.record? ["unit"] 1 with
      | some [some unit] => (unit.named? inner IntervalUnit.ofCode?).map .interval
      | _ => none
    | some ("Array", some payload) => (decode inner n payload).map .array
    | some ("Struct", some (.arr fields)) => (fields.mapM (fieldOf? (decode inner n))).map .struct
    | _ => j.named? inner fun name => plainNames.lookup name

def ofJson? (j : Json) : Option DataType :=
  decode false (j.depth + 1) j

def ofInnerJson? (j : Json) : Option DataType :=
  decode true (j.depth + 1) j

end DataType

namespace FieldType

def toJson (f : FieldType) : Json :=
  .obj [("name", .str f.name), ("data_type", f.dtype.toJson), ("nullable", .bool f.nullable)]

end FieldType

namespace Schema

def toJson (schema : Schema) : Json :=
  .obj [("fields", .arr (DataType.fieldsToJson schema.fields))]

def decode (dtype : Json → Option DataType) (j : Json) : Option Schema :=
  match j.record? ["fields"] 1 with
  | some [some (.arr fields)] => (fields.mapM (DataType.fieldOf? dtype)).map .mk
  | _ => none

def ofJson? : Json → Option Schema :=
  decode DataType.ofJson?

def ofInnerJson? : Json → Option Schema :=
  decode DataType.ofInnerJson?

end Schema

end BigQuerySql
