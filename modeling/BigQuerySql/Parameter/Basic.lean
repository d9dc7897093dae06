import BigQuerySql.Json.Printer
import BigQuerySql.Sql.Literal
import BigQuerySql.Text.Base64
import BigQuerySql.Value.Codec

namespace BigQuerySql

inductive QueryParameter where
  | scalar (name typeName : String) (value : Value)
  | array (name elementType : String) (values : List Value)
  | structs (name : String) (items : List (String × List QueryParameter))
  | struct (name : String) (members : List QueryParameter)

namespace QueryParameter

def name : QueryParameter → String
  | .scalar name _ _ => name
  | .array name _ _ => name
  | .structs name _ => name
  | .struct name _ => name

def typeName : QueryParameter → String
  | .scalar _ typeName _ => typeName
  | .array _ _ _ => "ARRAY"
  | .structs _ _ => "ARRAY"
  | .struct _ _ => "STRUCT"

mutual

def toJson : QueryParameter → Json
  | .scalar name typeName value =>
    .obj [("kind", .str "scalar"), ("name", .str name), ("type_name", .str typeName),
      ("value", value.toJson)]
  | .array name elementType values =>
    .obj [("kind", .str "array"), ("name", .str name), ("array_type", .str elementType),
      ("values", .arr (values.map Value.toJson))]
  | .structs name items =>
    .obj [("kind", .str "array"), ("name", .str name), ("array_type", .str "STRUCT"),
      ("values", .arr (structsToJson items))]
  | .struct name members =>
    .obj [("kind", .str "struct"), ("name", .str name), ("fields", .arr (listToJson members))]

def listToJson : List QueryParameter → List Json
  | [] => []
  | p :: rest => p.toJson :: listToJson rest

def structsToJson : List (String × List QueryParameter) → List Json
  | [] => []
  | (name, members) :: rest =>
    .obj [("name", .str name), ("fields", .arr (listToJson members))] :: structsToJson rest

end

def wireStyle : DoubleStyle where
  inPlace := none
  pointZero := false
  plusSign := false
  tie := .up

def wireText? : Value → Option String
  | .null => none
  | .bool b => some (if b then "true" else "false")
  | .int i => some (toString i.toInt)
  | .float x => some (x.text wireStyle)
  | .decimal digits => some digits
  | .string s => some s
  | .bytes bs => some (Text.base64 bs)
  | .date d => some d.text
  | .time t => some t.text
  | .timestamp t => some (t.text " ")
  | .instant t => some (Value.instantText t)
  | .interval count => some (toString count.toInt)
  | .array _ => none
  | .struct _ => none

def wireValue (v : Value) : Json :=
  .obj [("value", Json.ofOption .str (wireText? v))]

def wireStructType (members : List Json) : Json :=
  .obj [("structTypes", .arr members), ("type", .str "STRUCT")]

mutual

/-- The type of a parameter on the wire. An array of structs has the type of its first item. -/
def wireType : QueryParameter → Json
  | .scalar _ typeName _ => .obj [("type", .str typeName)]
  | .array _ elementType _ =>
    .obj [("arrayType", .obj [("type", .str elementType)]), ("type", .str "ARRAY")]
  | .structs _ items => .obj [("arrayType", wireItemType items), ("type", .str "ARRAY")]
  | .struct _ members => wireStructType (wireMemberTypes members)

def wireMemberTypes : List QueryParameter → List Json
  | [] => []
  | p :: rest => .obj [("name", .str p.name), ("type", p.wireType)] :: wireMemberTypes rest

def wireItemType : List (String × List QueryParameter) → Json
  | [] => wireStructType []
  | (_, members) :: _ => wireStructType (wireMemberTypes members)

end

mutual

/-- The value of a parameter on the wire. The members of a struct are sorted by name. -/
def wireParameter : QueryParameter → Json
  | .scalar _ _ value => wireValue value
  | .array _ _ values => .obj [("arrayValues", .arr (values.map wireValue))]
  | .structs _ items => .obj [("arrayValues", .arr (wireItems items))]
  | .struct _ members => .obj [("structValues", .obj (Json.sortMembers (wireMembers members)))]

def wireMembers : List QueryParameter → List (String × Json)
  | [] => []
  | p :: rest => (p.name, p.wireParameter) :: wireMembers rest

def wireItems : List (String × List QueryParameter) → List Json
  | [] => []
  | (_, members) :: rest =>
    .obj [("structValues", .obj (Json.sortMembers (wireMembers members)))] :: wireItems rest

end

def toWire (p : QueryParameter) : Json :=
  .obj [("name", .str p.name), ("parameterType", p.wireType), ("parameterValue", p.wireParameter)]

end QueryParameter

end BigQuerySql
