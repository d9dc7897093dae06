import BigQuerySql.DataType.Codec
import BigQuerySql.Expr.Basic
import BigQuerySql.Json.Printer
import BigQuerySql.Json.Reader
import BigQuerySql.Text.Sha256
import BigQuerySql.Value.Codec

namespace BigQuerySql

namespace Func

def toJson : Func → Json
  | .geo g => .obj [("Geo", .str g.name)]
  | f => .str f.name

def decode (inner : Bool) (j : Json) : Option Func :=
  match j.choice? with
  | some ("Geo", some payload) => (payload.named? inner GeoFunc.ofName?).map .geo
  | _ => j.named? inner ofName?

def ofJson? : Json → Option Func :=
  decode false

end Func

namespace Op

def optionalMember {α : Type} (name : String) (f : α → Json) : Option α → List (String × Json)
  | none => []
  | some a => [(name, f a)]

def members : Op Json → List (String × Json)
  | .literal value => [("value", value.toJson)]
  | .column name table => ("name", .str name) :: optionalMember "table" .str table
  | .scalarParameter name => [("name", .str name)]
  | .tableScan name schema => [("name", .str name), ("schema", schema.toJson)]
  | .setOp kind left right distinct =>
    [("kind", .str kind.name), ("left", left), ("right", right), ("distinct", .bool distinct)]
  | .binary op left right => [("op", .str op.name), ("left", left), ("right", right)]
  | .call func args => [("func", func.toJson), ("args", .arr args)]
  | .cast arg => [("arg", arg)]
  | .ifElse cond yes no => [("cond", cond), ("then", yes), ("otherwise", no)]
  | .reduction func args filter =>
    [("func", .str func.name), ("args", .arr args)] ++ optionalMember "where" id filter
  | .covariance left right how filter =>
    [("left", left), ("right", right), ("how", .str how)] ++ optionalMember "where" id filter
  | .arbitrary arg how filter =>
    ("arg", arg) :: (optionalMember "how" .str how ++ optionalMember "where" id filter)
  | .truncate kind arg unit => [("kind", .str kind.name), ("arg", arg), ("unit", .str unit.code)]
  | .intervalArithmetic op arg offset => [("op", .str op.name), ("arg", arg), ("offset", offset)]
  | .timestampFromUnix arg unit => [("arg", arg), ("unit", .str unit.code)]
  | .stringFind arg substr start stop =>
    [("arg", arg), ("substr", substr)] ++ optionalMember "start" id start ++
      optionalMember "end" id stop
  | .hash arg how => [("arg", arg), ("how", .str how)]
  | .hashBytes arg how => [("arg", arg), ("how", .str how)]
  | .strftime arg format => [("arg", arg), ("format", format)]
  | .stringToTimestamp arg format timezone =>
    [("arg", arg), ("format", format)] ++ optionalMember "timezone" id timezone
  | .structField arg field => [("arg", arg), ("field", .str field)]

def memberNames : String → Option (List String)
  | "Literal" => some ["value"]
  | "Column" => some ["name", "table"]
  | "ScalarParameter" => some ["name"]
  | "TableScan" => some ["name", "schema"]
  | "SetOp" => some ["kind", "left", "right", "distinct"]
  | "Binary" => some ["op", "left", "right"]
  | "Call" => some ["func", "args"]
  | "Cast" => some ["arg"]
  | "IfElse" => some ["cond", "then", "otherwise"]
  | "Reduction" => some ["func", "args", "where"]
  | "Covariance" => some ["left", "right", "how", "where"]
  | "Arbitrary" => some ["arg", "how", "where"]
  | "Truncate" => some ["kind", "arg", "unit"]
  | "IntervalArithmetic" => some ["op", "arg", "offset"]
  | "TimestampFromUnix" => some ["arg", "unit"]
  | "StringFind" => some ["arg", "substr", "start", "end"]
  | "Hash" => some ["arg", "how"]
  | "HashBytes" => some ["arg", "how"]
  | "Strftime" => some ["arg", "format"]
  | "StringToTimestamp" => some ["arg", "format", "timezone"]
  | "StructField" => some ["arg", "field"]
  | _ => none

def ofMembers? {α : Type} (operand : Json → Option α) :
    String → List (Option Json) → Option (Op α)
  | "Literal", [some value] => (Value.ofInnerJson? value).map .literal
  | "Column", [some name, table] => do
    return .column (← name.str?) (← Json.optional? Json.str? table)
  | "ScalarParameter", [some name] => name.str?.map .scalarParameter
  | "TableScan", [some name, some schema] => do
    return .tableScan (← name.str?) (← Schema.ofInnerJson? schema)
  | "SetOp", [some kind, some left, some right, distinct] => do
    return .setOp (← kind.named? true SetOpKind.ofName?) (← operand left) (← operand right)
      (← Json.orDefault? false Json.bool? distinct)
  | "Binary", [some op, some left, some right] => do
    return .binary (← op.named? true BinaryOp.ofName?) (← operand left) (← operand right)
  | "Call", [some func, args] => do
    let args ← Json.orDefault? [] Json.arr? args
    return .call (← Func.decode true func) (← args.mapM operand)
  | "Cast", [some arg] => (operand arg).map .cast
  | "IfElse", [some cond, some yes, some no] => do
    return .ifElse (← operand cond) (← operand yes) (← operand no)
  | "Reduction", [some func, some (.arr args), filter] => do
    return .reduction (← func.named? true Agg.ofName?) (← args.mapM operand)
      (← Json.optional? operand filter)
  | "Covariance", [some left, some right, some how, filter] => do
    return .covariance (← operand left) (← operand right) (← how.str?)
      (← Json.optional? operand filter)
  | "Arbitrary", [some arg, how, filter] => do
    return .arbitrary (← operand arg) (← Json.optional? Json.str? how)
      (← Json.optional? operand filter)
  | "Truncate", [some kind, some arg, some unit] => do
    return .truncate (← kind.named? true TemporalKind.ofName?) (← operand arg) (← unit.named? true IntervalUnit.ofCode?)
  | "IntervalArithmetic", [some op, some arg, some offset] => do
    return .intervalArithmetic (← op.named? true IntervalOp.ofName?) (← operand arg) (← operand offset)
  | "TimestampFromUnix", [some arg, some unit] => do
    return .timestampFromUnix (← operand arg) (← unit.named? true IntervalUnit.ofCode?)
  | "StringFind", [some arg, some substr, start, stop] => do
    return .stringFind (← operand arg) (← operand substr) (← Json.optional? operand start)
      (← Json.optional? operand stop)
  | "Hash", [some arg, some how] => do return .hash (← operand arg) (← how.str?)
  | "HashBytes", [some arg, some how] => do return .hashBytes (← operand arg) (← how.str?)
  | "Strftime", [some arg, some format] => do
    return .strftime (← operand arg) (← operand format)
  | "StringToTimestamp", [some arg, some format, timezone] => do
    return .stringToTimestamp (← operand arg) (← operand format)
      (← Json.optional? operand timezone)
  | "StructField", [some arg, some field] => do
    return .structField (← operand arg) (← field.str?)
  | _, _ => none

end Op

namespace Expr

def toJson : Expr → Json :=
  fold fun op dtype label =>
    .obj (("type", .str op.kind.formName) :: (op.members ++
      ("dtype", dtype.toJson) :: Op.optionalMember "alias" .str label))

/-- A form is given by its name or by its place among the forms. -/
def formName? : Json → Option String
  | .str name => some name
  | .int i => if i < 0 then none else Kind.formNames[i.toNat]?
  | _ => none

def isReadableNode (members : List (String × Json)) : Bool :=
  members.all fun m => m.1 == "dtype" || m.1 == "alias" || m.2.isReadable

/-- Decodes an expression whose document is nested less deep than the allowance. Members may come in any
order and unknown ones are ignored, but a known one must not be repeated, and only inside of the type of the whole
expression may there be something that stands for no value. -/
def decode (inner : Bool) : Nat → Json → Option Expr
  | 0, _ => none
  | n + 1, .obj members => do
    guard (inner || isReadableNode members)
    let form ← (← Json.member? members "type").bind formName?
    let names ← Op.memberNames form
    let op ← Op.ofMembers? (decode true n) form (← names.mapM (Json.member? members))
    let dtype ← (← Json.member? members "dtype").bind
      (if inner then DataType.ofInnerJson? else DataType.ofJson?)
    let label ← Json.optional? Json.str? (← Json.member? members "alias")
    return ⟨op, dtype, label⟩
  | _ + 1, _ => none

def ofJson? (j : Json) : Option Expr :=
  decode false (j.depth + 1) j

def identity (e : Expr) : String :=
  e.toJson.text

def fingerprint (e : Expr) : String :=
  Sha256.hex e.identity

end Expr

end BigQuerySql
