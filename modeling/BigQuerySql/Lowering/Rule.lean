import BigQuerySql.DispatchTable
import BigQuerySql.Expr.Build

namespace BigQuerySql

/-- Ways to replace a node by others before it is written. A rule that does not fit a node leaves it. -/
inductive Rule where
  | keep
  | reaggregate (target : Agg) (negated : Bool)
  | dayOfWeekName
  | floorDivide
  | identicalTo
  | log2
  | booleanAsInteger
deriving DecidableEq, Repr

namespace Rule

def binaryOperands? (e : Expr) : Option (Expr × Expr) :=
  match e.op with
  | .binary _ left right => some (left, right)
  | _ => none

def apply : Rule → Expr → Expr
  | .keep, e => e
  | .reaggregate target negated, e =>
    match e.op with
    | .reduction _ args filter =>
      let aggregate := Expr.reduction target args filter e.dtype
      let result := if negated then aggregate.not else aggregate
      ⟨result.op, result.dtype, e.label⟩
    | _ => e
  | .dayOfWeekName, e =>
    match e.operands with
    | [arg] => arg.strftime "%A"
    | _ => e
  | .floorDivide, e =>
    match binaryOperands? e with
    | some (left, right) => (left.divide right).floor
    | none => e
  | .identicalTo, e =>
    match binaryOperands? e with
    | some (left, right) => (left.isNull.and right.isNull).or (left.equals right)
    | none => e
  | .log2, e =>
    match e.operands with
    | [arg] => arg.log (some (Expr.literal (.int 2) .int8))
    | _ => e
  | .booleanAsInteger, e =>
    match e.op with
    | .reduction func [arg] filter =>
      if arg.dtype.isBoolean then Expr.reduction func [arg.cast .int64] filter e.dtype else e
    | _ => e

def generic : DispatchTable Rule :=
  DispatchTable.empty.insertMany
    [(.reduction .any, .reaggregate .max false), (.reduction .all, .reaggregate .min false),
     (.reduction .notAny, .reaggregate .max true), (.reduction .notAll, .reaggregate .min true)]

def bigQuery : DispatchTable Rule :=
  generic.insertMany
    [(.call .dayOfWeekName, .dayOfWeekName), (.binary .floorDivide, .floorDivide),
     (.binary .identicalTo, .identicalTo), (.call .log2, .log2),
     (.reduction .sum, .booleanAsInteger), (.reduction .mean, .booleanAsInteger),
     (.reduction .any, .keep), (.reduction .all, .keep), (.reduction .notAny, .keep),
     (.reduction .notAll, .keep)]

end Rule

end BigQuerySql
