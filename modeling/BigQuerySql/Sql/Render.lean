import BigQuerySql.DispatchTable
import BigQuerySql.Sql.Formatter

namespace BigQuerySql

structure Slot where
  declared : String
  placeholder : String
  dtype : DataType

/-- What is known while an expression is written: the parameters so far in the order in which they were
first written, and how many names have been made up for them. -/
structure Context where
  slots : List Slot
  generated : Nat

namespace Context

def start : Context := ⟨[], 0⟩

def find? (ctx : Context) (declared : String) : Option Slot :=
  ctx.slots.find? fun slot => slot.declared == declared

end Context

abbrev Render := StateT Context (Except SqlError)

namespace Op

/-- Aggregates with a filter write a conditional over each argument, which their weight makes room for. -/
def ownWeight {α : Type} : Op α → Nat
  | .reduction _ _ _ => 3
  | .covariance _ _ _ _ => 3
  | .arbitrary _ _ _ => 3
  | _ => 1

end Op

namespace Expr

def weight : Expr → Nat :=
  fold fun op _ _ => op.ownWeight + op.operands.foldr (· + ·) 0

end Expr

structure Target where
  formatters : DispatchTable Formatter
  missing : Kind → SqlError
  tableName : String → String
  placeholder : String → DataType → Render String

namespace Target

def takeStep (t : Target) (write : Expr → Render String) : Step → Render String
  | .operand e => write e
  | .nested e => do
    let text ← write e
    return if e.needsParens then "(" ++ text ++ ")" else text
  | .parameter name dtype => t.placeholder name dtype
  | .table name => return t.tableName name
  | .fail error => throw error

def renderWithin (t : Target) : Nat → Expr → Render String
  | 0, e => throw (t.missing e.kind)
  | n + 1, e =>
    match t.formatters.get? e.kind with
    | none => throw (t.missing e.kind)
    | some formatter => do
      let layout := formatter.layout e
      let texts ← layout.steps.mapM (t.takeStep (t.renderWithin n))
      return layout.fill texts

def render (t : Target) (e : Expr) : Render String :=
  t.renderWithin e.weight e

/-- Writes expressions by themselves: table names as they are, parameters after a colon and recorded each
time. -/
def plain (formatters : DispatchTable Formatter) : Target where
  formatters := formatters
  missing := fun kind => .unsupportedOperation (.unregistered kind)
  tableName := id
  placeholder := fun name dtype => do
    modify fun ctx => ⟨ctx.slots ++ [⟨name, name, dtype⟩], ctx.generated⟩
    return ":" ++ name

end Target

end BigQuerySql
