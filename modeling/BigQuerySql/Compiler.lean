import BigQuerySql.Lowering.Pass
import BigQuerySql.Parameter.Bind
import BigQuerySql.Sql.BigQuery
import BigQuerySql.Sql.Render
import BigQuerySql.Text.Sha256

namespace BigQuerySql

/-- How parameters are named in the text: as they are declared, or by numbers in the order in which they
are first written. -/
inductive ParamNaming where
  | declared
  | generated
deriving DecidableEq, Repr

namespace ParamNaming

def name : ParamNaming → String
  | .declared => "declared"
  | .generated => "generated"

def ofName? : String → Option ParamNaming
  | "declared" => some .declared
  | "generated" => some .generated
  | _ => none

end ParamNaming

structure CompiledQuery where
  sql : String
  parameters : List QueryParameter

namespace CompiledQuery

def identity (q : CompiledQuery) : String :=
  q.sql ++ String.join (q.parameters.map fun p => p.toWire.text)

def fingerprint (q : CompiledQuery) : String :=
  Sha256.hex q.identity

end CompiledQuery

namespace Context

def place (ctx : Context) (naming : ParamNaming) (name : String) (dtype : DataType) :
    String × Context :=
  match ctx.find? name with
  | some slot => (slot.placeholder, ctx)
  | none =>
    match naming with
    | .declared => (name, ⟨ctx.slots ++ [⟨name, name, dtype⟩], ctx.generated⟩)
    | .generated =>
      let placeholder := "param_" ++ toString ctx.generated
      (placeholder, ⟨ctx.slots ++ [⟨name, placeholder, dtype⟩], ctx.generated + 1⟩)

def bindAll (ctx : Context) (params : Params) : Except SqlError (List QueryParameter) :=
  ctx.slots.mapM fun slot =>
    match params.lookup slot.declared with
    | some v => QueryParameter.bind slot.placeholder slot.dtype v
    | none => .error (.missingParameter slot.declared)

end Context

structure Compiler where
  formatters : DispatchTable Formatter
  rules : DispatchTable Rule
  naming : ParamNaming

namespace Compiler

def bigQuery (naming : ParamNaming) : Compiler where
  formatters := Formatter.bigQuery
  rules := Rule.bigQuery
  naming := naming

def defaultAlias : String := "tmp"

def target (c : Compiler) (params : Params) : Target where
  formatters := c.formatters
  missing := fun kind => .notImplemented (.kind kind)
  tableName := Sql.identifier
  placeholder := fun name dtype ctx =>
    match params.lookup name with
    | none => .error (.missingParameter name)
    | some _ =>
      let (placeholder, ctx) := ctx.place c.naming name dtype
      .ok ("@" ++ placeholder, ctx)

/-- The statement around the text of an expression. Tables are statements by themselves; a value is selected
under its name, from the one table that its columns name, if there is just one. -/
def statement (e : Expr) (body : String) : String :=
  if e.isTable then body
  else
    "SELECT " ++ body ++ " AS " ++ Sql.backtick (e.label.getD defaultAlias) ++
      match e.referencedTables with
      | [table] => "\nFROM " ++ Sql.identifier table
      | _ => ""

def compile (c : Compiler) (e : Expr) (params : Params) : Except SqlError CompiledQuery := do
  let lowered := e.lower c.rules
  let (body, ctx) ← ((c.target params).render lowered).run .start
  let parameters ← ctx.bindAll params
  return ⟨statement lowered body, parameters⟩

end Compiler

end BigQuerySql
