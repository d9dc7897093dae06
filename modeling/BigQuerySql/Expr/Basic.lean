import BigQuerySql.DataType.Basic
import BigQuerySql.Expr.Kind
import BigQuerySql.Value.Basic

namespace BigQuerySql

inductive Op (α : Type) where
  | literal (value : Value)
  | column (name : String) (table : Option String)
  | scalarParameter (name : String)
  | tableScan (name : String) (schema : Schema)
  | setOp (kind : SetOpKind) (left right : α) (distinct : Bool)
  | binary (op : BinaryOp) (left right : α)
  | call (func : Func) (args : List α)
  | cast (arg : α)
  | ifElse (cond yes no : α)
  | reduction (func : Agg) (args : List α) (filter : Option α)
  | covariance (left right : α) (how : String) (filter : Option α)
  | arbitrary (arg : α) (how : Option String) (filter : Option α)
  | truncate (kind : TemporalKind) (arg : α) (unit : IntervalUnit)
  | intervalArithmetic (op : IntervalOp) (arg offset : α)
  | timestampFromUnix (arg : α) (unit : IntervalUnit)
  | stringFind (arg substr : α) (start stop : Option α)
  | hash (arg : α) (how : String)
  | hashBytes (arg : α) (how : String)
  | strftime (arg format : α)
  | stringToTimestamp (arg format : α) (timezone : Option α)
  | structField (arg : α) (field : String)

structure Expr where
  op : Op Expr
  dtype : DataType
  label : Option String

namespace Op

variable {α β : Type}

def kind : Op α → Kind
  | .literal _ => .literal
  | .column _ _ => .column
  | .scalarParameter _ => .scalarParameter
  | .tableScan _ _ => .tableScan
  | .setOp kind _ _ _ => .setOp kind
  | .binary op _ _ => .binary op
  | .call func _ => .call func
  | .cast _ => .cast
  | .ifElse _ _ _ => .ifElse
  | .reduction func _ _ => .reduction func
  | .covariance _ _ _ _ => .covariance
  | .arbitrary _ _ _ => .arbitrary
  | .truncate kind _ _ => .truncate kind
  | .intervalArithmetic op _ _ => .intervalArithmetic op
  | .timestampFromUnix _ _ => .timestampFromUnix
  | .stringFind _ _ _ _ => .stringFind
  | .hash _ _ => .hash
  | .hashBytes _ _ => .hashBytes
  | .strftime _ _ => .strftime
  | .stringToTimestamp _ _ _ => .stringToTimestamp
  | .structField _ _ => .structField

def operands : Op α → List α
  | .literal _ => []
  | .column _ _ => []
  | .scalarParameter _ => []
  | .tableScan _ _ => []
  | .setOp _ left right _ => [left, right]
  | .binary _ left right => [left, right]
  | .call _ args => args
  | .cast arg => [arg]
  | .ifElse cond yes no => [cond, yes, no]
  | .reduction _ args filter => args ++ filter.toList
  | .covariance left right _ filter => left :: right :: filter.toList
  | .arbitrary arg _ filter => arg :: filter.toList
  | .truncate _ arg _ => [arg]
  | .intervalArithmetic _ arg offset => [arg, offset]
  | .timestampFromUnix arg _ => [arg]
  | .stringFind arg substr start stop => arg :: substr :: (start.toList ++ stop.toList)
  | .hash arg _ => [arg]
  | .hashBytes arg _ => [arg]
  | .strftime arg format => [arg, format]
  | .stringToTimestamp arg format timezone => arg :: format :: timezone.toList
  | .structField arg _ => [arg]

def map (f : α → β) : Op α → Op β
  | .literal value => .literal value
  | .column name table => .column name table
  | .scalarParameter name => .scalarParameter name
  | .tableScan name schema => .tableScan name schema
  | .setOp kind left right distinct => .setOp kind (f left) (f right) distinct
  | .binary op left right => .binary op (f left) (f right)
  | .call func args => .call func (args.map f)
  | .cast arg => .cast (f arg)
  | .ifElse cond yes no => .ifElse (f cond) (f yes) (f no)
  | .reduction func args filter => .reduction func (args.map f) (filter.map f)
  | .covariance left right how filter => .covariance (f left) (f right) how (filter.map f)
  | .arbitrary arg how filter => .arbitrary (f arg) how (filter.map f)
  | .truncate kind arg unit => .truncate kind (f arg) unit
  | .intervalArithmetic op arg offset => .intervalArithmetic op (f arg) (f offset)
  | .timestampFromUnix arg unit => .timestampFromUnix (f arg) unit
  | .stringFind arg substr start stop =>
    .stringFind (f arg) (f substr) (start.map f) (stop.map f)
  | .hash arg how => .hash (f arg) how
  | .hashBytes arg how => .hashBytes (f arg) how
  | .strftime arg format => .strftime (f arg) (f format)
  | .stringToTimestamp arg format timezone =>
    .stringToTimestamp (f arg) (f format) (timezone.map f)
  | .structField arg field => .structField (f arg) field

def mapM {m : Type → Type} [Monad m] (f : α → m β) : Op α → m (Op β)
  | .literal value => return .literal value
  | .column name table => return .column name table
  | .scalarParameter name => return .scalarParameter name
  | .tableScan name schema => return .tableScan name schema
  | .setOp kind left right distinct => return .setOp kind (← f left) (← f right) distinct
  | .binary op left right => return .binary op (← f left) (← f right)
  | .call func args => return .call func (← args.mapM f)
  | .cast arg => return .cast (← f arg)
  | .ifElse cond yes no => return .ifElse (← f cond) (← f yes) (← f no)
  | .reduction func args filter => return .reduction func (← args.mapM f) (← filter.mapM f)
  | .covariance left right how filter => return .covariance (← f left) (← f right) how (← filter.mapM f)
  | .arbitrary arg how filter => return .arbitrary (← f arg) how (← filter.mapM f)
  | .truncate kind arg unit => return .truncate kind (← f arg) unit
  | .intervalArithmetic op arg offset => return .intervalArithmetic op (← f arg) (← f offset)
  | .timestampFromUnix arg unit => return .timestampFromUnix (← f arg) unit
  | .stringFind arg substr start stop =>
    return .stringFind (← f arg) (← f substr) (← start.mapM f) (← stop.mapM f)
  | .hash arg how => return .hash (← f arg) how
  | .hashBytes arg how => return .hashBytes (← f arg) how
  | .strftime arg format => return .strftime (← f arg) (← f format)
  | .stringToTimestamp arg format timezone =>
    return .stringToTimestamp (← f arg) (← f format) (← timezone.mapM f)
  | .structField arg field => return .structField (← f arg) field

theorem operands_map (f : α → β) (op : Op α) : (op.map f).operands = op.operands.map f := by
  cases op <;> simp [map, operands, Option.toList_map]

theorem map_map {γ : Type} (f : α → β) (g : β → γ) (op : Op α) :
    (op.map f).map g = op.map (g ∘ f) := by
  cases op <;> simp [map]

theorem map_id (op : Op α) : op.map id = op := by
  cases op <;> simp [map]

theorem map_congr {op : Op α} {f g : α → β} (h : ∀ x ∈ op.operands, f x = g x) : op.map f = op.map g := by
  have hoption {o : Option α} (ho : ∀ x ∈ o, f x = g x) : o.map f = o.map g := Option.map_congr ho
  cases op <;> simp_all [operands, map]

theorem kind_map (f : α → β) (op : Op α) : (op.map f).kind = op.kind := by
  cases op <;> rfl

end Op

namespace Expr

variable {β : Type}

mutual

def para (step : Op (Expr × β) → DataType → Option String → β) : Expr → β
  | ⟨op, dtype, label⟩ => step (paraOp step op) dtype label

def paraOp (step : Op (Expr × β) → DataType → Option String → β) : Op Expr → Op (Expr × β)
  | .literal value => .literal value
  | .column name table => .column name table
  | .scalarParameter name => .scalarParameter name
  | .tableScan name schema => .tableScan name schema
  | .setOp kind left right distinct =>
    .setOp kind (left, para step left) (right, para step right) distinct
  | .binary op left right => .binary op (left, para step left) (right, para step right)
  | .call func args => .call func (paraList step args)
  | .cast arg => .cast (arg, para step arg)
  | .ifElse cond yes no => .ifElse (cond, para step cond) (yes, para step yes) (no, para step no)
  | .reduction func args filter => .reduction func (paraList step args) (paraOption step filter)
  | .covariance left right how filter =>
    .covariance (left, para step left) (right, para step right) how (paraOption step filter)
  | .arbitrary arg how filter => .arbitrary (arg, para step arg) how (paraOption step filter)
  | .truncate kind arg unit => .truncate kind (arg, para step arg) unit
  | .intervalArithmetic op arg offset =>
    .intervalArithmetic op (arg, para step arg) (offset, para step offset)
  | .timestampFromUnix arg unit => .timestampFromUnix (arg, para step arg) unit
  | .stringFind arg substr start stop =>
    .stringFind (arg, para step arg) (substr, para step substr) (paraOption step start)
      (paraOption step stop)
  | .hash arg how => .hash (arg, para step arg) how
  | .hashBytes arg how => .hashBytes (arg, para step arg) how
  | .strftime arg format => .strftime (arg, para step arg) (format, para step format)
  | .stringToTimestamp arg format timezone =>
    .stringToTimestamp (arg, para step arg) (format, para step format) (paraOption step timezone)
  | .structField arg field => .structField (arg, para step arg) field

def paraList (step : Op (Expr × β) → DataType → Option String → β) :
    List Expr → List (Expr × β)
  | [] => []
  | e :: rest => (e, para step e) :: paraList step rest

def paraOption (step : Op (Expr × β) → DataType → Option String → β) :
    Option Expr → Option (Expr × β)
  | none => none
  | some e => some (e, para step e)

end

theorem paraList_eq (step : Op (Expr × β) → DataType → Option String → β) (es : List Expr) :
    paraList step es = es.map fun e => (e, para step e) := by
  induction es with
  | nil => rfl
  | cons e rest ih => simp [paraList, ih]

theorem paraOption_eq (step : Op (Expr × β) → DataType → Option String → β) (e : Option Expr) :
    paraOption step e = e.map fun e => (e, para step e) := by
  cases e <;> rfl

theorem para_mk (step : Op (Expr × β) → DataType → Option String → β) (op : Op Expr)
    (dtype : DataType) (label : Option String) :
    para step ⟨op, dtype, label⟩ = step (op.map fun e => (e, para step e)) dtype label := by
  simp only [para]
  congr 1
  cases op <;> simp [paraOp, Op.map, paraList_eq, paraOption_eq]

def fold (step : Op β → DataType → Option String → β) : Expr → β :=
  para fun op dtype label => step (op.map Prod.snd) dtype label

theorem fold_mk (step : Op β → DataType → Option String → β) (op : Op Expr) (dtype : DataType)
    (label : Option String) :
    fold step ⟨op, dtype, label⟩ = step (op.map (fold step)) dtype label := by
  simp only [fold, para_mk, Op.map_map]
  rfl

def kind (e : Expr) : Kind := e.op.kind

def operands (e : Expr) : List Expr := e.op.operands

def mapOperands (f : Expr → Expr) (e : Expr) : Expr :=
  ⟨e.op.map f, e.dtype, e.label⟩

def mapOperandsM {m : Type → Type} [Monad m] (f : Expr → m Expr) (e : Expr) : m Expr :=
  return ⟨← e.op.mapM f, e.dtype, e.label⟩

theorem sizeOf_operand {x e : Expr} (h : x ∈ e.operands) : sizeOf x < sizeOf e := by
  obtain ⟨op, dtype, label⟩ := e
  have hl (es : List Expr) (hx : x ∈ es) : sizeOf x < sizeOf es := List.sizeOf_lt_of_mem hx
  have ho (o : Option Expr) (hx : o = some x) : sizeOf x < sizeOf o := by subst hx; simp
  cases op <;> simp [operands, Op.operands] at h ⊢ <;> grind

theorem induction_on {P : Expr → Prop} (step : ∀ e, (∀ x ∈ e.operands, P x) → P e) (e : Expr) : P e :=
  step e fun x _ => induction_on step x
termination_by sizeOf e
decreasing_by exact sizeOf_operand ‹_›

def isTable (e : Expr) : Bool :=
  match e.op with
  | .tableScan _ _ => true
  | .setOp _ _ _ _ => true
  | _ => false

def literalValue? (e : Expr) : Option Value :=
  match e.op with
  | .literal value => some value
  | _ => none

def isLiteral (e : Expr) : Bool :=
  e.literalValue?.isSome

def nodes : Expr → List Expr :=
  para fun op dtype label =>
    ⟨op.map Prod.fst, dtype, label⟩ :: op.operands.flatMap Prod.snd

def firstByKey {γ : Type} (entries : List (String × γ)) : List (String × γ) :=
  (entries.foldl (fun kept e => if kept.any (·.1 == e.1) then kept else e :: kept) []).reverse

def referencedTables (e : Expr) : List String :=
  (firstByKey (e.nodes.filterMap fun x =>
    match x.op with
    | .column _ (some table) => some (table, ())
    | _ => none)).map (·.1)

/-- The parameters with the type of their first occurrence, in the order in which they first appear. -/
def scalarParameters (e : Expr) : List (String × DataType) :=
  firstByKey (e.nodes.filterMap fun x =>
    match x.op with
    | .scalarParameter name => some (name, x.dtype)
    | _ => none)

end Expr

end BigQuerySql
