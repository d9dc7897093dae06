import BigQuerySql.Expr.Basic

namespace BigQuerySql

namespace Expr

def ofOp (op : Op Expr) (dtype : DataType) : Expr := ⟨op, dtype, none⟩

def literal (value : Value) (dtype : DataType) : Expr :=
  ofOp (.literal value) dtype

def null (dtype : DataType) : Expr :=
  literal .null dtype

def column (name : String) (table : Option String) (dtype : DataType) : Expr :=
  ofOp (.column name table) dtype

def param (name : String) (dtype : DataType) : Expr :=
  ofOp (.scalarParameter name) dtype

def table (name : String) (schema : Schema) : Expr :=
  ofOp (.tableScan name schema) (.struct schema.fields)

def named (e : Expr) (name : String) : Expr :=
  ⟨e.op, e.dtype, some name⟩

/-- The type of a binary operation: comparisons and logic give booleans, division a double, division
with a floor an integer, everything else the type of its left operand. -/
def binaryType (op : BinaryOp) (left : DataType) : DataType :=
  if op.isComparison || op.isLogical then .bool
  else if op = .divide then .float64
  else if op = .floorDivide then .int64
  else left

def binary (left : Expr) (op : BinaryOp) (right : Expr) : Expr :=
  ofOp (.binary op left right) (binaryType op left.dtype)

def call (func : Func) (args : List Expr) (dtype : DataType) : Expr :=
  ofOp (.call func args) dtype

def isNull (e : Expr) : Expr := call .isNull [e] .bool

def notNull (e : Expr) : Expr := call .notNull [e] .bool

def not (e : Expr) : Expr := call .not [e] .bool

def equals (left right : Expr) : Expr := left.binary .equals right

def and (left right : Expr) : Expr := left.binary .and right

def or (left right : Expr) : Expr := left.binary .or right

def divide (left right : Expr) : Expr := left.binary .divide right

/-- The floor of a decimal is a decimal of the same type, any other an integer. -/
def floor (e : Expr) : Expr :=
  call .floor [e] (if e.dtype.isDecimal then e.dtype else .int64)

def log (e : Expr) (base : Option Expr) : Expr :=
  call .log (e :: base.toList) .float64

def cast (e : Expr) (dtype : DataType) : Expr :=
  ofOp (.cast e) dtype

def strftime (e : Expr) (format : String) : Expr :=
  ofOp (.strftime e (literal (.string format) .string)) .string

def ifElse (cond yes no : Expr) : Expr :=
  ofOp (.ifElse cond yes no) yes.dtype

def reduction (func : Agg) (args : List Expr) (filter : Option Expr) (dtype : DataType) : Expr :=
  ofOp (.reduction func args filter) dtype

def setOp (left : Expr) (kind : SetOpKind) (right : Expr) (distinct : Bool) : Expr :=
  ofOp (.setOp kind left right distinct) left.dtype

def union (left right : Expr) (distinct : Bool) : Expr :=
  left.setOp .union right distinct

/-- An argument that counts only where a filter holds: elsewhere it is null. -/
def filtered (arg : Expr) : Option Expr → Expr
  | some cond => ifElse cond arg (null arg.dtype)
  | none => arg

end Expr

end BigQuerySql
