import BigQuerySql.Expr.Build
import BigQuerySql.Sql.Error

namespace BigQuerySql

namespace Expr

def needsParens (e : Expr) : Bool :=
  match e.op with
  | .binary _ _ _ => true
  | .call .isNull _ => true
  | .call .notNull _ => true
  | .call .not _ => true
  | .call .between _ => true
  | .call .stringSqlLike _ => true
  | _ => false

end Expr

/-- One thing to write before a node's own text: an operand, an operand in brackets where it needs them,
the placeholder of a parameter, the name of a table; or a failure, which ends the writing. -/
inductive Step where
  | operand (e : Expr)
  | nested (e : Expr)
  | parameter (name : String) (dtype : DataType)
  | table (name : String)
  | fail (error : SqlError)

inductive Piece where
  | text (s : String)
  | part (step : Nat)
deriving DecidableEq, Repr

instance : Coe String Piece := ⟨.text⟩

/-- How a node is written: the steps in the order in which they are taken, and the pieces of its text from
left to right. -/
structure Layout where
  steps : List Step
  pieces : List Piece

namespace Piece

def fill (texts : List String) : Piece → String
  | .text s => s
  | .part i => texts.getD i ""

end Piece

namespace Layout

def fill (layout : Layout) (texts : List String) : String :=
  String.join (layout.pieces.map (·.fill texts))

def failure (error : SqlError) : Layout := ⟨[.fail error], []⟩

def constant (s : String) : Layout := ⟨[], [.text s]⟩

def ofExcept : Except SqlError String → Layout
  | .ok s => constant s
  | .error error => failure error

def malformed (e : Expr) (what : String) : Layout :=
  failure (.malformedNode e.kind (.expected what))

def parts (separator : String) (first count : Nat) : List Piece :=
  ((List.range count).map fun i => Piece.part (first + i)).intersperse (.text separator)

def apply (function : String) (args : List Expr) : Layout :=
  ⟨args.map .operand, .text (function ++ "(") :: (parts ", " 0 args.length ++ [.text ")"])⟩

def template (arity : Nat) (pieces : List Piece) (e : Expr) : Layout :=
  if e.operands.length = arity then ⟨e.operands.map .operand, pieces⟩
  else failure (.malformedNode e.kind (.argumentCount arity e.operands.length))

end Layout

end BigQuerySql
