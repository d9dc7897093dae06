import BigQuerySql.Lowering.Rule

namespace BigQuerySql

namespace Expr

def height : Expr → Nat :=
  fold fun op _ _ => op.operands.foldl max 0 + 1

def replaced (rules : DispatchTable Rule) (e : Expr) : Expr :=
  let node := match rules.get? e.kind with
    | some rule => rule.apply e
    | none => e
  ⟨node.op, node.dtype, node.label <|> e.label⟩

/-- Lowers from the top, to a bounded depth: the rule for a node's kind is applied once, then the pass goes
on with the operands of the result. -/
def lowerWithin (rules : DispatchTable Rule) : Nat → Expr → Expr
  | 0, e => e
  | n + 1, e => (e.replaced rules).mapOperands (lowerWithin rules n)

/-- How deep the pass may go. A rule puts a few nodes above the operands of the one it replaces, and a
table that does not loop applies few rules in a row to such nodes. -/
def loweringDepth (e : Expr) : Nat :=
  64 * e.height

def lower (rules : DispatchTable Rule) (e : Expr) : Expr :=
  lowerWithin rules e.loweringDepth e

end Expr

end BigQuerySql
