import BigQuerySql.DispatchTable
import BigQuerySql.Sql.Formatter

namespace BigQuerySql

namespace Formatter

def unary (name : String) : Formatter := .function name (some 1)

def calls (entries : List (Func × Formatter)) : List (Kind × Formatter) :=
  entries.map fun e => (.call e.1, e.2)

def reductions (entries : List (Agg × Formatter)) : List (Kind × Formatter) :=
  entries.map fun e => (.reduction e.1, e.2)

def genericForms : List (Kind × Formatter) :=
  [(.literal, .genericLiteral), (.column, .column), (.scalarParameter, .parameter),
   (.tableScan, .tableScan), (.cast, .genericCast), (.ifElse, .conditional)]

def genericCalls : List (Func × Formatter) :=
  [(.negate, .leading "-"), (.not, .leading "NOT "), (.isNull, .trailing " IS NULL"),
   (.notNull, .trailing " IS NOT NULL"), (.ifNull, .function "ifnull" (some 2)),
   (.nullIf, .function "nullif" (some 2)), (.coalesce, .function "coalesce" none),
   (.greatest, .function "greatest" none), (.least, .function "least" none),
   (.between, .between), (.abs, unary "abs"), (.ceil, unary "ceil"), (.floor, unary "floor"),
   (.sqrt, unary "sqrt"), (.exp, unary "exp"), (.ln, unary "ln"), (.log, .baseFirstLog),
   (.log2, unary "log2"), (.log10, unary "log10"), (.sign, unary "sign"),
   (.round, .function "round" none), (.lowercase, unary "lower"), (.uppercase, unary "upper"),
   (.strip, unary "trim"), (.lStrip, unary "ltrim"), (.rStrip, unary "rtrim"),
   (.stringLength, unary "length"), (.reverse, unary "reverse"), (.substring, .genericSubstring),
   (.stringSqlLike, .like), (.translate, .function "translate" (some 3)),
   (.findInSet, .findInSet), (.capitalize, unary "initcap"),
   (.dateDiff, .function "datediff" (some 2)),
   (.timestampDiff, .function "timestampdiff" (some 2))]

def genericReductions : List (Agg × Formatter) :=
  [(.sum, .reduction "sum"), (.mean, .reduction "avg"), (.min, .reduction "min"),
   (.max, .reduction "max"), (.count, .reduction "count"), (.countDistinct, .countDistinct),
   (.standardDevSample, .reduction "stddev_samp"), (.standardDevPop, .reduction "stddev_pop"),
   (.varianceSample, .reduction "var_samp"), (.variancePop, .reduction "var_pop")]

def generic : DispatchTable Formatter :=
  DispatchTable.empty
    |>.insertMany genericForms
    |>.insertMany (BinaryOp.all.map fun op => (.binary op, .infixed))
    |>.insertMany (SetOpKind.all.map fun kind => (.setOp kind, .genericSetOp))
    |>.insertMany (calls genericCalls)
    |>.insertMany (reductions genericReductions)

end Formatter

end BigQuerySql
