import BigQuerySql.Lowering.Rule
import BigQuerySql.Sql.Formatter

namespace BigQuerySql

open Piece (part)

theorem Expr.op_of_literalValue {e : Expr} {v : Value} (h : e.literalValue? = some v) : e.op = .literal v := by
  unfold literalValue? at h
  split at h <;> simp_all

theorem Sql.op_of_rawPattern {pattern : Expr} {raw : String} (h : rawPattern? pattern = some raw) :
    ∃ s, pattern.op = .literal (.string s) ∧ rawString? s = some raw := by
  unfold rawPattern? at h
  split at h
  next s hs => exact ⟨s, Expr.op_of_literalValue hs, h⟩
  next => cases h

namespace Formatter

open Sql

/-- The ways a formatter can lay out a node. A layout that goes through comes with the form of the node that it is made
for; any other fails, after some operands of the node at most. -/
inductive Outcome (e : Expr) : Formatter → Layout → Prop where
  | genericLiteral {v : Value} {w : String} (hop : e.op = .literal v) (hw : v.genericLiteral e.dtype = .ok w) :
      Outcome e .genericLiteral (.constant w)
  | literal {v : Value} {w : String} (hop : e.op = .literal v) (hw : v.literal e.dtype = .ok w) :
      Outcome e .literal (.constant w)
  | column {name : String} {table : Option String} (hop : e.op = .column name table) :
      Outcome e .column (.constant (backtick name))
  | parameter {name : String} (hop : e.op = .scalarParameter name) :
      Outcome e .parameter ⟨[.parameter name e.dtype], [part 0]⟩
  | tableScan {name : String} {schema : Schema} (hop : e.op = .tableScan name schema) :
      Outcome e .tableScan ⟨[.table name], ["SELECT *\nFROM ", part 0]⟩
  | genericCast {arg : Expr} (hop : e.op = .cast arg) :
      Outcome e .genericCast
        ⟨[.operand arg], ["CAST(", part 0, .text (" AS " ++ Text.upper e.dtype.display ++ ")")]⟩
  | cast {arg : Expr} {pieces : List Piece} (ho : e.operands = [arg])
      (hp : castPieces (part 0) arg.dtype e.dtype = .ok pieces) : Outcome e .cast ⟨[.operand arg], pieces⟩
  | conditional {cond yes no : Expr} (hop : e.op = .ifElse cond yes no) :
      Outcome e .conditional ⟨[.operand cond, .operand yes, .operand no],
        ["CASE WHEN ", part 0, " THEN ", part 1, " ELSE ", part 2, " END"]⟩
  | infixed {op : BinaryOp} {left right : Expr} (hop : e.op = .binary op left right) :
      Outcome e .infixed ⟨[.nested left, .nested right], binaryPieces op⟩
  | genericSetOp {kind : SetOpKind} {left right : Expr} {distinct : Bool}
      (hop : e.op = .setOp kind left right distinct) :
      Outcome e .genericSetOp ⟨[.operand left, .operand right],
        [part 0, .text ("\n" ++ genericSetKeyword kind distinct ++ "\n"), part 1]⟩
  | setOp {kind : SetOpKind} {left right : Expr} {distinct : Bool} {parts : List Expr} {words : List String}
      (hop : e.op = .setOp kind left right distinct) (hflat : flattenSetOp kind e = .ok (parts, words)) :
      Outcome e .setOp ⟨parts.map .operand, chainPieces 0 parts words⟩
  | function {name : String} {arity : Option Nat} (hlen : ∀ n ∈ arity, e.operands.length = n) :
      Outcome e (.function name arity) (.apply name e.operands)
  | template {arity : Nat} {pieces : List Piece} (hlen : e.operands.length = arity) :
      Outcome e (.template arity pieces) ⟨e.operands.map .operand, pieces⟩
  | leading {words : String} {arg : Expr} (ho : e.operands = [arg]) :
      Outcome e (.leading words) ⟨[.nested arg], [.text words, part 0]⟩
  | trailing {words : String} {arg : Expr} (ho : e.operands = [arg]) :
      Outcome e (.trailing words) ⟨[.nested arg], [part 0, .text words]⟩
  | between {arg lower upper : Expr} (ho : e.operands = [arg, lower, upper]) :
      Outcome e .between
        ⟨[.nested arg, .nested lower, .nested upper], [part 0, " BETWEEN ", part 1, " AND ", part 2]⟩
  | like {arg pattern : Expr} (ho : e.operands = [arg, pattern]) :
      Outcome e .like ⟨[.nested arg, .nested pattern], [part 0, " LIKE ", part 1]⟩
  | genericLn {arg : Expr} (ho : e.operands = [arg]) : Outcome e .baseFirstLog (.apply "ln" [arg])
  | baseFirstLog {arg base : Expr} (ho : e.operands = [arg, base]) :
      Outcome e .baseFirstLog (.apply "log" [base, arg])
  | ln {arg : Expr} (ho : e.operands = [arg]) : Outcome e .log (.apply "ln" [arg])
  | log {arg base : Expr} (ho : e.operands = [arg, base]) : Outcome e .log (.apply "log" [arg, base])
  | genericSubstringFrom {arg start : Expr} (ho : e.operands = [arg, start]) :
      Outcome e .genericSubstring ⟨[.operand arg, .nested start], ["substr(", part 0, ", ", part 1, " + 1)"]⟩
  | genericSubstring {arg start length : Expr} (ho : e.operands = [arg, start, length]) :
      Outcome e .genericSubstring ⟨[.operand arg, .nested start, .operand length],
        ["substr(", part 0, ", ", part 1, " + 1, ", part 2, ")"]⟩
  | substringFrom {arg start : Expr} (ho : e.operands = [arg, start]) :
      Outcome e .substring ⟨[.operand arg, .nested start], ["substr(", part 0, ", ", part 1, " + 1)"]⟩
  | substring {arg start length : Expr} (ho : e.operands = [arg, start, length])
      (hlength : ¬isNegativeLength length) :
      Outcome e .substring ⟨[.operand arg, .nested start, .operand length],
        ["substr(", part 0, ", ", part 1, " + 1, ", part 2, ")"]⟩
  | findInSet {needle value : Expr} {values : List Expr} (ho : e.operands = needle :: value :: values) :
      Outcome e .findInSet ⟨(value :: values).map Step.operand ++ [Step.operand needle],
        .text "find_in_set(" :: part (values.length + 1) :: .text ", '" ::
          (Layout.parts "," 0 (values.length + 1) ++ [Piece.text "') - 1"])⟩
  | floor {arg : Expr} {name : String} (ho : e.operands = [arg]) (hname : e.dtype.sqlName = .ok name) :
      Outcome e .floor ⟨[.operand arg], ["CAST(FLOOR(", part 0, .text (") AS " ++ name ++ ")")]⟩
  | truncate {name : String} {units : List IntervalUnit} {kind : TemporalKind} {arg : Expr} {unit : IntervalUnit}
      (hop : e.op = .truncate kind arg unit) (hunit : unit ∈ units) :
      Outcome e (.truncate name units)
        ⟨[.operand arg], [.text (name ++ "_TRUNC("), part 0, .text (", " ++ unit.sqlName ++ ")")]⟩
  | intervalArithmetic {name : String} {units : List IntervalUnit} {op : IntervalOp} {arg offset : Expr}
      {unit : IntervalUnit} (hop : e.op = .intervalArithmetic op arg offset) (hoffset : offset.dtype = .interval unit)
      (hunit : unit ∈ units) : Outcome e (.intervalArithmetic name units) (.apply name [arg, offset])
  | timestampFromUnix {arg : Expr} {unit : IntervalUnit} {pieces : List Piece}
      (hop : e.op = .timestampFromUnix arg unit) (hp : unixPieces unit = .ok pieces) :
      Outcome e .timestampFromUnix ⟨[.operand arg], pieces⟩
  | stringFind {arg substr : Expr} (hop : e.op = .stringFind arg substr none none) :
      Outcome e .stringFind ⟨[.operand arg, .operand substr], ["STRPOS(", part 0, ", ", part 1, ") - 1"]⟩
  | hash {arg : Expr} {how : String} (hop : e.op = .hash arg how) (hhow : how = "farm_fingerprint") :
      Outcome e .hash (.apply how [arg])
  | hashBytes {arg : Expr} {how : String} (hop : e.op = .hashBytes arg how)
      (hhow : how ∈ ["md5", "sha1", "sha256", "sha512"]) : Outcome e .hashBytes (.apply how [arg])
  | strftime {arg format : Expr} {pieces : List Piece} (hop : e.op = .strftime arg format)
      (hp : formatPieces arg.dtype = .ok pieces) : Outcome e .strftime ⟨[.operand format, .operand arg], pieces⟩
  | stringToTimestamp {arg format : Expr} {timezone : Option Expr}
      (hop : e.op = .stringToTimestamp arg format timezone) :
      Outcome e .stringToTimestamp (.apply "PARSE_TIMESTAMP" (format :: arg :: timezone.toList))
  | structField {arg : Expr} {field : String} (hop : e.op = .structField arg field) :
      Outcome e .structField ⟨[.operand arg], [part 0, .text ("." ++ backtick field)]⟩
  | regex {before middle after : String} {arity : Nat} {arg pattern : Expr} {others : List Expr}
      (ho : e.operands = arg :: pattern :: others) (hlen : others.length + 2 = arity) :
      Outcome e (.regex before middle after arity) (regexLayout before middle after arg pattern others)
  | stringJoin {separator : Expr} {values : List Expr} (ho : e.operands = separator :: values) :
      Outcome e .stringJoin ⟨values.map Step.operand ++ [Step.operand separator],
        .text "ARRAY_TO_STRING([" :: (Layout.parts ", " 0 values.length ++
          [Piece.text "], ", part values.length, .text ")"])⟩
  | simplify {geography tolerance preserveCollapsed : Expr}
      (ho : e.operands = [geography, tolerance, preserveCollapsed]) (hkeep : ¬isTrueLiteral preserveCollapsed) :
      Outcome e .simplify (.apply "ST_SIMPLIFY" [geography, tolerance])
  | reduction {name : String} {func : Agg} {args : List Expr} {filter : Option Expr}
      (hop : e.op = .reduction func args filter) :
      Outcome e (.reduction name) (.apply name (args.map (·.filtered filter)))
  | countDistinct {func : Agg} {arg : Expr} {filter : Option Expr} (hop : e.op = .reduction func [arg] filter) :
      Outcome e .countDistinct ⟨[.operand (arg.filtered filter)], ["count(DISTINCT ", part 0, ")"]⟩
  | singleReduction {before after : String} {func : Agg} {arg : Expr} {filter : Option Expr}
      (hop : e.op = .reduction func [arg] filter) :
      Outcome e (.singleReduction before after)
        ⟨[.operand (arg.filtered filter)], [.text before, part 0, .text after]⟩
  | arbitrary {arg : Expr} {how : Option String} {filter : Option Expr} (hop : e.op = .arbitrary arg how filter)
      (hhow : how.filter (· ≠ "first") = none) : Outcome e .arbitrary (.apply "ANY_VALUE" [arg.filtered filter])
  | sampleCovariance {left right : Expr} {how : String} {filter : Option Expr}
      (hop : e.op = .covariance left right how filter) (hhow : how = "sample") :
      Outcome e .covariance (.apply "COVAR_SAMP" [left.filtered filter, right.filtered filter])
  | populationCovariance {left right : Expr} {how : String} {filter : Option Expr}
      (hop : e.op = .covariance left right how filter) (hhow : how = "pop") :
      Outcome e .covariance (.apply "COVAR_POP" [left.filtered filter, right.filtered filter])
  | fails {f : Formatter} {args : List Expr} (hargs : args ⊆ e.operands) (error : SqlError) :
      Outcome e f ⟨args.map Step.operand ++ [Step.fail error], []⟩

variable {e : Expr}

theorem Outcome.failure (f : Formatter) (error : SqlError) : Outcome e f (.failure error) :=
  .fails (List.nil_subset _) error

theorem Outcome.checked {f : Formatter} {args : List Expr} {result : Except SqlError (List Piece)}
    (hargs : args ⊆ e.operands) (h : ∀ pieces, result = .ok pieces → Outcome e f ⟨args.map .operand, pieces⟩) :
    Outcome e f (.checked (args.map .operand) result) := by
  cases result with
  | ok pieces => exact h pieces rfl
  | error error => exact .fails hargs error

theorem Outcome.ofExcept {f : Formatter} {result : Except SqlError String}
    (h : ∀ w, result = .ok w → Outcome e f (.constant w)) : Outcome e f (.ofExcept result) := by
  cases result with
  | ok w => exact h w rfl
  | error error => exact .failure f error

theorem outcome (f : Formatter) (e : Expr) : Outcome e f (f.layout e) := by
  cases f with
  | genericLiteral | literal =>
    simp only [layout]
    split
    next v hv =>
      have hop := Expr.op_of_literalValue hv
      refine .ofExcept fun w hw => ?_
      constructor <;> assumption
    next => exact .failure _ _
  | cast =>
    simp only [layout]
    split
    next arg ho =>
      have hargs : [arg] ⊆ e.operands := by simp [ho]
      exact .checked hargs fun pieces hp => .cast ho hp
    next => exact .failure _ _
  | floor =>
    simp only [layout]
    split
    next arg ho =>
      have hargs : [arg] ⊆ e.operands := by simp [ho]
      refine .checked hargs fun pieces hp => ?_
      cases hname : e.dtype.sqlName with
      | error error => simp [hname, bind, Except.bind] at hp
      | ok name =>
        obtain rfl : _ = pieces := by simpa [hname, bind, Except.bind, pure, Except.pure] using hp
        exact .floor ho hname
    next => exact .failure _ _
  | timestampFromUnix =>
    simp only [layout]
    split
    next arg unit hop =>
      have hargs : [arg] ⊆ e.operands := by simp [Expr.operands, Op.operands, hop]
      exact .checked hargs fun pieces hp => .timestampFromUnix hop hp
    next => exact .failure _ _
  | strftime =>
    simp only [layout]
    split
    next arg format hop =>
      have hargs : [format, arg] ⊆ e.operands := by simp [Expr.operands, Op.operands, hop]
      exact .checked hargs fun pieces hp => .strftime hop hp
    next => exact .failure _ _
  | function name arity =>
    cases arity with
    | none => exact .function (by simp)
    | some n =>
      simp only [layout]
      split
      next hlen => exact .function (by simpa using hlen)
      next => exact .failure _ _
  | substring =>
    simp only [layout, substringLayout]
    split
    next arg start length ho =>
      split
      next => exact .failure _ _
      next hlength =>
        simp only [ho]
        exact .substring ho hlength
    next hother =>
      split
      next ho => exact .substringFrom ho
      next arg start length ho => exact absurd ho (hother arg start length)
      next => exact .failure _ _
  | _ =>
    simp only [layout, Layout.template, substringLayout, List.contains_iff_mem]
    (repeat' split) <;> first | exact .failure _ _ | constructor <;> assumption

end Formatter

namespace Rule

/-- What a rule can make of a node: the node itself where the rule does not fit, and otherwise one thing only. -/
inductive Outcome (e : Expr) : Rule → Expr → Prop where
  | kept (rule : Rule) : Outcome e rule e
  | reaggregate {target func : Agg} {args : List Expr} {filter : Option Expr}
      (hop : e.op = .reduction func args filter) :
      Outcome e (.reaggregate target false) ⟨.reduction target args filter, e.dtype, e.label⟩
  | negated {target func : Agg} {args : List Expr} {filter : Option Expr} (hop : e.op = .reduction func args filter) :
      Outcome e (.reaggregate target true) ⟨.call .not [.reduction target args filter e.dtype], .bool, e.label⟩
  | dayOfWeekName {arg : Expr} (ho : e.operands = [arg]) : Outcome e .dayOfWeekName (arg.strftime "%A")
  | floorDivide {op : BinaryOp} {left right : Expr} (hop : e.op = .binary op left right) :
      Outcome e .floorDivide (left.divide right).floor
  | identicalTo {op : BinaryOp} {left right : Expr} (hop : e.op = .binary op left right) :
      Outcome e .identicalTo ((left.isNull.and right.isNull).or (left.equals right))
  | log2 {arg : Expr} (ho : e.operands = [arg]) : Outcome e .log2 (arg.log (some (.literal (.int 2) .int8)))
  | booleanAsInteger {func : Agg} {arg : Expr} {filter : Option Expr} (hop : e.op = .reduction func [arg] filter)
      (hbool : arg.dtype.isBoolean) :
      Outcome e .booleanAsInteger (.reduction func [arg.cast .int64] filter e.dtype)

theorem outcome (rule : Rule) (e : Expr) : Outcome e rule (rule.apply e) := by
  cases rule with
  | keep => exact .kept _
  | reaggregate target negated =>
    simp only [apply]
    split
    next func args filter hop =>
      cases negated
      · exact .reaggregate hop
      · exact .negated hop
    next => exact .kept _
  | floorDivide | identicalTo =>
    simp only [apply, binaryOperands?]
    cases hop : e.op <;> first | exact .kept _ | (constructor; assumption)
  | _ =>
    simp only [apply]
    (repeat' split) <;> first | exact .kept _ | (constructor <;> assumption)

end Rule

end BigQuerySql
