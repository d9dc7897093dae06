import BigQuerySql.Sql.Layout
import BigQuerySql.Sql.Literal
import BigQuerySql.Sql.TypeName
import BigQuerySql.Text.Upper

namespace BigQuerySql

open Piece (part)

/-- The ways to write a node. A template takes exactly so many operands; a function any number unless it
is told how many. -/
inductive Formatter where
  | genericLiteral
  | literal
  | column
  | parameter
  | tableScan
  | genericCast
  | cast
  | conditional
  | infixed
  | genericSetOp
  | setOp
  | function (name : String) (arity : Option Nat)
  | template (arity : Nat) (pieces : List Piece)
  | leading (words : String)
  | trailing (words : String)
  | between
  | like
  | baseFirstLog
  | log
  | genericSubstring
  | substring
  | findInSet
  | floor
  | truncate (name : String) (units : List IntervalUnit)
  | intervalArithmetic (name : String) (units : List IntervalUnit)
  | timestampFromUnix
  | stringFind
  | hash
  | hashBytes
  | strftime
  | stringToTimestamp
  | structField
  | regex (before middle after : String) (arity : Nat)
  | stringJoin
  | simplify
  | reduction (name : String)
  | countDistinct
  | singleReduction (before after : String)
  | arbitrary
  | covariance

namespace Sql

def binaryPieces : BinaryOp → List Piece
  | .add => [part 0, " + ", part 1]
  | .subtract => [part 0, " - ", part 1]
  | .multiply => [part 0, " * ", part 1]
  | .divide => [part 0, " / ", part 1]
  | .modulus => [part 0, " % ", part 1]
  | .equals => [part 0, " = ", part 1]
  | .notEquals => [part 0, " != ", part 1]
  | .less => [part 0, " < ", part 1]
  | .lessEqual => [part 0, " <= ", part 1]
  | .greater => [part 0, " > ", part 1]
  | .greaterEqual => [part 0, " >= ", part 1]
  | .identicalTo => [part 0, " IS NOT DISTINCT FROM ", part 1]
  | .and => [part 0, " AND ", part 1]
  | .or => [part 0, " OR ", part 1]
  | .power => ["pow(", part 0, ", ", part 1, ")"]
  | .floorDivide => ["floor(", part 0, " / ", part 1, ")"]
  | .xor => ["(", part 0, " OR ", part 1, ") AND NOT (", part 0, " AND ", part 1, ")"]

def genericSetKeyword : SetOpKind → Bool → String
  | .union, true => "UNION"
  | .union, false => "UNION ALL"
  | .intersection, _ => "INTERSECT"
  | .difference, _ => "EXCEPT"

def setKeyword : SetOpKind → Bool → Except SqlError String
  | .union, true => .ok "UNION DISTINCT"
  | .union, false => .ok "UNION ALL"
  | .intersection, true => .ok "INTERSECT DISTINCT"
  | .difference, true => .ok "EXCEPT DISTINCT"
  | .intersection, false => .error (.unsupportedOperation .intersectAll)
  | .difference, false => .error (.unsupportedOperation .exceptAll)

def flattenSetOp (kind : SetOpKind) : Expr → Except SqlError (List Expr × List String) :=
  Expr.para fun op dtype label =>
    match op with
    | .setOp k left right distinct =>
      if k = kind then do
        let (leftParts, leftWords) ← left.2
        let word ← setKeyword kind distinct
        let (rightParts, rightWords) ← right.2
        return (leftParts ++ rightParts, leftWords ++ word :: rightWords)
      else .ok ([⟨op.map Prod.fst, dtype, label⟩], [])
    | _ => .ok ([⟨op.map Prod.fst, dtype, label⟩], [])

def isSetOp (e : Expr) : Bool :=
  match e.op with
  | .setOp _ _ _ _ => true
  | _ => false

/-- A part of a chain; a set operation of another kind stands in brackets. -/
def chainPart (i : Nat) (e : Expr) : List Piece :=
  if isSetOp e then ["(", part i, ")"] else [part i]

def chainPieces (i : Nat) : List Expr → List String → List Piece
  | [], _ => []
  | e :: rest, words =>
    chainPart i e ++
      match rest, words with
      | [], _ => []
      | rest, word :: words => .text ("\n" ++ word ++ "\n") :: chainPieces (i + 1) rest words
      | rest, [] => chainPieces (i + 1) rest []

def castPieces (operand : Piece) (source target : DataType) : Except SqlError (List Piece) :=
  match source with
  | .timestamp _ =>
    if target.isInteger then .ok ["UNIX_MICROS(", operand, ")"]
    else do return ["CAST(", operand, .text (" AS " ++ (← target.sqlName) ++ ")")]
  | _ => do return ["CAST(", operand, .text (" AS " ++ (← target.sqlName) ++ ")")]

def castText (written : String) (source target : DataType) : Except SqlError String :=
  (castPieces (.text written) source target).map fun pieces =>
    String.join (pieces.map (·.fill []))

def unixPieces : IntervalUnit → Except SqlError (List Piece)
  | .second => .ok ["TIMESTAMP_SECONDS(", part 0, ")"]
  | .millisecond => .ok ["TIMESTAMP_MILLIS(", part 0, ")"]
  | .microsecond => .ok ["TIMESTAMP_MICROS(", part 0, ")"]
  | .nanosecond => .ok ["TIMESTAMP_MICROS(CAST(ROUND(", part 0, " / 1000) AS INT64))"]
  | unit => .error (.notImplemented (.unixUnit unit))

def formatPieces : DataType → Except SqlError (List Piece)
  | .date => .ok ["FORMAT_DATE(", part 0, ", ", part 1, ")"]
  | .time => .ok ["FORMAT_TIME(", part 0, ", ", part 1, ")"]
  | .timestamp timezone =>
    .ok ["FORMAT_TIMESTAMP(", part 0, ", ", part 1, ", ",
      .text (stringLiteral (timezone.getD "UTC")), ")"]
  | dtype => .error (.unsupportedOperation (.formatting dtype))

def rawPattern? (pattern : Expr) : Option String :=
  match pattern.literalValue? with
  | some (.string s) => rawString? s
  | _ => none

def isNegativeLength (length : Expr) : Bool :=
  match length.literalValue? with
  | some (.int n) => n < 0
  | _ => false

def isTrueLiteral (e : Expr) : Bool :=
  match e.literalValue? with
  | some (.bool true) => true
  | _ => false

end Sql

namespace Layout

def checked (steps : List Step) : Except SqlError (List Piece) → Layout
  | .ok pieces => ⟨steps, pieces⟩
  | .error error => ⟨steps ++ [.fail error], []⟩

end Layout

namespace Formatter

open Sql

def substringLayout (e : Expr) : Layout :=
  match e.operands with
  | [arg, start] =>
    ⟨[.operand arg, .nested start], ["substr(", part 0, ", ", part 1, " + 1)"]⟩
  | [arg, start, length] =>
    ⟨[.operand arg, .nested start, .operand length],
      ["substr(", part 0, ", ", part 1, " + 1, ", part 2, ")"]⟩
  | _ => .malformed e "two or three arguments"

/-- A function over a regular expression. The pattern is written before the other arguments. -/
def regexLayout (before middle after : String) (arg pattern : Expr) (others : List Expr) : Layout :=
  let tail := if others.isEmpty then [.text after] else [.text middle, part 1, .text after]
  match rawPattern? pattern with
  | some raw =>
    ⟨.operand arg :: others.map .operand, [.text before, part 0, ", ", .text raw] ++ tail⟩
  | none =>
    let tail := if others.isEmpty then [.text after] else [.text middle, part 2, .text after]
    ⟨.operand pattern :: .operand arg :: others.map .operand,
      [.text before, part 1, ", ", part 0] ++ tail⟩

def layout : Formatter → Expr → Layout
  | .genericLiteral, e =>
    match e.literalValue? with
    | some v => .ofExcept (v.genericLiteral e.dtype)
    | none => .malformed e "a literal"
  | .literal, e =>
    match e.literalValue? with
    | some v => .ofExcept (v.literal e.dtype)
    | none => .malformed e "a literal"
  | .column, e =>
    match e.op with
    | .column name _ => .constant (backtick name)
    | _ => .malformed e "a column"
  | .parameter, e =>
    match e.op with
    | .scalarParameter name => ⟨[.parameter name e.dtype], [part 0]⟩
    | _ => .malformed e "a scalar parameter"
  | .tableScan, e =>
    match e.op with
    | .tableScan name _ => ⟨[.table name], ["SELECT *\nFROM ", part 0]⟩
    | _ => .malformed e "a table scan"
  | .genericCast, e =>
    match e.op with
    | .cast arg =>
      ⟨[.operand arg], ["CAST(", part 0, .text (" AS " ++ Text.upper e.dtype.display ++ ")")]⟩
    | _ => .malformed e "a cast"
  | .cast, e =>
    match e.operands with
    | [arg] => .checked [.operand arg] (castPieces (part 0) arg.dtype e.dtype)
    | operands => .failure (.malformedNode e.kind (.argumentCount 1 operands.length))
  | .conditional, e =>
    match e.op with
    | .ifElse cond yes no =>
      ⟨[.operand cond, .operand yes, .operand no],
        ["CASE WHEN ", part 0, " THEN ", part 1, " ELSE ", part 2, " END"]⟩
    | _ => .malformed e "a conditional"
  | .infixed, e =>
    match e.op with
    | .binary op left right => ⟨[.nested left, .nested right], binaryPieces op⟩
    | _ => .malformed e "a binary operation"
  | .genericSetOp, e =>
    match e.op with
    | .setOp kind left right distinct =>
      ⟨[.operand left, .operand right],
        [part 0, .text ("\n" ++ genericSetKeyword kind distinct ++ "\n"), part 1]⟩
    | _ => .malformed e "a set operation"
  | .setOp, e =>
    match e.op with
    | .setOp kind _ _ _ =>
      match flattenSetOp kind e with
      | .ok (parts, words) => ⟨parts.map .operand, chainPieces 0 parts words⟩
      | .error error => .failure error
    | _ => .malformed e "a set operation"
  | .function name none, e => .apply name e.operands
  | .function name (some arity), e =>
    if e.operands.length = arity then .apply name e.operands
    else .failure (.malformedNode e.kind (.argumentCount arity e.operands.length))
  | .template arity pieces, e => .template arity pieces e
  | .leading words, e =>
    match e.operands with
    | [arg] => ⟨[.nested arg], [.text words, part 0]⟩
    | _ => .malformed e "one argument"
  | .trailing words, e =>
    match e.operands with
    | [arg] => ⟨[.nested arg], [part 0, .text words]⟩
    | _ => .malformed e "one argument"
  | .between, e =>
    match e.operands with
    | [arg, lower, upper] =>
      ⟨[.nested arg, .nested lower, .nested upper], [part 0, " BETWEEN ", part 1, " AND ", part 2]⟩
    | _ => .malformed e "three arguments"
  | .like, e =>
    match e.operands with
    | [arg, pattern] => ⟨[.nested arg, .nested pattern], [part 0, " LIKE ", part 1]⟩
    | _ => .malformed e "two arguments"
  | .baseFirstLog, e =>
    match e.operands with
    | [arg] => .apply "ln" [arg]
    | [arg, base] => .apply "log" [base, arg]
    | _ => .malformed e "one or two arguments"
  | .log, e =>
    match e.operands with
    | [arg] => .apply "ln" [arg]
    | [arg, base] => .apply "log" [arg, base]
    | _ => .malformed e "one or two arguments"
  | .genericSubstring, e => substringLayout e
  | .substring, e =>
    match e.operands with
    | [_, _, length] =>
      if isNegativeLength length then .failure .negativeLength else substringLayout e
    | _ => substringLayout e
  | .findInSet, e =>
    match e.operands with
    | needle :: value :: values =>
      let count := values.length + 1
      ⟨(value :: values).map .operand ++ [.operand needle],
        .text "find_in_set(" :: part count :: .text ", '" ::
          (Layout.parts "," 0 count ++ [.text "') - 1"])⟩
    | _ => .malformed e "a needle and at least one value"
  | .floor, e =>
    match e.operands with
    | [arg] =>
      .checked [.operand arg] do
        return ["CAST(FLOOR(", part 0, .text (") AS " ++ (← e.dtype.sqlName) ++ ")")]
    | operands => .failure (.malformedNode e.kind (.argumentCount 1 operands.length))
  | .truncate name units, e =>
    match e.op with
    | .truncate _ arg unit =>
      if units.contains unit then
        ⟨[.operand arg], [.text (name ++ "_TRUNC("), part 0, .text (", " ++ unit.sqlName ++ ")")]⟩
      else .failure (.unsupportedOperation (.truncation arg.dtype unit))
    | _ => .malformed e "a truncation"
  | .intervalArithmetic name units, e =>
    match e.op with
    | .intervalArithmetic _ arg offset =>
      match offset.dtype with
      | .interval unit =>
        if units.contains unit then .apply name [arg, offset]
        else .failure (.unsupportedOperation (.intervalOffset name unit))
      | dtype => .failure (.malformedNode e.kind (.offsetType dtype))
    | _ => .malformed e "interval arithmetic"
  | .timestampFromUnix, e =>
    match e.op with
    | .timestampFromUnix arg unit => .checked [.operand arg] (unixPieces unit)
    | _ => .malformed e "a unix timestamp conversion"
  | .stringFind, e =>
    match e.op with
    | .stringFind _ _ (some _) _ => .failure (.notImplemented .findStart)
    | .stringFind _ _ none (some _) => .failure (.notImplemented .findEnd)
    | .stringFind arg substr none none =>
      ⟨[.operand arg, .operand substr], ["STRPOS(", part 0, ", ", part 1, ") - 1"]⟩
    | _ => .malformed e "a string find"
  | .hash, e =>
    match e.op with
    | .hash arg how =>
      if how = "farm_fingerprint" then .apply how [arg]
      else .failure (.unsupportedOperation (.hashMethod how))
    | _ => .malformed e "a hash"
  | .hashBytes, e =>
    match e.op with
    | .hashBytes arg how =>
      if ["md5", "sha1", "sha256", "sha512"].contains how then .apply how [arg]
      else .failure (.unsupportedOperation (.hashBytesMethod how))
    | _ => .malformed e "a hashbytes"
  | .strftime, e =>
    match e.op with
    | .strftime arg format =>
      .checked [.operand format, .operand arg] (formatPieces arg.dtype)
    | _ => .malformed e "a strftime"
  | .stringToTimestamp, e =>
    match e.op with
    | .stringToTimestamp arg format timezone =>
      .apply "PARSE_TIMESTAMP" (format :: arg :: timezone.toList)
    | _ => .malformed e "a timestamp parse"
  | .structField, e =>
    match e.op with
    | .structField arg field => ⟨[.operand arg], [part 0, .text ("." ++ backtick field)]⟩
    | _ => .malformed e "a struct field"
  | .regex before middle after arity, e =>
    match e.operands with
    | arg :: pattern :: others =>
      if others.length + 2 = arity then regexLayout before middle after arg pattern others
      else .failure (.malformedNode e.kind (.argumentCount arity e.operands.length))
    | operands => .failure (.malformedNode e.kind (.argumentCount arity operands.length))
  | .stringJoin, e =>
    match e.operands with
    | separator :: values =>
      ⟨values.map .operand ++ [.operand separator],
        .text "ARRAY_TO_STRING([" :: (Layout.parts ", " 0 values.length ++
          [.text "], ", part values.length, .text ")"])⟩
    | [] => .malformed e "a separator"
  | .simplify, e =>
    match e.operands with
    | [geography, tolerance, preserveCollapsed] =>
      if isTrueLiteral preserveCollapsed then .failure (.unsupportedOperation .preserveCollapsed)
      else .apply "ST_SIMPLIFY" [geography, tolerance]
    | operands => .failure (.malformedNode e.kind (.argumentCount 3 operands.length))
  | .reduction name, e =>
    match e.op with
    | .reduction _ args filter => .apply name (args.map (·.filtered filter))
    | _ => .malformed e "a reduction"
  | .countDistinct, e =>
    match e.op with
    | .reduction _ [arg] filter =>
      ⟨[.operand (arg.filtered filter)], ["count(DISTINCT ", part 0, ")"]⟩
    | _ => .malformed e "a single-argument reduction"
  | .singleReduction before after, e =>
    match e.op with
    | .reduction _ [arg] filter =>
      ⟨[.operand (arg.filtered filter)], [.text before, part 0, .text after]⟩
    | .reduction _ _ _ => .malformed e "one argument"
    | _ => .malformed e "a reduction"
  | .arbitrary, e =>
    match e.op with
    | .arbitrary arg how filter =>
      match how.filter (· ≠ "first") with
      | some how => .failure (.unsupportedOperation (.arbitraryMethod how))
      | none => .apply "ANY_VALUE" [arg.filtered filter]
    | _ => .malformed e "an arbitrary"
  | .covariance, e =>
    match e.op with
    | .covariance left right how filter =>
      if how = "sample" then .apply "COVAR_SAMP" [left.filtered filter, right.filtered filter]
      else if how = "pop" then .apply "COVAR_POP" [left.filtered filter, right.filtered filter]
      else .failure (.unsupportedOperation (.covarianceMethod how))
    | _ => .malformed e "a covariance"

end Formatter

end BigQuerySql
