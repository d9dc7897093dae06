namespace BigQuerySql

inductive SetOpKind where
  | union | intersection | difference
deriving DecidableEq, Repr

inductive BinaryOp where
  | add | subtract | multiply | divide | floorDivide | modulus | power
  | equals | notEquals | less | lessEqual | greater | greaterEqual | identicalTo
  | and | or | xor
deriving DecidableEq, Repr

inductive GeoFunc where
  | area | asBinary | asText | azimuth | buffer | centroid | contains | covers | coveredBy
  | dWithin | difference | disjoint | distance | endPoint | equals | geometryType
  | intersection | intersects | length | maxDistance | nPoints | perimeter | point
  | pointN | simplify | startPoint | touches | union | within
  | x | xMax | xMin | y | yMax | yMin
deriving DecidableEq, Repr

inductive Func where
  | negate | not | isNull | notNull | ifNull | nullIf | coalesce | greatest | least | between
  | abs | ceil | floor | sqrt | exp | ln | log | log2 | log10 | sign | round
  | date | time
  | extractYear | extractQuarter | extractMonth | extractDay
  | extractHour | extractMinute | extractSecond | extractMillisecond | extractEpochSeconds
  | dayOfWeekIndex | dayOfWeekName | timestampNow | dateDiff | timestampDiff
  | lowercase | uppercase | strip | lStrip | rStrip | stringLength | reverse
  | substring | strRight | stringReplace | stringSplit | stringConcat | stringJoin
  | stringAscii | repeat | regexSearch | regexExtract | regexReplace | stringSqlLike
  | translate | findInSet | capitalize
  | arrayIndex | arrayConcat | arrayLength
  | geo (g : GeoFunc)
deriving DecidableEq, Repr

inductive Agg where
  | sum | mean | min | max | count | countDistinct
  | any | all | notAny | notAll
  | groupConcat | approxMedian | approxCountDistinct
  | bitAnd | bitOr | bitXor | arrayCollect
  | standardDevSample | standardDevPop | varianceSample | variancePop
  | geoUnionAgg
deriving DecidableEq, Repr

inductive TemporalKind where
  | date | time | timestamp
deriving DecidableEq, Repr

inductive IntervalOp where
  | dateAdd | dateSub | timestampAdd | timestampSub
deriving DecidableEq, Repr

inductive Kind where
  | literal | column | scalarParameter | tableScan
  | setOp (kind : SetOpKind)
  | binary (op : BinaryOp)
  | call (func : Func)
  | cast
  | ifElse
  | reduction (func : Agg)
  | covariance
  | arbitrary
  | truncate (kind : TemporalKind)
  | intervalArithmetic (op : IntervalOp)
  | timestampFromUnix | stringFind | hash | hashBytes | strftime | stringToTimestamp | structField
deriving DecidableEq, Repr

namespace SetOpKind

def all : List SetOpKind := [.union, .intersection, .difference]

def name : SetOpKind → String
  | .union => "Union"
  | .intersection => "Intersection"
  | .difference => "Difference"

def ofName? (s : String) : Option SetOpKind :=
  all.find? fun k => k.name == s

end SetOpKind

namespace BinaryOp

def all : List BinaryOp :=
  [.add, .subtract, .multiply, .divide, .floorDivide, .modulus, .power, .equals, .notEquals, .less,
   .lessEqual, .greater, .greaterEqual, .identicalTo, .and, .or, .xor]

def name : BinaryOp → String
  | .add => "Add"
  | .subtract => "Subtract"
  | .multiply => "Multiply"
  | .divide => "Divide"
  | .floorDivide => "FloorDivide"
  | .modulus => "Modulus"
  | .power => "Power"
  | .equals => "Equals"
  | .notEquals => "NotEquals"
  | .less => "Less"
  | .lessEqual => "LessEqual"
  | .greater => "Greater"
  | .greaterEqual => "GreaterEqual"
  | .identicalTo => "IdenticalTo"
  | .and => "And"
  | .or => "Or"
  | .xor => "Xor"

def ofName? (s : String) : Option BinaryOp :=
  all.find? fun op => op.name == s

def isComparison : BinaryOp → Bool
  | .equals | .notEquals | .less | .lessEqual | .greater | .greaterEqual | .identicalTo => true
  | _ => false

def isLogical : BinaryOp → Bool
  | .and | .or | .xor => true
  | _ => false

end BinaryOp

namespace GeoFunc

def all : List GeoFunc :=
  [.area, .asBinary, .asText, .azimuth, .buffer, .centroid, .contains, .covers, .coveredBy,
   .dWithin, .difference, .disjoint, .distance, .endPoint, .equals, .geometryType, .intersection,
   .intersects, .length, .maxDistance, .nPoints, .perimeter, .point, .pointN, .simplify,
   .startPoint, .touches, .union, .within, .x, .xMax, .xMin, .y, .yMax, .yMin]

def name : GeoFunc → String
  | .area => "Area"
  | .asBinary => "AsBinary"
  | .asText => "AsText"
  | .azimuth => "Azimuth"
  | .buffer => "Buffer"
  | .centroid => "Centroid"
  | .contains => "Contains"
  | .covers => "Covers"
  | .coveredBy => "CoveredBy"
  | .dWithin => "DWithin"
  | .difference => "Difference"
  | .disjoint => "Disjoint"
  | .distance => "Distance"
  | .endPoint => "EndPoint"
  | .equals => "Equals"
  | .geometryType => "GeometryType"
  | .intersection => "Intersection"
  | .intersects => "Intersects"
  | .length => "Length"
  | .maxDistance => "MaxDistance"
  | .nPoints => "NPoints"
  | .perimeter => "Perimeter"
  | .point => "Point"
  | .pointN => "PointN"
  | .simplify => "Simplify"
  | .startPoint => "StartPoint"
  | .touches => "Touches"
  | .union => "Union"
  | .within => "Within"
  | .x => "X"
  | .xMax => "XMax"
  | .xMin => "XMin"
  | .y => "Y"
  | .yMax => "YMax"
  | .yMin => "YMin"

def ofName? (s : String) : Option GeoFunc :=
  all.find? fun g => g.name == s

end GeoFunc

namespace Func

def plain : List Func :=
  [.negate, .not, .isNull, .notNull, .ifNull, .nullIf, .coalesce, .greatest, .least, .between,
   .abs, .ceil, .floor, .sqrt, .exp, .ln, .log, .log2, .log10, .sign, .round,
   .date, .time, .extractYear, .extractQuarter, .extractMonth, .extractDay, .extractHour,
   .extractMinute, .extractSecond, .extractMillisecond, .extractEpochSeconds, .dayOfWeekIndex,
   .dayOfWeekName, .timestampNow, .dateDiff, .timestampDiff, .lowercase, .uppercase, .strip,
   .lStrip, .rStrip, .stringLength, .reverse, .substring, .strRight, .stringReplace, .stringSplit,
   .stringConcat, .stringJoin, .stringAscii, .repeat, .regexSearch, .regexExtract, .regexReplace,
   .stringSqlLike, .translate, .findInSet, .capitalize, .arrayIndex, .arrayConcat, .arrayLength]

def name : Func → String
  | .negate => "Negate"
  | .not => "Not"
  | .isNull => "IsNull"
  | .notNull => "NotNull"
  | .ifNull => "IfNull"
  | .nullIf => "NullIf"
  | .coalesce => "Coalesce"
  | .greatest => "Greatest"
  | .least => "Least"
  | .between => "Between"
  | .abs => "Abs"
  | .ceil => "Ceil"
  | .floor => "Floor"
  | .sqrt => "Sqrt"
  | .exp => "Exp"
  | .ln => "Ln"
  | .log => "Log"
  | .log2 => "Log2"
  | .log10 => "Log10"
  | .sign => "Sign"
  | .round => "Round"
  | .date => "Date"
  | .time => "Time"
  | .extractYear => "ExtractYear"
  | .extractQuarter => "ExtractQuarter"
  | .extractMonth => "ExtractMonth"
  | .extractDay => "ExtractDay"
  | .extractHour => "ExtractHour"
  | .extractMinute => "ExtractMinute"
  | .extractSecond => "ExtractSecond"
  | .extractMillisecond => "ExtractMillisecond"
  | .extractEpochSeconds => "ExtractEpochSeconds"
  | .dayOfWeekIndex => "DayOfWeekIndex"
  | .dayOfWeekName => "DayOfWeekName"
  | .timestampNow => "TimestampNow"
  | .dateDiff => "DateDiff"
  | .timestampDiff => "TimestampDiff"
  | .lowercase => "Lowercase"
  | .uppercase => "Uppercase"
  | .strip => "Strip"
  | .lStrip => "LStrip"
  | .rStrip => "RStrip"
  | .stringLength => "StringLength"
  | .reverse => "Reverse"
  | .substring => "Substring"
  | .strRight => "StrRight"
  | .stringReplace => "StringReplace"
  | .stringSplit => "StringSplit"
  | .stringConcat => "StringConcat"
  | .stringJoin => "StringJoin"
  | .stringAscii => "StringAscii"
  | .repeat => "Repeat"
  | .regexSearch => "RegexSearch"
  | .regexExtract => "RegexExtract"
  | .regexReplace => "RegexReplace"
  | .stringSqlLike => "StringSQLLike"
  | .translate => "Translate"
  | .findInSet => "FindInSet"
  | .capitalize => "Capitalize"
  | .arrayIndex => "ArrayIndex"
  | .arrayConcat => "ArrayConcat"
  | .arrayLength => "ArrayLength"
  | .geo g => "Geo(" ++ g.name ++ ")"

def ofName? (s : String) : Option Func :=
  plain.find? fun f => f.name == s

def display : Func → String
  | .geo g => "Geo" ++ g.name
  | f => f.name

end Func

namespace Agg

def every : List Agg :=
  [.sum, .mean, .min, .max, .count, .countDistinct, .any, .all, .notAny, .notAll, .groupConcat,
   .approxMedian, .approxCountDistinct, .bitAnd, .bitOr, .bitXor, .arrayCollect,
   .standardDevSample, .standardDevPop, .varianceSample, .variancePop, .geoUnionAgg]

def name : Agg → String
  | .sum => "Sum"
  | .mean => "Mean"
  | .min => "Min"
  | .max => "Max"
  | .count => "Count"
  | .countDistinct => "CountDistinct"
  | .any => "Any"
  | .all => "All"
  | .notAny => "NotAny"
  | .notAll => "NotAll"
  | .groupConcat => "GroupConcat"
  | .approxMedian => "ApproxMedian"
  | .approxCountDistinct => "ApproxCountDistinct"
  | .bitAnd => "BitAnd"
  | .bitOr => "BitOr"
  | .bitXor => "BitXor"
  | .arrayCollect => "ArrayCollect"
  | .standardDevSample => "StandardDevSample"
  | .standardDevPop => "StandardDevPop"
  | .varianceSample => "VarianceSample"
  | .variancePop => "VariancePop"
  | .geoUnionAgg => "GeoUnionAgg"

def ofName? (s : String) : Option Agg :=
  every.find? fun a => a.name == s

end Agg

namespace TemporalKind

def all : List TemporalKind := [.date, .time, .timestamp]

def name : TemporalKind → String
  | .date => "Date"
  | .time => "Time"
  | .timestamp => "Timestamp"

def ofName? (s : String) : Option TemporalKind :=
  all.find? fun k => k.name == s

end TemporalKind

namespace IntervalOp

def all : List IntervalOp := [.dateAdd, .dateSub, .timestampAdd, .timestampSub]

def name : IntervalOp → String
  | .dateAdd => "DateAdd"
  | .dateSub => "DateSub"
  | .timestampAdd => "TimestampAdd"
  | .timestampSub => "TimestampSub"

def ofName? (s : String) : Option IntervalOp :=
  all.find? fun op => op.name == s

end IntervalOp

namespace Kind

def formNames : List String :=
  ["Literal", "Column", "ScalarParameter", "TableScan", "SetOp", "Binary", "Call", "Cast", "IfElse",
   "Reduction", "Covariance", "Arbitrary", "Truncate", "IntervalArithmetic", "TimestampFromUnix",
   "StringFind", "Hash", "HashBytes", "Strftime", "StringToTimestamp", "StructField"]

def form : Kind → Nat
  | .literal => 0
  | .column => 1
  | .scalarParameter => 2
  | .tableScan => 3
  | .setOp _ => 4
  | .binary _ => 5
  | .call _ => 6
  | .cast => 7
  | .ifElse => 8
  | .reduction _ => 9
  | .covariance => 10
  | .arbitrary => 11
  | .truncate _ => 12
  | .intervalArithmetic _ => 13
  | .timestampFromUnix => 14
  | .stringFind => 15
  | .hash => 16
  | .hashBytes => 17
  | .strftime => 18
  | .stringToTimestamp => 19
  | .structField => 20

def formName (k : Kind) : String :=
  formNames.getD k.form ""

def operatorName : Kind → String
  | .setOp kind => kind.name
  | .binary op => op.name
  | .call func => func.name
  | .reduction func => func.name
  | .truncate kind => kind.name
  | .intervalArithmetic op => op.name
  | _ => ""

def fullName (k : Kind) : String :=
  if k.operatorName.isEmpty then k.formName else k.formName ++ "(" ++ k.operatorName ++ ")"

def display : Kind → String
  | .call func => func.display
  | .truncate kind => kind.name ++ "Truncate"
  | k => if k.operatorName.isEmpty then k.formName else k.operatorName

def before (a b : Kind) : Bool :=
  a.form < b.form || (a.form == b.form && a.operatorName < b.operatorName)

end Kind

end BigQuerySql
