import BigQuerySql.Sql.Generic

namespace BigQuerySql

open Piece (part)

namespace Formatter

def dateUnits : List IntervalUnit := [.year, .quarter, .month, .week, .day]

def timeUnits : List IntervalUnit := [.hour, .minute, .second, .millisecond, .microsecond]

def bigQueryForms : List (Kind × Formatter) :=
  [(.literal, .literal), (.cast, .cast), (.binary .divide, .function "IEEE_DIVIDE" (some 2)),
   (.binary .modulus, .function "MOD" (some 2)),
   (.truncate .date, .truncate "DATE" dateUnits), (.truncate .time, .truncate "TIME" timeUnits),
   (.truncate .timestamp, .truncate "TIMESTAMP" (dateUnits ++ timeUnits)),
   (.intervalArithmetic .dateAdd, .intervalArithmetic "DATE_ADD" dateUnits),
   (.intervalArithmetic .dateSub, .intervalArithmetic "DATE_SUB" dateUnits),
   (.intervalArithmetic .timestampAdd, .intervalArithmetic "TIMESTAMP_ADD" timeUnits),
   (.intervalArithmetic .timestampSub, .intervalArithmetic "TIMESTAMP_SUB" timeUnits),
   (.timestampFromUnix, .timestampFromUnix), (.stringFind, .stringFind), (.hash, .hash),
   (.hashBytes, .hashBytes), (.strftime, .strftime), (.stringToTimestamp, .stringToTimestamp),
   (.structField, .structField), (.arbitrary, .arbitrary), (.covariance, .covariance)]

def extract (field : String) : Formatter :=
  .template 1 [.text ("EXTRACT(" ++ field ++ " from "), part 0, ")"]

def boundingBox (side : String) : Formatter :=
  .template 1 ["ST_BOUNDINGBOX(", part 0, .text (")." ++ side)]

def bigQueryCalls : List (Func × Formatter) :=
  [(.ifNull, .function "IFNULL" (some 2)), (.floor, .floor), (.log, .log), (.sign, unary "SIGN"),
   (.date, unary "DATE"), (.time, unary "TIME"),
   (.timestampNow, .function "CURRENT_TIMESTAMP" (some 0)),
   (.dayOfWeekIndex, .template 1 ["MOD(EXTRACT(DAYOFWEEK FROM ", part 0, ") + 5, 7)"]),
   (.extractYear, extract "year"), (.extractQuarter, extract "quarter"),
   (.extractMonth, extract "month"), (.extractDay, extract "day"), (.extractHour, extract "hour"),
   (.extractMinute, extract "minute"), (.extractSecond, extract "second"),
   (.extractMillisecond, extract "millisecond"), (.extractEpochSeconds, unary "UNIX_SECONDS"),
   (.stringReplace, .function "REPLACE" (some 3)), (.stringSplit, .function "SPLIT" (some 2)),
   (.stringConcat, .function "CONCAT" none), (.stringJoin, .stringJoin),
   (.stringAscii, .template 1 ["TO_CODE_POINTS(", part 0, ")[SAFE_OFFSET(0)]"]),
   (.substring, .substring),
   (.strRight,
     .template 2 ["SUBSTR(", part 0, ", -LEAST(LENGTH(", part 0, "), ", part 1, "))"]),
   (.repeat, .function "REPEAT" (some 2)),
   (.regexSearch, .regex "REGEXP_CONTAINS(" "" ")" 2),
   (.regexExtract, .regex "REGEXP_EXTRACT_ALL(" ")[SAFE_OFFSET(" ")]" 3),
   (.regexReplace, .regex "REGEXP_REPLACE(" ", " ")" 3),
   (.arrayIndex, .template 2 [part 0, "[SAFE_OFFSET(", part 1, ")]"]),
   (.arrayConcat, .function "ARRAY_CONCAT" none), (.arrayLength, unary "ARRAY_LENGTH")]

def geographyCalls : List (GeoFunc × Formatter) :=
  [(.area, unary "ST_AREA"), (.asBinary, unary "ST_ASBINARY"), (.asText, unary "ST_ASTEXT"),
   (.azimuth, .function "ST_AZIMUTH" (some 2)), (.buffer, .function "ST_BUFFER" (some 2)),
   (.centroid, unary "ST_CENTROID"), (.contains, .function "ST_CONTAINS" (some 2)),
   (.covers, .function "ST_COVERS" (some 2)), (.coveredBy, .function "ST_COVEREDBY" (some 2)),
   (.dWithin, .function "ST_DWITHIN" (some 3)), (.difference, .function "ST_DIFFERENCE" (some 2)),
   (.disjoint, .function "ST_DISJOINT" (some 2)), (.distance, .function "ST_DISTANCE" (some 2)),
   (.endPoint, unary "ST_ENDPOINT"), (.equals, .function "ST_EQUALS" (some 2)),
   (.geometryType, unary "ST_GEOMETRYTYPE"),
   (.intersection, .function "ST_INTERSECTION" (some 2)),
   (.intersects, .function "ST_INTERSECTS" (some 2)), (.length, unary "ST_LENGTH"),
   (.maxDistance, .function "ST_MAXDISTANCE" (some 2)), (.nPoints, unary "ST_NUMPOINTS"),
   (.perimeter, unary "ST_PERIMETER"), (.point, .function "ST_GEOGPOINT" (some 2)),
   (.pointN, .function "ST_POINTN" (some 2)), (.simplify, .simplify),
   (.startPoint, unary "ST_STARTPOINT"), (.touches, .function "ST_TOUCHES" (some 2)),
   (.union, .function "ST_UNION" (some 2)), (.within, .function "ST_WITHIN" (some 2)),
   (.x, unary "ST_X"), (.xMax, boundingBox "xmax"), (.xMin, boundingBox "xmin"),
   (.y, unary "ST_Y"), (.yMax, boundingBox "ymax"), (.yMin, boundingBox "ymin")]

def bigQueryReductions : List (Agg × Formatter) :=
  [(.groupConcat, .reduction "STRING_AGG"), (.arrayCollect, .reduction "ARRAY_AGG"),
   (.approxCountDistinct, .reduction "APPROX_COUNT_DISTINCT"),
   (.approxMedian, .singleReduction "APPROX_QUANTILES(" ", 2)[OFFSET(1)]"),
   (.bitAnd, .reduction "BIT_AND"), (.bitOr, .reduction "BIT_OR"), (.bitXor, .reduction "BIT_XOR"),
   (.any, .singleReduction "LOGICAL_OR(" ")"), (.all, .singleReduction "LOGICAL_AND(" ")"),
   (.notAny, .singleReduction "LOGICAL_AND(NOT (" "))"),
   (.notAll, .singleReduction "LOGICAL_OR(NOT (" "))"),
   (.geoUnionAgg, .reduction "ST_UNION_AGG")]

def removedKinds : List Kind :=
  [.call .translate, .call .findInSet, .call .capitalize, .call .dateDiff, .call .timestampDiff]

def bigQuery : DispatchTable Formatter :=
  generic
    |>.insertMany bigQueryForms
    |>.insertMany (SetOpKind.all.map fun kind => (.setOp kind, .setOp))
    |>.insertMany (calls bigQueryCalls)
    |>.insertMany (geographyCalls.map fun e => (.call (.geo e.1), e.2))
    |>.insertMany (reductions bigQueryReductions)
    |>.eraseMany removedKinds

end Formatter

end BigQuerySql
