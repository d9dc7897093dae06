import BigQuerySql.DataType.Basic
import BigQuerySql.Expr.Kind

namespace BigQuerySql

inductive OperationFault where
  | truncation (dtype : DataType) (unit : IntervalUnit)
  | intervalOffset (function : String) (unit : IntervalUnit)
  | hashMethod (how : String)
  | hashBytesMethod (how : String)
  | formatting (dtype : DataType)
  | arbitraryMethod (how : String)
  | covarianceMethod (how : String)
  | preserveCollapsed
  | intersectAll
  | exceptAll
  | unregistered (kind : Kind)

inductive TypeFault where
  | lossyInteger
  | decimalSize (dtype : DataType)
  | nestedArray
  | noColumnType (dtype : DataType)
  | unknownName (name : String)
  | emptyRecord (name : String)

inductive FeatureFault where
  | kind (kind : Kind)
  | literal (shape : String) (dtype : DataType)
  | findStart
  | findEnd
  | unixUnit (unit : IntervalUnit)

inductive BindingFault where
  | noBinding (dtype : DataType) (shape : String)
  | noField (parameter field : String)

inductive NodeFault where
  | expected (what : String)
  | argumentCount (wanted found : Nat)
  | offsetType (dtype : DataType)

inductive SqlError where
  | unsupportedOperation (fault : OperationFault)
  | unsupportedType (fault : TypeFault)
  | unrepresentableLiteral (shape : String) (dtype : DataType)
  | notImplemented (fault : FeatureFault)
  | negativeLength
  | missingParameter (name : String)
  | parameterBinding (fault : BindingFault)
  | malformedNode (kind : Kind) (fault : NodeFault)

namespace OperationFault

def message : OperationFault → String
  | .truncation dtype unit =>
    "BigQuery does not support truncating " ++ dtype.display ++ " values to unit '" ++ unit.code ++ "'"
  | .intervalOffset function unit =>
    "BigQuery does not allow binary operation " ++ function ++ " with INTERVAL offset " ++ unit.code
  | .hashMethod how => "hash method '" ++ how ++ "' is not supported by BigQuery"
  | .hashBytesMethod how => "hashbytes method '" ++ how ++ "' is not supported by BigQuery"
  | .formatting dtype => "cannot format values of type " ++ dtype.display
  | .arbitraryMethod how => "'" ++ how ++ "' value not supported for arbitrary in BigQuery"
  | .covarianceMethod how => "Covariance with how='" ++ how ++ "' is not supported."
  | .preserveCollapsed =>
    "BigQuery simplify does not support preserving collapsed geometries, " ++
      "must pass preserve_collapsed=False"
  | .intersectAll => "BigQuery does not support INTERSECT ALL"
  | .exceptAll => "BigQuery does not support EXCEPT ALL"
  | .unregistered kind => kind.display

end OperationFault

namespace TypeFault

def message : TypeFault → String
  | .lossyInteger => "Conversion from uint64 to BigQuery integer type (int64) is lossy"
  | .decimalSize dtype =>
    "BigQuery only supports decimal(38, 9) as NUMERIC and decimal(76, 38) as BIGNUMERIC, got " ++
      dtype.display
  | .nestedArray => "ARRAY<ARRAY<T>> is not supported in BigQuery"
  | .noColumnType dtype => "BigQuery has no column type for " ++ dtype.display
  | .unknownName name => "unknown BigQuery type " ++ name
  | .emptyRecord name => "RECORD field " ++ name ++ " has no sub-fields"

end TypeFault

namespace FeatureFault

def message : FeatureFault → String
  | .kind k => k.display ++ " is not supported by the BigQuery dialect"
  | .literal shape dtype => shape ++ " literal of type " ++ dtype.display
  | .findStart => "start not implemented for string find"
  | .findEnd => "end not implemented for string find"
  | .unixUnit unit => "cannot cast unit " ++ unit.code

end FeatureFault

namespace BindingFault

def message : BindingFault → String
  | .noBinding dtype shape => "no parameter binding for (" ++ dtype.display ++ ", " ++ shape ++ ")"
  | .noField parameter field =>
    "struct parameter '" ++ parameter ++ "' has no field named '" ++ field ++ "'"

end BindingFault

namespace NodeFault

def message : NodeFault → String
  | .expected what => "expected " ++ what
  | .argumentCount wanted found =>
    "expected " ++ toString wanted ++ " arguments, got " ++ toString found
  | .offsetType dtype => "offset must be an interval, got " ++ dtype.display

end NodeFault

namespace SqlError

def message : SqlError → String
  | .unsupportedOperation fault => fault.message
  | .unsupportedType fault => fault.message
  | .unrepresentableLiteral shape dtype =>
    "cannot represent " ++ shape ++ " as a " ++ dtype.display ++ " literal"
  | .notImplemented fault => fault.message
  | .negativeLength => "Length parameter should not be a negative value."
  | .missingParameter name => "no value supplied for query parameter '" ++ name ++ "'"
  | .parameterBinding fault => fault.message
  | .malformedNode kind fault => "malformed " ++ kind.display ++ " node: " ++ fault.message

end SqlError

end BigQuerySql
