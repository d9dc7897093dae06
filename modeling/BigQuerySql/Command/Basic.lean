namespace BigQuerySql

inductive Command where
  | compile (expr : String) (params : Option String)
  | schema (table : String)
deriving DecidableEq, Repr

structure Invocation where
  config : String
  command : Command
deriving DecidableEq, Repr

namespace Invocation

def paths (i : Invocation) : List String :=
  i.config ::
    match i.command with
    | .compile expr params => expr :: params.toList
    | .schema table => [table]

end Invocation

inductive UsageError where
  | help
  | version
  | nothingGiven
  | missingCommand
  | unknownCommand
  | missingArgument
  | unknownArgument
  | missingValue
  | unexpectedValue
  | repeatedOption
deriving DecidableEq, Repr

namespace UsageError

def message : UsageError → String
  | .help => "usage: bqsql [--config FILE] compile EXPR [--params FILE] | schema TABLE"
  | .version => "bqsql 0.1.0"
  | .nothingGiven => "no command given"
  | .missingCommand => "no command given"
  | .unknownCommand => "unknown command"
  | .missingArgument => "an argument is missing"
  | .unknownArgument => "unknown argument"
  | .missingValue => "an option has no value"
  | .unexpectedValue => "an option takes no value"
  | .repeatedOption => "an option is given twice"

end UsageError

end BigQuerySql
