namespace BigQuerySql

inductive FileEntry where
  | missing
  | unreadable
  | text (content : String)
deriving DecidableEq, Repr

abbrev Files := String → FileEntry

namespace Files

def steps (path : String) : List String :=
  (path.splitOn "/").filter fun step => !step.isEmpty && step != "."

def isOpenEnded (path : String) : Bool :=
  match (path.splitOn "/").getLast? with
  | some step => step.isEmpty || step == "."
  | none => true

def isAbove (path : String) : Bool :=
  (steps path).all (· == "..")

/-- The files of a working directory, with their texts. A path from the root leads to none of them. -/
def ofList (files : List (String × String)) : Files := fun path =>
  if isAbove path then .unreadable
  else if path.startsWith "/" then .missing
  else
    match files.find? fun file => steps file.1 == steps path with
    | some (_, content) => if isOpenEnded path then .missing else .text content
    | none =>
      if files.any fun file => (steps path).isPrefixOf (steps file.1) then .unreadable else .missing

end Files

end BigQuerySql
