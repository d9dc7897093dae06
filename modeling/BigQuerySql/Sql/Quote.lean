namespace BigQuerySql

namespace Sql

def backtickChars (name : List Char) : List Char :=
  '\x60' :: (name.flatMap (fun c => if c = '\x60' then ['\\', '\x60'] else [c]) ++ ['\x60'])

def backtick (name : String) : String :=
  String.ofList (backtickChars name.toList)

def isLetter (c : Char) : Bool :=
  ('a' ≤ c && c ≤ 'z') || ('A' ≤ c && c ≤ 'Z')

def isNameChar (c : Char) : Bool :=
  isLetter c || c.isDigit || c == '_'

def isBareName : List Char → Bool
  | [] => false
  | c :: rest => isLetter c && rest.all isNameChar

def identifier (name : String) : String :=
  if isBareName name.toList then name else backtick name

def stringChar (c : Char) : List Char :=
  match c with
  | '\\' => ['\\', '\\']
  | '\'' => ['\\', '\'']
  | '\n' => ['\\', 'n']
  | '\r' => ['\\', 'r']
  | c => [c]

def stringChars (s : List Char) : List Char :=
  '\'' :: (s.flatMap stringChar ++ ['\''])

def stringLiteral (s : String) : String :=
  String.ofList (stringChars s.toList)

/-- A string between single quotes after the letter `r`, in which backslashes stand for themselves. It
has none where the string holds a quote or a line break or ends in an odd number of backslashes. -/
def rawString? (s : String) : Option String :=
  let cs := s.toList
  let trailing := (cs.reverse.takeWhile (· == '\\')).length
  if cs.any (fun c => c == '\'' || c == '\n' || c == '\r') || trailing % 2 == 1 then none
  else some ("r'" ++ s ++ "'")

end Sql

end BigQuerySql
