import BigQuerySql.Json.Basic
import BigQuerySql.Number.Text

namespace BigQuerySql

namespace Json

/-- Doubles are written in place from `0.00001` up to `10^16`, with at least one digit on either side
of the point. -/
def doubleStyle : DoubleStyle where
  inPlace := some (-5, 16)
  pointZero := true
  plusSign := true
  tie := .toEven

def escapeChar (c : Char) : List Char :=
  match c with
  | '"' => ['\\', '"']
  | '\\' => ['\\', '\\']
  | '\n' => ['\\', 'n']
  | '\r' => ['\\', 'r']
  | '\t' => ['\\', 't']
  | '\x08' => ['\\', 'b']
  | '\x0c' => ['\\', 'f']
  | c =>
    if c.toNat < 0x20 then ['\\', 'u', '0', '0', Nat.digitChar (c.toNat / 16), Nat.digitChar (c.toNat % 16)]
    else [c]

def quoted (s : String) : List Char :=
  '"' :: (s.toList.flatMap escapeChar ++ ['"'])

def intChars (i : Int) : List Char :=
  (if i < 0 then ['-'] else []) ++ Nat.toDigits 10 i.natAbs

/-- Not-a-number and the infinities have no JSON text and are written `null`. -/
def floatChars (x : Binary64) : List Char :=
  if x.isFinite then (x.text doubleStyle).toList else "null".toList

mutual

def chars : Json → List Char
  | .unreadable => "null".toList
  | .null => "null".toList
  | .bool true => "true".toList
  | .bool false => "false".toList
  | .int i => intChars i
  | .float x => floatChars x
  | .str s => quoted s
  | .arr items => '[' :: (itemChars items ++ [']'])
  | .obj members => '{' :: (memberChars members ++ ['}'])

def itemChars : List Json → List Char
  | [] => []
  | [j] => j.chars
  | j :: rest => j.chars ++ ',' :: itemChars rest

def memberChars : List (String × Json) → List Char
  | [] => []
  | [(n, j)] => quoted n ++ ':' :: j.chars
  | (n, j) :: rest => quoted n ++ ':' :: (j.chars ++ ',' :: memberChars rest)

end

def text (j : Json) : String :=
  String.ofList j.chars

def newLine (level : Nat) : List Char :=
  '\n' :: List.replicate (2 * level) ' '

mutual

def prettyChars (level : Nat) : Json → List Char
  | .arr [] => ['[', ']']
  | .obj [] => ['{', '}']
  | .arr items => '[' :: (prettyItems (level + 1) items ++ newLine level ++ [']'])
  | .obj members => '{' :: (prettyMembers (level + 1) members ++ newLine level ++ ['}'])
  | j => j.chars

def prettyItems (level : Nat) : List Json → List Char
  | [] => []
  | [j] => newLine level ++ j.prettyChars level
  | j :: rest => newLine level ++ j.prettyChars level ++ ',' :: prettyItems level rest

def prettyMembers (level : Nat) : List (String × Json) → List Char
  | [] => []
  | [(n, j)] => newLine level ++ quoted n ++ ':' :: ' ' :: j.prettyChars level
  | (n, j) :: rest =>
    newLine level ++ quoted n ++ ':' :: ' ' :: (j.prettyChars level ++ ',' :: prettyMembers level rest)

end

def pretty (j : Json) : String :=
  String.ofList (j.prettyChars 0)

end Json

end BigQuerySql
