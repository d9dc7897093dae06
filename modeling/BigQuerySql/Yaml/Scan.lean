import BigQuerySql.Yaml.Token

namespace BigQuerySql

namespace Yaml

/-- A place where the key of an entry may start: the number of tokens before it, the place, and whether it must turn
out to be a key. -/
structure KeyStart where
  index : Nat
  place : Cursor
  required : Bool

/-- How far a text is read: the place, the tokens so far, the last first, the columns of the collections that are
open over several lines, the last possible start of a key inside the innermost brackets and in those around them,
and whether a key may start here. -/
structure Scan where
  cursor : Cursor
  tokens : List Token
  columns : List Nat
  key : Option KeyStart
  outerKeys : List (Option KeyStart)
  keyAllowed : Bool

namespace KeyStart

/-- A key stands on one line, and its colon at most 1024 bytes behind its start. -/
def reaches (k : KeyStart) (c : Cursor) : Bool :=
  k.place.line == c.line && c.offset ≤ k.place.offset + 1024

def refresh (c : Cursor) : Option KeyStart → Option (Option KeyStart)
  | none => some none
  | some k => if k.reaches c then some (some k) else if k.required then none else some none

end KeyStart

namespace Scan

def start (text : List Char) : Scan where
  cursor := ⟨0, 0, 0, text⟩
  tokens := []
  columns := []
  key := none
  outerKeys := []
  keyAllowed := true

def bracketed (s : Scan) : Bool :=
  !s.outerKeys.isEmpty

def indent (s : Scan) : Nat :=
  (s.columns.head?.map (· + 1)).getD 0

def put (token : Token) (after : Cursor) (s : Scan) : Scan :=
  { s with cursor := after, tokens := token :: s.tokens }

def take (width : Nat) (token : Token) (s : Scan) : Scan :=
  s.put token (s.cursor.advance width)

def allowKey (allowed : Bool) (s : Scan) : Scan :=
  { s with keyAllowed := allowed }

def insert (index : Nat) (token : Token) (s : Scan) : Scan :=
  let later := s.tokens.take (s.tokens.length - index)
  { s with tokens := later ++ token :: s.tokens.drop later.length }

/-- Skips blanks, line breaks and comments. A new line allows a key, and tabs may stand only where no key can
start. A byte order mark may start a line. -/
def skipFrom (bracketed : Bool) : Bool → Bool → Cursor → List Char → Bool × Cursor
  | allowed, _, c, [] => (allowed, c)
  | allowed, comment, c, x :: rest =>
    if isBreak x then skipFrom bracketed (allowed || !bracketed) false c.next rest
    else if comment || x == '#' then skipFrom bracketed allowed true c.next rest
    else if x == ' ' || (x == '\t' && (bracketed || !allowed)) ||
        (isByteOrderMark x && c.column == 0) then
      skipFrom bracketed allowed false c.next rest
    else (allowed, c)

def skip (s : Scan) : Scan :=
  let (allowed, c) := skipFrom s.bracketed s.keyAllowed false s.cursor s.cursor.rest
  { s with cursor := c, keyAllowed := allowed }

def refresh (s : Scan) : Option Scan := do
  return { s with
    key := ← KeyStart.refresh s.cursor s.key
    outerKeys := ← s.outerKeys.mapM (KeyStart.refresh s.cursor) }

def dropKey (s : Scan) : Option Scan :=
  if s.key.any (·.required) then none else some { s with key := none }

def saveKey (s : Scan) : Option Scan := do
  if s.keyAllowed then
    let required := !s.bracketed && s.columns.head? == some s.cursor.column
    return { ← s.dropKey with key := some ⟨s.tokens.length, s.cursor, required⟩ }
  else return s

def openBlock (column index : Nat) (token : Token) (s : Scan) : Scan :=
  if s.bracketed || s.columns.head?.any (column ≤ ·) then s
  else { s.insert index token with columns := column :: s.columns }

def closeBlocks (keep : Nat → Bool) (s : Scan) : Scan :=
  if s.bracketed then s
  else
    let closed := s.columns.takeWhile (!keep ·)
    { s with
      columns := s.columns.drop closed.length
      tokens := List.replicate closed.length .blockEnd ++ s.tokens }

def startBlock (token : Token) (s : Scan) : Option Scan :=
  if s.bracketed then some s
  else if s.keyAllowed then some (s.openBlock s.cursor.column s.tokens.length token)
  else none

def marker (token : Token) (s : Scan) : Option Scan := do
  return ((← (s.closeBlocks fun _ => false).dropKey).allowKey false).take 3 token

def openBrackets (token : Token) (s : Scan) : Option Scan := do
  let s ← s.saveKey
  return { s with key := none, outerKeys := s.key :: s.outerKeys, keyAllowed := true }.take 1 token

def closeBrackets (token : Token) (s : Scan) : Option Scan := do
  let s ← s.dropKey
  let s := { s with key := s.outerKeys.head?.getD none, outerKeys := s.outerKeys.tail }
  return (s.allowKey false).take 1 token

def comma (s : Scan) : Option Scan := do
  return ((← s.dropKey).allowKey true).take 1 .comma

def dash (s : Scan) : Option Scan := do
  return ((← (← s.startBlock .blockSeq).dropKey).allowKey true).take 1 .dash

def questionMark (s : Scan) : Option Scan := do
  return ((← (← s.startBlock .blockMap).dropKey).allowKey !s.bracketed).take 1 .key

def colon (s : Scan) : Option Scan :=
  match s.key with
  | some k =>
    let s := (s.insert k.index .key).openBlock k.place.column k.index .blockMap
    some ({ s with key := none, keyAllowed := false }.take 1 .value)
  | none => do
    return ((← s.startBlock .blockMap).allowKey !s.bracketed).take 1 .value

def putInline (token : Option (Token × Cursor)) (s : Scan) : Option Scan := do
  let (token, after) ← token
  return ((← s.saveKey).allowKey false).put token after

def plain (s : Scan) : Option Scan := do
  let p ← readPlain s.bracketed s.indent s.cursor
  let s ← s.putInline (some (.scalar true (String.ofList p.text), p.after))
  return s.allowKey p.broken

def quoted (read : Nat → Cursor → Option (List Char × Cursor)) (s : Scan) : Option Scan :=
  s.putInline ((read (s.cursor.rest.length + 1) s.cursor.next).map fun r =>
    (.scalar false (String.ofList r.1), r.2))

def blockText (literal : Bool) (s : Scan) : Option Scan := do
  let (text, after) ← readBlockText literal s.indent s.cursor.next
  return ((← s.dropKey).allowKey true).put (.scalar false (String.ofList text)) after

def directive (s : Scan) : Option Scan := do
  let (token, after) ← readDirective s.cursor
  return ((← (s.closeBlocks fun _ => false).dropKey).allowKey false).put token after

def next (s : Scan) : Option Scan :=
  match s.cursor.rest with
  | [] => none
  | x :: rest =>
    if s.cursor.column == 0 && x == '%' then s.directive
    else if s.cursor.atMarker then s.marker (if x == '-' then .documentStart else .documentEnd)
    else if x == '[' then s.openBrackets .bracketOpen
    else if x == '{' then s.openBrackets .braceOpen
    else if x == ']' then s.closeBrackets .bracketClose
    else if x == '}' then s.closeBrackets .braceClose
    else if x == ',' then s.comma
    else if x == '-' && atSpace rest then s.dash
    else if x == '?' && (s.bracketed || atSpace rest) then s.questionMark
    else if x == ':' && (s.bracketed || atSpace rest) then s.colon
    else if x == '*' then s.putInline ((readName s.cursor.next).map fun r => (.reference r.1, r.2))
    else if x == '&' then s.putInline ((readName s.cursor.next).map fun r => (.anchor r.1, r.2))
    else if x == '!' then s.putInline (readTag s.bracketed s.cursor)
    else if x == '|' && !s.bracketed then s.blockText true
    else if x == '>' && !s.bracketed then s.blockText false
    else if x == '\'' then s.quoted readSingle
    else if x == '"' then s.quoted readDouble
    else if startsPlain s.bracketed s.cursor.rest then s.plain
    else none

/-- Reads the tokens that are left. Each takes a character, which bounds their number. -/
def run : Nat → Scan → Option (List Token)
  | 0, _ => none
  | n + 1, s => do
    let s ← s.skip.refresh
    let s := s.closeBlocks (· ≤ s.cursor.column)
    if s.cursor.rest.isEmpty then
      return (← (s.closeBlocks fun _ => false).dropKey).tokens.reverse
    else run n (← s.next)

end Scan

def tokens? (text : String) : Option (List Token) :=
  if text.toList.all isAllowed then
    let chars := normalizeBreaks text.toList
    (Scan.start chars).run (chars.length + 1)
  else none

end Yaml

end BigQuerySql
