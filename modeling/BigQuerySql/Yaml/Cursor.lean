namespace BigQuerySql

namespace Yaml

def isBlank (c : Char) : Bool :=
  c == ' ' || c == '\t'

def isBreak (c : Char) : Bool :=
  c == '\n' || c == '\u2028' || c == '\u2029'

def isSpace (c : Char) : Bool :=
  isBlank c || isBreak c

def isByteOrderMark (c : Char) : Bool :=
  c == '\ufeff'

def normalizeBreaks : List Char → List Char
  | [] => []
  | '\r' :: '\n' :: rest => '\n' :: normalizeBreaks rest
  | c :: rest => (if c == '\r' || c == '\u0085' then '\n' else c) :: normalizeBreaks rest

def isAllowed (c : Char) : Bool :=
  c == '\t' || c == '\n' || c == '\r' || (' ' ≤ c && c ≤ '~') || c == '\u0085' ||
    ('\u00a0' ≤ c && c ≤ '\ufffd') || 0x10000 ≤ c.toNat

def atSpace : List Char → Bool
  | [] => true
  | c :: _ => isSpace c

structure Cursor where
  line : Nat
  column : Nat
  offset : Nat
  rest : List Char

structure Gap where
  run : List Char
  after : Cursor

namespace Cursor

def next (c : Cursor) : Cursor :=
  match c.rest with
  | [] => c
  | x :: rest =>
    if isBreak x then ⟨c.line + 1, 0, c.offset + x.utf8Size, rest⟩
    else ⟨c.line, c.column + 1, c.offset + x.utf8Size, rest⟩

def advance : Cursor → Nat → Cursor
  | c, 0 => c
  | c, n + 1 => c.next.advance n

def upTo (c : Cursor) (rest : List Char) : Cursor :=
  c.advance (c.rest.length - rest.length)

def skipWhile (p : Char → Bool) (c : Cursor) : Cursor :=
  c.advance (c.rest.takeWhile p).length

def gap (c : Cursor) : Gap :=
  ⟨c.rest.takeWhile isSpace, c.skipWhile isSpace⟩

def atMarker (c : Cursor) : Bool :=
  c.column == 0 &&
    match c.rest with
    | '-' :: '-' :: '-' :: rest => atSpace rest
    | '.' :: '.' :: '.' :: rest => atSpace rest
    | _ => false

def nextLine? (c : Cursor) : Option Cursor :=
  let c := c.skipWhile isBlank
  let c := if c.rest.head? == some '#' then c.skipWhile (!isBreak ·) else c
  if c.rest.head?.all isBreak then some c.next else none

end Cursor

namespace Gap

def breaks (g : Gap) : List Char :=
  g.run.filter isBreak

def broken (g : Gap) : Bool :=
  g.run.any isBreak

/-- What the gap stands for in a scalar. Blanks are kept within a line and dropped around line breaks. A line
feed becomes a space, and is dropped where more breaks follow it. -/
def text (g : Gap) : List Char :=
  match g.breaks with
  | [] => g.run
  | ['\n'] => [' ']
  | '\n' :: more => more
  | breaks => breaks

/-- Whether a tab stands in the first columns of a line; the line on which the gap starts has none. -/
def tabbed (columns : Nat) : Option Nat → List Char → Bool
  | _, [] => false
  | column, c :: rest =>
    if isBreak c then tabbed columns (some 0) rest
    else (c == '\t' && column.any (· < columns)) || tabbed columns (column.map (· + 1)) rest

end Gap

end Yaml

end BigQuerySql
