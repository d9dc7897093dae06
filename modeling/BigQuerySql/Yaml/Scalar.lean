import BigQuerySql.Json.Reader
import BigQuerySql.Yaml.Cursor

namespace BigQuerySql

namespace Yaml

def isBracket (c : Char) : Bool :=
  c == '[' || c == ']' || c == '{' || c == '}'

def isIndicator (c : Char) : Bool :=
  "-?:,#&*!|>'\"%@".contains c || c == '\x60' || isBracket c

def startsPlain (bracketed : Bool) : List Char → Bool
  | '-' :: rest => !atSpace rest
  | '?' :: rest => !bracketed && !atSpace rest
  | ':' :: rest => !bracketed && !atSpace rest
  | c :: _ => !isSpace c && !isIndicator c
  | [] => false

/-- The word of a scalar without quotes at the front. Within brackets a comma or a bracket ends it, and may not
stand right after a colon. -/
def plainWord? (bracketed : Bool) : List Char → Option (List Char)
  | [] => some []
  | c :: rest =>
    if isSpace c || (bracketed && (c == ',' || isBracket c)) || (c == ':' && atSpace rest) then some []
    else if bracketed && c == ':' && rest.head?.any (fun d => d == ',' || d == '?' || isBracket d) then
      none
    else (plainWord? bracketed rest).map (c :: ·)

structure Plain where
  text : List Char
  broken : Bool
  after : Cursor

def readPlainFrom (bracketed : Bool) (indent : Nat) : Nat → List Char → Gap → Option Plain
  | 0, _, _ => none
  | n + 1, done, gap =>
    let start := gap.after
    if start.atMarker || start.rest.head? == some '#' then some ⟨done, gap.broken, start⟩
    else
      match plainWord? bracketed start.rest with
      | none => none
      | some [] => some ⟨done, gap.broken, start⟩
      | some word =>
        let done := done ++ gap.text ++ word
        let next := (start.advance word.length).gap
        if Gap.tabbed indent none next.run then none
        else if next.run.isEmpty then some ⟨done, false, next.after⟩
        else if !bracketed && next.after.column < indent then some ⟨done, next.broken, next.after⟩
        else readPlainFrom bracketed indent n done next

def readPlain (bracketed : Bool) (indent : Nat) (c : Cursor) : Option Plain :=
  readPlainFrom bracketed indent (c.rest.length + 1) [] ⟨[], c⟩

def readSingle : Nat → Cursor → Option (List Char × Cursor)
  | 0, _ => none
  | n + 1, c =>
    if c.atMarker then none
    else
      match c.rest with
      | [] => none
      | '\'' :: '\'' :: _ => (readSingle n (c.advance 2)).map fun r => ('\'' :: r.1, r.2)
      | '\'' :: _ => some ([], c.next)
      | x :: _ =>
        if isSpace x then (readSingle n c.gap.after).map fun r => (c.gap.text ++ r.1, r.2)
        else (readSingle n c.next).map fun r => (x :: r.1, r.2)

def escapedChar? : Char → Option Char
  | '0' => some '\x00'
  | 'a' => some '\x07'
  | 'b' => some '\x08'
  | 't' => some '\t'
  | '\t' => some '\t'
  | 'n' => some '\n'
  | 'v' => some '\x0b'
  | 'f' => some '\x0c'
  | 'r' => some '\r'
  | 'e' => some '\x1b'
  | ' ' => some ' '
  | '"' => some '"'
  | '/' => some '/'
  | '\\' => some '\\'
  | 'N' => some '\u0085'
  | '_' => some '\u00a0'
  | 'L' => some '\u2028'
  | 'P' => some '\u2029'
  | _ => none

def codeWidth? : Char → Option Nat
  | 'x' => some 2
  | 'u' => some 4
  | 'U' => some 8
  | _ => none

def codePoint? (digits : List Char) : Option Char := do
  let code ← digits.foldlM (fun code d => (Json.hexValue? d).map (16 * code + ·)) 0
  if code.isValidChar then some (Char.ofNat code) else none

def readEscape : List Char → Option (Char × Nat)
  | [] => none
  | e :: rest =>
    match codeWidth? e with
    | some width =>
      if rest.length < width then none else (codePoint? (rest.take width)).map (·, 1 + width)
    | none => (escapedChar? e).map (·, 1)

/-- Reads up to the closing quote. A line break after a backslash is dropped with the blanks that follow it, but
further breaks are kept. No line may separate documents. -/
def readDouble : Nat → Cursor → Option (List Char × Cursor)
  | 0, _ => none
  | n + 1, c =>
    if c.atMarker then none
    else
      match c.rest with
      | [] => none
      | '"' :: _ => some ([], c.next)
      | '\\' :: rest =>
        if rest.head?.any isBreak then
          let gap := (c.advance 2).gap
          (readDouble n gap.after).map fun r => (gap.breaks ++ r.1, r.2)
        else
          match readEscape rest with
          | none => none
          | some (x, width) => (readDouble n (c.advance (1 + width))).map fun r => (x :: r.1, r.2)
      | x :: _ =>
        if isSpace x then (readDouble n c.gap.after).map fun r => (c.gap.text ++ r.1, r.2)
        else (readDouble n c.next).map fun r => (x :: r.1, r.2)

inductive Chomping where
  | strip
  | clip
  | keep
deriving DecidableEq, Repr

def chomping? : Char → Option Chomping
  | '-' => some .strip
  | '+' => some .keep
  | _ => none

def indentation? (c : Char) : Option Nat :=
  if '1' ≤ c && c ≤ '9' then some (c.toNat - '0'.toNat) else none

def blockMarks? : List Char → Option (Chomping × Option Nat)
  | [] => some (.clip, none)
  | [a] => ((chomping? a).map (·, none)) <|> ((indentation? a).map fun i => (.clip, some i))
  | [a, b] =>
    (do return (← chomping? a, some (← indentation? b))) <|>
      (do return (← chomping? b, some (← indentation? a)))
  | _ => none

/-- The empty lines in front of a line of a block: their breaks, the widest indentation among them and the line,
and the place at which the line starts. Where no indentation is known yet, all spaces count as such. -/
def readEmptyLines (indent : Option Nat) : Nat → Nat → Cursor → Option (List Char × Nat × Cursor)
  | 0, _, _ => none
  | n + 1, widest, c =>
    let spaces := (c.rest.takeWhile (· == ' ')).length
    let start := c.advance ((indent.map (min spaces)).getD spaces)
    let widest := max widest start.column
    match start.rest with
    | [] => some ([], widest, start)
    | x :: _ =>
      if x == '\t' && indent.all (start.column < ·) then none
      else if isBreak x then
        (readEmptyLines indent n widest start.next).map fun r => (x :: r.1, r.2)
      else some ([], widest, start)

structure Block where
  done : List Char
  lastBreak : List Char
  breaks : List Char
  blank : Bool

namespace Block

/-- Adds a line. A folded block joins lines, unless one of them starts with a blank. -/
def add (literal : Bool) (b : Block) (line lineBreak breaks : List Char) : Block :=
  let blank := line.head?.any isBlank
  let joint :=
    if !literal && b.lastBreak == ['\n'] && !b.blank && !blank then
      if b.breaks.isEmpty then [' '] else []
    else b.lastBreak
  ⟨b.done ++ joint ++ b.breaks ++ line, lineBreak, breaks, blank⟩

def text (b : Block) : Chomping → List Char
  | .strip => b.done
  | .clip => b.done ++ b.lastBreak
  | .keep => b.done ++ b.lastBreak ++ b.breaks

end Block

def readBlockLines (literal : Bool) (indent : Nat) : Nat → Block → Cursor → Option (Block × Cursor)
  | 0, _, _ => none
  | n + 1, b, c =>
    if c.rest.isEmpty || c.column ≠ indent then some (b, c)
    else do
      let line := c.rest.takeWhile (!isBreak ·)
      let stop := c.advance line.length
      let (breaks, _, start) ← readEmptyLines (some indent) (c.rest.length + 1) 0 stop.next
      readBlockLines literal indent n (b.add literal line (stop.rest.take 1) breaks) start

def readBlockText (literal : Bool) (indent : Nat) (c : Cursor) : Option (List Char × Cursor) := do
  let marks := c.rest.takeWhile fun x => x == '+' || x == '-' || x.isDigit
  let (chomping, given) ← blockMarks? marks
  let start ← (c.advance marks.length).nextLine?
  let given := given.map (· + (indent - 1))
  let fuel := c.rest.length + 1
  let (breaks, widest, start) ← readEmptyLines given fuel 0 start
  let indent := given.getD (max widest (max indent 1))
  let (block, after) ← readBlockLines literal indent fuel ⟨[], [], breaks, false⟩ start
  return (block.text chomping, after)

end Yaml

end BigQuerySql
