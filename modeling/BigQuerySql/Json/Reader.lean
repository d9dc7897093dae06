import BigQuerySql.Json.Basic

namespace BigQuerySql

namespace Json

def skipBlanks (cs : List Char) : List Char :=
  cs.dropWhile Char.isWhitespace

def hexValue? (c : Char) : Option Nat :=
  if c.isDigit then some (c.toNat - '0'.toNat)
  else if 'a' ≤ c && c ≤ 'f' then some (c.toNat - 'a'.toNat + 10)
  else if 'A' ≤ c && c ≤ 'F' then some (c.toNat - 'A'.toNat + 10)
  else none

def hex4? (a b c d : Char) : Option Nat := do
  let a ← hexValue? a
  let b ← hexValue? b
  let c ← hexValue? c
  let d ← hexValue? d
  return ((a * 16 + b) * 16 + c) * 16 + d

def simpleEscape? : Char → Option Char
  | '"' => some '"'
  | '\\' => some '\\'
  | '/' => some '/'
  | 'b' => some '\x08'
  | 'f' => some '\x0c'
  | 'n' => some '\n'
  | 'r' => some '\r'
  | 't' => some '\t'
  | _ => none

def isHighSurrogate (unit : Nat) : Bool :=
  0xD800 ≤ unit && unit < 0xDC00

def isLowSurrogate (unit : Nat) : Bool :=
  0xDC00 ≤ unit && unit < 0xE000

def surrogatePair (high low : Nat) : Char :=
  Char.ofNat (0x10000 + (high - 0xD800) * 0x400 + (low - 0xDC00))

def prepend (c : Char) (r : Option (List Char) × List Char) : Option (List Char) × List Char :=
  (r.1.map (c :: ·), r.2)

/-- Reads the inside of a quoted string up to its closing quote. A code point above the basic plane is
written as a high and a low surrogate; with a surrogate alone the string has no value. -/
def readString : List Char → Option (Option (List Char) × List Char)
  | [] => none
  | '"' :: rest => some (some [], rest)
  | '\\' :: 'u' :: a :: b :: c :: d :: rest =>
    match hex4? a b c d with
    | none => none
    | some unit =>
      if isLowSurrogate unit then (readString rest).map fun r => (none, r.2)
      else if isHighSurrogate unit then
        match rest with
        | '\\' :: 'u' :: a' :: b' :: c' :: d' :: rest' =>
          match hex4? a' b' c' d' with
          | none => none
          | some low =>
            if isLowSurrogate low then (readString rest').map (prepend (surrogatePair unit low))
            else (readString rest').map fun r => (none, r.2)
        | rest => (readString rest).map fun r => (none, r.2)
      else (readString rest).map (prepend (Char.ofNat unit))
  | '\\' :: e :: rest =>
    match simpleEscape? e with
    | none => none
    | some c => (readString rest).map (prepend c)
  | c :: rest =>
    if c == '\\' || c.toNat < 0x20 then none
    else (readString rest).map (prepend c)

def readDigits (cs : List Char) : Option (List Char × List Char) :=
  match cs.takeWhile Char.isDigit with
  | [] => none
  | ds => some (ds, cs.dropWhile Char.isDigit)

def readWhole (cs : List Char) : Option (List Char × List Char) :=
  match readDigits cs with
  | some ('0' :: _ :: _, _) => none
  | r => r

def readFraction : List Char → Option (List Char × List Char)
  | '.' :: rest => readDigits rest
  | cs => some ([], cs)

def readExponent : List Char → Option (Option Int × List Char)
  | [] => some (none, [])
  | c :: rest =>
    if c == 'e' || c == 'E' then
      match rest with
      | '+' :: r => (readDigits r).map fun (ds, r) => (some (Nat.ofDigitChars 10 ds 0 : Int), r)
      | '-' :: r => (readDigits r).map fun (ds, r) => (some (-(Nat.ofDigitChars 10 ds 0 : Int)), r)
      | r => (readDigits r).map fun (ds, r) => (some (Nat.ofDigitChars 10 ds 0 : Int), r)
    else some (none, c :: rest)

def leadingDigits : Nat → List Char → Nat × Nat
  | n, [] => (n, 0)
  | n, c :: rest =>
    let next := n * 10 + (c.toNat - '0'.toNat)
    if next < Nat.pow 2 64 then
      let (m, taken) := leadingDigits next rest
      (m, taken + 1)
    else (n, 0)

/-- A double from its leading digits. A digit left out before the point counts as a power of ten. -/
def doubleOf (negative : Bool) (whole fraction : List Char) (power : Int) : Binary64 :=
  let (n, taken) := leadingDigits 0 whole
  let (n, places) := leadingDigits n fraction
  .ofDigits negative n (power + ((whole.length - taken : Nat) : Int) - (places : Int))

/-- A number without a fraction and a power is an integer where it fits, and `-0` is a double. A number
beyond the range of doubles has no value. -/
def numberOf (negative : Bool) (whole fraction : List Char) (power : Option Int) : Json :=
  let magnitude := Nat.ofDigitChars 10 whole 0
  let value : Int := if negative then -magnitude else magnitude
  if fraction.isEmpty && power.isNone && !(negative && magnitude == 0) &&
      decide (-Int.pow 2 63 ≤ value) && decide (value < Int.pow 2 64) then .int value
  else
    let x := doubleOf negative whole fraction (power.getD 0)
    if x.isFinite then .float x else .unreadable

def readNumber (cs : List Char) : Option (Json × List Char) := do
  let (negative, cs) := match cs with
    | '-' :: rest => (true, rest)
    | cs => (false, cs)
  let (whole, cs) ← readWhole cs
  let (fraction, cs) ← readFraction cs
  let (power, cs) ← readExponent cs
  return (numberOf negative whole fraction power, cs)

def stringOf : Option (List Char) → Json
  | some cs => .str (String.ofList cs)
  | none => .unreadable

def objectOf (members : List (Option (List Char) × Json)) : Json :=
  match members.mapM fun m => m.1.map fun name => (String.ofList name, m.2) with
  | some members => .obj members
  | none => .unreadable

def readWord (word cs : List Char) : Option (List Char) :=
  if word.isPrefixOf cs then some (cs.drop word.length) else none

mutual

def readValue : Nat → List Char → Option (Json × List Char)
  | 0, _ => none
  | n + 1, cs =>
    match skipBlanks cs with
    | [] => none
    | c :: rest =>
      if c == '"' then (readString rest).map fun (s, r) => (stringOf s, r)
      else if c == '[' then
        match skipBlanks rest with
        | ']' :: r => some (.arr [], r)
        | r => (readItems n r).map fun (items, r) => (.arr items, r)
      else if c == '{' then
        match skipBlanks rest with
        | '}' :: r => some (.obj [], r)
        | r => (readMembers n r).map fun (members, r) => (objectOf members, r)
      else if c == 'n' then (readWord "ull".toList rest).map fun r => (.null, r)
      else if c == 't' then (readWord "rue".toList rest).map fun r => (.bool true, r)
      else if c == 'f' then (readWord "alse".toList rest).map fun r => (.bool false, r)
      else readNumber (c :: rest)

def readItems : Nat → List Char → Option (List Json × List Char)
  | 0, _ => none
  | n + 1, cs =>
    match readValue n cs with
    | none => none
    | some (j, rest) =>
      match skipBlanks rest with
      | ',' :: r => (readItems n r).map fun (items, r) => (j :: items, r)
      | ']' :: r => some ([j], r)
      | _ => none

def readMembers : Nat → List Char → Option (List (Option (List Char) × Json) × List Char)
  | 0, _ => none
  | n + 1, cs =>
    match skipBlanks cs with
    | '"' :: rest =>
      match readString rest with
      | none => none
      | some (name, rest) =>
        match skipBlanks rest with
        | ':' :: rest =>
          match readValue n rest with
          | none => none
          | some (j, rest) =>
            match skipBlanks rest with
            | ',' :: r =>
              (readMembers n r).map fun (members, r) => ((name, j) :: members, r)
            | '}' :: r => some ([(name, j)], r)
            | _ => none
        | _ => none
    | _ => none

end

/-- Reads a text that holds one document and blanks around it. Every step uses up a character or is
followed by one that does, which bounds the steps. -/
def read? (text : String) : Option Json :=
  let cs := text.toList
  match readValue (2 * cs.length + 2) cs with
  | some (j, rest) => if (skipBlanks rest).isEmpty then some j else none
  | none => none

def document? (text : String) : Option Json :=
  (read? text).map (·.clipped nestingLimit)

end Json

end BigQuerySql
