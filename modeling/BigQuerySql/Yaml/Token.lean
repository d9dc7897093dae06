import BigQuerySql.Yaml.Scalar

namespace BigQuerySql

namespace Yaml

/-- The tokens of a text. Collections over several lines have tokens for their start and end, which are not
written but follow from the columns. -/
inductive Token where
  | version (major minor : Nat)
  | tagHandle (name lead : String)
  | documentStart
  | documentEnd
  | blockSeq
  | blockMap
  | blockEnd
  | bracketOpen
  | bracketClose
  | braceOpen
  | braceClose
  | dash
  | comma
  | key
  | value
  | anchor (name : String)
  | reference (name : String)
  | tag (handle suffix : String)
  | scalar (plain : Bool) (text : String)
deriving DecidableEq, Repr

def isNameChar (c : Char) : Bool :=
  c.isAlphanum || c == '_' || c == '-'

def readName (c : Cursor) : Option (String × Cursor) :=
  let name := c.rest.takeWhile isNameChar
  let after := c.advance name.length
  if name.isEmpty then none
  else if atSpace after.rest || after.rest.head?.any (fun x => "?:,]\x7d%@".contains x || x == '\x60') then
    some (String.ofList name, after)
  else none

def octet? : List Char → Option (Nat × List Char)
  | '%' :: a :: b :: rest => do return (16 * (← Json.hexValue? a) + (← Json.hexValue? b), rest)
  | _ => none

def octetCount? (octet : Nat) : Option Nat :=
  if octet < 0x80 then some 1
  else if octet < 0xC0 then none
  else if octet < 0xE0 then some 2
  else if octet < 0xF0 then some 3
  else if octet < 0xF8 then some 4
  else none

def furtherOctets? : Nat → List Char → Option (List Char × List Char)
  | 0, cs => some ([], cs)
  | n + 1, cs => do
    let (octet, rest) ← octet? cs
    if octet < 0x80 || 0xC0 ≤ octet then none
    else (furtherOctets? n rest).map fun r => (Char.ofNat octet :: r.1, r.2)

def escapedOctets? (cs : List Char) : Option (List Char × List Char) := do
  let (octet, rest) ← octet? cs
  (furtherOctets? ((← octetCount? octet) - 1) rest).map fun r => (Char.ofNat octet :: r.1, r.2)

def isTagChar (verbatim : Bool) (c : Char) : Bool :=
  isNameChar c || ";/?:@&=+$.%!~*'()".contains c || (verbatim && ",[]".contains c)

def readTagText (verbatim : Bool) : Nat → List Char → Option (List Char × List Char)
  | 0, _ => none
  | _, [] => some ([], [])
  | n + 1, c :: rest =>
    if c == '%' then do
      let (octets, rest) ← escapedOctets? (c :: rest)
      (readTagText verbatim n rest).map fun r => (octets ++ r.1, r.2)
    else if isTagChar verbatim c then (readTagText verbatim n rest).map fun r => (c :: r.1, r.2)
    else some ([], c :: rest)

def readSomeTagText (verbatim : Bool) (cs : List Char) : Option (List Char × List Char) :=
  (readTagText verbatim (cs.length + 1) cs).filter fun r => !r.1.isEmpty

def readTagParts : List Char → Option (List Char × List Char × List Char)
  | '<' :: cs => do
    match ← readSomeTagText true cs with
    | (text, '>' :: rest) => some ([], text, rest)
    | _ => none
  | cs =>
    let name := cs.takeWhile isNameChar
    match cs.drop name.length with
    | '!' :: cs => (readSomeTagText false cs).map fun r => ('!' :: (name ++ ['!']), r.1, r.2)
    | cs => do
      let (text, rest) ← readTagText false (cs.length + 1) cs
      if name.isEmpty && text.isEmpty then return ([], ['!'], rest)
      else return (['!'], name ++ text, rest)

def readTag (bracketed : Bool) (c : Cursor) : Option (Token × Cursor) := do
  let (handle, suffix, rest) ← readTagParts c.rest.tail
  if atSpace rest || (bracketed && rest.head? == some ',') then
    return (.tag (String.ofList handle) (String.ofList suffix), c.upTo rest)
  else none

def readVersionNumber (c : Cursor) : Option (Nat × Cursor) :=
  let digits := c.rest.takeWhile Char.isDigit
  if digits.isEmpty || 9 < digits.length then none
  else some (Nat.ofDigitChars 10 digits 0, c.advance digits.length)

def readVersion (c : Cursor) : Option (Token × Cursor) := do
  let (major, c) ← readVersionNumber c
  if c.rest.head? == some '.' then
    let (minor, c) ← readVersionNumber c.next
    return (.version major minor, c)
  else none

def readTagHandle (c : Cursor) : Option (Token × Cursor) := do
  match c.rest with
  | '!' :: cs =>
    let name := cs.takeWhile isNameChar
    let (handle, c) ←
      match cs.drop name.length with
      | '!' :: rest => some ('!' :: (name ++ ['!']), c.upTo rest)
      | _ => if name.isEmpty then some (['!'], c.next) else none
    let start := c.skipWhile isBlank
    let (lead, rest) ← readSomeTagText true start.rest
    if start.column = c.column || !atSpace rest then none
    else return (.tagHandle (String.ofList handle) (String.ofList lead), c.upTo rest)
  | _ => none

def readDirective (c : Cursor) : Option (Token × Cursor) := do
  let name := c.rest.tail.takeWhile isNameChar
  let after := c.advance (1 + name.length)
  let (token, stop) ←
    if !atSpace after.rest then none
    else if name = "YAML".toList then readVersion (after.skipWhile isBlank)
    else if name = "TAG".toList then readTagHandle (after.skipWhile isBlank)
    else none
  return (token, ← stop.nextLine?)

end Yaml

end BigQuerySql
