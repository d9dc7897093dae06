import BigQuerySql.Calendar.Basic
import BigQuerySql.Text.Blank

namespace BigQuerySql

namespace Calendar

abbrev Reader (α : Type) := List Char → Option (α × List Char)

def digits (least most : Nat) : Reader (List Char) := fun cs =>
  let ds := (cs.take most).takeWhile Char.isDigit
  if least ≤ ds.length then some (ds, cs.drop ds.length) else none

def number (least most : Nat) : Reader Nat := fun cs =>
  (digits least most cs).map fun (ds, rest) => (Nat.ofDigitChars 10 ds 0, rest)

def literal (c : Char) : Reader Unit
  | [] => none
  | d :: rest => if d = c then some ((), rest) else none

def blanks : Reader Unit := fun cs =>
  some ((), Text.skipBlanks cs)

def item : Reader Nat := fun cs =>
  number 1 2 (Text.skipBlanks cs)

/-- A year: at most four digits, or a sign and any number of digits, blanks before it allowed. -/
def yearItem : Reader Int := fun cs =>
  match Text.skipBlanks cs with
  | '-' :: rest => (number 1 rest.length rest).map fun (n, r) => (-(n : Int), r)
  | '+' :: rest => (number 1 rest.length rest).map fun (n, r) => ((n : Int), r)
  | cs => (number 1 4 cs).map fun (n, r) => ((n : Int), r)

/-- A fraction of a second in nanoseconds, zero where there is no point. Digits after the ninth are
dropped. -/
def fraction : Reader Nat
  | '.' :: rest =>
    (digits 1 9 rest).map fun (ds, r) =>
      (Nat.ofDigitChars 10 ds 0 * Nat.pow 10 (9 - ds.length), r.dropWhile Char.isDigit)
  | cs => some (0, cs)

def separator (loose : Bool) (c : Char) : Reader Unit := fun cs =>
  literal c (if loose then Text.skipBlanks cs else cs)

def ymd (loose : Bool) : Reader Date := fun cs => do
  let (y, cs) ← yearItem cs
  let (_, cs) ← separator loose '-' cs
  let (m, cs) ← item cs
  let (_, cs) ← separator loose '-' cs
  let (d, cs) ← item cs
  let date ← Date.of? y m d
  return (date, cs)

def compactYmd : Reader Date := fun cs => do
  let (y, cs) ← yearItem cs
  let (m, cs) ← item cs
  let (d, cs) ← item cs
  let date ← Date.of? y m d
  return (date, cs)

def hourMinute (loose : Bool) : Reader (Nat × Nat) := fun cs => do
  let (h, cs) ← item cs
  let (_, cs) ← separator loose ':' cs
  let (m, cs) ← item cs
  return ((h, m), cs)

def seconds (loose : Bool) : Reader (Nat × Nat) := fun cs => do
  let (_, cs) ← separator loose ':' cs
  let (s, cs) ← item cs
  let (n, cs) ← fraction cs
  return ((s, n), cs)

def hms (loose : Bool) : Reader TimeOfDay := fun cs => do
  let ((h, m), cs) ← hourMinute loose cs
  let ((s, n), cs) ← seconds loose cs
  let time ← TimeOfDay.of? h m s n
  return (time, cs)

def dateTimeMark : Reader Unit
  | c :: rest => if c = 'T' || c = 't' || c = ' ' then some ((), rest) else none
  | [] => none

def offsetMinutes (between : Reader Unit) : Reader Nat := fun cs => do
  let (h, cs) ← number 2 2 cs
  let (_, cs) ← between cs
  let (m, cs) ← number 2 2 cs
  if m < 60 && h * 60 + m < 1440 then some (h * 60 + m, cs) else none

/-- An offset from UTC in minutes: the letter `Z`, or a sign with hours and minutes. The minus may also
be written as the mathematical sign. -/
def offset (between : Reader Unit) : Reader Int
  | 'Z' :: rest => some (0, rest)
  | 'z' :: rest => some (0, rest)
  | '+' :: rest => (offsetMinutes between rest).map fun (n, r) => ((n : Int), r)
  | '-' :: rest => (offsetMinutes between rest).map fun (n, r) => (-(n : Int), r)
  | '−' :: rest => (offsetMinutes between rest).map fun (n, r) => (-(n : Int), r)
  | _ => none

def colonsOrBlanks : Reader Unit := fun cs =>
  some ((), cs.dropWhile fun c => c = ':' || Text.isBlank c)

def zone : Reader Int
  | a :: b :: c :: rest =>
    if a.toLower = 'u' && b.toLower = 't' && c.toLower = 'c' then some (0, rest)
    else offset colonsOrBlanks (a :: b :: c :: rest)
  | cs => offset colonsOrBlanks cs

def whole (reader : Reader α) (cs : List Char) : Option α :=
  match reader cs with
  | some (a, []) => some a
  | _ => none

def wholeBlank (reader : Reader α) (cs : List Char) : Option α :=
  match reader cs with
  | some (a, rest) => if (Text.skipBlanks rest).isEmpty then some a else none
  | none => none

def dateThenTime (loose : Bool) (mark : Reader Unit) : Reader DateTime := fun cs => do
  let (date, cs) ← ymd loose cs
  let (_, cs) ← mark cs
  let (time, cs) ← hms loose cs
  return (⟨date, time⟩, cs)

def fixedYmd : Reader (Nat × Nat × Nat) := fun cs => do
  let (y, cs) ← number 4 4 cs
  let (_, cs) ← literal '-' cs
  let (m, cs) ← number 2 2 cs
  let (_, cs) ← literal '-' cs
  let (d, cs) ← number 2 2 cs
  return ((y, m, d), cs)

def fixedHms : Reader (Nat × Nat × Nat × Nat) := fun cs => do
  let (h, cs) ← number 2 2 cs
  let (_, cs) ← literal ':' cs
  let (m, cs) ← number 2 2 cs
  let (_, cs) ← literal ':' cs
  let (s, cs) ← number 2 2 cs
  let (n, cs) ← fraction cs
  return ((h, m, s, n), cs)

def strictZoned : Reader DateTime := fun cs => do
  let ((y, m, d), cs) ← fixedYmd cs
  let (_, cs) ← dateTimeMark cs
  let ((h, min, s, n), cs) ← fixedHms cs
  let (off, cs) ← offset (literal ':') cs
  let date ← Date.of? y m d
  let time ← TimeOfDay.of? h min s n
  let t ← DateTime.toUtc? ⟨date, time⟩ off
  return (t, cs)

def looseZoned : Reader DateTime := fun cs => do
  let (date, cs) ← ymd true cs
  let (_, cs) ← dateTimeMark cs
  let (time, cs) ← hms true cs
  let (off, cs) ← zone (Text.skipBlanks cs)
  let t ← DateTime.toUtc? ⟨date, time⟩ off
  return (t, cs)

end Calendar

open Calendar

namespace Date

def read? (s : String) : Option Date :=
  wholeBlank (ymd true) s.toList

def plain? (cs : List Char) : Option Date :=
  match whole (ymd false) cs with
  | some d => some d
  | none => whole compactYmd cs

end Date

namespace TimeOfDay

def read? (s : String) : Option TimeOfDay := do
  let ((h, m), cs) ← hourMinute true s.toList
  let ((sec, n), cs) := (seconds true cs).getD ((0, 0), cs)
  if (Text.skipBlanks cs).isEmpty then of? h m sec n else none

def parse? (s : String) : Option TimeOfDay :=
  let cs := Text.trim s.toList
  match whole (hms false) cs with
  | some t => some t
  | none => do
    let (h, m) ← whole (hourMinute false) cs
    of? h m 0 0

end TimeOfDay

namespace DateTime

def read? (s : String) : Option DateTime :=
  wholeBlank (dateThenTime true fun cs => literal 'T' (Text.skipBlanks cs)) s.toList

def readZoned? (s : String) : Option DateTime :=
  wholeBlank looseZoned s.toList

/-- A date and time that a constant of a timestamp type may be written as. One with an offset is taken to
UTC, a date alone is its midnight. -/
def parse? (s : String) : Option DateTime :=
  let cs := Text.trim s.toList
  (whole strictZoned cs) <|> (whole (dateThenTime false blanks) cs) <|>
    (whole (dateThenTime false (literal 'T')) cs) <|> ((Date.plain? cs).map atMidnight)

end DateTime

namespace Date

def parse? (s : String) : Option Date :=
  (plain? (Text.trim s.toList)) <|> ((DateTime.parse? s).map (·.date))

end Date

end BigQuerySql
