import BigQuerySql.Number.Text

namespace BigQuerySql

namespace Calendar

def isLeapYear (year : Int) : Bool :=
  year % 4 = 0 && (year % 100 ≠ 0 || year % 400 = 0)

def daysInMonth (year : Int) (month : Nat) : Nat :=
  match month with
  | 2 => if isLeapYear year then 29 else 28
  | 4 => 30
  | 6 => 30
  | 9 => 30
  | 11 => 30
  | _ => 31

def minYear : Int := -262143

def maxYear : Int := 262142

def ValidDate (year : Int) (month day : Nat) : Prop :=
  minYear ≤ year ∧ year ≤ maxYear ∧ 1 ≤ month ∧ month ≤ 12 ∧ 1 ≤ day ∧ day ≤ daysInMonth year month

instance (year : Int) (month day : Nat) : Decidable (ValidDate year month day) :=
  inferInstanceAs (Decidable (_ ∧ _))

end Calendar

open Calendar

structure Date where
  year : Int
  month : Nat
  day : Nat
  valid : ValidDate year month day
deriving DecidableEq, Repr

/-- A time of day to the nanosecond. A leap second, `60`, may follow any minute. -/
structure TimeOfDay where
  hour : Fin 24
  minute : Fin 60
  second : Fin 61
  nanosecond : Fin 1000000000
deriving DecidableEq, Repr

structure DateTime where
  date : Date
  time : TimeOfDay
deriving DecidableEq, Repr

namespace Date

def of? (year : Int) (month day : Nat) : Option Date :=
  if h : ValidDate year month day then some ⟨year, month, day, h⟩ else none

def next? (d : Date) : Option Date :=
  match of? d.year d.month (d.day + 1) with
  | some next => some next
  | none =>
    if d.month < 12 then of? d.year (d.month + 1) 1 else of? (d.year + 1) 1 1

def previous? (d : Date) : Option Date :=
  if 1 < d.day then of? d.year d.month (d.day - 1)
  else if 1 < d.month then of? d.year (d.month - 1) (daysInMonth d.year (d.month - 1))
  else of? (d.year - 1) 12 31

/-- Years from 0 to 9999 have four digits, all others a sign and at least four digits. -/
def yearText (year : Int) : String :=
  if 0 ≤ year && year ≤ 9999 then zeroPadded 4 year.toNat
  else (if year < 0 then "-" else "+") ++ zeroPadded 4 year.natAbs

def text (d : Date) : String :=
  yearText d.year ++ "-" ++ zeroPadded 2 d.month ++ "-" ++ zeroPadded 2 d.day

end Date

namespace TimeOfDay

def midnight : TimeOfDay := ⟨0, 0, 0, 0⟩

def of? (hour minute second nanosecond : Nat) : Option TimeOfDay :=
  if h : hour < 24 ∧ minute < 60 ∧ second < 61 ∧ nanosecond < 1000000000 then
    some ⟨⟨hour, h.1⟩, ⟨minute, h.2.1⟩, ⟨second, h.2.2.1⟩, ⟨nanosecond, h.2.2.2⟩⟩
  else none

/-- The fraction of a second: nothing, or as few of 3, 6 or 9 digits as lose nothing. -/
def fractionText (nanosecond : Nat) : String :=
  if nanosecond = 0 then ""
  else if nanosecond % 1000000 = 0 then "." ++ zeroPadded 3 (nanosecond / 1000000)
  else if nanosecond % 1000 = 0 then "." ++ zeroPadded 6 (nanosecond / 1000)
  else "." ++ zeroPadded 9 nanosecond

def text (t : TimeOfDay) : String :=
  zeroPadded 2 t.hour ++ ":" ++ zeroPadded 2 t.minute ++ ":" ++ zeroPadded 2 t.second ++
    fractionText t.nanosecond

end TimeOfDay

namespace DateTime

def atMidnight (d : Date) : DateTime := ⟨d, .midnight⟩

def text (separator : String) (t : DateTime) : String :=
  t.date.text ++ separator ++ t.time.text

def withMinutes (date : Date) (time : TimeOfDay) (minutes : Nat) : Option DateTime :=
  (TimeOfDay.of? (minutes / 60) (minutes % 60) time.second time.nanosecond).map (⟨date, ·⟩)

/-- The time in UTC of a clock that runs `offset` minutes ahead of it, less than a day in either
direction. Seconds stay as they are. -/
def toUtc? (t : DateTime) (offset : Int) : Option DateTime :=
  let minutes : Int := ((t.time.hour : Nat) * 60 + (t.time.minute : Nat) : Nat) - offset
  if minutes < 0 then t.date.previous?.bind fun d => withMinutes d t.time (minutes + 1440).toNat
  else if minutes < 1440 then withMinutes t.date t.time minutes.toNat
  else t.date.next?.bind fun d => withMinutes d t.time (minutes - 1440).toNat

end DateTime

end BigQuerySql
