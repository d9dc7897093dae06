namespace BigQuerySql

/-- A double. A finite one is a sign and a rank: its place among the non-negative finite doubles
in increasing order, so that neighbouring doubles have neighbouring ranks. -/
inductive Binary64 where
  | nan
  | infinite (negative : Bool)
  | finite (negative : Bool) (rank : Fin (2047 * Nat.pow 2 52))
deriving DecidableEq, Repr

namespace Binary64

def significand (rank : Nat) : Nat :=
  if rank < Nat.pow 2 52 then rank else Nat.pow 2 52 + rank % Nat.pow 2 52

def scale (rank : Nat) : Int :=
  ((max (rank / Nat.pow 2 52) 1 : Nat) : Int) - 1075

def zero (negative : Bool) : Binary64 :=
  .finite negative ⟨0, by decide⟩

def isFinite : Binary64 → Bool
  | .finite _ _ => true
  | _ => false

def roundQuotient (num den : Nat) : Nat :=
  let q := num / den
  match compare (2 * (num % den)) den with
  | .lt => q
  | .gt => q + 1
  | .eq => if q % 2 = 0 then q else q + 1

/-- The least scale at which the quotient has at most 53 binary digits; no double has a scale
below `-1074`. -/
def quotientScale (num den : Nat) : Int :=
  let span : Int := (num.log2 : Int) - (den.log2 : Int)
  let fits := num * Nat.pow 2 (-span).toNat < den * Nat.pow 2 span.toNat
  max (-1074) (if fits then span - 53 else span - 52)

def ofQuotient (negative : Bool) (num den : Nat) : Binary64 :=
  if num = 0 then zero negative
  else
    let q := quotientScale num den
    let m := roundQuotient (num * Nat.pow 2 (-q).toNat) (den * Nat.pow 2 q.toNat)
    let rank := (q + 1074).toNat * Nat.pow 2 52 + m
    if h : rank < 2047 * Nat.pow 2 52 then .finite negative ⟨rank, h⟩ else .infinite negative

def numerator (rank : Nat) : Nat :=
  significand rank * Nat.pow 2 (scale rank).toNat

def denominator (rank : Nat) : Nat :=
  Nat.pow 2 (-scale rank).toNat

def times : Binary64 → Binary64 → Binary64
  | .finite s a, .finite t b =>
    ofQuotient (s != t) (numerator a * numerator b) (denominator a * denominator b)
  | _, _ => .nan

def dividedBy : Binary64 → Binary64 → Binary64
  | .finite s a, .finite t b =>
    ofQuotient (s != t) (numerator a * denominator b) (denominator a * numerator b)
  | _, _ => .nan

def powerOfTen (exponent : Nat) : Binary64 :=
  ofQuotient false (Nat.pow 10 exponent) 1

def greatestPower : Nat := 308

/-- A double for `digits * 10 ^ exponent`: that of the digits, multiplied or divided by a power of ten and
rounded once more. Where one power is not enough the division takes two, after which digits of a word have
vanished. -/
def ofDigits (negative : Bool) (digits : Nat) (exponent : Int) : Binary64 :=
  let x := ofQuotient negative digits 1
  if digits = 0 then zero negative
  else if greatestPower < exponent then .infinite negative
  else if 0 ≤ exponent then x.times (powerOfTen exponent.toNat)
  else
    let down := (-exponent).toNat
    if down ≤ greatestPower then x.dividedBy (powerOfTen down)
    else if down ≤ 2 * greatestPower then
      (x.dividedBy (powerOfTen greatestPower)).dividedBy (powerOfTen (down - greatestPower))
    else zero negative

def ofInt (i : Int) : Binary64 :=
  ofQuotient (decide (i < 0)) i.natAbs 1

end Binary64

end BigQuerySql
