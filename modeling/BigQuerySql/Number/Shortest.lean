import BigQuerySql.Number.Binary64

namespace BigQuerySql

structure Decimal where
  digits : Nat
  exponent : Int
deriving DecidableEq, Repr

inductive Tie where
  | toEven
  | up
deriving DecidableEq, Repr

namespace Binary64

def compareScaled (a : Nat) (i : Int) (n : Nat) (j : Int) : Ordering :=
  compare (a * Nat.pow 10 i.toNat * Nat.pow 2 (-j).toNat)
    (n * Nat.pow 2 j.toNat * Nat.pow 10 (-i).toNat)

/-- The gap below a power of two is half the gap above it, except for the least normal double. -/
def narrowBelow (rank : Nat) : Bool :=
  rank % Nat.pow 2 52 = 0 && Nat.pow 2 52 < rank

/-- Whether a decimal lies among the reals that round to the double of this rank: between the
midpoints to its neighbours, which belong to it exactly when its significand is even. -/
def readsBack (rank : Nat) (d : Decimal) : Bool :=
  let m := significand rank
  let q := scale rank - 2
  let low := if narrowBelow rank then 4 * m - 1 else 4 * m - 2
  let below := compareScaled d.digits d.exponent low q
  let above := compareScaled d.digits d.exponent (4 * m + 2) q
  let ends := m % 2 = 0
  (below == .gt || (ends && below == .eq)) && (above == .lt || (ends && above == .eq))

def decimalScale (rank : Nat) : Int :=
  let m := significand rank
  let q := scale rank
  let guess := ((m.log2 : Int) + q) * 30103 / 100000
  (([guess - 1, guess, guess + 1].find? fun k => compareScaled 1 k m q == .gt)).getD (guess + 2)

/-- The neighbour of the double on the grid `10 ^ grid` that reads back, if one does; the closer
of two. -/
def onGrid (tie : Tie) (rank : Nat) (grid : Int) : Option Decimal :=
  let m := significand rank
  let q := scale rank
  let num := m * Nat.pow 2 q.toNat * Nat.pow 10 (-grid).toNat
  let den := Nat.pow 2 (-q).toNat * Nat.pow 10 grid.toNat
  let low : Decimal := ⟨num / den, grid⟩
  let high : Decimal := ⟨num / den + 1, grid⟩
  match readsBack rank low, readsBack rank high with
  | false, false => none
  | true, false => some low
  | false, true => some high
  | true, true =>
    match compare (2 * num) ((low.digits + high.digits) * den), tie with
    | .lt, _ => some low
    | .gt, _ => some high
    | .eq, .up => some high
    | .eq, .toEven => if low.digits % 2 = 0 then some low else some high

end Binary64

namespace Decimal

def dropZeros : Nat → Decimal → Decimal
  | 0, d => d
  | n + 1, d =>
    if d.digits ≠ 0 && d.digits % 10 = 0 then dropZeros n ⟨d.digits / 10, d.exponent + 1⟩ else d

/-- The fewest digits that read back to the double of this rank, and of those the closest to it.
Seventeen digits are always enough; the exact value stands in should they not be. -/
def shortest (tie : Tie) (rank : Nat) : Decimal :=
  if rank = 0 then ⟨0, 0⟩
  else
    let k := Binary64.decimalScale rank
    match (List.range 17).findSome? fun (n : Nat) => Binary64.onGrid tie rank (k - 1 - (n : Int)) with
    | some d => dropZeros 18 d
    | none =>
      let q := Binary64.scale rank
      ⟨Binary64.significand rank * Nat.pow 2 q.toNat * Nat.pow 5 (-q).toNat, -((-q).toNat : Int)⟩

end Decimal

end BigQuerySql
