import BigQuerySql.Json.Printer
import BigQuerySql.Json.Reader
import BigQuerySql.Proofs.Digits
import Mathlib.Algebra.Order.Field.Power
import Mathlib.Data.Rat.Cast.Order
import Mathlib.Tactic.FieldSimp
import Mathlib.Tactic.Ring

namespace BigQuerySql

namespace Json

structure NumberParts where
  negative : Bool
  whole : List Char
  fraction : List Char
  power : Option Int

namespace NumberParts

def toJson (p : NumberParts) : Json :=
  numberOf p.negative p.whole p.fraction p.power

def fractionChars (fraction : List Char) : List Char :=
  if fraction.isEmpty then [] else '.' :: fraction

def powerChars : Option Int → List Char
  | none => []
  | some power => 'e' :: (if power < 0 then '-' else '+') :: Nat.toDigits 10 power.natAbs

def chars (p : NumberParts) : List Char :=
  (if p.negative then ['-'] else []) ++ (p.whole ++ (fractionChars p.fraction ++ powerChars p.power))

structure WellFormed (p : NumberParts) : Prop where
  whole_digits : ∀ c ∈ p.whole, c.isDigit = true
  whole_ne_nil : p.whole ≠ []
  zero_alone : ∀ c rest, p.whole ≠ '0' :: c :: rest
  fraction_digits : ∀ c ∈ p.fraction, c.isDigit = true

end NumberParts

def readUnsigned (negative : Bool) (cs : List Char) : Option (NumberParts × List Char) := do
  let (whole, cs) ← readWhole cs
  let (fraction, cs) ← readFraction cs
  let (power, cs) ← readExponent cs
  return (⟨negative, whole, fraction, power⟩, cs)

def splitSign : List Char → Bool × List Char
  | '-' :: rest => (true, rest)
  | cs => (false, cs)

def readParts (cs : List Char) : Option (NumberParts × List Char) :=
  readUnsigned (splitSign cs).1 (splitSign cs).2

theorem readNumber_eq (cs : List Char) : readNumber cs = (readParts cs).map fun r => (r.1.toJson, r.2) := by
  have hunsigned (negative : Bool) (cs : List Char) :
      (do
        let (whole, cs) ← readWhole cs
        let (fraction, cs) ← readFraction cs
        let (power, cs) ← readExponent cs
        return (numberOf negative whole fraction power, cs)) =
      (readUnsigned negative cs).map fun r => (r.1.toJson, r.2) := by
    rw [readUnsigned]
    rcases readWhole cs with _ | ⟨whole, cs⟩
    · rfl
    · rcases hfraction : readFraction cs with _ | ⟨fraction, cs⟩
      · simp [hfraction]
      · rcases hpower : readExponent cs with _ | ⟨power, cs⟩
        · simp [hfraction, hpower]
        · simp [hfraction, hpower, NumberParts.toJson]
  exact hunsigned (splitSign cs).1 (splitSign cs).2

def continuesNumber (c : Char) : Bool :=
  c.isDigit || c == '.' || c == 'e' || c == 'E'

theorem continuesNumber_eq_false {c : Char} :
    continuesNumber c = false ↔ (c.isDigit || c == '.') = false ∧ (c == 'e') = false ∧ (c == 'E') = false := by
  simp [continuesNumber, and_assoc]

theorem readDigits_append {ds rest : List Char} (hne : ds ≠ []) (hds : ∀ c ∈ ds, c.isDigit = true)
    (hrest : Escapes Char.isDigit rest) : readDigits (ds ++ rest) = some (ds, rest) := by
  obtain ⟨htake, hdrop⟩ := takeWhile_append_escapes hds hrest
  rw [readDigits, htake, hdrop]
  cases ds with
  | nil => exact absurd rfl hne
  | cons c ds => rfl

theorem readWhole_append {p : NumberParts} (h : p.WellFormed) {rest : List Char} (hrest : Escapes Char.isDigit rest) :
    readWhole (p.whole ++ rest) = some (p.whole, rest) := by
  rw [readWhole, readDigits_append h.whole_ne_nil h.whole_digits hrest]
  split
  next c ds r heq =>
    obtain ⟨hwhole, -⟩ := Prod.mk.inj (Option.some.inj heq)
    exact absurd hwhole (h.zero_alone _ _)
  next => rfl

theorem readFraction_append {p : NumberParts} (h : p.WellFormed) {rest : List Char}
    (hrest : Escapes (fun c => c.isDigit || c == '.') rest) :
    readFraction (NumberParts.fractionChars p.fraction ++ rest) = some (p.fraction, rest) := by
  have hdigit : Escapes Char.isDigit rest := hrest.mono fun c hc => (Bool.or_eq_false_iff.mp hc).1
  cases hfraction : p.fraction with
  | nil =>
    rw [NumberParts.fractionChars, List.isEmpty_nil, if_pos rfl, List.nil_append]
    cases rest with
    | nil => rfl
    | cons c rest =>
      have hpoint : c ≠ '.' := by simpa using (Bool.or_eq_false_iff.mp (hrest c rfl)).2
      rw [readFraction]
      exact fun r heq => hpoint (List.cons.inj heq).1
  | cons c ds =>
    have hds : ∀ d ∈ c :: ds, d.isDigit = true := hfraction ▸ h.fraction_digits
    exact readDigits_append (by simp) hds hdigit

theorem readExponent_append (power : Option Int) {rest : List Char} (hrest : Escapes continuesNumber rest) :
    readExponent (NumberParts.powerChars power ++ rest) = some (power, rest) := by
  have hdigit : Escapes Char.isDigit rest :=
    hrest.mono fun c hc => (Bool.or_eq_false_iff.mp (continuesNumber_eq_false.mp hc).1).1
  cases power with
  | none =>
    cases rest with
    | nil => rfl
    | cons c rest =>
      obtain ⟨-, hlower, hupper⟩ := continuesNumber_eq_false.mp (hrest c rfl)
      simp [NumberParts.powerChars, readExponent, hlower, hupper]
  | some power =>
    have hdigits : readDigits (Nat.toDigits 10 power.natAbs ++ rest) = some (Nat.toDigits 10 power.natAbs, rest) :=
      readDigits_append Nat.toDigits_ne_nil isDigit_of_mem_toDigits hdigit
    have hvalue : Nat.ofDigitChars 10 (Nat.toDigits 10 power.natAbs) 0 = power.natAbs := Nat.ofDigitChars_ten_toDigits
    by_cases hneg : power < 0
    · simp [NumberParts.powerChars, readExponent, hneg, hdigits, hvalue, abs_of_neg hneg]
    · simp [NumberParts.powerChars, readExponent, hneg, hdigits, hvalue, abs_of_nonneg (Int.not_lt.mp hneg)]

theorem escapes_powerChars (power : Option Int) {rest : List Char} (hrest : Escapes continuesNumber rest) :
    Escapes (fun c => c.isDigit || c == '.') (NumberParts.powerChars power ++ rest) := by
  cases power with
  | none => exact hrest.mono fun c hc => (continuesNumber_eq_false.mp hc).1
  | some power =>
    intro c hc
    obtain rfl : 'e' = c := by simpa [NumberParts.powerChars] using hc
    rfl

theorem escapes_fractionChars (fraction : List Char) {rest : List Char} (hrest : Escapes Char.isDigit rest) :
    Escapes Char.isDigit (NumberParts.fractionChars fraction ++ rest) := by
  cases fraction with
  | nil => exact hrest
  | cons d ds =>
    intro c hc
    obtain rfl : '.' = c := by simpa [NumberParts.fractionChars] using hc
    rfl

theorem splitSign_append {p : NumberParts} (h : p.WellFormed) (rest : List Char) :
    splitSign (p.chars ++ rest) =
      (p.negative, p.whole ++ (NumberParts.fractionChars p.fraction ++ (NumberParts.powerChars p.power ++ rest))) := by
  obtain ⟨c, ds, hwhole⟩ := List.exists_cons_of_ne_nil h.whole_ne_nil
  have hc : c ≠ '-' := by
    rintro rfl
    exact absurd (h.whole_digits '-' (by simp [hwhole])) (by decide)
  cases hneg : p.negative with
  | true => simp [NumberParts.chars, hneg, splitSign]
  | false =>
    simp only [NumberParts.chars, hneg, hwhole, List.append_assoc, List.cons_append, List.nil_append,
      Bool.false_eq_true, if_false]
    rw [splitSign]
    exact fun _ heq => hc (List.cons.inj heq).1

theorem readParts_chars {p : NumberParts} (h : p.WellFormed) {rest : List Char}
    (hrest : Escapes continuesNumber rest) : readParts (p.chars ++ rest) = some (p, rest) := by
  have hpower := escapes_powerChars p.power hrest
  have hdigit : Escapes Char.isDigit (NumberParts.powerChars p.power ++ rest) :=
    hpower.mono fun c hc => (Bool.or_eq_false_iff.mp hc).1
  rw [readParts, splitSign_append h, readUnsigned, readWhole_append h (escapes_fractionChars _ hdigit)]
  simp [readFraction_append h hpower, readExponent_append p.power hrest]

def intParts (i : Int) : NumberParts :=
  ⟨decide (i < 0), Nat.toDigits 10 i.natAbs, [], none⟩

theorem intParts_wellFormed (i : Int) : (intParts i).WellFormed where
  whole_digits := isDigit_of_mem_toDigits
  whole_ne_nil := Nat.toDigits_ne_nil
  zero_alone := toDigits_ne_zero_cons i.natAbs
  fraction_digits := by simp [intParts]

theorem chars_intParts (i : Int) : (intParts i).chars = intChars i := by
  simp [intParts, NumberParts.chars, NumberParts.fractionChars, NumberParts.powerChars, intChars]

theorem toJson_intParts {i : Int} (hlow : -2 ^ 63 ≤ i) (hhigh : i < 2 ^ 64) : (intParts i).toJson = .int i := by
  have hvalue : Nat.ofDigitChars 10 (Nat.toDigits 10 i.natAbs) 0 = i.natAbs := Nat.ofDigitChars_ten_toDigits
  have hsigned : (if i < 0 then -(i.natAbs : Int) else i.natAbs) = i := by
    split <;> omega
  have hzero : ¬(i < 0 ∧ i.natAbs = 0) := by omega
  have hlow' : -Int.pow 2 63 ≤ i := hlow
  have hhigh' : i < Int.pow 2 64 := hhigh
  simp only [intParts, NumberParts.toJson, numberOf, hvalue, decide_eq_true_eq, hsigned]
  rw [if_pos]
  simp only [List.isEmpty_nil, Option.isNone_none, Bool.true_and, Bool.and_eq_true, Bool.not_eq_true',
    Bool.and_eq_false_iff, decide_eq_false_iff_not, decide_eq_true_eq, beq_eq_false_iff_ne]
  exact ⟨⟨by omega, hlow'⟩, hhigh'⟩

end Json

end BigQuerySql
