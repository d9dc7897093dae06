import BigQuerySql.Proofs.NumberText
import Mathlib.Data.Nat.Log
import Mathlib.Tactic.Linarith
import Mathlib.Tactic.Positivity

namespace BigQuerySql

theorem zpow_eq_div (b : ℚ) (i : ℤ) : b ^ i = b ^ i.toNat / b ^ (-i).toNat := by
  rcases le_total 0 i with hi | hi
  · obtain ⟨n, rfl⟩ := Int.eq_ofNat_of_zero_le hi
    simp
  · obtain ⟨n, hn⟩ := Int.eq_ofNat_of_zero_le (Int.neg_nonneg.mpr hi)
    obtain rfl : i = -(n : ℤ) := by omega
    simp

namespace Json.NumberParts

def magnitude (p : NumberParts) : ℚ :=
  Nat.ofDigitChars 10 (p.whole ++ p.fraction) 0 * 10 ^ (p.power.getD 0 - p.fraction.length)

def IsPointed (p : NumberParts) : Prop :=
  p.fraction ≠ [] ∨ p.power ≠ none

end Json.NumberParts

namespace Decimal

open Json (NumberParts)

def value (d : Decimal) : ℚ :=
  d.digits * 10 ^ d.exponent

structure Spells (p : NumberParts) (negative : Bool) (d : Decimal) (text : String) : Prop where
  chars : p.chars = (signText negative).toList ++ text.toList
  negative : p.negative = negative
  wellFormed : p.WellFormed
  pointed : p.IsPointed
  magnitude : p.magnitude = d.value

theorem signChars (negative : Bool) : (if negative then ['-'] else []) = (signText negative).toList := by
  cases negative <;> rfl

variable {d : Decimal} (negative : Bool)

theorem spells_whole (hzero : d.digits = 0 → d.exponent = 0) (hexp : 0 ≤ d.exponent) :
    Spells ⟨negative, Nat.toDigits 10 d.digits ++ List.replicate d.exponent.toNat '0', ['0'], none⟩ negative d
      (d.positional true) where
  chars := by
    simp [NumberParts.chars, NumberParts.fractionChars, NumberParts.powerChars, signChars, positional, hexp]
  negative := rfl
  wellFormed :=
    { whole_digits := by
        intro c hc
        rcases List.mem_append.mp hc with hc | hc
        · exact isDigit_of_mem_toDigits c hc
        · rw [List.eq_of_mem_replicate hc]
          rfl
      whole_ne_nil := by simp [Nat.toDigits_ne_nil]
      zero_alone := by
        intro c rest
        by_cases hd : d.digits = 0
        · simp [hd, hzero hd]
        · obtain ⟨e, es, hdigits, he⟩ := toDigits_eq_cons hd
          rw [hdigits]
          exact fun heq => he (List.cons.inj heq).1
      fraction_digits := by simp }
  pointed := .inl (by simp)
  magnitude := by
    obtain ⟨n, hn⟩ := Int.eq_ofNat_of_zero_le hexp
    have hdigits : Nat.ofDigitChars 10 (Nat.toDigits 10 d.digits ++ List.replicate n '0' ++ ['0']) 0 =
        10 ^ (n + 1) * d.digits := by
      rw [List.append_assoc, ← List.replicate_succ', ofDigitChars_append_zeros, Nat.ofDigitChars_ten_toDigits]
    simp only [NumberParts.magnitude, value, hn, Int.toNat_natCast, hdigits]
    simp
    field_simp
    ring

theorem magnitude_split (places : Nat) (power : Option Int) (hplaces : places ≤ (Nat.toDigits 10 d.digits).length)
    (hpower : power.getD 0 - places = d.exponent) :
    NumberParts.magnitude ⟨negative, (Nat.toDigits 10 d.digits).take ((Nat.toDigits 10 d.digits).length - places),
      (Nat.toDigits 10 d.digits).drop ((Nat.toDigits 10 d.digits).length - places), power⟩ = d.value := by
  have hlength : ((Nat.toDigits 10 d.digits).drop ((Nat.toDigits 10 d.digits).length - places)).length = places := by
    rw [List.length_drop]
    omega
  simp only [NumberParts.magnitude, List.take_append_drop, hlength, hpower, Nat.ofDigitChars_ten_toDigits, value]

theorem spells_inside (hexp : d.exponent < 0) (hplaces : (-d.exponent).toNat < (Nat.toDigits 10 d.digits).length) :
    Spells ⟨negative, (Nat.toDigits 10 d.digits).take ((Nat.toDigits 10 d.digits).length - (-d.exponent).toNat),
      (Nat.toDigits 10 d.digits).drop ((Nat.toDigits 10 d.digits).length - (-d.exponent).toNat), none⟩ negative d
      (d.positional true) where
  chars := by
    have hne : ((Nat.toDigits 10 d.digits).drop
        ((Nat.toDigits 10 d.digits).length - (-d.exponent).toNat)).isEmpty = false := by
      rw [List.isEmpty_eq_false_iff, ne_eq, List.drop_eq_nil_iff]
      omega
    simp only [NumberParts.chars, NumberParts.fractionChars, NumberParts.powerChars, signChars, positional, hne,
      Int.not_le.mpr hexp, if_false, hplaces, if_true]
    simp
  negative := rfl
  wellFormed :=
    { whole_digits := fun c hc => isDigit_of_mem_toDigits c (List.mem_of_mem_take hc)
      whole_ne_nil := by
        rw [ne_eq, List.take_eq_nil_iff, not_or]
        exact ⟨by omega, Nat.toDigits_ne_nil⟩
      zero_alone := by
        intro c rest heq
        dsimp only at heq
        have hsplit := List.take_append_drop ((Nat.toDigits 10 d.digits).length - (-d.exponent).toNat)
          (Nat.toDigits 10 d.digits)
        rw [heq] at hsplit
        exact toDigits_ne_zero_cons _ _ _ hsplit.symm
      fraction_digits := fun c hc => isDigit_of_mem_toDigits c (List.mem_of_mem_drop hc) }
  pointed := by
    refine .inl ?_
    rw [ne_eq, List.drop_eq_nil_iff]
    omega
  magnitude := magnitude_split negative _ none hplaces.le (by simp only [Option.getD_none]; omega)

theorem spells_below (hplaces : (Nat.toDigits 10 d.digits).length ≤ (-d.exponent).toNat) :
    Spells ⟨negative, ['0'], List.replicate ((-d.exponent).toNat - (Nat.toDigits 10 d.digits).length) '0' ++
      Nat.toDigits 10 d.digits, none⟩ negative d (d.positional true) where
  chars := by
    have hpos := Nat.length_toDigits_pos (b := 10) (n := d.digits)
    have hexp : ¬0 ≤ d.exponent := by omega
    simp [NumberParts.chars, NumberParts.fractionChars, NumberParts.powerChars, signChars, positional, hexp,
      Nat.not_lt.mpr hplaces]
  negative := rfl
  wellFormed :=
    { whole_digits := by simp
      whole_ne_nil := by simp
      zero_alone := by simp
      fraction_digits := by
        intro c hc
        rcases List.mem_append.mp hc with hc | hc
        · rw [List.eq_of_mem_replicate hc]
          rfl
        · exact isDigit_of_mem_toDigits c hc }
  pointed := .inl (by simp [Nat.toDigits_ne_nil])
  magnitude := by
    have hlength : (List.replicate ((-d.exponent).toNat - (Nat.toDigits 10 d.digits).length) '0' ++
        Nat.toDigits 10 d.digits).length = (-d.exponent).toNat := by
      rw [List.length_append, List.length_replicate]
      omega
    have hvalue := ofDigitChars_zeros_append ((-d.exponent).toNat - (Nat.toDigits 10 d.digits).length + 1)
      (Nat.toDigits 10 d.digits)
    have hpos := Nat.length_toDigits_pos (b := 10) (n := d.digits)
    have hexp : (0 : ℤ) - ((-d.exponent).toNat : ℤ) = d.exponent := by omega
    rw [List.replicate_succ, List.cons_append, Nat.ofDigitChars_ten_toDigits] at hvalue
    simp only [NumberParts.magnitude, List.cons_append, List.nil_append, hvalue, hlength, Option.getD_none, hexp, value]

theorem spells_scientific :
    Spells ⟨negative, (Nat.toDigits 10 d.digits).take 1, (Nat.toDigits 10 d.digits).drop 1,
      some (d.exponent + ((Nat.toDigits 10 d.digits).length : Int) - 1)⟩ negative d (d.scientific true) where
  chars := by
    have hfraction : (if ((Nat.toDigits 10 d.digits).drop 1).isEmpty then ""
        else "." ++ String.ofList ((Nat.toDigits 10 d.digits).drop 1)).toList =
          NumberParts.fractionChars ((Nat.toDigits 10 d.digits).drop 1) := by
      rw [NumberParts.fractionChars]
      split <;> simp
    simp only [NumberParts.chars, NumberParts.powerChars, signChars, scientific, String.toList_append, hfraction,
      Nat.toString_eq_repr, Nat.toList_repr, String.toList_ofList]
    simp only [List.append_assoc, List.append_cancel_left_eq]
    split <;> rfl
  negative := rfl
  wellFormed :=
    { whole_digits := fun c hc => isDigit_of_mem_toDigits c (List.mem_of_mem_take hc)
      whole_ne_nil := by
        rw [ne_eq, List.take_eq_nil_iff, not_or]
        exact ⟨by decide, Nat.toDigits_ne_nil⟩
      zero_alone := by
        intro c rest heq
        have hlength := congrArg List.length heq
        simp only [List.length_take, List.length_cons] at hlength
        omega
      fraction_digits := fun c hc => isDigit_of_mem_toDigits c (List.mem_of_mem_drop hc) }
  pointed := .inr (by simp)
  magnitude := by
    have hpos := Nat.length_toDigits_pos (b := 10) (n := d.digits)
    have hsplit := magnitude_split negative ((Nat.toDigits 10 d.digits).length - 1)
      (some (d.exponent + ((Nat.toDigits 10 d.digits).length : Int) - 1)) (d := d) (by omega)
      (by simp only [Option.getD_some]; omega)
    rwa [Nat.sub_sub_self hpos] at hsplit

theorem exists_spells (hzero : d.digits = 0 → d.exponent = 0) :
    ∃ p, Spells p negative d (d.text Json.doubleStyle) := by
  simp only [text, Json.doubleStyle]
  split
  · by_cases hexp : 0 ≤ d.exponent
    · exact ⟨_, spells_whole negative hzero hexp⟩
    · by_cases hplaces : (-d.exponent).toNat < (Nat.toDigits 10 d.digits).length
      · exact ⟨_, spells_inside negative (Int.not_le.mp hexp) hplaces⟩
      · exact ⟨_, spells_below negative (Nat.not_lt.mp hplaces)⟩
  · exact ⟨_, spells_scientific negative⟩

end Decimal

namespace Binary64

section Compare

variable {a n : Nat} {i j : Int}

theorem scaled_cross (a n : Nat) (i j : Int) : ∃ c : ℚ, 0 < c ∧
    ((a * Nat.pow 10 i.toNat * Nat.pow 2 (-j).toNat : Nat) : ℚ) = a * 10 ^ i * c ∧
    ((n * Nat.pow 2 j.toNat * Nat.pow 10 (-i).toNat : Nat) : ℚ) = n * 2 ^ j * c := by
  -- the powers that both sides are multiplied by to be whole
  refine ⟨10 ^ (-i).toNat * 2 ^ (-j).toNat, by positivity, ?_, ?_⟩
  · rw [zpow_eq_div 10 i]
    simp only [Nat.pow_eq]
    push_cast
    field_simp
  · rw [zpow_eq_div 2 j]
    simp only [Nat.pow_eq]
    push_cast
    field_simp

theorem compareScaled_lt : compareScaled a i n j = .lt ↔ (a : ℚ) * 10 ^ i < n * 2 ^ j := by
  obtain ⟨c, hc, ha, hn⟩ := scaled_cross a n i j
  rw [compareScaled, Nat.compare_eq_lt, ← Nat.cast_lt (α := ℚ), ha, hn, mul_lt_mul_iff_left₀ hc]

theorem compareScaled_gt : compareScaled a i n j = .gt ↔ (n : ℚ) * 2 ^ j < a * 10 ^ i := by
  obtain ⟨c, hc, ha, hn⟩ := scaled_cross a n i j
  rw [compareScaled, Nat.compare_eq_gt, ← Nat.cast_lt (α := ℚ), ha, hn, mul_lt_mul_iff_left₀ hc]

theorem compareScaled_eq : compareScaled a i n j = .eq ↔ (a : ℚ) * 10 ^ i = n * 2 ^ j := by
  obtain ⟨c, hc, ha, hn⟩ := scaled_cross a n i j
  rw [compareScaled, Nat.compare_eq_eq, ← Nat.cast_inj (R := ℚ), ha, hn, mul_left_inj' hc.ne']

end Compare

def upper (rank : Nat) : ℚ :=
  (4 * significand rank + 2 : Nat) * 2 ^ (scale rank - 2)

def lower (rank : Nat) : ℚ :=
  (if narrowBelow rank then 4 * significand rank - 1 else 4 * significand rank - 2 : Nat) * 2 ^ (scale rank - 2)

theorem significand_succ (rank : Nat) :
    (significand (rank + 1) = significand rank + 1 ∧ scale (rank + 1) = scale rank ∧
        narrowBelow (rank + 1) = false) ∨
      (significand rank = Nat.pow 2 53 - 1 ∧ significand (rank + 1) = Nat.pow 2 52 ∧
        scale (rank + 1) = scale rank + 1 ∧ narrowBelow (rank + 1) = true) := by
  have h52 : Nat.pow 2 52 = 4503599627370496 := rfl
  have h53 : Nat.pow 2 53 = 9007199254740992 := rfl
  simp only [significand, scale, narrowBelow, h52, h53]
  by_cases hlast : (rank + 1) % 4503599627370496 = 0 ∧ 4503599627370496 < rank + 1
  · right
    refine ⟨?_, ?_, ?_, ?_⟩
    · rw [if_neg (by omega)]
      omega
    · rw [if_neg (by omega)]
      omega
    · omega
    · simp [hlast]
  · left
    refine ⟨?_, ?_, ?_⟩
    · split <;> split <;> omega
    · omega
    · simpa using hlast

theorem lower_succ (rank : Nat) : lower (rank + 1) = upper rank := by
  rcases significand_succ rank with ⟨hm, hq, hn⟩ | ⟨hm, hm', hq, hn⟩
  · have hlow : 4 * (significand rank + 1) - 2 = 4 * significand rank + 2 := by omega
    rw [lower, upper, hm, hq, hn, if_neg (by simp), hlow]
  · have hscale : scale rank + 1 - 2 = scale rank - 2 + 1 := by ring
    rw [lower, upper, hm, hm', hq, hn, if_pos rfl, hscale, zpow_add₀ two_ne_zero]
    norm_num
    ring

theorem lower_lt_upper (rank : Nat) : lower rank < upper rank := by
  have hlow : (if narrowBelow rank then 4 * significand rank - 1 else 4 * significand rank - 2) <
      4 * significand rank + 2 := by
    split <;> omega
  exact mul_lt_mul_of_pos_right (Nat.cast_lt.mpr hlow) (by positivity)

theorem upper_le_lower {r s : Nat} (h : r < s) : upper r ≤ lower s := by
  induction s, h using Nat.le_induction with
  | base => exact (lower_succ r).ge
  | succ s hs ih =>
    rw [lower_succ]
    exact ih.trans (lower_lt_upper s).le

theorem upper_lt_lower {r s : Nat} (h : r + 1 < s) : upper r < lower s :=
  calc
    upper r = lower (r + 1) := (lower_succ r).symm
    _ < upper (r + 1) := lower_lt_upper (r + 1)
    _ ≤ lower s := upper_le_lower h

theorem readsBack_iff {rank : Nat} {d : Decimal} :
    readsBack rank d = true ↔
      (lower rank < d.value ∨ significand rank % 2 = 0 ∧ lower rank = d.value) ∧
        (d.value < upper rank ∨ significand rank % 2 = 0 ∧ d.value = upper rank) := by
  simp only [readsBack, Bool.and_eq_true, Bool.or_eq_true, beq_iff_eq, decide_eq_true_eq, compareScaled_lt,
    compareScaled_gt, compareScaled_eq]
  rw [lower, upper, Decimal.value, eq_comm (a := (d.digits : ℚ) * 10 ^ d.exponent)]

theorem not_lt_of_readsBack {r s : Nat} {d e : Decimal} (hr : readsBack r d = true) (hs : readsBack s e = true)
    (hvalue : d.value = e.value) : ¬r < s := by
  intro hlt
  obtain ⟨-, habove⟩ := readsBack_iff.mp hr
  obtain ⟨hbelow, -⟩ := readsBack_iff.mp hs
  rw [← hvalue] at hbelow
  have hle := upper_le_lower hlt
  -- only a midpoint can round to both, and each takes it only where its significand is even
  have heq : d.value = upper r ∧ lower s = d.value ∧ significand r % 2 = 0 ∧ significand s % 2 = 0 := by
    rcases habove with habove | ⟨hevenr, habove⟩
    · rcases hbelow with hbelow | ⟨-, hbelow⟩
      · exact absurd (habove.trans_le hle) (lt_asymm hbelow)
      · exact absurd (habove.trans_le hle) (by rw [hbelow]; exact lt_irrefl _)
    · rcases hbelow with hbelow | ⟨hevens, hbelow⟩
      · exact absurd (hle.trans_lt hbelow) (by rw [habove]; exact lt_irrefl _)
      · exact ⟨habove, hbelow, hevenr, hevens⟩
  obtain ⟨hupper, hlower, hevenr, hevens⟩ := heq
  obtain rfl : s = r + 1 := by
    by_contra hne
    have hgap := upper_lt_lower (r := r) (s := s) (by omega)
    rw [hlower, ← hupper] at hgap
    exact lt_irrefl _ hgap
  -- but of two neighbours one is odd
  rcases significand_succ r with ⟨hm, -⟩ | ⟨hm, -⟩
  · omega
  · have hodd : (Nat.pow 2 53 - 1) % 2 = 1 := by decide
    omega

theorem rank_eq_of_readsBack {r s : Nat} {d e : Decimal} (hr : readsBack r d = true) (hs : readsBack s e = true)
    (hvalue : d.value = e.value) : r = s := by
  have hrs := not_lt_of_readsBack hr hs hvalue
  have hsr := not_lt_of_readsBack hs hr hvalue.symm
  omega

theorem readsBack_congr {rank : Nat} {d e : Decimal} (h : d.value = e.value) : readsBack rank d = readsBack rank e := by
  rw [Bool.eq_iff_iff, readsBack_iff, readsBack_iff, h]

theorem readsBack_onGrid {tie : Tie} {rank : Nat} {grid : Int} {d : Decimal} (h : onGrid tie rank grid = some d) :
    readsBack rank d = true := by
  simp only [onGrid] at h
  grind

theorem significand_pos {rank : Nat} (h : rank ≠ 0) : 0 < significand rank := by
  have h52 : 0 < Nat.pow 2 52 := by decide
  rw [significand]
  split <;> omega

theorem readsBack_exact {rank : Nat} (h : rank ≠ 0) {d : Decimal}
    (hvalue : d.value = significand rank * 2 ^ scale rank) : readsBack rank d = true := by
  have hpos := significand_pos h
  have hquarter : (significand rank : ℚ) * 2 ^ scale rank = (4 * significand rank : Nat) * 2 ^ (scale rank - 2) := by
    rw [zpow_sub₀ two_ne_zero]
    push_cast
    ring
  have hscale : (0 : ℚ) < 2 ^ (scale rank - 2) := by positivity
  rw [readsBack_iff, hvalue, hquarter, lower, upper]
  refine ⟨.inl (mul_lt_mul_of_pos_right (Nat.cast_lt.mpr ?_) hscale),
    .inl (mul_lt_mul_of_pos_right (Nat.cast_lt.mpr ?_) hscale)⟩
  · split <;> omega
  · omega

end Binary64

namespace Decimal

theorem value_dropZeros (n : Nat) (d : Decimal) : (dropZeros n d).value = d.value := by
  induction n generalizing d with
  | zero => rfl
  | succ n ih =>
    rw [dropZeros]
    split
    next hzero =>
      have hdigits : d.digits = d.digits / 10 * 10 := by
        simp only [Bool.and_eq_true, decide_eq_true_eq] at hzero
        omega
      rw [ih, value, value]
      dsimp only
      rw [zpow_add₀ (by norm_num), zpow_one]
      conv_rhs => rw [hdigits]
      push_cast
      ring
    next => rfl

theorem readsBack_shortest (tie : Tie) {rank : Nat} (h : rank ≠ 0) :
    Binary64.readsBack rank (shortest tie rank) = true := by
  simp only [shortest, if_neg h]
  split
  next d hd =>
    obtain ⟨n, -, hgrid⟩ := List.exists_of_findSome?_eq_some hd
    rw [Binary64.readsBack_congr (value_dropZeros 18 d)]
    exact Binary64.readsBack_onGrid hgrid
  next =>
    refine Binary64.readsBack_exact h ?_
    rw [value, zpow_eq_div 2 (Binary64.scale rank), zpow_neg, zpow_natCast]
    simp only [Nat.pow_eq]
    push_cast
    rw [show (10 : ℚ) = 2 * 5 by norm_num, mul_pow]
    field_simp

theorem value_shortest_pos (tie : Tie) {rank : Nat} (h : rank ≠ 0) : 0 < (shortest tie rank).value := by
  have hlow : 0 < Binary64.lower rank := by
    have hpos := Binary64.significand_pos h
    refine mul_pos (Nat.cast_pos.mpr ?_) (by positivity)
    split <;> omega
  obtain ⟨hbelow | ⟨-, hbelow⟩, -⟩ := Binary64.readsBack_iff.mp (readsBack_shortest tie h)
  · exact hlow.trans hbelow
  · exact hbelow ▸ hlow

theorem rank_eq_of_shortest {tie : Tie} {r s : Nat} (h : (shortest tie r).value = (shortest tie s).value) : r = s := by
  have hzero : (shortest tie 0).value = 0 := by simp [shortest, value]
  by_cases hr : r = 0
  · by_cases hs : s = 0
    · rw [hr, hs]
    · rw [hr, hzero] at h
      exact absurd h (value_shortest_pos tie hs).ne
  · by_cases hs : s = 0
    · rw [hs, hzero] at h
      exact absurd h (value_shortest_pos tie hr).ne'
    · exact Binary64.rank_eq_of_readsBack (readsBack_shortest tie hr) (readsBack_shortest tie hs) h

theorem exponent_shortest {tie : Tie} {rank : Nat} (h : (shortest tie rank).digits = 0) :
    (shortest tie rank).exponent = 0 := by
  by_cases hrank : rank = 0
  · rw [hrank]
    rfl
  · exact absurd (value_shortest_pos tie hrank) (by simp [value, h])

end Decimal

namespace Json

theorem exists_spells_double (negative : Bool) (rank : Fin (2047 * Nat.pow 2 52)) :
    ∃ p, Decimal.Spells p negative (Decimal.shortest .toEven rank)
      ((Decimal.shortest .toEven rank).text doubleStyle) :=
  Decimal.exists_spells negative Decimal.exponent_shortest

theorem floatChars_finite (negative : Bool) (rank : Fin (2047 * Nat.pow 2 52)) :
    floatChars (.finite negative rank) =
      (signText negative).toList ++ ((Decimal.shortest .toEven rank).text doubleStyle).toList := by
  have hfinite : (Binary64.finite negative rank).isFinite = true := rfl
  rw [floatChars, if_pos hfinite, Binary64.text, String.toList_append]
  rfl

theorem exists_doubleParts {x : Binary64} (h : x.isFinite = true) :
    ∃ p : NumberParts, p.chars = floatChars x ∧ p.WellFormed ∧ p.IsPointed := by
  cases x with
  | finite negative rank =>
    obtain ⟨p, hp⟩ := exists_spells_double negative rank
    exact ⟨p, hp.chars.trans (floatChars_finite negative rank).symm, hp.wellFormed, hp.pointed⟩
  | _ => exact absurd h (by simp [Binary64.isFinite])

theorem chars_inj {p q : NumberParts} (hp : p.WellFormed) (hq : q.WellFormed) (h : p.chars = q.chars) : p = q := by
  have hend : Escapes continuesNumber [] := by simp [Escapes]
  have hread := readParts_chars hp hend
  rw [List.append_nil, h, ← List.append_nil q.chars, readParts_chars hq hend] at hread
  exact (Prod.mk.inj (Option.some.inj hread)).1.symm

theorem floatChars_inj {x y : Binary64} (hx : x.isFinite = true) (hy : y.isFinite = true)
    (h : floatChars x = floatChars y) : x = y := by
  cases x with
  | finite negative rank =>
    cases y with
    | finite negative' rank' =>
      obtain ⟨p, hp⟩ := exists_spells_double negative rank
      obtain ⟨q, hq⟩ := exists_spells_double negative' rank'
      rw [floatChars_finite, floatChars_finite, ← hp.chars, ← hq.chars] at h
      obtain rfl : p = q := chars_inj hp.wellFormed hq.wellFormed h
      obtain rfl : negative = negative' := hp.negative.symm.trans hq.negative
      have hrank := Decimal.rank_eq_of_shortest (hp.magnitude.symm.trans hq.magnitude)
      rw [Fin.ext hrank]
    | _ => exact absurd hy (by simp [Binary64.isFinite])
  | _ => exact absurd hx (by simp [Binary64.isFinite])

end Json

end BigQuerySql
