import BigQuerySql.Calendar.Reader
import BigQuerySql.Proofs.Digits

namespace BigQuerySql

namespace Calendar

theorem skipBlanks_cons {c : Char} (hc : Text.isBlank c = false) (cs : List Char) :
    Text.skipBlanks (c :: cs) = c :: cs :=
  List.dropWhile_cons_of_neg (by simp [hc])

theorem isBlank_of_isDigit {c : Char} (h : c.isDigit = true) : Text.isBlank c = false := by
  have hrange : 48 ≤ c.toNat ∧ c.toNat ≤ 57 := by
    simp only [Char.isDigit, Bool.and_eq_true, decide_eq_true_eq, ge_iff_le, UInt32.le_iff_toNat_le] at h
    exact h
  simp only [Text.isBlank, Text.blankRanges, List.any_cons, List.any_nil, Bool.or_false,
    Bool.or_eq_false_iff, Bool.and_eq_false_iff, decide_eq_false_iff_not]
  omega

theorem digits_append {least most : Nat} {ds rest : List Char} (hds : ∀ c ∈ ds, c.isDigit = true)
    (hleast : least ≤ ds.length) (hmost : ds.length ≤ most)
    (hend : ds.length = most ∨ Escapes Char.isDigit rest) :
    digits least most (ds ++ rest) = some (ds, rest) := by
  have hrest : Escapes Char.isDigit (rest.take (most - ds.length)) := by
    rcases hend with hend | hend
    · simp [hend, Escapes]
    · intro c hc
      exact hend c (by rw [List.head?_take] at hc; split at hc <;> simp_all)
  have htaken : ((ds ++ rest).take most).takeWhile Char.isDigit = ds := by
    rw [List.take_append, List.take_of_length_le hmost]
    exact (takeWhile_append_escapes hds hrest).1
  simp only [digits, htaken, if_pos hleast, List.drop_left]

theorem zeroPadded_eq_cons (width n : Nat) :
    ∃ c cs, (zeroPadded width n).toList = c :: cs ∧ c.isDigit = true := by
  have hne : (zeroPadded width n).toList ≠ [] := by
    rw [toList_zeroPadded]
    exact List.append_ne_nil_of_right_ne_nil _ Nat.toDigits_ne_nil
  obtain ⟨c, cs, hcs⟩ := List.exists_cons_of_ne_nil hne
  have hdigits : ∀ d ∈ (zeroPadded width n).toList, d.isDigit = true := isDigit_of_mem_zeroPadded
  exact ⟨c, cs, hcs, hdigits c (by simp [hcs])⟩

theorem skipBlanks_zeroPadded (width n : Nat) (rest : List Char) :
    Text.skipBlanks ((zeroPadded width n).toList ++ rest) = (zeroPadded width n).toList ++ rest := by
  obtain ⟨c, cs, hcs, hdigit⟩ := zeroPadded_eq_cons width n
  rw [hcs, List.cons_append, skipBlanks_cons (isBlank_of_isDigit hdigit)]

theorem number_zeroPadded {least most width n : Nat} {rest : List Char}
    (hleast : least ≤ (zeroPadded width n).toList.length) (hmost : (zeroPadded width n).toList.length ≤ most)
    (hend : (zeroPadded width n).toList.length = most ∨ Escapes Char.isDigit rest) :
    number least most ((zeroPadded width n).toList ++ rest) = some (n, rest) := by
  simp only [number, digits_append isDigit_of_mem_zeroPadded hleast hmost hend, Option.map_some, value_zeroPadded]

theorem item_zeroPadded {n : Nat} (hn : n < 100) (rest : List Char) :
    item ((zeroPadded 2 n).toList ++ rest) = some (n, rest) := by
  have hlength : (zeroPadded 2 n).toList.length = 2 := length_zeroPadded (by decide) hn
  rw [item, skipBlanks_zeroPadded]
  exact number_zeroPadded (by omega) (by omega) (.inl hlength)

theorem separator_cons (loose : Bool) {c : Char} (hc : Text.isBlank c = false) (rest : List Char) :
    separator loose c (c :: rest) = some ((), rest) := by
  rw [separator, skipBlanks_cons hc, ite_self, literal, if_pos rfl]

theorem yearItem_yearText (year : Int) {rest : List Char} (hrest : Escapes Char.isDigit rest) :
    yearItem ((Date.yearText year).toList ++ rest) = some (year, rest) := by
  by_cases hplain : 0 ≤ year ∧ year ≤ 9999
  · have hlength : (zeroPadded 4 year.toNat).toList.length = 4 := length_zeroPadded (by decide) (by omega)
    have hread : number 1 4 ((zeroPadded 4 year.toNat).toList ++ rest) = some (year.toNat, rest) :=
      number_zeroPadded (by omega) (by omega) (.inl hlength)
    obtain ⟨c, cs, hcs, hdigit⟩ := zeroPadded_eq_cons 4 year.toNat
    rw [Date.yearText, if_pos (by simpa using hplain), yearItem, skipBlanks_zeroPadded]
    rw [hcs, List.cons_append] at hread ⊢
    split
    · simp_all [Char.isDigit]
    · simp_all [Char.isDigit]
    · simp only [hread, Option.map_some, Int.toNat_of_nonneg hplain.1]
  · have hminus : "-".toList = ['-'] := rfl
    have hplus : "+".toList = ['+'] := rfl
    have hread : ∀ cs, cs = (zeroPadded 4 year.natAbs).toList ++ rest →
        number 1 cs.length cs = some (year.natAbs, rest) := by
      rintro cs rfl
      obtain ⟨_, _, hcs, _⟩ := zeroPadded_eq_cons 4 year.natAbs
      exact number_zeroPadded (by simp [hcs]) (by simp) (.inr hrest)
    rw [Date.yearText, if_neg (by simpa using hplain), yearItem]
    by_cases hneg : year < 0
    · have habs : -(year.natAbs : Int) = year := by omega
      simp only [if_pos hneg, String.toList_append, hminus, List.cons_append, List.nil_append,
        skipBlanks_cons (c := '-') (by decide), hread _ rfl, Option.map_some, habs]
    · have habs : (year.natAbs : Int) = year := by omega
      simp only [if_neg hneg, String.toList_append, hplus, List.cons_append, List.nil_append,
        skipBlanks_cons (c := '+') (by decide), hread _ rfl, Option.map_some, habs]

theorem daysInMonth_le (year : Int) (month : Nat) : daysInMonth year month ≤ 31 := by
  unfold daysInMonth
  split <;> (try split) <;> decide

theorem ymd_text (loose : Bool) (d : Date) (rest : List Char) :
    ymd loose (d.text.toList ++ rest) = some (d, rest) := by
  obtain ⟨year, month, day, hvalid⟩ := d
  obtain ⟨_, _, _, hmonth, _, hday⟩ := id hvalid
  have hlast := daysInMonth_le year month
  have hdash : "-".toList = ['-'] := rfl
  have hyear : ∀ cs : List Char, yearItem ((Date.yearText year).toList ++ '-' :: cs) = some (year, '-' :: cs) :=
    fun cs => yearItem_yearText year (by simp [Escapes])
  have hof : Date.of? year month day = some ⟨year, month, day, hvalid⟩ := dif_pos hvalid
  simp only [ymd, Date.text, String.toList_append, List.append_assoc, hdash, List.cons_append, List.nil_append,
    Option.bind_eq_bind, Option.bind_some, hyear, separator_cons loose (c := '-') (by decide),
    item_zeroPadded (show month < 100 by omega), item_zeroPadded (show day < 100 by omega), hof]
  rfl

def continuesSeconds (c : Char) : Bool :=
  c.isDigit || c = '.'

theorem fraction_point {width k : Nat} (hpos : 0 < width) (hwidth : width ≤ 9) (hk : k < 10 ^ width)
    {rest : List Char} (hrest : Escapes Char.isDigit rest) :
    fraction (("." ++ zeroPadded width k).toList ++ rest) = some (k * 10 ^ (9 - width), rest) := by
  have hlength := length_zeroPadded hpos hk
  have hread : digits 1 9 ((zeroPadded width k).toList ++ rest) = some ((zeroPadded width k).toList, rest) :=
    digits_append isDigit_of_mem_zeroPadded (by omega) (by omega) (.inr hrest)
  have hpoint : ".".toList = ['.'] := rfl
  simp only [String.toList_append, hpoint, List.cons_append, List.nil_append, fraction, hread, Option.map_some,
    value_zeroPadded, hlength, Nat.pow_eq, dropWhile_of_escapes hrest]

theorem fraction_fractionText {n : Nat} (hn : n < 1000000000) {rest : List Char}
    (hrest : Escapes continuesSeconds rest) :
    fraction ((TimeOfDay.fractionText n).toList ++ rest) = some (n, rest) := by
  have hdigit : Escapes Char.isDigit rest := fun c hc => by
    have := hrest c hc
    simp_all [continuesSeconds]
  unfold TimeOfDay.fractionText
  split_ifs with hzero hmilli hmicro
  · cases rest with
    | nil => simp [fraction, hzero]
    | cons c rest =>
      have hc : c ≠ '.' := fun hc => by simpa [continuesSeconds, hc] using hrest c (by simp)
      simp only [String.toList_empty, List.nil_append]
      unfold fraction
      split <;> simp_all
  · rw [fraction_point (by decide) (by decide) (by omega) hdigit]
    congr 2
    omega
  · rw [fraction_point (by decide) (by decide) (by omega) hdigit]
    congr 2
    omega
  · rw [fraction_point (by decide) (by decide) hn hdigit]
    simp

theorem hms_parts (loose : Bool) (t : TimeOfDay) (rest : List Char) (hrest : Escapes continuesSeconds rest) :
    ∃ cs, hourMinute loose (t.text.toList ++ rest) = some ((t.hour.val, t.minute.val), cs) ∧
      seconds loose cs = some ((t.second.val, t.nanosecond.val), rest) := by
  have hcolon : ":".toList = [':'] := rfl
  refine ⟨':' :: ((zeroPadded 2 t.second).toList ++ ((TimeOfDay.fractionText t.nanosecond).toList ++ rest)),
    ?_, ?_⟩
  · simp only [hourMinute, TimeOfDay.text, String.toList_append, List.append_assoc, hcolon, List.cons_append,
      List.nil_append, Option.bind_eq_bind, Option.bind_some, separator_cons loose (c := ':') (by decide),
      item_zeroPadded (show (t.hour : Nat) < 100 by omega), item_zeroPadded (show (t.minute : Nat) < 100 by omega)]
    rfl
  · simp only [seconds, Option.bind_eq_bind, Option.bind_some, separator_cons loose (c := ':') (by decide),
      item_zeroPadded (show (t.second : Nat) < 100 by omega), fraction_fractionText t.nanosecond.isLt hrest]
    rfl

theorem timeOf_parts (t : TimeOfDay) : TimeOfDay.of? t.hour t.minute t.second t.nanosecond = some t :=
  dif_pos ⟨t.hour.isLt, t.minute.isLt, t.second.isLt, t.nanosecond.isLt⟩

theorem hms_text (loose : Bool) (t : TimeOfDay) (rest : List Char) (hrest : Escapes continuesSeconds rest) :
    hms loose (t.text.toList ++ rest) = some (t, rest) := by
  obtain ⟨cs, hstart, hseconds⟩ := hms_parts loose t rest hrest
  simp only [hms, hstart, hseconds, timeOf_parts, Option.bind_eq_bind, Option.bind_some]
  rfl

theorem skipBlanks_time (t : TimeOfDay) : Text.skipBlanks (' ' :: t.text.toList) = t.text.toList := by
  have hblank : Text.skipBlanks (' ' :: t.text.toList) = Text.skipBlanks t.text.toList :=
    List.dropWhile_cons_of_pos (by decide)
  rw [hblank, TimeOfDay.text]
  simp only [String.toList_append, List.append_assoc, skipBlanks_zeroPadded]

theorem toUtc_zero (t : DateTime) : t.toUtc? 0 = some t := by
  obtain ⟨date, time⟩ := t
  have hhour := time.hour.isLt
  have hminute := time.minute.isLt
  have hparts : ((time.hour : Nat) * 60 + time.minute) / 60 = time.hour ∧
      ((time.hour : Nat) * 60 + time.minute) % 60 = time.minute := by omega
  simp only [DateTime.toUtc?, Int.sub_zero, DateTime.withMinutes]
  rw [if_neg (by omega), if_pos (by omega), Int.toNat_natCast, hparts.1, hparts.2, timeOf_parts, Option.map_some]

theorem wholeBlank_of_empty {α : Type} {reader : Reader α} {cs : List Char} {a : α}
    (h : reader cs = some (a, [])) : wholeBlank reader cs = some a := by
  rw [wholeBlank, h]
  rfl

end Calendar

open Calendar

theorem Date.read_text (d : Date) : Date.read? d.text = some d :=
  wholeBlank_of_empty (by simpa using ymd_text true d [])

theorem TimeOfDay.read_text (t : TimeOfDay) : TimeOfDay.read? t.text = some t := by
  obtain ⟨cs, hstart, hseconds⟩ := hms_parts true t [] (by simp [Escapes])
  rw [List.append_nil] at hstart
  simp only [TimeOfDay.read?, hstart, hseconds, Option.bind_eq_bind, Option.bind_some, Option.getD_some]
  exact (if_pos rfl).trans (timeOf_parts t)

theorem DateTime.read_text (t : DateTime) : DateTime.read? (t.text "T") = some t := by
  have hmark : "T".toList = ['T'] := rfl
  have htime := hms_text true t.time [] (by simp [Escapes])
  rw [List.append_nil] at htime
  refine wholeBlank_of_empty ?_
  simp only [dateThenTime, DateTime.text, String.toList_append, hmark, List.append_assoc, List.cons_append,
    List.nil_append, ymd_text, Option.bind_eq_bind, Option.bind_some, skipBlanks_cons (c := 'T') (by decide),
    literal, if_pos, htime]
  rfl

theorem DateTime.readZoned_text (t : DateTime) : DateTime.readZoned? (t.text "T" ++ "Z") = some t := by
  have hmark : "T".toList = ['T'] := rfl
  have hzone : "Z".toList = ['Z'] := rfl
  have htime := hms_text true t.time ['Z'] (by simp [Escapes, continuesSeconds])
  have hutc : zone ['Z'] = some (0, []) := rfl
  refine wholeBlank_of_empty ?_
  simp only [looseZoned, DateTime.text, String.toList_append, hmark, hzone, List.append_assoc, List.cons_append,
    List.nil_append, ymd_text, Option.bind_eq_bind, Option.bind_some, dateTimeMark, decide_true, Bool.true_or,
    if_pos, htime, skipBlanks_cons (c := 'Z') (by decide), hutc, toUtc_zero]
  rfl

theorem Date.text_inj {d e : Date} (h : d.text = e.text) : d = e := by
  have hread := d.read_text
  rw [h, e.read_text] at hread
  exact (Option.some.inj hread).symm

theorem TimeOfDay.text_inj {t u : TimeOfDay} (h : t.text = u.text) : t = u := by
  have hread := t.read_text
  rw [h, u.read_text] at hread
  exact (Option.some.inj hread).symm

theorem DateTime.text_inj {t u : DateTime} (h : t.text "T" = u.text "T") : t = u := by
  have hread := t.read_text
  rw [h, u.read_text] at hread
  exact (Option.some.inj hread).symm

end BigQuerySql
