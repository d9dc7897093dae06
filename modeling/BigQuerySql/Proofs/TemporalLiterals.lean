import BigQuerySql.Parameter.Bind
import BigQuerySql.Proofs.CalendarText

namespace BigQuerySql

namespace Text

theorem skipBlanks_append {before rest : List Char} (hbefore : ∀ c ∈ before, isBlank c = true)
    (hrest : Escapes isBlank rest) : skipBlanks (before ++ rest) = rest :=
  (takeWhile_append_escapes hbefore hrest).2

theorem trim_surrounded {before cs after : List Char} (hbefore : ∀ c ∈ before, isBlank c = true)
    (hafter : ∀ c ∈ after, isBlank c = true) (hne : cs ≠ []) (hfirst : Escapes isBlank cs)
    (hlast : Escapes isBlank cs.reverse) : trim (before ++ cs ++ after) = cs := by
  obtain ⟨c, rest, rfl⟩ := List.exists_cons_of_ne_nil hne
  have hstart : Escapes isBlank (c :: rest ++ after) := by simpa [Escapes] using hfirst
  have hreverse : ∀ c ∈ after.reverse, isBlank c = true := by simpa using hafter
  rw [trim, List.append_assoc, skipBlanks_append hbefore hstart, List.reverse_append,
    skipBlanks_append hreverse hlast, List.reverse_reverse]

end Text

namespace Calendar

theorem escapes_of_forall {p : Char → Bool} {cs : List Char} (h : ∀ c ∈ cs, p c = false) : Escapes p cs :=
  fun c hc => h c (List.mem_of_mem_head? hc)

def isTemporalChar (c : Char) : Bool :=
  c.isDigit || ['-', '+', ':', '.'].contains c

theorem isBlank_of_isTemporalChar {c : Char} (h : isTemporalChar c = true) : Text.isBlank c = false := by
  rcases Bool.or_eq_true_iff.mp h with hdigit | hmark
  · exact isBlank_of_isDigit hdigit
  · have hmarks : ∀ c ∈ ['-', '+', ':', '.'], (!Text.isBlank c) = true := List.all_eq_true.mp (by decide)
    simpa using hmarks c (List.contains_iff_mem.mp hmark)

theorem isTemporalChar_zeroPadded {width n : Nat} : ∀ c ∈ (zeroPadded width n).toList, isTemporalChar c = true :=
  fun c hc => by rw [isTemporalChar, isDigit_of_mem_zeroPadded c hc, Bool.true_or]

theorem isTemporalChar_yearText (year : Int) : ∀ c ∈ (Date.yearText year).toList, isTemporalChar c = true := by
  unfold Date.yearText
  split_ifs
  · exact isTemporalChar_zeroPadded
  all_goals
    rw [String.toList_append, List.forall_mem_append]
    exact ⟨List.all_eq_true.mp (by decide), isTemporalChar_zeroPadded⟩

theorem isTemporalChar_dateText (d : Date) : ∀ c ∈ d.text.toList, isTemporalChar c = true := by
  have hdash : ∀ c ∈ "-".toList, isTemporalChar c = true := List.all_eq_true.mp (by decide)
  simp only [Date.text, String.toList_append, List.forall_mem_append]
  exact ⟨⟨⟨⟨isTemporalChar_yearText _, hdash⟩, isTemporalChar_zeroPadded⟩, hdash⟩, isTemporalChar_zeroPadded⟩

theorem isTemporalChar_fractionText (n : Nat) :
    ∀ c ∈ (TimeOfDay.fractionText n).toList, isTemporalChar c = true := by
  have hpoint (width k : Nat) : ∀ c ∈ ("." ++ zeroPadded width k).toList, isTemporalChar c = true := by
    rw [String.toList_append, List.forall_mem_append]
    exact ⟨List.all_eq_true.mp (by decide), isTemporalChar_zeroPadded⟩
  unfold TimeOfDay.fractionText
  split_ifs
  · simp
  all_goals exact hpoint _ _

theorem isTemporalChar_timeText (t : TimeOfDay) : ∀ c ∈ t.text.toList, isTemporalChar c = true := by
  have hcolon : ∀ c ∈ ":".toList, isTemporalChar c = true := List.all_eq_true.mp (by decide)
  simp only [TimeOfDay.text, String.toList_append, List.forall_mem_append]
  exact ⟨⟨⟨⟨⟨isTemporalChar_zeroPadded, hcolon⟩, isTemporalChar_zeroPadded⟩, hcolon⟩, isTemporalChar_zeroPadded⟩,
    isTemporalChar_fractionText _⟩

theorem quote_notMem {cs : List Char} (h : ∀ c ∈ cs, isTemporalChar c = true) : '\'' ∉ cs :=
  fun hmem => absurd (h _ hmem) (by decide)

theorem dateText_ne_nil (d : Date) : d.text.toList ≠ [] := by
  intro h
  have hread := ymd_text true d []
  rw [h] at hread
  simp [ymd, yearItem, Text.skipBlanks, number, digits] at hread

theorem timeText_ne_nil (t : TimeOfDay) : t.text.toList ≠ [] := by
  intro h
  have hread := hms_text true t [] (by simp [Escapes])
  rw [h] at hread
  simp [hms, hourMinute, item, Text.skipBlanks, number, digits] at hread

theorem trim_temporal {before cs after : List Char} (hbefore : ∀ c ∈ before, Text.isBlank c = true)
    (hafter : ∀ c ∈ after, Text.isBlank c = true) (hne : cs ≠ []) (h : ∀ c ∈ cs, isTemporalChar c = true) :
    Text.trim (before ++ cs ++ after) = cs := by
  have hblank : ∀ c ∈ cs, Text.isBlank c = false := fun c hc => isBlank_of_isTemporalChar (h c hc)
  exact Text.trim_surrounded hbefore hafter hne (escapes_of_forall hblank) (escapes_of_forall (by simpa using hblank))

theorem trim_dateTimeText {before after : List Char} (hbefore : ∀ c ∈ before, Text.isBlank c = true)
    (hafter : ∀ c ∈ after, Text.isBlank c = true) (t : DateTime) :
    Text.trim (before ++ (t.text " ").toList ++ after) = (t.text " ").toList := by
  obtain ⟨d, ds, hdate⟩ := List.exists_cons_of_ne_nil (dateText_ne_nil t.date)
  have hreverse : t.time.text.toList.reverse ≠ [] := by simpa using timeText_ne_nil t.time
  obtain ⟨c, cs, htime⟩ := List.exists_cons_of_ne_nil hreverse
  have hfirst : Text.isBlank d = false :=
    isBlank_of_isTemporalChar (isTemporalChar_dateText t.date d (by simp [hdate]))
  have hlast : Text.isBlank c = false := by
    refine isBlank_of_isTemporalChar (isTemporalChar_timeText t.time c (List.mem_reverse.mp ?_))
    simp [htime]
  refine Text.trim_surrounded hbefore hafter ?_ ?_ ?_
  · simp [DateTime.text, hdate]
  · simpa [DateTime.text, hdate, Escapes] using hfirst
  · simpa [DateTime.text, htime, Escapes] using hlast

theorem whole_of_empty {α : Type} {reader : Reader α} {cs : List Char} {a : α} (h : reader cs = some (a, [])) :
    whole reader cs = some a := by
  rw [whole, h]

theorem number_exact {width n : Nat} (hwidth : 0 < width) (hn : n < 10 ^ width) (rest : List Char) :
    number width width ((zeroPadded width n).toList ++ rest) = some (n, rest) :=
  number_zeroPadded (length_zeroPadded hwidth hn).ge (length_zeroPadded hwidth hn).le
    (.inl (length_zeroPadded hwidth hn))

theorem literal_cons (c : Char) (rest : List Char) : literal c (c :: rest) = some ((), rest) :=
  if_pos rfl

theorem fixedYmd_text {d : Date} (hyear : 0 ≤ d.year ∧ d.year ≤ 9999) (rest : List Char) :
    fixedYmd (d.text.toList ++ rest) = some ((d.year.toNat, d.month, d.day), rest) := by
  obtain ⟨_, _, _, hmonth, _, hday⟩ := d.valid
  have hlast := daysInMonth_le d.year d.month
  have hdash : "-".toList = ['-'] := rfl
  have hfour : d.year.toNat < 10 ^ 4 := by omega
  have htwo {n : Nat} (hn : n < 10 ^ 2) := number_exact (by decide) hn
  rw [Date.text, Date.yearText, if_pos (by simpa using hyear)]
  simp only [fixedYmd, String.toList_append, List.append_assoc, hdash, List.cons_append, List.nil_append,
    Option.bind_eq_bind, Option.bind_some, number_exact (by decide) hfour, literal_cons,
    htwo (show d.month < 10 ^ 2 by omega), htwo (show d.day < 10 ^ 2 by omega)]
  rfl

theorem fixedYmd_signed {d : Date} (hyear : ¬(0 ≤ d.year ∧ d.year ≤ 9999)) (rest : List Char) :
    fixedYmd (d.text.toList ++ rest) = none := by
  have hnumber (c : Char) (hc : c.isDigit = false) (rest : List Char) : number 4 4 (c :: rest) = none := by
    simp [number, digits, hc]
  have hminus : "-".toList = ['-'] := rfl
  have hplus : "+".toList = ['+'] := rfl
  rw [Date.text, Date.yearText, if_neg (by simpa using hyear)]
  by_cases hneg : d.year < 0
  · simp only [fixedYmd, if_pos hneg, String.toList_append, List.append_assoc, hminus, List.cons_append,
      hnumber '-' (by decide), Option.bind_eq_bind, Option.bind_none]
  · simp only [fixedYmd, if_neg hneg, String.toList_append, List.append_assoc, hplus, List.cons_append,
      hnumber '+' (by decide), Option.bind_eq_bind, Option.bind_none]

theorem fixedHms_text (t : TimeOfDay) :
    fixedHms t.text.toList = some ((t.hour.val, t.minute.val, t.second.val, t.nanosecond.val), []) := by
  have hcolon : ":".toList = [':'] := rfl
  have hend : Escapes continuesSeconds [] := by simp [Escapes]
  have hfraction := fraction_fractionText t.nanosecond.isLt hend
  have htwo {n : Nat} (hn : n < 10 ^ 2) := number_exact (by decide) hn
  rw [List.append_nil] at hfraction
  simp only [fixedHms, TimeOfDay.text, String.toList_append, List.append_assoc, hcolon, List.cons_append,
    List.nil_append, Option.bind_eq_bind, Option.bind_some, literal_cons, htwo (show (t.hour : Nat) < 10 ^ 2 by omega),
    htwo (show (t.minute : Nat) < 10 ^ 2 by omega), htwo (show (t.second : Nat) < 10 ^ 2 by omega), hfraction]
  rfl

theorem strictZoned_text (t : DateTime) : strictZoned (t.text " ").toList = none := by
  have hmark : " ".toList = [' '] := rfl
  have hspace (rest : List Char) : dateTimeMark (' ' :: rest) = some ((), rest) := rfl
  simp only [strictZoned, DateTime.text, String.toList_append, List.append_assoc]
  by_cases hyear : 0 ≤ t.date.year ∧ t.date.year ≤ 9999
  · simp only [fixedYmd_text hyear, hmark, List.cons_append, List.nil_append, hspace, fixedHms_text,
      Option.bind_eq_bind, Option.bind_some]
    rfl
  · simp only [fixedYmd_signed hyear, Option.bind_eq_bind, Option.bind_none]

theorem dateThenTime_text (t : DateTime) : dateThenTime false blanks (t.text " ").toList = some (t, []) := by
  have hmark : " ".toList = [' '] := rfl
  have htime := hms_text false t.time [] (by simp [Escapes])
  rw [List.append_nil] at htime
  have hblanks : blanks (' ' :: t.time.text.toList) = some ((), t.time.text.toList) :=
    congrArg (fun cs => some ((), cs)) (skipBlanks_time t.time)
  simp only [dateThenTime, DateTime.text, String.toList_append, hmark, List.append_assoc, List.cons_append,
    List.nil_append, ymd_text, Option.bind_eq_bind, Option.bind_some, hblanks, htime]
  rfl

end Calendar

open Calendar

section Surrounded

variable {before after : List Char} (hbefore : ∀ c ∈ before, Text.isBlank c = true)
  (hafter : ∀ c ∈ after, Text.isBlank c = true)

include hbefore hafter

theorem Date.parse_text (d : Date) : Date.parse? (String.ofList (before ++ d.text.toList ++ after)) = some d := by
  have hplain : Date.plain? d.text.toList = some d := by
    rw [Date.plain?, whole_of_empty (by simpa using ymd_text false d [])]
  rw [Date.parse?, String.toList_ofList, trim_temporal hbefore hafter (dateText_ne_nil d) (isTemporalChar_dateText d),
    hplain]
  rfl

theorem TimeOfDay.parse_text (t : TimeOfDay) :
    TimeOfDay.parse? (String.ofList (before ++ t.text.toList ++ after)) = some t := by
  have htime : Calendar.whole (hms false) t.text.toList = some t :=
    whole_of_empty (by simpa using hms_text false t [] (by simp [Escapes]))
  rw [TimeOfDay.parse?, String.toList_ofList]
  simp only [trim_temporal hbefore hafter (timeText_ne_nil t) (isTemporalChar_timeText t), htime]

theorem DateTime.parse_text (t : DateTime) :
    DateTime.parse? (String.ofList (before ++ (t.text " ").toList ++ after)) = some t := by
  have hzoned : Calendar.whole strictZoned (t.text " ").toList = none := by rw [Calendar.whole, strictZoned_text]
  have hplain : Calendar.whole (dateThenTime false blanks) (t.text " ").toList = some t :=
    whole_of_empty (dateThenTime_text t)
  rw [DateTime.parse?, String.toList_ofList]
  simp only [trim_dateTimeText hbefore hafter t, hzoned, hplain]
  rfl

end Surrounded

namespace Value

section Standing

variable {v : Value}

theorem literal_of_date {d : Date} (h : v.date? = some d) : v.literal .date = .ok ("DATE '" ++ d.text ++ "'") := by
  cases v <;> simp_all [date?, literal, plainLiteral]

theorem literal_of_time {t : TimeOfDay} (h : v.time? = some t) : v.literal .time = .ok ("TIME '" ++ t.text ++ "'") := by
  cases v <;> simp_all [time?, literal, plainLiteral]

theorem literal_of_dateTime {t : DateTime} (h : v.dateTime? = some t) (timezone : Option String) :
    v.literal (.timestamp timezone) = .ok ("TIMESTAMP '" ++ t.text " " ++ "'") := by
  cases v <;> simp_all [dateTime?, literal, plainLiteral]

theorem bind_of_date {d : Date} (h : v.date? = some d) (name : String) :
    QueryParameter.bind name .date v = .ok (.scalar name "DATE" (.date d)) := by
  cases v <;> simp_all [date?, QueryParameter.bind, QueryParameter.bindScalar]

theorem bind_of_dateTime {t : DateTime} (h : v.dateTime? = some t) (name : String) (timezone : Option String) :
    QueryParameter.bind name (.timestamp timezone) v = .ok (.scalar name "TIMESTAMP" (.instant t)) := by
  cases v <;> simp_all [dateTime?, instant?, QueryParameter.bind, QueryParameter.bindScalar]

end Standing

/-- The dates and times at the types of which they are constants. A date and time also stands for its date and for its
time, and a date for its midnight. -/
inductive Temporal : DataType → Value → Prop where
  | date (d : Date) : Temporal .date (.date d)
  | time (t : TimeOfDay) : Temporal .time (.time t)
  | timestamp (timezone : Option String) (t : DateTime) : Temporal (.timestamp timezone) (.timestamp t)
  | dateOf (t : DateTime) : Temporal .date (.timestamp t)
  | timeOf (t : DateTime) : Temporal .time (.timestamp t)
  | midnightOf (timezone : Option String) (d : Date) : Temporal (.timestamp timezone) (.date d)

def temporalWord : DataType → String
  | .date => "DATE"
  | .time => "TIME"
  | _ => "TIMESTAMP"

theorem Temporal.stands {dtype : DataType} {v : Value} (h : Temporal dtype v) :
    (dtype = .date ∧ ∃ d, v.date? = some d) ∨ (dtype = .time ∧ ∃ t, v.time? = some t) ∨
      ∃ timezone, dtype = .timestamp timezone ∧ ∃ t, v.dateTime? = some t := by
  cases h <;> simp [date?, time?, dateTime?]

/-- The text between the quotes of a constant is no more than the date or time: given as a string with any blanks around
it, it is written as the same constant, and at the types of which there are parameters it is bound to the same one. -/
theorem temporal_literals_read_back {dtype : DataType} {v : Value} (h : Temporal dtype v) :
    ∃ text : List Char, '\'' ∉ text ∧
      v.literal dtype = .ok (temporalWord dtype ++ " '" ++ String.ofList text ++ "'") ∧
      ∀ before after : List Char, (∀ c ∈ before, Text.isBlank c = true) → (∀ c ∈ after, Text.isBlank c = true) →
        (Value.string (String.ofList (before ++ text ++ after))).literal dtype = v.literal dtype ∧
        (dtype ≠ .time → ∀ name, ∃ p, QueryParameter.bind name dtype v = .ok p ∧
          QueryParameter.bind name dtype (.string (String.ofList (before ++ text ++ after))) = .ok p) := by
  obtain ⟨rfl, d, hd⟩ | ⟨rfl, t, ht⟩ | ⟨timezone, rfl, t, ht⟩ := h.stands
  · have hquote := quote_notMem (isTemporalChar_dateText d)
    refine ⟨d.text.toList, hquote, by simpa [temporalWord] using literal_of_date hd, ?_⟩
    intro before after hbefore hafter
    have hread : (Value.string (String.ofList (before ++ d.text.toList ++ after))).date? = some d :=
      Date.parse_text hbefore hafter d
    refine ⟨by rw [literal_of_date hread, literal_of_date hd], fun _ name => ?_⟩
    exact ⟨_, bind_of_date hd name, bind_of_date hread name⟩
  · have hquote := quote_notMem (isTemporalChar_timeText t)
    refine ⟨t.text.toList, hquote, by simpa [temporalWord] using literal_of_time ht, ?_⟩
    intro before after hbefore hafter
    have hread : (Value.string (String.ofList (before ++ t.text.toList ++ after))).time? = some t :=
      TimeOfDay.parse_text hbefore hafter t
    exact ⟨by rw [literal_of_time hread, literal_of_time ht], fun hne => absurd rfl hne⟩
  · have hquote : '\'' ∉ (t.text " ").toList := by
      simp [DateTime.text, quote_notMem (isTemporalChar_dateText t.date), quote_notMem (isTemporalChar_timeText t.time)]
    refine ⟨(t.text " ").toList, hquote, by simpa [temporalWord] using literal_of_dateTime ht timezone, ?_⟩
    intro before after hbefore hafter
    have hread : (Value.string (String.ofList (before ++ (t.text " ").toList ++ after))).dateTime? = some t :=
      DateTime.parse_text hbefore hafter t
    refine ⟨by rw [literal_of_dateTime hread, literal_of_dateTime ht], fun _ name => ?_⟩
    exact ⟨_, bind_of_dateTime ht name timezone, bind_of_dateTime hread name timezone⟩

def leapSecond : DateTime :=
  ⟨⟨-1, 12, 31, by decide⟩, ⟨.last 23, .last 59, .last 60, ⟨1, by decide⟩⟩⟩

theorem leapSecond_reads_back :
    Temporal (.timestamp none) (.timestamp leapSecond) ∧
      (Value.timestamp leapSecond).literal (.timestamp none) = .ok "TIMESTAMP '-0001-12-31 23:59:60.000000001'" ∧
      (Value.string "\t-0001-12-31 23:59:60.000000001 \n").literal (.timestamp none) =
        .ok "TIMESTAMP '-0001-12-31 23:59:60.000000001'" := by
  have hliteral : (Value.timestamp leapSecond).literal (.timestamp none) =
      .ok "TIMESTAMP '-0001-12-31 23:59:60.000000001'" := by cbv
  obtain ⟨text, -, htext, hread⟩ := temporal_literals_read_back (.timestamp none leapSecond)
  obtain rfl : text = "-0001-12-31 23:59:60.000000001".toList := by
    rw [hliteral, Except.ok.injEq, ← String.toList_inj] at htext
    refine List.append_cancel_right (?_ : text ++ ['\''] = _ ++ ['\''])
    simpa [temporalWord] using htext.symm
  have hblanks := hread ['\t'] [' ', '\n'] (List.all_eq_true.mp (by decide)) (List.all_eq_true.mp (by decide))
  exact ⟨.timestamp none leapSecond, hliteral, hliteral ▸ hblanks.1⟩

end Value

end BigQuerySql
