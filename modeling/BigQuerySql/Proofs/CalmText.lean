import BigQuerySql.Proofs.Digits
import BigQuerySql.Proofs.Lexis
import BigQuerySql.Sql.Literal
import Mathlib.Data.Nat.Digits.Defs
import Mathlib.Tactic.Tauto

namespace BigQuerySql

namespace Lexis

def calm (c : Char) : Bool :=
  Sql.isNameChar c || " ()[]<>,.:+-/=".toList.contains c

theorem calm_cases {c : Char} (h : calm c) :
    (Sql.isLetter c ∨ c = '_') ∨ c.isDigit ∨ c ∈ " ()[]<>,.:+-/=".toList := by
  simp only [calm, Sql.isNameChar, Bool.or_eq_true, beq_iff_eq, List.contains_iff_mem] at h
  tauto

theorem calm_ne {c d : Char} (h : calm c) (hd : calm d = false) : c ≠ d := by
  rintro rfl
  simp [h] at hd

theorem quote_calm {c : Char} (h : calm c) : quote? c = none := by
  simp [quote?, calm_ne h (show calm '\'' = false by decide),
    calm_ne h (show calm '"' = false by decide)]

theorem calm_of_isDigit {c : Char} (h : c.isDigit) : calm c := by
  simp [calm, Sql.isNameChar, h]

theorem start_digit {c : Char} (h : c.isDigit) : start c = (.number [c], []) := by
  have hc : calm c := calm_of_isDigit h
  simp [start, quote_calm hc, h, calm_ne hc (show calm '\x60' = false by decide),
    calm_ne hc (show calm '@' = false by decide)]

def loose : Mode → Bool
  | .blank => true
  | .word _ => true
  | .number _ => true
  | _ => false

theorem loose_finish {m : Mode} (h : loose m) : m.finish.isSome := by
  cases m <;> simp_all [loose, Mode.finish]

theorem start_calm {c : Char} (h : calm c) : loose (start c).1 := by
  rcases calm_cases h with hl | hd | hs
  · rw [start_letter hl]
    rfl
  · rw [start_digit hd]
    rfl
  · have hall : " ()[]<>,.:+-/=".toList.all fun d => loose (start d).1 := by decide
    exact List.all_eq_true.mp hall c hs

theorem advance_calm {m : Mode} {c : Char} (hm : loose m) (h : calm c) :
    loose (advance m c).1 := by
  have hs := start_calm h
  cases m with
  | blank => exact hs
  | word cs =>
    simp only [advance, quote_calm h]
    split
    · rfl
    · split <;> simpa [emit] using hs
  | number cs =>
    simp only [advance]
    split
    · rfl
    · simpa [emit] using hs
  | _ => simp [loose] at hm

theorem read_calm {m : Mode} {cs : List Char} (hm : loose m) (h : cs.all calm) :
    loose (read m cs).1 := by
  induction cs generalizing m with
  | nil => exact hm
  | cons c cs ih =>
    obtain ⟨hc, hcs⟩ : calm c = true ∧ cs.all calm = true := by simpa using h
    exact ih (advance_calm hm hc) hcs

theorem tokens_calm {cs : List Char} (h : cs.all calm) : (tokens? cs).isSome := by
  have hfinish := loose_finish (read_calm (m := .blank) rfl h)
  simpa [tokens?] using hfinish

theorem stringChars_calm {cs : List Char} (h : cs.all calm) :
    Sql.stringChars cs = '\'' :: (cs ++ ['\'']) := by
  have hbody : cs.flatMap Sql.stringChar = cs := by
    induction cs with
    | nil => rfl
    | cons c cs ih =>
      obtain ⟨hc, hcs⟩ : calm c = true ∧ cs.all calm = true := by simpa using h
      have hchar : Sql.stringChar c = [c] := by
        unfold Sql.stringChar
        split
        all_goals first | rfl | exact absurd hc (by decide)
      rw [List.flatMap_cons, hchar, ih hcs]
      rfl
  rw [Sql.stringChars, hbody]

end Lexis

section Texts

open Lexis

def Calm (s : String) : Prop := s.toList.all calm

instance (s : String) : Decidable (Calm s) :=
  inferInstanceAs (Decidable (s.toList.all calm = true))

theorem Calm.append {s r : String} (hs : Calm s) (hr : Calm r) : Calm (s ++ r) := by
  rw [Calm, String.toList_append, List.all_append, Bool.and_eq_true]
  exact ⟨hs, hr⟩

theorem calm_ofList {cs : List Char} (h : ∀ c ∈ cs, c.isDigit) : Calm (String.ofList cs) := by
  rw [Calm, String.toList_ofList]
  exact List.all_eq_true.mpr fun c hc => calm_of_isDigit (h c hc)

theorem calm_zeroPadded (width n : Nat) : Calm (zeroPadded width n) :=
  calm_ofList isDigit_of_mem_padded

theorem calm_nat (n : Nat) : Calm (toString n) := by
  rw [Nat.toString_eq_repr, Nat.repr_eq_ofList_toDigits]
  exact calm_ofList isDigit_of_mem_toDigits

theorem calm_int (i : Int) : Calm (toString i) := by
  have hint : toString i = i.repr := rfl
  rw [hint, Int.repr_eq_if]
  split
  · exact calm_nat _
  · exact Calm.append (by decide) (calm_nat _)

theorem calm_positional (pointZero : Bool) (d : Decimal) : Calm (d.positional pointZero) := by
  simp only [Decimal.positional]
  split
  · refine Calm.append (calm_ofList fun c h => ?_) ?_
    · rcases List.mem_append.mp h with h | h
      · exact isDigit_of_mem_toDigits c h
      · rw [List.eq_of_mem_replicate h]
        decide
    · cases pointZero <;> decide
  · split
    · refine Calm.append (Calm.append (calm_ofList fun c h => ?_) (by decide)) (calm_ofList fun c h => ?_)
      · exact isDigit_of_mem_toDigits c (List.mem_of_mem_take h)
      · exact isDigit_of_mem_toDigits c (List.mem_of_mem_drop h)
    · exact Calm.append (by decide) (calm_ofList isDigit_of_mem_padded)

theorem calm_scientific (plusSign : Bool) (d : Decimal) : Calm (d.scientific plusSign) := by
  unfold Decimal.scientific
  refine Calm.append (Calm.append (Calm.append (Calm.append (calm_ofList fun c h => ?_) ?_) ?_) ?_)
    (calm_nat _)
  · exact isDigit_of_mem_toDigits c (List.mem_of_mem_take h)
  · split
    · decide
    · exact Calm.append (by decide) (calm_ofList fun c h => isDigit_of_mem_toDigits c (List.mem_of_mem_drop h))
  · decide
  · split
    · decide
    · cases plusSign <;> decide

theorem calm_signText (negative : Bool) : Calm (signText negative) := by
  cases negative <;> decide

theorem calm_decimal (style : DoubleStyle) (d : Decimal) : Calm (d.text style) := by
  simp only [Decimal.text]
  split
  · exact calm_positional _ _
  · split
    · exact calm_positional _ _
    · exact calm_scientific _ _

theorem calm_double (style : DoubleStyle) (x : Binary64) : Calm (x.text style) := by
  cases x with
  | nan => exact (by decide : Calm "NaN")
  | infinite negative => exact (calm_signText negative).append (by decide)
  | finite negative rank => exact (calm_signText negative).append (calm_decimal _ _)

theorem calm_yearText (year : Int) : Calm (Date.yearText year) := by
  unfold Date.yearText
  split
  · exact calm_zeroPadded _ _
  · exact Calm.append (by split <;> decide) (calm_zeroPadded _ _)

theorem calm_date (d : Date) : Calm d.text :=
  (((calm_yearText d.year).append (by decide)).append (calm_zeroPadded _ _)).append (by decide)
    |>.append (calm_zeroPadded _ _)

theorem calm_fraction (n : Nat) : Calm (TimeOfDay.fractionText n) := by
  unfold TimeOfDay.fractionText
  split
  · decide
  · split
    · exact Calm.append (by decide) (calm_zeroPadded _ _)
    · split
      · exact Calm.append (by decide) (calm_zeroPadded _ _)
      · exact Calm.append (by decide) (calm_zeroPadded _ _)

theorem calm_time (t : TimeOfDay) : Calm t.text :=
  ((((calm_zeroPadded _ _).append (by decide)).append (calm_zeroPadded _ _)).append (by decide)
    |>.append (calm_zeroPadded _ _)).append (calm_fraction _)

theorem calm_dateTime (t : DateTime) : Calm (t.text " ") :=
  ((calm_date t.date).append (by decide)).append (calm_time t.time)

theorem calm_instant (t : DateTime) : Calm (Value.instantText t) :=
  (calm_dateTime t).append (by decide)

theorem calm_base64Digit {n : Nat} (h : n < 64) : calm (Text.base64Digit n) := by
  have hall : ∀ n < 64, calm (Text.base64Digit n) := by decide
  exact hall n h

theorem calm_base64 (bytes : List UInt8) : Calm (Text.base64 bytes) := by
  rw [Calm, Text.base64, String.toList_ofList]
  fun_induction Text.base64Chars bytes with
  | case1 => rfl
  | case2 a n =>
    have ha := a.toNat_lt
    simp only [List.all_cons, List.all_nil, Bool.and_true, Bool.and_eq_true]
    exact ⟨calm_base64Digit (by omega), calm_base64Digit (by omega), by decide⟩
  | case3 a b n =>
    have ha := a.toNat_lt
    have hb := b.toNat_lt
    simp only [List.all_cons, List.all_nil, Bool.and_true, Bool.and_eq_true]
    exact ⟨calm_base64Digit (by omega), calm_base64Digit (by omega), calm_base64Digit (by omega), by decide⟩
  | case4 a b c rest n ih =>
    have ha := a.toNat_lt
    have hb := b.toNat_lt
    have hc := c.toNat_lt
    simp only [List.all_cons, Bool.and_eq_true]
    exact ⟨calm_base64Digit (by omega), calm_base64Digit (by omega), calm_base64Digit (by omega),
      calm_base64Digit (by omega), ih⟩

inductive Leaf : List Char → Prop where
  | plain {cs : List Char} (h : cs.all calm) : Leaf cs
  | quoted {before content after : List Char} (hb : before.all calm) (hblank : endsBlank before)
      (hc : content.all calm) (ha : after.all calm) (hopens : after = [] ∨ opens after) :
      Leaf (before ++ (Sql.stringChars content ++ after))

def Frames (before after opening closing : String) : Prop :=
  opening = before ++ "'" ∧ closing = "'" ++ after ∧ Calm before ∧ endsBlank before.toList ∧
    Calm after ∧ (after.toList = [] ∨ opens after.toList)

instance (before after opening closing : String) : Decidable (Frames before after opening closing) :=
  inferInstanceAs (Decidable (_ ∧ _))

theorem Frames.split {before after opening closing content : String}
    (h : Frames before after opening closing) (hc : Calm content) :
    (opening ++ content ++ closing).toList =
      before.toList ++ (Sql.stringChars content.toList ++ after.toList) := by
  have hquote : "'".toList = ['\''] := by decide
  rw [stringChars_calm hc, h.1, h.2.1]
  simp [hquote]

theorem Frames.leaf {before after opening closing content : String}
    (h : Frames before after opening closing) (hc : Calm content) :
    Leaf (opening ++ content ++ closing).toList := by
  rw [h.split hc]
  obtain ⟨-, -, hb, hblank, ha, hopens⟩ := h
  exact .quoted hb hblank hc ha hopens

theorem leaf_stringLiteral {before content : String} (hb : Calm before)
    (hblank : endsBlank before.toList) (hc : Calm content) :
    Leaf (before ++ Sql.stringLiteral content).toList := by
  have hleaf : Leaf (before.toList ++ (Sql.stringChars content.toList ++ [])) :=
    .quoted hb hblank hc rfl (.inl rfl)
  rwa [String.toList_append, Sql.stringLiteral, String.toList_ofList, ← List.append_nil (Sql.stringChars _)]

theorem tokens_quoted {before content after : List Char} {ts : List Token}
    (hb : tokens? before = some ts) (hblank : endsBlank before) (hopens : after = [] ∨ opens after) :
    tokens? (before ++ (Sql.stringChars content ++ after)) =
      (tokens? after).map (ts ++ .text :: ·) := by
  rw [tokens_append hb (.inl hblank)]
  rcases hopens with rfl | hopens
  · simp [tokens_stringChars]
  · rw [tokens_append (tokens_stringChars content) (.inr hopens), Option.map_map]
    rfl

theorem Leaf.tokens {cs : List Char} (h : Leaf cs) : (tokens? cs).isSome := by
  cases h with
  | plain h => exact tokens_calm h
  | quoted hb hblank hc ha hopens =>
    obtain ⟨ts, hts⟩ := Option.isSome_iff_exists.mp (tokens_calm hb)
    rw [tokens_quoted hts hblank hopens]
    simpa using tokens_calm ha

end Texts

section Trapped

open Lexis

def unfinished : Mode → Bool
  | .name _ => true
  | .nameEscape _ => true
  | .opened _ => true
  | .quoted _ => true
  | .escaped _ => true
  | .long _ _ => true
  | .longEscaped _ => true
  | .stuck => true
  | _ => false

def trapped : Mode → Bool
  | .name _ => true
  | .quoted _ => true
  | .long _ run => run == 0
  | .stuck => true
  | _ => false

theorem finish_unfinished {m : Mode} (h : unfinished m) : m.finish = none := by
  cases m <;> simp_all [unfinished, Mode.finish]

theorem trapped_unfinished {m : Mode} (h : trapped m) : unfinished m := by
  cases m <;> simp_all [trapped, unfinished]

theorem trapped_backslash {m : Mode} (h : trapped m) : unfinished (advance m '\\').1 := by
  have hne (q : Quote) : '\\' ≠ q.char := by cases q <;> decide
  cases m <;> simp_all [trapped, advance, unfinished]

theorem calm_ne_quote {c : Char} (h : calm c) (q : Quote) : c ≠ q.char := by
  cases q
  · exact calm_ne h (by decide)
  · exact calm_ne h (by decide)

theorem advance_unfinished {m : Mode} {c : Char} (hm : unfinished m) (h : calm c) :
    trapped (advance m c).1 := by
  have htick : c ≠ '\x60' := calm_ne h (by decide)
  have hback : c ≠ '\\' := calm_ne h (by decide)
  have hline : c ≠ '\n' := calm_ne h (by decide)
  have hreturn : c ≠ '\r' := calm_ne h (by decide)
  cases m <;> simp_all [unfinished, advance, trapped, calm_ne_quote]

theorem read_trapped {m : Mode} {cs : List Char} (hm : trapped m) (h : cs.all calm) :
    trapped (read m cs).1 := by
  induction cs generalizing m with
  | nil => exact hm
  | cons c cs ih =>
    obtain ⟨hc, hcs⟩ : calm c = true ∧ cs.all calm = true := by simpa using h
    exact ih (advance_unfinished (trapped_unfinished hm) hc) hcs

theorem read_unfinished {m : Mode} {cs : List Char} (hm : unfinished m) (h : cs.all calm) :
    unfinished (read m cs).1 ∧ (cs ≠ [] → trapped (read m cs).1) := by
  cases cs with
  | nil => exact ⟨hm, fun h => absurd rfl h⟩
  | cons c cs =>
    obtain ⟨hc, hcs⟩ : calm c = true ∧ cs.all calm = true := by simpa using h
    have htrap := read_trapped (advance_unfinished hm hc) hcs
    exact ⟨trapped_unfinished htrap, fun _ => htrap⟩

theorem read_name_calm {cs : List Char} (h : cs.all calm) (raw : List Char) :
    (read (.name raw) cs).1 = .name (raw ++ cs) := by
  induction cs generalizing raw with
  | nil => simp
  | cons c cs ih =>
    obtain ⟨hc, hcs⟩ : calm c = true ∧ cs.all calm = true := by simpa using h
    have htick : c ≠ '\x60' := calm_ne hc (by decide)
    have hback : c ≠ '\\' := calm_ne hc (by decide)
    simp [read_cons, advance, htick, hback, ih hcs]

theorem read_quoted_calm {cs : List Char} (h : cs.all calm) (q : Quote) :
    (read (.quoted q) cs).1 = .quoted q := by
  induction cs with
  | nil => rfl
  | cons c cs ih =>
    obtain ⟨hc, hcs⟩ : calm c = true ∧ cs.all calm = true := by simpa using h
    have hback : c ≠ '\\' := calm_ne hc (by decide)
    have hline : c ≠ '\n' := calm_ne hc (by decide)
    have hreturn : c ≠ '\r' := calm_ne hc (by decide)
    simp [read_cons, advance, calm_ne_quote hc q, hback, hline, hreturn, ih hcs]

theorem read_long_calm {cs : List Char} (h : cs.all calm) (q : Quote) (run : Nat) :
    (read (.long q run) cs).1 = .long q (if cs = [] then run else 0) := by
  induction cs generalizing run with
  | nil => rfl
  | cons c cs ih =>
    obtain ⟨hc, hcs⟩ : calm c = true ∧ cs.all calm = true := by simpa using h
    have hback : c ≠ '\\' := calm_ne hc (by decide)
    simp [read_cons, advance, calm_ne_quote hc q, hback, ih hcs]

theorem advance_loose_quote {m : Mode} (h : loose m) : (advance m '\'').1 = .opened .single := by
  cases m with
  | blank => rfl
  | word cs =>
    have hname : Sql.isNameChar '\'' = false := by decide
    have hquote : quote? '\'' = some .single := by decide
    have hstart : start '\'' = (.opened .single, []) := by decide
    simp only [advance, hname, hquote, hstart, emit, Bool.false_eq_true, ↓reduceIte]
    split <;> rfl
  | number cs =>
    have hname : Sql.isNameChar '\'' = false := by decide
    have hsign : isSign '\'' = false := by decide
    have hstart : start '\'' = (.opened .single, []) := by decide
    simp [advance, hname, hsign, hstart, emit]
  | _ => simp [loose] at h

theorem read_trapped_string {m : Mode} {cs : List Char} (hm : trapped m) (h : cs.all calm) :
    unfinished (read m (Sql.stringChars cs)).1 := by
  have hstep (m : Mode) : (read m (Sql.stringChars cs)).1 =
      (advance (read (advance m '\'').1 cs).1 '\'').1 := by
    rw [stringChars_calm h]
    simp [read_cons, read_append]
  rw [hstep]
  cases m with
  | name raw => simp [advance, read_name_calm h, unfinished]
  | quoted q =>
    cases q with
    | single =>
      have hclose : (advance (.quoted .single) '\'').1 = .blank := rfl
      rw [hclose, advance_loose_quote (read_calm rfl h)]
      rfl
    | double =>
      have hkeep : (advance (.quoted .double) '\'').1 = .quoted .double := rfl
      rw [hkeep, read_quoted_calm h, hkeep]
      rfl
  | long q run =>
    obtain rfl : run = 0 := by simpa [trapped] using hm
    cases q with
    | single =>
      have hcount : (advance (.long .single 0) '\'').1 = .long .single 1 := rfl
      rw [hcount, read_long_calm h]
      split <;> rfl
    | double =>
      have hkeep : (advance (.long .double 0) '\'').1 = .long .double 0 := rfl
      rw [hkeep, read_long_calm h]
      split <;> rfl
  | stuck => simp [advance, read_stuck, unfinished]
  | _ => simp [trapped] at hm

theorem Leaf.read_trapped {m : Mode} {cs : List Char} (hm : trapped m) (h : Leaf cs) :
    unfinished (read m cs).1 := by
  cases h with
  | plain h => exact trapped_unfinished (BigQuerySql.read_trapped hm h)
  | quoted hb hblank hc ha hopens =>
    rw [read_append, read_append]
    exact (read_unfinished (read_trapped_string (BigQuerySql.read_trapped hm hb) hc) ha).1

def unticked : Mode → Bool
  | .name _ => false
  | .nameEscape _ => false
  | _ => true

theorem start_unticked {c : Char} (h : c ≠ '\x60') : unticked (start c).1 := by
  simp only [start]
  split
  · rfl
  · simp only [h, ↓reduceIte]
    split
    · rfl
    · split
      · rfl
      · split
        · rfl
        · split
          · rfl
          · split <;> rfl

theorem advance_unticked {m : Mode} {c : Char} (hm : unticked m) (h : c ≠ '\x60') :
    unticked (advance m c).1 := by
  have hs := start_unticked h
  cases m with
  | blank => exact hs
  | word cs =>
    simp only [advance]
    split
    · rfl
    · split
      · cases quote? c with
        | none => exact hs
        | some q => rfl
      · exact hs
  | name raw => simp [unticked] at hm
  | nameEscape raw => simp [unticked] at hm
  | escaped q => rfl
  | longEscaped q => rfl
  | stuck => rfl
  | _ =>
    simp only [advance]
    split_ifs <;> first | rfl | exact hs

theorem advance_backslash {m : Mode} (hm : unticked m) : unfinished (advance m '\\').1 := by
  have hname : Sql.isNameChar '\\' = false := by decide
  have hletter : Sql.isLetter '\\' = false := by decide
  have hquote : quote? '\\' = none := by decide
  have hsign : isSign '\\' = false := by decide
  have hstart : start '\\' = (.stuck, []) := by decide
  have hne (q : Quote) : '\\' ≠ q.char := by cases q <;> decide
  cases m <;> simp_all [unticked, advance, emit, unfinished]

theorem advance_tick_inside {m : Mode} (hm : unticked m) (hu : unfinished m) :
    unticked (advance m '\x60').1 := by
  have hne (q : Quote) : '\x60' ≠ q.char := by cases q <;> decide
  cases m <;> simp_all [unticked, advance, unfinished]

theorem advance_tick {m : Mode} (hm : unticked m) : trapped (advance m '\x60').1 := by
  have hname : Sql.isNameChar '\x60' = false := by decide
  have hletter : Sql.isLetter '\x60' = false := by decide
  have hquote : quote? '\x60' = none := by decide
  have hsign : isSign '\x60' = false := by decide
  have hstart : start '\x60' = (.name [], []) := by decide
  have hne (q : Quote) : '\x60' ≠ q.char := by cases q <;> decide
  cases m <;> simp_all [unticked, advance, emit, trapped]

theorem read_unticked {m : Mode} (hm : unticked m) (name : List Char) :
    unticked (read m (name.flatMap tickChar)).1 := by
  induction name generalizing m with
  | nil => exact hm
  | cons c name ih =>
    rw [List.flatMap_cons, read_append]
    refine ih ?_
    by_cases hc : c = '\x60'
    · rw [tickChar, if_pos hc]
      exact advance_tick_inside (advance_unticked hm (by decide)) (advance_backslash hm)
    · rw [tickChar, if_neg hc]
      exact advance_unticked hm hc

theorem read_unticked_closing {m : Mode} (hm : unticked m) (name : List Char) :
    trapped (read m (name.flatMap tickChar ++ ['\x60'])).1 := by
  rw [read_append]
  exact advance_tick (read_unticked hm name)

theorem read_open_name {name : List Char} (h : closes name = false) (raw : List Char) :
    trapped (read (.name raw) (name.flatMap tickChar ++ ['\x60'])).1 := by
  fun_induction closes name generalizing raw with
  | case1 => simp at h
  | case2 => rfl
  | case3 c rest ih =>
    by_cases hc : c = '\x60'
    · subst hc
      exact read_unticked_closing (m := .blank) rfl rest
    · have hrest : closes rest = false := by simpa [hc] using h
      have hopen := ih hrest (raw ++ ['\\', c])
      simpa [tickChar, hc, read_cons, advance] using hopen
  | case4 c rest hend hpair ih =>
    have hb : c ≠ '\\' := by
      rintro rfl
      cases rest with
      | nil => exact hend rfl rfl
      | cons d rest => exact hpair d rest rfl rfl
    by_cases hc : c = '\x60'
    · have hopen := ih h (raw ++ ['\\', c])
      simpa [tickChar, hc, read_cons, advance] using hopen
    · have hopen := ih h (raw ++ [c])
      simpa [tickChar, hc, hb, read_cons, advance] using hopen

theorem read_open_backtick {name : List Char} (h : closes name = false) :
    trapped (read .blank (Sql.backtickChars name)).1 :=
  read_open_name h []

theorem read_trapped_backtick {m : Mode} (hm : trapped m) (name : List Char) :
    trapped (read m (Sql.backtickChars name)).1 := by
  have hfirst : unticked (advance m '\x60').1 := by
    have hne (q : Quote) : '\x60' ≠ q.char := by cases q <;> decide
    cases m <;> simp_all [trapped, advance, unticked]
  exact read_unticked_closing hfirst name

/-- A text that is read to its end just if `safe` holds, and that keeps other quotes open around it. -/
structure EndsIff (safe : Prop) (cs : List Char) : Prop where
  kept : ∀ m, trapped m → unfinished (read m cs).1
  ends : safe → (tokens? cs).isSome
  stays : ¬ safe → unfinished (read .blank cs).1

theorem EndsIff.tokens_iff {safe : Prop} {cs : List Char} (h : EndsIff safe cs) :
    (tokens? cs).isSome ↔ safe := by
  refine ⟨fun hsome => ?_, h.ends⟩
  by_contra hsafe
  simp [tokens?, finish_unfinished (h.stays hsafe)] at hsome

theorem endsIff_leaf {cs : List Char} (h : Leaf cs) : EndsIff True cs where
  kept := fun _ hm => h.read_trapped hm
  ends := fun _ => h.tokens
  stays := fun hsafe => absurd trivial hsafe

theorem endsIff_backslash : EndsIff False ['\\'] where
  kept := fun _ hm => trapped_backslash hm
  ends := False.elim
  stays := fun _ => rfl

theorem endsIff_backtick (name : List Char) : EndsIff (closes name) (Sql.backtickChars name) where
  kept := fun _ hm => trapped_unfinished (read_trapped_backtick hm name)
  ends := fun hname => by simp [tokens?, read_backtickChars hname, Mode.finish]
  stays := fun hname => trapped_unfinished (read_open_backtick (by simpa using hname))

theorem EndsIff.read_calm {safe : Prop} {u sep : List Char} (h : EndsIff safe u)
    (hsep : sep.all calm) (hne : sep ≠ []) :
    (∀ m, trapped m → trapped (read m (u ++ sep)).1) ∧
      (¬ safe → trapped (read .blank (u ++ sep)).1) := by
  refine ⟨fun m hm => ?_, fun hsafe => ?_⟩
  · rw [read_append]
    exact (read_unfinished (h.kept m hm) hsep).2 hne
  · rw [read_append]
    exact (read_unfinished (h.stays hsafe) hsep).2 hne

theorem EndsIff.open {safe : Prop} {before cs : List Char} (h : EndsIff safe cs)
    (hb : before.all calm) (hblank : endsBlank before) : EndsIff safe (before ++ cs) where
  kept := fun m hm => by
    rw [read_append]
    exact h.kept _ (read_trapped hm hb)
  ends := fun hsafe => by
    obtain ⟨ts, hts⟩ := Option.isSome_iff_exists.mp (tokens_calm hb)
    rw [tokens_append hts (.inl hblank)]
    simpa using h.ends hsafe
  stays := fun hsafe => by
    have hstart : (read .blank before).1 = .blank := by simpa [endsBlank] using hblank
    rw [read_append, hstart]
    exact h.stays hsafe

theorem EndsIff.close {safe : Prop} {cs after : List Char} (h : EndsIff safe cs)
    (ha : after.all calm) (hopens : opens after) : EndsIff safe (cs ++ after) where
  kept := fun m hm => by
    rw [read_append]
    exact (read_unfinished (h.kept m hm) ha).1
  ends := fun hsafe => by
    obtain ⟨ts, hts⟩ := Option.isSome_iff_exists.mp (h.ends hsafe)
    rw [tokens_append hts (.inr hopens)]
    simpa using tokens_calm ha
  stays := fun hsafe => by
    rw [read_append]
    exact (read_unfinished (h.stays hsafe) ha).1

theorem EndsIff.separate {safe safe' : Prop} {u sep v : List Char} (hu : EndsIff safe u)
    (hv : EndsIff safe' v) (hsep : sep.all calm) (hopens : opens sep) (hblank : endsBlank sep) :
    EndsIff (safe ∧ safe') (u ++ (sep ++ v)) := by
  have hne : sep ≠ [] := by
    rintro rfl
    simp [opens] at hopens
  have hv' := hv.open hsep hblank
  refine ⟨fun m hm => ?_, fun hsafe => ?_, fun hsafe => ?_⟩
  · rw [← List.append_assoc, read_append]
    exact hv.kept _ ((hu.read_calm hsep hne).1 m hm)
  · obtain ⟨ts, hts⟩ := Option.isSome_iff_exists.mp (hu.ends hsafe.1)
    rw [tokens_append hts (.inr (opens_append hopens v))]
    simpa using hv'.ends hsafe.2
  · by_cases hfirst : safe
    · obtain ⟨ts, hts⟩ : ∃ ts, (read .blank u).1.finish = some ts := by
        simpa [tokens?, Option.isSome_iff_exists] using hu.ends hfirst
      rw [read_append, read_break hts (opens_append hopens v)]
      exact hv'.stays fun hlast => hsafe ⟨hfirst, hlast⟩
    · rw [← List.append_assoc, read_append]
      exact hv.kept _ ((hu.read_calm hsep hne).2 hfirst)

theorem intercalate_append (w w' : String) (texts : List String) :
    (String.intercalate ", " (w :: w' :: texts)).toList =
      w.toList ++ (", ".toList ++ (String.intercalate ", " (w' :: texts)).toList) := by
  simp [String.toList_intercalate, List.intercalate]

theorem endsIff_intercalate {α : Type} {safe : α → Prop} {xs : List α} {texts : List String}
    (h : List.Forall₂ (fun x w => EndsIff (safe x) w.toList) xs texts) :
    EndsIff (∀ x ∈ xs, safe x) (String.intercalate ", " texts).toList := by
  induction h with
  | nil =>
    refine ⟨fun m hm => trapped_unfinished hm, fun _ => rfl, fun hsafe => ?_⟩
    simp at hsafe
  | @cons x w xs texts hw hrest ih =>
    cases hrest with
    | nil => simpa [String.toList_intercalate] using hw
    | cons hw' hrest =>
      have hsep : ", ".toList.all calm := by decide
      rw [intercalate_append]
      simpa using hw.separate ih hsep (by decide) (by decide)

theorem endsIff_listed {α : Type} {safe : α → Prop} {xs : List α} {texts : List String}
    {before after : String} (h : List.Forall₂ (fun x w => EndsIff (safe x) w.toList) xs texts)
    (hb : Calm before) (hblank : endsBlank before.toList) (ha : Calm after)
    (hopens : opens after.toList) :
    EndsIff (∀ x ∈ xs, safe x) (before ++ String.intercalate ", " texts ++ after).toList := by
  rw [String.toList_append, String.toList_append]
  exact ((endsIff_intercalate h).open hb hblank).close ha hopens

end Trapped

end BigQuerySql
