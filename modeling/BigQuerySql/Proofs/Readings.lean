import BigQuerySql.Proofs.Names

namespace BigQuerySql

open Lexis

def reading? (text : String) : Option Bool :=
  (tokens? text.toList).bind fun ts => if Enclosed ts then some (shows [] ts) else none

def Reads (text : String) (shown : Bool) : Prop :=
  reading? text = some shown

instance (text : String) (shown : Bool) : Decidable (Reads text shown) :=
  inferInstanceAs (Decidable (_ = _))

theorem reads_iff {text : String} {shown : Bool} :
    Reads text shown ↔ ∃ ts, tokens? text.toList = some ts ∧ Enclosed ts ∧ shows [] ts = shown := by
  simp [Reads, reading?, Option.bind_eq_some_iff]

theorem Reads.tokens_isSome {w : String} {b : Bool} (h : Reads w b) : (tokens? w.toList).isSome := by
  obtain ⟨ts, hts, -⟩ := reads_iff.mp h
  rw [hts, Option.isSome_some]

theorem Reads.selfDelimiting_eq {w : String} {b : Bool} (h : Reads w b) : selfDelimiting w = !b := by
  obtain ⟨ts, hts, henc, hshow⟩ := reads_iff.mp h
  rw [selfDelimiting_iff hts henc, hshow]

theorem reads_token {w : String} {t : Token} (h : tokens? w.toList = some [t]) (ho : t.opening? = none)
    (hc : t.closing? = none) : Reads w t.separates := by
  have henter : enter [] t = some [] := by simp [enter, ho, hc]
  exact reads_iff.mpr ⟨[t], h, by simp [Enclosed, walk, henter], by simp [shows, henter]⟩

theorem opens_text {s : String} (h : opens s.toList) (r : String) : opens (s ++ r).toList := by
  rw [String.toList_append]
  exact opens_append h _

theorem Reads.append {u v : String} {b c : Bool} (hu : Reads u b) (hv : Reads v c)
    (h : endsBlank u.toList ∨ opens v.toList) : Reads (u ++ v) (b || c) := by
  obtain ⟨us, hus, huenc, hushow⟩ := reads_iff.mp hu
  obtain ⟨vs, hvs, hvenc, hvshow⟩ := reads_iff.mp hv
  refine reads_iff.mpr ⟨us ++ vs, ?_, huenc.append hvenc, ?_⟩
  · rw [String.toList_append, tokens_append hus h, hvs, Option.map_some]
  · rw [huenc.shows_append, hushow, hvshow]

theorem reads_pieces {pieces : List Piece} {texts : List String} {o : Openness} {b : Bool} (hj : Joined pieces)
    (ho : openness pieces = some o) (hp : ∀ i, .part i ∈ pieces → ∃ c, Reads (texts.getD i "") c)
    (hfirst : o = .first → Reads (texts.getD 0 "") b) :
    Reads (String.join (pieces.map (·.fill texts))) (o.shows b) := by
  have hsome : ∀ i, .part i ∈ pieces → (tokens? (texts.getD i "").toList).isSome := by
    intro i hi
    obtain ⟨c, hc⟩ := hp i hi
    exact hc.tokens_isSome
  have henc : ∀ i, .part i ∈ pieces → Enclosed (partTokens texts i) := by
    intro i hi
    obtain ⟨c, hc⟩ := hp i hi
    obtain ⟨ts, hts, henc, -⟩ := reads_iff.mp hc
    rwa [partTokens, hts, Option.getD_some]
  obtain ⟨hwhole, hshow⟩ := openness_spell henc ho
  refine reads_iff.mpr ⟨_, tokens_pieces hj hsome, hwhole, hshow.trans ?_⟩
  cases o with
  | first =>
    obtain ⟨ts, hts, -, hts'⟩ := reads_iff.mp (hfirst rfl)
    rw [partTokens, hts, Option.getD_some, hts']
  | _ => rfl

theorem Reads.around {w before after : String} {b : Bool} (h : Reads w b) (hw : wraps before after) :
    Reads (before ++ w ++ after) false := by
  have hjoined : Joined [.part 0] := ⟨by simp [readable], by simp⟩
  have hsealed : openness (.text before :: ([Piece.part 0] ++ [Piece.text after])) = some .sealed :=
    wrapped_sealed hw (by simp [TextsEnclosed])
  have hread : ∀ i, Piece.part i ∈ .text before :: ([Piece.part 0] ++ [Piece.text after]) →
      ∃ c, Reads ([w].getD i "") c := by
    intro i hi
    obtain rfl : i = 0 := by simpa using hi
    exact ⟨b, h⟩
  have hpieces : Reads _ (Openness.sealed.shows b) :=
    reads_pieces (wrapped_joined hw hjoined) hsealed hread (by simp)
  simpa [Piece.fill, Openness.shows, String.append_assoc] using hpieces

theorem Reads.parens {w : String} {b : Bool} (h : Reads w b) : Reads ("(" ++ w ++ ")") false :=
  h.around (by decide)

theorem Reads.named {v name : String} {b c : Bool} (hv : Reads v b) (hname : Reads name c) :
    Reads (v ++ (" AS " ++ name)) (b || (false || c)) := by
  have hword : Reads " AS " false := by decide
  exact hv.append (hword.append hname (.inl (by decide))) (.inr (opens_text (by decide) name))

theorem reads_intercalate {α : Type} {xs : List α} {texts : List String}
    (h : List.Forall₂ (fun _ w => ∃ b, Reads w b) xs texts) :
    ∃ b, Reads (String.intercalate ", " texts) b := by
  have hcomma : Reads ", " false := by decide
  induction h with
  | nil => exact ⟨false, rfl⟩
  | @cons x w xs texts hw hrest ih =>
    obtain ⟨b, hb⟩ := hw
    obtain ⟨c, hc⟩ := ih
    cases texts with
    | nil => exact ⟨b, by simpa using hb⟩
    | cons v texts =>
      rw [String.intercalate_cons_cons, String.append_assoc]
      exact ⟨_, hb.append (hcomma.append hc (.inl (by decide))) (.inr (opens_text (by decide) _))⟩

section Numbers

def Numeral (s : String) : Prop :=
  read .blank s.toList = (.number s.toList, [])

def inNumber (c : Char) : Bool :=
  Sql.isNameChar c || c == '.'

theorem read_number {ds : List Char} (h : ds.all inNumber) (cs : List Char) :
    read (.number cs) ds = (.number (cs ++ ds), []) := by
  induction ds generalizing cs with
  | nil => simp
  | cons d ds ih =>
    obtain ⟨hd, hds⟩ : inNumber d = true ∧ ds.all inNumber = true := by simpa using h
    have hstep : advance (.number cs) d = (.number (cs ++ [d]), []) := by
      unfold inNumber at hd
      simp [advance, hd]
    simp [read_cons, hstep, ih hds]

theorem read_exponentSign {cs : List Char} (h : inExponent cs) :
    read (.number cs) ['-'] = (.number (cs ++ ['-']), []) := by
  simp [read_cons, advance, isSign, h]

theorem isNameChar_of_isDigit {c : Char} (h : c.isDigit) : Sql.isNameChar c := by
  simp [Sql.isNameChar, h]

theorem inNumber_digits {cs : List Char} (h : ∀ c ∈ cs, c.isDigit) : cs.all inNumber := by
  refine List.all_eq_true.mpr fun c hc => ?_
  rw [inNumber, isNameChar_of_isDigit (h c hc), Bool.true_or]

theorem numeral_digits {cs : List Char} (hne : cs ≠ []) (h : ∀ c ∈ cs, c.isDigit) :
    Numeral (String.ofList cs) := by
  obtain ⟨c, rest, rfl⟩ := List.exists_cons_of_ne_nil hne
  obtain ⟨hc, hrest⟩ := List.forall_mem_cons.mp h
  have hstart : advance .blank c = (.number [c], []) := start_digit hc
  rw [Numeral, String.toList_ofList, read_cons, hstart, read_number (inNumber_digits hrest)]
  rfl

theorem Numeral.append {s r : String} (hs : Numeral s) (hr : r.toList.all inNumber) : Numeral (s ++ r) := by
  rw [Numeral, String.toList_append, read_append, hs, read_number hr]
  rfl

theorem Numeral.digits {s : String} (hs : Numeral s) {cs : List Char} (h : ∀ c ∈ cs, c.isDigit) :
    Numeral (s ++ String.ofList cs) := by
  refine hs.append ?_
  rw [String.toList_ofList]
  exact inNumber_digits h

theorem numeral_nat (n : Nat) : Numeral (toString n) := by
  rw [Nat.toString_eq_repr, Nat.repr_eq_ofList_toDigits]
  exact numeral_digits Nat.toDigits_ne_nil isDigit_of_mem_toDigits

theorem Numeral.exponent {s : String} (hs : Numeral s) (negative : Bool) (n : Nat) :
    Numeral (s ++ "e" ++ signText negative ++ toString n) := by
  have hmark : Numeral (s ++ "e") := hs.append (by decide)
  have hsign : Numeral (s ++ "e" ++ signText negative) := by
    cases negative with
    | false => simpa [signText] using hmark
    | true =>
      have hlast : inExponent (s ++ "e").toList := by simp [inExponent]
      have hminus : (signText true).toList = ['-'] := rfl
      rw [Numeral, String.toList_append, read_append, hmark, hminus, read_exponentSign hlast]
      rfl
  rw [Nat.toString_eq_repr, Nat.repr_eq_ofList_toDigits]
  exact hsign.digits isDigit_of_mem_toDigits

theorem numeral_positional (pointZero : Bool) (d : Decimal) : Numeral (d.positional pointZero) := by
  have hdigits : Nat.toDigits 10 d.digits ≠ [] := Nat.toDigits_ne_nil
  simp only [Decimal.positional]
  split
  · refine Numeral.append (numeral_digits (by simp [hdigits]) fun c h => ?_) ?_
    · rcases List.mem_append.mp h with h | h
      · exact isDigit_of_mem_toDigits c h
      · rw [List.eq_of_mem_replicate h]
        decide
    · cases pointZero <;> decide
  · split
    next hplaces =>
      have hwhole : (Nat.toDigits 10 d.digits).take
          ((Nat.toDigits 10 d.digits).length - (-d.exponent).toNat) ≠ [] := by
        simp only [ne_eq, List.take_eq_nil_iff, hdigits, or_false]
        omega
      refine Numeral.digits (Numeral.append (numeral_digits hwhole fun c h => ?_) (by decide)) fun c h => ?_
      · exact isDigit_of_mem_toDigits c (List.mem_of_mem_take h)
      · exact isDigit_of_mem_toDigits c (List.mem_of_mem_drop h)
    next =>
      have hzero : Numeral "0." := rfl
      exact hzero.digits isDigit_of_mem_padded

theorem numeral_scientific (d : Decimal) : Numeral (d.scientific false) := by
  have hlead : Numeral (String.ofList ((Nat.toDigits 10 d.digits).take 1)) := by
    refine numeral_digits ?_ fun c h => isDigit_of_mem_toDigits c (List.mem_of_mem_take h)
    simp [Nat.toDigits_ne_nil]
  have hsign (power : Int) : (if power < 0 then "-" else if false = true then "+" else "") =
      signText (decide (power < 0)) := by
    simp [signText]
  simp only [Decimal.scientific, hsign]
  refine Numeral.exponent ?_ _ _
  split
  · simpa using hlead
  · rw [← String.append_assoc]
    exact (hlead.append (by decide)).digits fun c h => isDigit_of_mem_toDigits c (List.mem_of_mem_drop h)

theorem numeral_decimal (d : Decimal) : Numeral (d.text Sql.doubleStyle) := by
  simp only [Decimal.text, Sql.doubleStyle]
  split
  · exact numeral_positional _ _
  · exact numeral_scientific _

theorem Numeral.reads {s : String} (h : Numeral s) : Reads s false := by
  have htoken : tokens? s.toList = some [.number s.toList] := by
    rw [tokens?, h]
    rfl
  exact reads_token htoken rfl rfl

theorem Numeral.reads_signed {s : String} (h : Numeral s) (negative : Bool) :
    Reads (signText negative ++ s) negative := by
  cases negative with
  | false => simpa [signText] using h.reads
  | true =>
    have hminus : Reads "-" true := by decide
    exact hminus.append h.reads (.inl (by decide))

theorem reads_int (i : Int) : Reads (toString i) (decide (i < 0)) := by
  have hint : toString i = i.repr := rfl
  rw [hint, Int.repr_eq_if]
  split
  next hpos =>
    rw [decide_eq_false (not_lt.mpr hpos)]
    exact (numeral_nat _).reads
  next hneg =>
    rw [decide_eq_true (not_le.mp hneg)]
    exact (numeral_nat _).reads_signed true

end Numbers

namespace NameUse

def legible (u : NameUse) : Bool :=
  match tokens? u.text.toList with
  | some [t] => t.opening?.isNone && t.closing?.isNone
  | _ => false

theorem legible_iff {u : NameUse} :
    u.legible ↔ ∃ t, tokens? u.text.toList = some [t] ∧ t.opening? = none ∧ t.closing? = none := by
  unfold legible
  split
  next t ht => simp [ht]
  next hne => simpa using fun t ht => absurd ht (hne t)

theorem reads_of_legible {u : NameUse} (h : u.legible) : ∃ b, Reads u.text b := by
  obtain ⟨t, ht, ho, hc⟩ := legible_iff.mp h
  exact ⟨_, reads_token ht ho hc⟩

theorem closes_of_legible {name : String} (h : (quoted name).legible) : closes name.toList := by
  obtain ⟨t, ht, -⟩ := legible_iff.mp h
  have htext : (quoted name).text.toList = Sql.backtickChars name.toList := String.toList_ofList
  rw [htext] at ht
  exact closes_of_tokens ht

theorem reads_quoted {name : String} (h : (quoted name).legible) : Reads (Sql.backtick name) false := by
  have htokens : tokens? (Sql.backtick name).toList = some [.name (name.toList.flatMap tickChar)] := by
    have happ := tokens_backtick (closes_of_legible h) []
    rw [Sql.backtick, String.toList_ofList]
    simpa using happ
  exact reads_token htokens rfl rfl

theorem reads_parameterName {name : String} (h : isParameterName name.toList) : Reads ("@" ++ name) false := by
  have htokens : tokens? ("@" ++ name).toList = some [.parameter name.toList] := by
    have hsigil : "@".toList = ['@'] := rfl
    have happ := @tokens_parameter _ h [] rfl
    rw [String.toList_append, hsigil]
    simpa using happ
  exact reads_token htokens rfl rfl

theorem parameter_of_token {name : List Char} {t : Token} (h : tokens? ('@' :: name) = some [t]) :
    ∃ cs, t = .parameter cs := by
  have hsigil : advance .blank '@' = (.sigil, []) := rfl
  obtain ⟨last, hlast, htokens⟩ := Option.map_eq_some_iff.mp h
  cases name with
  | nil => simp [read_cons, hsigil, Mode.finish] at hlast
  | cons c cs =>
    by_cases hc : (Sql.isLetter c || c == '_') = true
    · have hfirst : advance .sigil c = (.parameter [c], []) := by simp only [advance, hc, ↓reduceIte]
      simp only [read_cons, hsigil, hfirst, List.nil_append] at hlast htokens
      by_cases hcs : cs.all Sql.isNameChar
      · rw [read_parameter hcs] at hlast htokens
        obtain rfl : [.parameter ([c] ++ cs)] = last := by simpa [Mode.finish] using hlast
        exact ⟨_, by simpa [eq_comm] using htokens⟩
      · obtain ⟨before, ts, hread, -⟩ := read_parameter_cut (by simpa using hcs) [c]
        rw [hread] at htokens
        exact ⟨_, (List.cons.inj htokens).1.symm⟩
    · have hfirst : advance .sigil c = (.stuck, []) := by
        simp only [advance, hc, Bool.false_eq_true, ↓reduceIte]
      simp [read_cons, hsigil, hfirst, read_stuck, Mode.finish] at hlast

theorem reads_parameter {name : String} (h : (parameter name).legible) : Reads ("@" ++ name) false := by
  obtain ⟨t, ht, -⟩ := legible_iff.mp h
  have htext : (parameter name).text.toList = '@' :: name.toList := by
    rw [text, String.toList_append]
    rfl
  obtain ⟨cs, rfl⟩ := parameter_of_token (htext ▸ ht)
  exact reads_token ht rfl rfl

end NameUse

def whole (text : String) : Bool :=
  (reading? text).isSome

theorem whole_iff {text : String} : whole text ↔ ∃ b, Reads text b :=
  Option.isSome_iff_exists

namespace DataType

theorem plain_sqlName {t : DataType} {a : String} (ht : t.isComposite = false) (h : t.sqlName = .ok a) :
    a ∈ primitives.map Prod.fst := by
  cases t with
  | timestamp zone => cases zone <;> simp_all [sqlName, primitives]
  | decimal precision scale =>
    simp only [sqlName] at h
    split at h
    · simp_all [primitives]
    · split at h <;> simp_all [primitives]
  | _ => simp_all [sqlName, primitives, isComposite]

theorem reads_sqlName {t : DataType} : ∀ {a : String}, t.sqlName = .ok a →
    (∀ name ∈ t.fieldNames, (NameUse.identifier name).legible) → ∃ b, Reads a b := by
  have hclose : Reads ">" true := by decide
  induction t using DataType.induction_on with
  | plain t ht =>
    intro a ha _
    have hall : ∀ name ∈ primitives.map Prod.fst, whole name := by decide
    exact whole_iff.mp (hall a (plain_sqlName ht ha))
  | array element ih =>
    intro a ha hnames
    obtain ⟨w, hw, rfl⟩ := sqlName_array ha
    obtain ⟨b, hb⟩ := ih hw hnames
    have hopen : Reads "ARRAY<" true := by decide
    exact ⟨_, (hopen.append hb (.inl (by decide))).append hclose (.inr (by decide))⟩
  | struct fields ih =>
    intro a ha hnames
    obtain ⟨texts, htexts, rfl⟩ := sqlName_struct ha
    simp only [fieldNames, namesOfFields_eq, List.mem_flatMap] at hnames
    have hopen : Reads "STRUCT<" true := by decide
    have hblank : Reads " " false := by decide
    have hfields : List.Forall₂ (fun _ w => ∃ b, Reads w b) fields texts := by
      refine ((List.forall₂_and_left _ _).mpr ⟨fun f hf => And.intro hf (@ih f hf), htexts⟩).imp fun f w h => ?_
      obtain ⟨⟨hf, hrest⟩, hw⟩ := h
      obtain ⟨text, htext, rfl⟩ := sqlField_ok.mp hw
      obtain ⟨b, hb⟩ := NameUse.reads_of_legible (hnames f.name ⟨f, hf, by simp⟩)
      obtain ⟨c, hc⟩ := hrest htext fun name hname => hnames name ⟨f, hf, .tail _ hname⟩
      exact ⟨_, hb.append (hblank.append hc (.inl (by decide))) (.inr (opens_text (by decide) text))⟩
    obtain ⟨b, hb⟩ := reads_intercalate hfields
    exact ⟨_, (hopen.append hb (.inl (by decide))).append hclose (.inr (by decide))⟩

end DataType

theorem reads_stringLiteral (s : String) : Reads (Sql.stringLiteral s) false :=
  reads_token (tokens_stringLiteral s) rfl rfl

theorem Frames.eq {before after opening closing content : String} (h : Frames before after opening closing)
    (hc : Calm content) : opening ++ content ++ closing = before ++ Sql.stringLiteral content ++ after := by
  have hsplit := h.split hc
  rw [← String.toList_inj, hsplit]
  simp [Sql.stringLiteral]

theorem Frames.reads {before opening closing content : String} (h : Frames before "" opening closing)
    (hr : Reads before false) (hc : Calm content) : Reads (opening ++ content ++ closing) false := by
  rw [h.eq hc, String.append_empty]
  exact hr.append (reads_stringLiteral content) (.inl h.2.2.2.1)

namespace Value

def showsOperator (t : DataType) : Value → Bool
  | .int i => i.toInt < 0
  | .float (.finite negative _) => negative
  | .interval count => count.toInt < 0
  | .decimal digits => !t.isDecimal && !selfDelimiting digits
  | _ => false

theorem reads_generic {v : Value} {t : DataType} {a : String} (hd : ∀ d, v ≠ .decimal d)
    (hf : ∀ x, v = .float x → ∃ negative rank, x = .finite negative rank) (h : v.genericLiteral t = .ok a) :
    Reads a (v.showsOperator t) := by
  cases v with
  | null =>
    obtain rfl : "NULL" = a := by simpa [genericLiteral] using h
    exact (by decide : Reads "NULL" false)
  | bool b =>
    cases b with
    | true =>
      obtain rfl : "TRUE" = a := by simpa [genericLiteral] using h
      exact (by decide : Reads "TRUE" false)
    | false =>
      obtain rfl : "FALSE" = a := by simpa [genericLiteral] using h
      exact (by decide : Reads "FALSE" false)
  | int i =>
    obtain rfl : toString i.toInt = a := by simpa [genericLiteral] using h
    exact reads_int _
  | float x =>
    obtain rfl : x.text Sql.doubleStyle = a := by simpa [genericLiteral] using h
    obtain ⟨negative, rank, rfl⟩ := hf x rfl
    exact (numeral_decimal _).reads_signed negative
  | decimal digits => exact absurd rfl (hd digits)
  | string s =>
    obtain rfl : Sql.stringLiteral s = a := by simpa [genericLiteral] using h
    exact reads_stringLiteral s
  | interval count =>
    cases t with
    | interval unit =>
      obtain rfl : "INTERVAL " ++ toString count.toInt ++ " " ++ unit.sqlName = a := by
        simpa [genericLiteral] using h
      have hword : Reads "INTERVAL " false := by decide
      have hunit : Reads (" " ++ unit.sqlName) false ∧ opens (" " ++ unit.sqlName).toList := by
        cases unit <;> decide
      have hcount := (hword.append (reads_int count.toInt) (.inl (by decide))).append hunit.1 (.inr hunit.2)
      rw [String.append_assoc]
      simpa [showsOperator] using hcount
    | _ => simp [genericLiteral] at h
  | _ => simp [genericLiteral] at h

theorem reads_plain {v : Value} {t : DataType} {a : String} (hd : ∀ d, v ≠ .decimal d)
    (h : v.plainLiteral t = .ok a) : Reads a (v.showsOperator t) := by
  simp only [plainLiteral] at h
  split at h
  next =>
    obtain rfl : "CAST('nan' AS FLOAT64)" = a := by simpa using h
    exact (by decide : Reads "CAST('nan' AS FLOAT64)" false)
  next negative =>
    obtain rfl : "CAST('" ++ signText negative ++ "inf' AS FLOAT64)" = a := by simpa using h
    have hcast : Reads ("CAST('" ++ signText negative ++ "inf' AS FLOAT64)") false := by
      cases negative <;> decide
    exact hcast
  next =>
    obtain rfl : "NULL" = a := by simpa using h
    exact (by decide : Reads "NULL" false)
  next =>
    split at h
    next d hdate =>
      obtain rfl : "DATE '" ++ d.text ++ "'" = a := by simpa using h
      have hquiet : showsOperator .date v = false := by cases v <;> simp_all [date?, showsOperator]
      rw [hquiet]
      exact Frames.reads (by decide : Frames "DATE " "" _ _) (by decide) (calm_date d)
    next => simp at h
  next zone t =>
    obtain rfl : "TIMESTAMP '" ++ instantText t ++ "'" = a := by simpa using h
    exact Frames.reads (by decide : Frames "TIMESTAMP " "" _ _) (by decide) (calm_instant t)
  next zone _ _ _ _ =>
    split at h
    next t htime =>
      obtain rfl : "TIMESTAMP '" ++ t.text " " ++ "'" = a := by simpa using h
      have hquiet : showsOperator (.timestamp zone) v = false := by cases v <;> simp_all [dateTime?, showsOperator]
      rw [hquiet]
      exact Frames.reads (by decide : Frames "TIMESTAMP " "" _ _) (by decide) (calm_dateTime t)
    next => simp at h
  next =>
    split at h
    next t htime =>
      obtain rfl : "TIME '" ++ t.text ++ "'" = a := by simpa using h
      have hquiet : showsOperator .time v = false := by cases v <;> simp_all [time?, showsOperator]
      rw [hquiet]
      exact Frames.reads (by decide : Frames "TIME " "" _ _) (by decide) (calm_time t)
    next => simp at h
  next bs =>
    obtain rfl : "FROM_BASE64('" ++ Text.base64 bs ++ "')" = a := by simpa using h
    rw [Frames.eq (by decide : Frames "FROM_BASE64(" ")" _ _) (calm_base64 bs)]
    exact (reads_stringLiteral _).around (by decide)
  next p q digits => exact absurd rfl (hd digits)
  next => simp at h
  next => simp at h
  next => simp at h
  next hnan hinf _ _ _ _ =>
    split at h
    next text hg =>
      obtain rfl : text = a := by simpa using h
      refine reads_generic hd (fun x hx => ?_) hg
      cases x with
      | nan => exact absurd hx hnan
      | infinite negative => exact absurd hx (hinf negative)
      | finite negative rank => exact ⟨negative, rank, rfl⟩
    next => simp at h

theorem reads_literal {v : Value} : ∀ {t : DataType} {a : String}, v.literal t = .ok a →
    (∀ k ∈ v.keys, (NameUse.quoted k).legible) → (∀ d ∈ v.strayDecimals t, whole d) →
      Reads a (v.showsOperator t) := by
  induction v using Value.induction_on with
  | plain v hv =>
    intro t a ha _ hstray
    rw [literal_plain hv] at ha
    by_cases hdecimal : ∃ d, v = .decimal d
    · obtain ⟨d, rfl⟩ := hdecimal
      rcases plainLiteral_decimal ha with ⟨ht, rfl⟩ | ⟨word, ht, -, hword, rfl⟩
      · obtain ⟨b, hb⟩ := whole_iff.mp (hstray a (by simp [strayDecimals, ht]))
        have hshow : showsOperator t (.decimal a) = b := by simp [showsOperator, ht, hb.selfDelimiting_eq]
        rwa [hshow]
      · have hname : Reads (word ++ " ") false ∧ endsBlank (word ++ " ").toList := by
          rcases hword with rfl | rfl <;> decide
        have hread := hname.1.append (reads_stringLiteral d) (.inl hname.2)
        simpa [showsOperator, ht] using hread
    · exact reads_plain (fun d hd => hdecimal ⟨d, hd⟩) ha
  | array items ih =>
    intro t a ha hkeys hstray
    obtain ⟨element, texts, rfl, hitems, rfl⟩ := literal_array.mp ha
    simp only [keys, itemKeys_eq, List.mem_flatMap] at hkeys
    simp only [strayDecimals, itemStrays_eq, List.mem_flatMap] at hstray
    have hread : List.Forall₂ (fun _ w => ∃ b, Reads w b) items texts := by
      refine ((List.forall₂_and_left _ _).mpr ⟨fun x hx => And.intro hx (@ih x hx), hitems⟩).imp fun x w h => ?_
      obtain ⟨⟨hx, hread⟩, hw⟩ := h
      exact ⟨_, hread hw (fun k hk => hkeys k ⟨x, hx, hk⟩) fun d hd => hstray d ⟨x, hx, hd⟩⟩
    obtain ⟨b, hb⟩ := reads_intercalate hread
    exact hb.around (by decide)
  | struct members ih =>
    intro t a ha hkeys hstray
    obtain ⟨fields, texts, rfl, hmembers, rfl⟩ := literal_struct.mp ha
    simp only [keys, memberKeys_eq, List.mem_flatMap] at hkeys
    simp only [strayDecimals, memberStrays_eq, List.mem_flatMap] at hstray
    have hread : List.Forall₂ (fun _ w => ∃ b, Reads w b) members texts := by
      refine ((List.forall₂_and_left _ _).mpr ⟨fun m hm => And.intro hm (@ih m hm), hmembers⟩).imp fun m w h => ?_
      obtain ⟨⟨hm, hread⟩, hw⟩ := h
      obtain ⟨field, text, hfield, htext, rfl⟩ := memberLiteral_ok.mp hw
      have hvalue := hread htext (fun k hk => hkeys k ⟨m, hm, .tail _ hk⟩) fun d hd =>
        hstray d ⟨m, hm, by simpa [hfield] using hd⟩
      exact ⟨_, hvalue.named (NameUse.reads_quoted (hkeys m.1 ⟨m, hm, by simp⟩))⟩
    obtain ⟨b, hb⟩ := reads_intercalate hread
    exact hb.around (by decide)

end Value

end BigQuerySql
