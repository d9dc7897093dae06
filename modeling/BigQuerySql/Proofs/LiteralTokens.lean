import BigQuerySql.Proofs.CalmText
import BigQuerySql.Proofs.Rendering

namespace BigQuerySql

open Lexis

namespace Lexis

inductive TokenKind where
  | word (cs : List Char)
  | number
  | parameter
  | name
  | text
  | symbol (c : Char)
deriving DecidableEq, Repr

def Token.kind : Token → TokenKind
  | .word cs => .word cs
  | .number _ => .number
  | .parameter _ => .parameter
  | .name _ => .name
  | .text => .text
  | .symbol c => .symbol c

def kinds? (cs : List Char) : Option (List TokenKind) :=
  (tokens? cs).map (List.map Token.kind)

end Lexis

namespace Value

def isComposite : Value → Bool
  | .array _ => true
  | .struct _ => true
  | _ => false

theorem induction_on {P : Value → Prop} (plain : ∀ v, v.isComposite = false → P v)
    (array : ∀ items, (∀ x ∈ items, P x) → P (.array items))
    (struct : ∀ members, (∀ m ∈ members, P m.2) → P (.struct members)) : ∀ v, P v
  | .array items => array items fun x _ => induction_on plain array struct x
  | .struct members => struct members fun m _ => induction_on plain array struct m.2
  | .null => plain _ rfl
  | .bool _ => plain _ rfl
  | .int _ => plain _ rfl
  | .float _ => plain _ rfl
  | .decimal _ => plain _ rfl
  | .string _ => plain _ rfl
  | .bytes _ => plain _ rfl
  | .date _ => plain _ rfl
  | .time _ => plain _ rfl
  | .timestamp _ => plain _ rfl
  | .instant _ => plain _ rfl
  | .interval _ => plain _ rfl
termination_by v => sizeOf v
decreasing_by
  · have := List.sizeOf_lt_of_mem ‹_›
    simp
    omega
  · have := List.sizeOf_lt_of_mem ‹_›
    have : sizeOf m = 1 + sizeOf m.1 + sizeOf m.2 := by cases m; simp
    simp
    omega

theorem literal_plain {v : Value} (h : v.isComposite = false) (t : DataType) :
    v.literal t = v.plainLiteral t := by
  cases v <;> simp_all [isComposite, literal]

theorem itemLiterals_eq (element : DataType) (items : List Value) :
    itemLiterals element items = items.mapM fun x => x.literal element := by
  induction items with
  | nil => rfl
  | cons x rest ih => simp only [itemLiterals, List.mapM_cons, ih]

def memberLiteral (fields : List FieldType) (member : String × Value) : Except SqlError String :=
  match fields.find? fun f => f.name == member.1 with
  | none => .error (.unrepresentableLiteral "ordered mapping" (.struct fields))
  | some field => do
    return (← member.2.literal field.dtype) ++ " AS " ++ Sql.backtick member.1

theorem memberLiterals_eq (fields : List FieldType) (members : List (String × Value)) :
    memberLiterals fields members = members.mapM (memberLiteral fields) := by
  induction members with
  | nil => rfl
  | cons m rest ih =>
    obtain ⟨name, v⟩ := m
    rw [memberLiterals, List.mapM_cons]
    simp only [memberLiteral]
    cases hf : fields.find? fun f => f.name == name with
    | none => rfl
    | some field =>
      simp only [ih]
      cases hv : v.literal field.dtype with
      | error error => rfl
      | ok text => rfl

theorem plainLiteral_composite {v : Value} (h : v.isComposite) (t : DataType) (a : String) :
    v.plainLiteral t ≠ .ok a := by
  cases v <;> simp [isComposite] at h <;> cases t <;>
    simp [plainLiteral, date?, dateTime?, time?, genericLiteral]

theorem literal_array {t : DataType} {items : List Value} {a : String} :
    (Value.array items).literal t = .ok a ↔
      ∃ element texts, t = .array element ∧
        List.Forall₂ (fun x w => x.literal element = .ok w) items texts ∧
        a = "[" ++ String.intercalate ", " texts ++ "]" := by
  cases t with
  | array element =>
    rw [literal, itemLiterals_eq, except_bind_ok]
    simp [mapM_ok, pure, Except.pure, @eq_comm _ a]
  | _ =>
    rw [literal]
    · simp [plainLiteral_composite (v := .array items) rfl _ a]
    · simp

theorem literal_struct {t : DataType} {members : List (String × Value)} {a : String} :
    (Value.struct members).literal t = .ok a ↔
      ∃ fields texts, t = .struct fields ∧
        List.Forall₂ (fun m w => memberLiteral fields m = .ok w) members texts ∧
        a = "STRUCT(" ++ String.intercalate ", " texts ++ ")" := by
  cases t with
  | struct fields =>
    rw [literal, memberLiterals_eq, except_bind_ok]
    simp [mapM_ok, pure, Except.pure, @eq_comm _ a]
  | _ =>
    rw [literal]
    · simp [plainLiteral_composite (v := .struct members) rfl _ a]
    · simp

mutual

def outline : Value → Value
  | .decimal _ => .decimal ""
  | .string _ => .string ""
  | .array items => .array (itemOutlines items)
  | .struct members => .struct (memberOutlines members)
  | v => v

def itemOutlines : List Value → List Value
  | [] => []
  | v :: rest => v.outline :: itemOutlines rest

def memberOutlines : List (String × Value) → List (String × Value)
  | [] => []
  | (name, v) :: rest => (name, v.outline) :: memberOutlines rest

end

mutual

def keys : Value → List String
  | .array items => itemKeys items
  | .struct members => memberKeys members
  | _ => []

def itemKeys : List Value → List String
  | [] => []
  | v :: rest => v.keys ++ itemKeys rest

def memberKeys : List (String × Value) → List String
  | [] => []
  | (name, v) :: rest => name :: v.keys ++ memberKeys rest

end

mutual

/-- The texts of decimals that are written at another type than a decimal one. -/
def strayDecimals (t : DataType) : Value → List String
  | .decimal digits => if t.isDecimal then [] else [digits]
  | .array items =>
    match t with
    | .array element => itemStrays element items
    | _ => []
  | .struct members =>
    match t with
    | .struct fields => memberStrays fields members
    | _ => []
  | _ => []

def itemStrays (element : DataType) : List Value → List String
  | [] => []
  | v :: rest => v.strayDecimals element ++ itemStrays element rest

def memberStrays (fields : List FieldType) : List (String × Value) → List String
  | [] => []
  | (name, v) :: rest =>
    (match fields.find? fun f => f.name == name with
      | some field => v.strayDecimals field.dtype
      | none => []) ++ memberStrays fields rest

end

theorem itemOutlines_eq (items : List Value) : itemOutlines items = items.map outline := by
  induction items with
  | nil => rfl
  | cons v rest ih => simp [itemOutlines, ih]

theorem memberOutlines_eq (members : List (String × Value)) :
    memberOutlines members = members.map fun m => (m.1, m.2.outline) := by
  induction members with
  | nil => rfl
  | cons m rest ih => simp [memberOutlines, ih]

theorem itemKeys_eq (items : List Value) : itemKeys items = items.flatMap keys := by
  induction items with
  | nil => rfl
  | cons v rest ih => simp [itemKeys, ih]

theorem memberKeys_eq (members : List (String × Value)) :
    memberKeys members = members.flatMap fun m => m.1 :: m.2.keys := by
  induction members with
  | nil => rfl
  | cons m rest ih => simp [memberKeys, ih]

theorem itemStrays_eq (element : DataType) (items : List Value) :
    itemStrays element items = items.flatMap (strayDecimals element) := by
  induction items with
  | nil => rfl
  | cons v rest ih => simp [itemStrays, ih]

theorem memberStrays_eq (fields : List FieldType) (members : List (String × Value)) :
    memberStrays fields members = members.flatMap fun m =>
      match fields.find? fun f => f.name == m.1 with
      | some field => m.2.strayDecimals field.dtype
      | none => [] := by
  induction members with
  | nil => rfl
  | cons m rest ih => simp [memberStrays, ih]

theorem leaf_generic {v : Value} {t : DataType} {a : String} (hd : ∀ d, v ≠ .decimal d)
    (hs : ∀ s, v ≠ .string s) (h : v.genericLiteral t = .ok a) : Leaf a.toList := by
  cases v with
  | null =>
    obtain rfl : "NULL" = a := by simpa [genericLiteral] using h
    exact .plain (by decide)
  | bool b =>
    cases b with
    | true =>
      obtain rfl : "TRUE" = a := by simpa [genericLiteral] using h
      exact .plain (by decide)
    | false =>
      obtain rfl : "FALSE" = a := by simpa [genericLiteral] using h
      exact .plain (by decide)
  | int i =>
    obtain rfl : toString i.toInt = a := by simpa [genericLiteral] using h
    exact .plain (calm_int _)
  | float x =>
    obtain rfl : x.text Sql.doubleStyle = a := by simpa [genericLiteral] using h
    exact .plain (calm_double _ x)
  | decimal digits => exact absurd rfl (hd digits)
  | string text => exact absurd rfl (hs text)
  | interval count =>
    cases t with
    | interval unit =>
      obtain rfl : "INTERVAL " ++ toString count.toInt ++ " " ++ unit.sqlName = a := by
        simpa [genericLiteral] using h
      refine .plain (Calm.append (Calm.append (Calm.append (by decide) (calm_int _)) (by decide)) ?_)
      cases unit <;> decide
    | _ => simp [genericLiteral] at h
  | _ => simp [genericLiteral] at h

theorem leaf_cast {content : String} (hc : Calm content) :
    Leaf ("CAST('" ++ content ++ "' AS FLOAT64)").toList :=
  Frames.leaf (by decide : Frames "CAST(" " AS FLOAT64)" _ _) hc

theorem leaf_plain {v : Value} {t : DataType} {a : String} (hd : ∀ d, v ≠ .decimal d)
    (hs : ∀ s, v ≠ .string s) (h : v.plainLiteral t = .ok a) : Leaf a.toList := by
  simp only [plainLiteral] at h
  split at h
  next =>
    obtain rfl : "CAST('nan' AS FLOAT64)" = a := by simpa using h
    have hcast : "CAST('nan' AS FLOAT64)" = "CAST('" ++ "nan" ++ "' AS FLOAT64)" := by decide
    rw [hcast]
    exact leaf_cast (by decide)
  next negative =>
    obtain rfl : "CAST('" ++ signText negative ++ "inf' AS FLOAT64)" = a := by simpa using h
    have hcast : "CAST('" ++ signText negative ++ "inf' AS FLOAT64)" =
        "CAST('" ++ (signText negative ++ "inf") ++ "' AS FLOAT64)" := by
      cases negative <;> decide
    rw [hcast]
    exact leaf_cast ((calm_signText negative).append (by decide))
  next =>
    obtain rfl : "NULL" = a := by simpa using h
    exact .plain (by decide)
  next =>
    split at h
    next d _ =>
      obtain rfl : "DATE '" ++ d.text ++ "'" = a := by simpa using h
      exact Frames.leaf (by decide : Frames "DATE " "" _ _) (calm_date d)
    next => simp at h
  next t =>
    obtain rfl : "TIMESTAMP '" ++ instantText t ++ "'" = a := by simpa using h
    exact Frames.leaf (by decide : Frames "TIMESTAMP " "" _ _) (calm_instant t)
  next =>
    split at h
    next t _ =>
      obtain rfl : "TIMESTAMP '" ++ t.text " " ++ "'" = a := by simpa using h
      exact Frames.leaf (by decide : Frames "TIMESTAMP " "" _ _) (calm_dateTime t)
    next => simp at h
  next =>
    split at h
    next t _ =>
      obtain rfl : "TIME '" ++ t.text ++ "'" = a := by simpa using h
      exact Frames.leaf (by decide : Frames "TIME " "" _ _) (calm_time t)
    next => simp at h
  next bs =>
    obtain rfl : "FROM_BASE64('" ++ Text.base64 bs ++ "')" = a := by simpa using h
    exact Frames.leaf (by decide : Frames "FROM_BASE64(" ")" _ _) (calm_base64 bs)
  next p q digits => exact absurd rfl (hd digits)
  next => simp at h
  next => simp at h
  next => simp at h
  next =>
    split at h
    next text hg =>
      obtain rfl : text = a := by simpa using h
      exact leaf_generic hd hs hg
    next => simp at h

def temporalWord? : DataType → Option String
  | .date => some "DATE"
  | .timestamp _ => some "TIMESTAMP"
  | .time => some "TIME"
  | _ => none

theorem temporalWord_frames {t : DataType} {word : String} (h : temporalWord? t = some word) :
    Frames (word ++ " ") "" (word ++ " '") "'" ∧
      tokens? (word ++ " ").toList = some [.word word.toList] := by
  obtain rfl | rfl | rfl : word = "DATE" ∨ word = "TIMESTAMP" ∨ word = "TIME" := by
    cases t <;> simp_all [temporalWord?]
  · decide
  · decide
  · decide

theorem plainLiteral_string {t : DataType} {s a : String} (h : (Value.string s).plainLiteral t = .ok a) :
    (temporalWord? t = none ∧ a = Sql.stringLiteral s) ∨
    ∃ word content, temporalWord? t = some word ∧ Calm content ∧
      a = word ++ " '" ++ content ++ "'" := by
  cases t with
  | date =>
    simp only [plainLiteral, date?] at h
    split at h
    next d _ =>
      obtain rfl : "DATE '" ++ d.text ++ "'" = a := by simpa using h
      exact .inr ⟨"DATE", d.text, rfl, calm_date d, rfl⟩
    next => simp at h
  | timestamp zone =>
    simp only [plainLiteral, dateTime?] at h
    split at h
    next d _ =>
      obtain rfl : "TIMESTAMP '" ++ d.text " " ++ "'" = a := by simpa using h
      exact .inr ⟨"TIMESTAMP", d.text " ", rfl, calm_dateTime d, rfl⟩
    next => simp at h
  | time =>
    simp only [plainLiteral, time?] at h
    split at h
    next d _ =>
      obtain rfl : "TIME '" ++ d.text ++ "'" = a := by simpa using h
      exact .inr ⟨"TIME", d.text, rfl, calm_time d, rfl⟩
    next => simp at h
  | binary => simp [plainLiteral] at h
  | struct fields => simp [plainLiteral] at h
  | array element => simp [plainLiteral] at h
  | _ => exact .inl ⟨rfl, by simpa [plainLiteral, genericLiteral] using h.symm⟩

theorem plainLiteral_decimal {t : DataType} {d a : String} (h : (Value.decimal d).plainLiteral t = .ok a) :
    (t.isDecimal = false ∧ a = d) ∨
    ∃ word, t.isDecimal = true ∧ t.sqlName = .ok word ∧ (word = "NUMERIC" ∨ word = "BIGNUMERIC") ∧
      a = word ++ " " ++ Sql.stringLiteral d := by
  cases t with
  | decimal precision scale =>
    simp only [plainLiteral] at h
    obtain ⟨word, hword, h⟩ := except_bind_ok.mp h
    obtain rfl : word ++ " " ++ Sql.stringLiteral d = a := by simpa [pure, Except.pure] using h
    refine .inr ⟨word, rfl, hword, ?_, rfl⟩
    simp only [DataType.sqlName] at hword
    split at hword
    · exact .inl (by simpa using hword.symm)
    · split at hword
      · exact .inr (by simpa using hword.symm)
      · simp at hword
  | date => simp [plainLiteral, date?] at h
  | timestamp zone => simp [plainLiteral, dateTime?] at h
  | time => simp [plainLiteral, time?] at h
  | binary => simp [plainLiteral] at h
  | struct fields => simp [plainLiteral] at h
  | array element => simp [plainLiteral] at h
  | _ => exact .inl ⟨rfl, by simpa [plainLiteral, genericLiteral] using h.symm⟩

def SameTokens (a b : String) : Prop :=
  ∃ ts, tokens? a.toList = some ts ∧ tokens? b.toList = some ts

theorem tokens_temporal {t : DataType} {word content : String} (ht : temporalWord? t = some word)
    (hc : Calm content) :
    tokens? (word ++ " '" ++ content ++ "'").toList = some [.word word.toList, .text] := by
  obtain ⟨hframes, hword⟩ := temporalWord_frames ht
  have hempty : "".toList = [] := rfl
  rw [hframes.split hc, tokens_quoted hword hframes.2.2.2.1 (.inl hempty), hempty]
  rfl

theorem sameTokens_string {t : DataType} {s r a b : String} (ha : (Value.string s).plainLiteral t = .ok a)
    (hb : (Value.string r).plainLiteral t = .ok b) : SameTokens a b := by
  rcases plainLiteral_string ha with ⟨ht, rfl⟩ | ⟨word, content, ht, hc, rfl⟩
  · rcases plainLiteral_string hb with ⟨-, rfl⟩ | ⟨word, content, ht', -⟩
    · exact ⟨_, tokens_stringLiteral s, tokens_stringLiteral r⟩
    · simp [ht] at ht'
  · rcases plainLiteral_string hb with ⟨ht', -⟩ | ⟨word', content', ht', hc', rfl⟩
    · simp [ht] at ht'
    obtain rfl : word = word' := by simpa [ht] using ht'
    exact ⟨_, tokens_temporal ht hc, tokens_temporal ht hc'⟩

theorem tokens_numeric {word : String} (h : word = "NUMERIC" ∨ word = "BIGNUMERIC") (d : String) :
    tokens? (word ++ " " ++ Sql.stringLiteral d).toList = some [.word word.toList, .text] := by
  have hword : tokens? (word ++ " ").toList = some [.word word.toList] ∧
      endsBlank (word ++ " ").toList := by
    rcases h with rfl | rfl
    · decide
    · decide
  rw [String.toList_append, tokens_append hword.1 (.inl hword.2), tokens_stringLiteral]
  rfl

theorem sameTokens_decimal {t : DataType} {d e a b : String} (ht : t.isDecimal)
    (ha : (Value.decimal d).plainLiteral t = .ok a) (hb : (Value.decimal e).plainLiteral t = .ok b) :
    SameTokens a b := by
  rcases plainLiteral_decimal ha with ⟨ht', -⟩ | ⟨word, -, hname, hword, rfl⟩
  · simp [ht] at ht'
  rcases plainLiteral_decimal hb with ⟨ht', -⟩ | ⟨word', -, hname', -, rfl⟩
  · simp [ht] at ht'
  obtain rfl : word = word' := by simpa [hname] using hname'
  exact ⟨_, tokens_numeric hword d, tokens_numeric hword e⟩

theorem tokens_listed {texts : List String} {tss : List (List Token)} {before after : String}
    {ts us : List Token} (h : List.Forall₂ (fun w ts => tokens? w.toList = some ts) texts tss)
    (hb : tokens? before.toList = some ts) (hblank : endsBlank before.toList)
    (ha : tokens? after.toList = some us) (hopens : opens after.toList) :
    tokens? (before ++ String.intercalate ", " texts ++ after).toList =
      some (ts ++ (List.intercalate [.symbol ','] tss ++ us)) := by
  have hsep : tokens? ", ".toList = some [.symbol ','] := by decide
  have hlist : tokens? ((String.intercalate ", " texts).toList ++ after.toList) =
      some (List.intercalate [.symbol ','] tss ++ us) := by
    induction h with
    | nil => simpa [List.intercalate] using ha
    | @cons w ws texts tss hw hrest ih =>
      cases hrest with
      | nil =>
        have happ := tokens_append hw (.inr hopens)
        simpa [List.intercalate, ha] using happ
      | @cons w' ws' texts tss hw' hrest =>
        rw [intercalate_append, List.append_assoc, List.append_assoc,
          tokens_append hw (.inr (opens_append (by decide) _)), tokens_append hsep (.inl (by decide)), ih]
        simp [List.intercalate]
  rw [String.toList_append, String.toList_append, List.append_assoc, tokens_append hb (.inl hblank), hlist]
  rfl

theorem sameTokens_listed {left right : List String} {before after : String} {ts us : List Token}
    (h : List.Forall₂ SameTokens left right) (hb : tokens? before.toList = some ts)
    (hblank : endsBlank before.toList) (ha : tokens? after.toList = some us) (hopens : opens after.toList) :
    SameTokens (before ++ String.intercalate ", " left ++ after)
      (before ++ String.intercalate ", " right ++ after) := by
  obtain ⟨tss, hl, hr⟩ : ∃ tss,
      List.Forall₂ (fun w ts => tokens? w.toList = some ts) left tss ∧
      List.Forall₂ (fun w ts => tokens? w.toList = some ts) right tss := by
    induction h with
    | nil => exact ⟨[], .nil, .nil⟩
    | cons hw _ ih =>
      obtain ⟨vs, hv, hv'⟩ := hw
      obtain ⟨tss, hl, hr⟩ := ih
      exact ⟨vs :: tss, .cons hv hl, .cons hv' hr⟩
  exact ⟨_, tokens_listed hl hb hblank ha hopens, tokens_listed hr hb hblank ha hopens⟩

theorem memberLiteral_ok {fields : List FieldType} {m : String × Value} {a : String} :
    memberLiteral fields m = .ok a ↔
      ∃ field text, (fields.find? fun f => f.name == m.1) = some field ∧
        m.2.literal field.dtype = .ok text ∧ a = text ++ (" AS " ++ Sql.backtick m.1) := by
  unfold memberLiteral
  cases fields.find? fun f => f.name == m.1 with
  | none => simp
  | some field =>
    simp [except_bind_ok, pure, Except.pure, String.append_assoc, @eq_comm _ a]

theorem tokens_alias {text name : String} {ts : List Token} (h : closes name.toList)
    (htext : tokens? text.toList = some ts) :
    tokens? (text ++ (" AS " ++ Sql.backtick name)).toList =
      some (ts ++ [.word "AS".toList, .name (name.toList.flatMap tickChar)]) := by
  have hword : tokens? " AS ".toList = some [.word "AS".toList] := by decide
  have hname : tokens? (Sql.backtick name).toList = some [.name (name.toList.flatMap tickChar)] := by
    simp [Sql.backtick, tokens?, read_backtickChars h, Mode.finish]
  rw [String.toList_append, String.toList_append,
    tokens_append htext (.inr (opens_append (by decide) _)), tokens_append hword (.inl (by decide)), hname]
  rfl

theorem sameTokens_alias {a b name : String} (h : closes name.toList) (hab : SameTokens a b) :
    SameTokens (a ++ (" AS " ++ Sql.backtick name)) (b ++ (" AS " ++ Sql.backtick name)) := by
  obtain ⟨ts, ha, hb⟩ := hab
  exact ⟨_, tokens_alias h ha, tokens_alias h hb⟩

theorem eq_of_outline {v w : Value} (hv : v.isComposite = false) (hd : ∀ d, v ≠ .decimal d)
    (hs : ∀ s, v ≠ .string s) (h : v.outline = w.outline) : w = v := by
  cases v <;> simp [isComposite] at hv <;> cases w <;> simp_all [outline]

theorem outline_array {items : List Value} {w : Value} (h : (Value.array items).outline = w.outline) :
    ∃ others, w = .array others ∧ List.Forall₂ (fun x y => x.outline = y.outline) items others := by
  cases w with
  | array others =>
    refine ⟨others, rfl, ?_⟩
    have hmap : items.map outline = others.map outline := by
      simpa [outline, itemOutlines_eq] using h
    exact map_eq_iff.mp hmap
  | _ => simp [outline] at h

theorem outline_struct {members : List (String × Value)} {w : Value}
    (h : (Value.struct members).outline = w.outline) :
    ∃ others, w = .struct others ∧
      List.Forall₂ (fun m n => m.1 = n.1 ∧ m.2.outline = n.2.outline) members others := by
  cases w with
  | struct others =>
    refine ⟨others, rfl, ?_⟩
    have hmap : members.map (fun m => (m.1, m.2.outline)) = others.map fun m => (m.1, m.2.outline) := by
      simpa [outline, memberOutlines_eq] using h
    exact (map_eq_iff.mp hmap).imp fun m n h => by simpa using h
  | _ => simp [outline] at h

def Guarded (t : DataType) (v : Value) : Prop :=
  strayDecimals t v = [] ∧ ∀ k ∈ v.keys, closes k.toList

instance (t : DataType) (v : Value) : Decidable (Guarded t v) :=
  inferInstanceAs (Decidable (_ ∧ _))

theorem guarded_decimal {t : DataType} {d : String} :
    Guarded t (.decimal d) ↔ t.isDecimal = true := by
  simp [Guarded, strayDecimals, keys]

theorem guarded_array {element : DataType} {items : List Value} :
    Guarded (.array element) (.array items) ↔ ∀ x ∈ items, Guarded element x := by
  simp only [Guarded, strayDecimals, itemStrays_eq, keys, itemKeys_eq, List.flatMap_eq_nil_iff,
    List.mem_flatMap]
  constructor
  · rintro ⟨hstray, hkeys⟩ x hx
    exact ⟨hstray x hx, fun k hk => hkeys k ⟨x, hx, hk⟩⟩
  · intro h
    exact ⟨fun x hx => (h x hx).1, fun k ⟨x, hx, hk⟩ => (h x hx).2 k hk⟩

theorem guarded_struct {fields : List FieldType} {members : List (String × Value)}
    (hfound : ∀ m ∈ members, ∃ field, (fields.find? fun f => f.name == m.1) = some field) :
    Guarded (.struct fields) (.struct members) ↔ ∀ m ∈ members, closes m.1.toList ∧
      ∀ field, (fields.find? fun f => f.name == m.1) = some field → Guarded field.dtype m.2 := by
  simp only [Guarded, strayDecimals, memberStrays_eq, keys, memberKeys_eq, List.flatMap_eq_nil_iff,
    List.mem_flatMap, List.mem_cons]
  constructor
  · rintro ⟨hstray, hkeys⟩ m hm
    refine ⟨hkeys m.1 ⟨m, hm, .inl rfl⟩, fun field hf => ⟨?_, fun k hk => hkeys k ⟨m, hm, .inr hk⟩⟩⟩
    simpa [hf] using hstray m hm
  · intro h
    refine ⟨fun m hm => ?_, ?_⟩
    · obtain ⟨field, hf⟩ := hfound m hm
      simpa [hf] using ((h m hm).2 field hf).1
    · rintro k ⟨m, hm, rfl | hk⟩
      · exact (h m hm).1
      · obtain ⟨field, hf⟩ := hfound m hm
        exact ((h m hm).2 field hf).2 k hk

theorem sameTokens_literal {v : Value} : ∀ {t : DataType} {w : Value} {a b : String},
    v.outline = w.outline → Guarded t v → v.literal t = .ok a → w.literal t = .ok b →
    SameTokens a b := by
  induction v using Value.induction_on with
  | plain v hv =>
    intro t w a b hout hguard ha hb
    by_cases hd : ∃ d, v = .decimal d
    · obtain ⟨d, rfl⟩ := hd
      obtain ⟨e, rfl⟩ : ∃ e, w = .decimal e := by cases w <;> simp [outline] at hout ⊢
      rw [literal_plain rfl] at ha hb
      exact sameTokens_decimal (guarded_decimal.mp hguard) ha hb
    by_cases hs : ∃ s, v = .string s
    · obtain ⟨s, rfl⟩ := hs
      obtain ⟨r, rfl⟩ : ∃ r, w = .string r := by cases w <;> simp [outline] at hout ⊢
      rw [literal_plain rfl] at ha hb
      exact sameTokens_string ha hb
    · have hd : ∀ d, v ≠ .decimal d := fun d h => hd ⟨d, h⟩
      have hs : ∀ s, v ≠ .string s := fun s h => hs ⟨s, h⟩
      obtain rfl := eq_of_outline hv hd hs hout
      obtain rfl : a = b := by simpa [ha] using hb
      rw [literal_plain hv] at ha
      obtain ⟨ts, hts⟩ := Option.isSome_iff_exists.mp (leaf_plain hd hs ha).tokens
      exact ⟨ts, hts, hts⟩
  | array items ih =>
    intro t w a b hout hguard ha hb
    obtain ⟨others, rfl, hitems⟩ := outline_array hout
    obtain ⟨element, left, rfl, hl, rfl⟩ := literal_array.mp ha
    obtain ⟨element', right, ht, hr, rfl⟩ := literal_array.mp hb
    obtain rfl : element = element' := by simpa using ht
    refine sameTokens_listed ?_ (by decide : tokens? "[".toList = some [.symbol '[']) (by decide)
      (by decide : tokens? "]".toList = some [.symbol ']']) (by decide)
    exact forall₂_square hitems hl hr fun x hx y hy u v hxy hu hv =>
      ih x hx hxy (guarded_array.mp hguard x hx) hu hv
  | struct members ih =>
    intro t w a b hout hguard ha hb
    obtain ⟨others, rfl, hmembers⟩ := outline_struct hout
    obtain ⟨fields, left, rfl, hl, rfl⟩ := literal_struct.mp ha
    obtain ⟨fields', right, ht, hr, rfl⟩ := literal_struct.mp hb
    obtain rfl : fields = fields' := by simpa using ht
    refine sameTokens_listed ?_
      (by decide : tokens? "STRUCT(".toList = some [.word "STRUCT".toList, .symbol '(']) (by decide)
      (by decide : tokens? ")".toList = some [.symbol ')']) (by decide)
    have hfound : ∀ m ∈ members, ∃ field, (fields.find? fun f => f.name == m.1) = some field := by
      intro m hm
      obtain ⟨u, hu⟩ := forall₂_exists hl m hm
      obtain ⟨field, -, hf, -⟩ := memberLiteral_ok.mp hu
      exact ⟨field, hf⟩
    have hguard := (guarded_struct hfound).mp hguard
    refine forall₂_square hmembers hl hr fun m hm n hn u v hmn hu hv => ?_
    obtain ⟨field, x, hf, hx, rfl⟩ := memberLiteral_ok.mp hu
    obtain ⟨field', y, hf', hy, rfl⟩ := memberLiteral_ok.mp hv
    rw [← hmn.1] at hf' ⊢
    obtain rfl : field = field' := by simpa [hf] using hf'
    exact sameTokens_alias (hguard m hm).1 (ih m hm hmn.2 ((hguard m hm).2 field hf) hx hy)

/-- Another constant of the outline, whose text is read to its end just if the first one is guarded. -/
structure Reveals (t : DataType) (v w : Value) (b : String) : Prop where
  outline_eq : w.outline = v.outline
  written : w.literal t = .ok b
  endsIff : EndsIff (Guarded t v) b.toList

theorem reveals_leaf {t : DataType} {v w : Value} {b : String} (hv : v.isComposite = false)
    (hg : Guarded t v) (hout : w.outline = v.outline) (hw : w.plainLiteral t = .ok b)
    (hb : Leaf b.toList) : Reveals t v w b where
  outline_eq := hout
  written := by
    have hplain : w.isComposite = false := by
      cases v <;> simp [isComposite] at hv <;> cases w <;> simp_all [outline, isComposite]
    rw [literal_plain hplain, hw]
  endsIff := by simpa [hg] using endsIff_leaf hb

theorem plainLiteral_string_any {t : DataType} {s a : String} (ht : temporalWord? t = none)
    (h : (Value.string s).plainLiteral t = .ok a) (r : String) :
    (Value.string r).plainLiteral t = .ok (Sql.stringLiteral r) := by
  cases t <;> simp_all [temporalWord?, plainLiteral, genericLiteral]

theorem reveals_string {t : DataType} {s a : String} (h : (Value.string s).plainLiteral t = .ok a) :
    ∃ w b, Reveals t (.string s) w b := by
  have hg : Guarded t (.string s) := by simp [Guarded, strayDecimals, keys]
  rcases plainLiteral_string h with ⟨ht, rfl⟩ | ⟨word, content, ht, hc, rfl⟩
  · refine ⟨.string "", _, reveals_leaf rfl hg rfl (plainLiteral_string_any ht h "") ?_⟩
    have hleaf : Leaf ("" ++ Sql.stringLiteral "").toList :=
      leaf_stringLiteral (by decide) (by decide) (by decide)
    simpa using hleaf
  · exact ⟨.string s, _, reveals_leaf rfl hg rfl h ((temporalWord_frames ht).1.leaf hc)⟩

theorem plainLiteral_decimal_any {t : DataType} {d a : String}
    (h : (Value.decimal d).plainLiteral t = .ok a) (e : String) :
    ∃ b, (Value.decimal e).plainLiteral t = .ok b := by
  cases t with
  | decimal precision scale =>
    simp only [plainLiteral] at h ⊢
    obtain ⟨word, hword, -⟩ := except_bind_ok.mp h
    exact ⟨_, except_bind_ok.mpr ⟨word, hword, rfl⟩⟩
  | _ => simp_all [plainLiteral, genericLiteral, date?, dateTime?, time?]

theorem reveals_decimal {t : DataType} {d a : String} (h : (Value.decimal d).plainLiteral t = .ok a) :
    ∃ w b, Reveals t (.decimal d) w b := by
  by_cases ht : t.isDecimal
  · obtain ⟨b, hb⟩ := plainLiteral_decimal_any h ""
    refine ⟨.decimal "", b, reveals_leaf rfl (guarded_decimal.mpr ht) rfl hb ?_⟩
    rcases plainLiteral_decimal hb with ⟨ht', -⟩ | ⟨word, -, -, hword, rfl⟩
    · simp [ht] at ht'
    rcases hword with rfl | rfl
    · exact leaf_stringLiteral (by decide) (by decide) (by decide)
    · exact leaf_stringLiteral (by decide) (by decide) (by decide)
  · obtain ⟨b, hb⟩ := plainLiteral_decimal_any h "\\"
    obtain rfl : b = "\\" := by
      rcases plainLiteral_decimal hb with ⟨-, hb⟩ | ⟨word, ht', -⟩
      · exact hb
      · exact absurd ht' ht
    refine ⟨.decimal "\\", "\\", rfl, ?_, ?_⟩
    · rw [literal_plain rfl, hb]
    · simpa [guarded_decimal, ht] using endsIff_backslash

theorem reveals_plain {t : DataType} {v : Value} {a : String} (hv : v.isComposite = false)
    (h : v.plainLiteral t = .ok a) : ∃ w b, Reveals t v w b := by
  by_cases hd : ∃ d, v = .decimal d
  · obtain ⟨d, rfl⟩ := hd
    exact reveals_decimal h
  by_cases hs : ∃ s, v = .string s
  · obtain ⟨s, rfl⟩ := hs
    exact reveals_string h
  · have hd : ∀ d, v ≠ .decimal d := fun d h => hd ⟨d, h⟩
    have hs : ∀ s, v ≠ .string s := fun s h => hs ⟨s, h⟩
    have hg : Guarded t v := by
      cases v <;> simp_all [isComposite, Guarded, strayDecimals, keys]
    exact ⟨v, a, reveals_leaf hv hg rfl h (leaf_plain hd hs h)⟩

theorem reveals_array {element : DataType} {items : List Value}
    (h : ∀ x ∈ items, ∃ w b, Reveals element x w b) :
    ∃ w b, Reveals (.array element) (.array items) w b := by
  obtain ⟨others, texts, hout, hwritten, hends⟩ := exists_forall₂ fun x hx => by
    obtain ⟨w, b, hw⟩ := h x hx
    exact ⟨w, b, hw.outline_eq.symm, hw.written, hw.endsIff⟩
  refine ⟨.array others, _, ?_, literal_array.mpr ⟨element, texts, rfl, hwritten, rfl⟩, ?_⟩
  · rw [outline, outline, itemOutlines_eq, itemOutlines_eq, map_eq_iff.mpr hout]
  · rw [guarded_array]
    exact endsIff_listed hends (by decide) (by decide) (by decide) (by decide)

theorem reveals_struct {fields : List FieldType} {members : List (String × Value)}
    (h : ∀ m ∈ members, ∃ field w b, (fields.find? fun f => f.name == m.1) = some field ∧
      Reveals field.dtype m.2 w b) :
    ∃ w b, Reveals (.struct fields) (.struct members) w b := by
  obtain ⟨others, texts, hout, hwritten, hends⟩ :
      ∃ others texts,
        List.Forall₂ (fun m n => (m.1, m.2.outline) = (n.1, n.2.outline)) members others ∧
        List.Forall₂ (fun n w => memberLiteral fields n = .ok w) others texts ∧
        List.Forall₂ (fun m w => EndsIff (closes m.1.toList ∧
          ∀ field, (fields.find? fun f => f.name == m.1) = some field → Guarded field.dtype m.2)
          w.toList) members texts :=
    exists_forall₂ fun m hm => by
      obtain ⟨field, w, b, hf, hw⟩ := h m hm
      refine ⟨(m.1, w), b ++ (" AS " ++ Sql.backtick m.1), by rw [hw.outline_eq],
        memberLiteral_ok.mpr ⟨field, b, hf, hw.written, rfl⟩, ?_⟩
      have hsep : " AS ".toList.all calm := by decide
      have hname := hw.endsIff.separate (endsIff_backtick m.1.toList) hsep (by decide) (by decide)
      simpa [hf, and_comm, Sql.backtick] using hname
  refine ⟨.struct others, _, ?_, literal_struct.mpr ⟨fields, texts, rfl, hwritten, rfl⟩, ?_⟩
  · rw [outline, outline, memberOutlines_eq, memberOutlines_eq, map_eq_iff.mpr hout]
  · have hfound : ∀ m ∈ members, ∃ field, (fields.find? fun f => f.name == m.1) = some field := by
      intro m hm
      obtain ⟨field, -, -, hf, -⟩ := h m hm
      exact ⟨field, hf⟩
    rw [guarded_struct hfound]
    exact endsIff_listed hends (by decide) (by decide) (by decide) (by decide)

theorem exists_reveals {v : Value} : ∀ {t : DataType} {a : String}, v.literal t = .ok a →
    ∃ w b, Reveals t v w b := by
  induction v using Value.induction_on with
  | plain v hv =>
    intro t a h
    rw [literal_plain hv] at h
    exact reveals_plain hv h
  | array items ih =>
    intro t a h
    obtain ⟨element, texts, rfl, htexts, -⟩ := literal_array.mp h
    refine reveals_array fun x hx => ?_
    obtain ⟨u, hu⟩ := forall₂_exists htexts x hx
    exact ih x hx hu
  | struct members ih =>
    intro t a h
    obtain ⟨fields, texts, rfl, htexts, -⟩ := literal_struct.mp h
    refine reveals_struct fun m hm => ?_
    obtain ⟨u, hu⟩ := forall₂_exists htexts m hm
    obtain ⟨field, x, hf, hx, -⟩ := memberLiteral_ok.mp hu
    obtain ⟨w, b, hw⟩ := ih m hm hx
    exact ⟨field, w, b, hf, hw⟩

def SameKinds (a b : String) : Prop :=
  ∃ ks, kinds? a.toList = some ks ∧ kinds? b.toList = some ks

theorem SameTokens.sameKinds {a b : String} (h : SameTokens a b) : SameKinds a b := by
  obtain ⟨ts, ha, hb⟩ := h
  exact ⟨ts.map Token.kind, by simp [kinds?, ha], by simp [kinds?, hb]⟩

theorem SameKinds.tokens_right {a b : String} (h : SameKinds a b) : (tokens? b.toList).isSome := by
  obtain ⟨ks, -, hb⟩ := h
  obtain ⟨ts, hts, -⟩ := Option.map_eq_some_iff.mp hb
  simp [hts]

/-- The texts inside a constant leave the tokens around them alone just if no decimal is written as it is and
every name ends at its closing backtick. -/
theorem literal_kinds_independent_of_texts_iff {t : DataType} {v : Value} {a : String}
    (h : v.literal t = .ok a) :
    (∀ (w : Value) (b : String), w.outline = v.outline → w.literal t = .ok b → SameKinds a b) ↔ Guarded t v := by
  constructor
  · intro hsame
    obtain ⟨w, b, hw⟩ := exists_reveals h
    exact hw.endsIff.tokens_iff.mp (hsame w b hw.outline_eq hw.written).tokens_right
  · intro hguard w b hout hb
    exact (sameTokens_literal hout.symm hguard h hb).sameKinds

theorem quoted_texts_keep_kinds :
    (Value.struct [("k", .array [.string "it's", .null]), ("d", .decimal "1, 2")]).literal
        (.struct [⟨"k", .array .string, true⟩, ⟨"d", .decimal 38 9, true⟩]) =
      .ok "STRUCT(['it\\'s', NULL] AS \x60k\x60, NUMERIC '1, 2' AS \x60d\x60)" ∧
    ∀ (w : Value) (b : String), w.outline = .struct [("k", .array [.string "", .null]), ("d", .decimal "")] →
      w.literal (.struct [⟨"k", .array .string, true⟩, ⟨"d", .decimal 38 9, true⟩]) = .ok b →
      SameKinds "STRUCT(['it\\'s', NULL] AS \x60k\x60, NUMERIC '1, 2' AS \x60d\x60)" b :=
  have hok : (Value.struct [("k", .array [.string "it's", .null]), ("d", .decimal "1, 2")]).literal
        (.struct [⟨"k", .array .string, true⟩, ⟨"d", .decimal 38 9, true⟩]) =
      .ok "STRUCT(['it\\'s', NULL] AS \x60k\x60, NUMERIC '1, 2' AS \x60d\x60)" := by
    rfl
  ⟨hok, (literal_kinds_independent_of_texts_iff hok).mpr (by decide +kernel)⟩

theorem stray_decimal_changes_kinds :
    (Value.decimal "1").outline = (Value.decimal "1, 2").outline ∧
    (Value.decimal "1").literal .int64 = .ok "1" ∧
    (Value.decimal "1, 2").literal .int64 = .ok "1, 2" ∧
    kinds? "1".toList = some [.number] ∧
    kinds? "1, 2".toList = some [.number, .symbol ',', .number] :=
  ⟨rfl, rfl, rfl, by decide, by decide⟩

end Value

end BigQuerySql
