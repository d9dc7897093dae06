import BigQuerySql.Proofs.Digits
import BigQuerySql.Proofs.FailingNodes

/-!
Formulas: columns, parameters and numbers under operators. The text of a formula is read back as the formula, up to
what is not written, so that no two formulas share a text. Where the reader looks for an operator, it has read a whole
operand, which is an atom or ends with its own bracket.
-/

namespace BigQuerySql

namespace Op

def unqualified {α : Type} : Op α → Op α
  | .column name _ => .column name none
  | op => op

end Op

namespace Expr

def bare : Expr → Expr :=
  fold fun op _ _ => ⟨op.unqualified, .unknown, none⟩

theorem bare_mk (op : Op Expr) (dtype : DataType) (label : Option String) :
    bare ⟨op, dtype, label⟩ = ⟨(op.map bare).unqualified, .unknown, none⟩ :=
  fold_mk _ op dtype label

def formulaOps : List BinaryOp :=
  [.add, .subtract, .multiply, .divide, .modulus, .power, .equals, .notEquals, .less, .lessEqual, .greater,
   .greaterEqual, .and, .or]

inductive Formula : Expr → Prop where
  | column {name : String} (h : '\x60' ∉ name.toList) (table : Option String) (dtype : DataType)
      (label : Option String) : Formula ⟨.column name table, dtype, label⟩
  | parameter {name : String} (h : Lexis.isParameterName name.toList) (dtype : DataType) (label : Option String) :
      Formula ⟨.scalarParameter name, dtype, label⟩
  | number {i : Int64} (h : 0 ≤ i.toInt) (dtype : DataType) (label : Option String) :
      Formula ⟨.literal (.int i), dtype, label⟩
  | binary {op : BinaryOp} {left right : Expr} (hop : op ∈ formulaOps) (hleft : Formula left) (hright : Formula right)
      (dtype : DataType) (label : Option String) : Formula ⟨.binary op left right, dtype, label⟩
  | not {arg : Expr} (harg : Formula arg) (dtype : DataType) (label : Option String) :
      Formula ⟨.call .not [arg], dtype, label⟩
  | isNull {arg : Expr} (harg : Formula arg) (dtype : DataType) (label : Option String) :
      Formula ⟨.call .isNull [arg], dtype, label⟩
  | notNull {arg : Expr} (harg : Formula arg) (dtype : DataType) (label : Option String) :
      Formula ⟨.call .notNull [arg], dtype, label⟩
  | between {arg lower upper : Expr} (harg : Formula arg) (hlower : Formula lower) (hupper : Formula upper)
      (dtype : DataType) (label : Option String) : Formula ⟨.call .between [arg, lower, upper], dtype, label⟩
  | like {arg pattern : Expr} (harg : Formula arg) (hpattern : Formula pattern) (dtype : DataType)
      (label : Option String) : Formula ⟨.call .stringSqlLike [arg, pattern], dtype, label⟩

end Expr

namespace Formula

/-- What a formula may begin with besides an operand. The arguments of a function are formulas or, if they are written
as operands, bracketed. -/
inductive Lead where
  | not
  | function (op : BinaryOp) (bracketed : Bool)

inductive Tail where
  | binary (op : BinaryOp)
  | test (func : Func)
  | between
  | like

def leads : List (String × Lead) :=
  [("NOT ", .not), ("IEEE_DIVIDE(", .function .divide false), ("MOD(", .function .modulus false),
   ("pow(", .function .power true)]

def tails : List (String × Tail) :=
  [(" + ", .binary .add), (" - ", .binary .subtract), (" * ", .binary .multiply), (" = ", .binary .equals),
   (" != ", .binary .notEquals), (" < ", .binary .less), (" <= ", .binary .lessEqual), (" > ", .binary .greater),
   (" >= ", .binary .greaterEqual), (" AND ", .binary .and), (" OR ", .binary .or), (" IS NULL", .test .isNull),
   (" IS NOT NULL", .test .notNull), (" BETWEEN ", .between), (" LIKE ", .like)]

def expect (word : String) (cs : List Char) : Option (List Char) :=
  word.toList.isPrefixOf? cs

def select {α : Type} (table : List (String × α)) (cs : List Char) : Option (α × List Char) :=
  table.findSome? fun entry => (expect entry.1 cs).map (entry.2, ·)

abbrev Reader := List Char → Option (Expr × List Char)

def readOperand (read : Reader) : Reader
  | '\x60' :: cs =>
    (expect "\x60" (cs.dropWhile (· != '\x60'))).map
      (.column (String.ofList (cs.takeWhile (· != '\x60'))) none .unknown, ·)
  | '@' :: cs => some (.param (String.ofList (cs.takeWhile Sql.isNameChar)) .unknown, cs.dropWhile Sql.isNameChar)
  | '(' :: cs => do
    let (e, rest) ← read cs
    let rest ← expect ")" rest
    return (e, rest)
  | cs =>
    let digits := cs.takeWhile Char.isDigit
    if digits.isEmpty then none
    else some (.literal (.int (.ofInt (Nat.ofDigitChars 10 digits 0))) .unknown, cs.dropWhile Char.isDigit)

def readLead (read : Reader) : Lead → Reader
  | .not, cs => do
    let (arg, rest) ← readOperand read cs
    return (.call .not [arg] .unknown, rest)
  | .function op bracketed, cs => do
    let part := if bracketed then readOperand read else read
    let (left, rest) ← part cs
    let rest ← expect ", " rest
    let (right, rest) ← part rest
    let rest ← expect ")" rest
    return (.ofOp (.binary op left right) .unknown, rest)

def readTail (read : Reader) (first : Expr) : Tail → Reader
  | .binary op, cs => do
    let (second, rest) ← readOperand read cs
    return (.ofOp (.binary op first second) .unknown, rest)
  | .test func, cs => some (.call func [first] .unknown, cs)
  | .between, cs => do
    let (lower, rest) ← readOperand read cs
    let rest ← expect " AND " rest
    let (upper, rest) ← readOperand read rest
    return (.call .between [first, lower, upper] .unknown, rest)
  | .like, cs => do
    let (pattern, rest) ← readOperand read cs
    return (.call .stringSqlLike [first, pattern] .unknown, rest)

def readWithin : Nat → Reader
  | 0, _ => none
  | n + 1, cs =>
    match select leads cs with
    | some (lead, rest) => readLead (readWithin n) lead rest
    | none => do
      let (first, rest) ← readOperand (readWithin n) cs
      match select tails rest with
      | some (tail, rest) => readTail (readWithin n) first tail rest
      | none => return (first, rest)

def Stops (cs : List Char) : Prop :=
  ∀ c ∈ cs.head?, c ∈ [' ', ')', ',']

def Ends (cs : List Char) : Prop :=
  ∀ c ∈ cs.head?, c ∈ [')', ',']

theorem Ends.stops {cs : List Char} (h : Ends cs) : Stops cs :=
  fun c hc => List.mem_cons_of_mem _ (h c hc)

theorem Stops.escapes {cs : List Char} (h : Stops cs) {p : Char → Bool}
    (hp : [' ', ')', ','].all fun c => !p c) : Escapes p cs :=
  fun c hc => by simpa using List.all_eq_true.mp hp c (h c hc)

theorem select_tails_ends {cs : List Char} (h : Ends cs) : select tails cs = none := by
  cases cs with
  | nil => rfl
  | cons c cs =>
    have hc : c = ')' ∨ c = ',' := by simpa using h c rfl
    rcases hc with rfl | rfl
    · rfl
    · rfl

theorem expect_append (word : String) (rest : List Char) : expect word (word.toList ++ rest) = some rest :=
  List.isPrefixOf?_eq_some_iff_append_eq.mpr rfl

theorem select_tails {word : String} {tail : Tail} (h : (word, tail) ∈ tails) (rest : List Char) :
    select tails (word.toList ++ rest) = some (tail, rest) := by
  simp only [tails, List.mem_cons, Prod.mk.injEq, List.not_mem_nil, or_false] at h
  rcases h with ⟨rfl, rfl⟩ | ⟨rfl, rfl⟩ | ⟨rfl, rfl⟩ | ⟨rfl, rfl⟩ | ⟨rfl, rfl⟩ | ⟨rfl, rfl⟩ | ⟨rfl, rfl⟩ | ⟨rfl, rfl⟩ |
    ⟨rfl, rfl⟩ | ⟨rfl, rfl⟩ | ⟨rfl, rfl⟩ | ⟨rfl, rfl⟩ | ⟨rfl, rfl⟩ | ⟨rfl, rfl⟩ | ⟨rfl, rfl⟩ <;> rfl

theorem stops_tails {word : String} {tail : Tail} (h : (word, tail) ∈ tails) (rest : List Char) :
    Stops (word.toList ++ rest) := by
  have hblank : ∀ entry ∈ tails, entry.1.toList.head? = some ' ' := by decide +kernel
  intro c hc
  rw [List.head?_append, hblank _ h] at hc
  obtain rfl : ' ' = c := by simpa using hc
  decide

theorem select_leads {word : String} {lead : Lead} (h : (word, lead) ∈ leads) (rest : List Char) :
    select leads (word.toList ++ rest) = some (lead, rest) := by
  simp only [leads, List.mem_cons, Prod.mk.injEq, List.not_mem_nil, or_false] at h
  rcases h with ⟨rfl, rfl⟩ | ⟨rfl, rfl⟩ | ⟨rfl, rfl⟩ | ⟨rfl, rfl⟩ <;> rfl

theorem select_leads_operand {read : Reader} {cs : List Char} {r : Expr × List Char}
    (h : readOperand read cs = some r) : select leads cs = none := by
  rw [select, List.findSome?_eq_none_iff]
  intro entry hentry
  rw [Option.map_eq_none_iff, Option.eq_none_iff_forall_ne_some]
  intro rest hrest
  obtain rfl := List.isPrefixOf?_eq_some_iff_append_eq.mp hrest
  simp only [leads, List.mem_cons, List.not_mem_nil, or_false] at hentry
  rcases hentry with rfl | rfl | rfl | rfl <;> cases h

section Written

variable {params : Params} {e : Expr} {w : String} {rest : List Char} {n : Nat}

def Written (params : Params) : Expr → String → Prop :=
  ((Compiler.bigQuery .declared).target params).Writes

def bracketed (e : Expr) (w : String) : String :=
  if e.needsParens then "(" ++ w ++ ")" else w

def ReadsAs (e : Expr) (w : String) : Prop :=
  ∀ n rest, e.weight ≤ n → Ends rest → readWithin n (w.toList ++ rest) = some (e.bare, rest)

structure ReadBack (params : Params) (e : Expr) (w : String) : Prop where
  formula : e.Formula
  written : Written params e w
  reads : ReadsAs e w

theorem written_own (hown : Formatter.ownKinds.contains e.kind) (h : Written params e w) :
    OwnText .declared (Written params) e w := by
  obtain ⟨f, texts, hf, ht, rfl⟩ := Target.writes_cases h
  rcases Compiler.written_cases hf ht with ⟨hother, -⟩ | ⟨-, htext⟩
  · rw [hown] at hother
    exact absurd hother (by decide)
  · exact htext

theorem written_by {f : Formatter} (h : Written params e w) (hf : Formatter.lookupOrder.get? e.kind = some f) :
    ∃ texts,
      List.Forall₂ (((Compiler.bigQuery .declared).target params).Takes (Written params)) (f.layout e).steps texts ∧
      w = (f.layout e).fill texts := by
  obtain ⟨g, texts, hg, ht, rfl⟩ := Target.writes_cases h
  obtain rfl : g = f := by
    rw [Compiler.target, Compiler.bigQuery, Formatter.get_lookupOrder, hf] at hg
    exact (Option.some.inj hg).symm
  exact ⟨texts, ht, rfl⟩

theorem readOperand_column {name : String} (h : '\x60' ∉ name.toList) (read : Reader) (rest : List Char) :
    readOperand read ((Sql.backtick name).toList ++ rest) = some (.column name none .unknown, rest) := by
  have hplain : name.toList.flatMap (fun c => if c = '\x60' then ['\\', '\x60'] else [c]) = name.toList := by
    have hchar : ∀ c ∈ name.toList, (if c = '\x60' then ['\\', '\x60'] else [c]) = [c] := by
      intro c hc
      exact if_neg fun heq : c = '\x60' => h (heq ▸ hc)
    rw [List.flatMap_congr hchar, List.flatMap_singleton']
  have htext : (Sql.backtick name).toList ++ rest = '\x60' :: (name.toList ++ '\x60' :: rest) := by
    simp [Sql.backtick, Sql.backtickChars, hplain]
  have hname : ∀ c ∈ name.toList, (c != '\x60') = true := by
    intro c hc
    exact bne_iff_ne.mpr fun heq => h (heq ▸ hc)
  have hquote : Escapes (· != '\x60') ('\x60' :: rest) := by simp [Escapes]
  obtain ⟨htake, hdrop⟩ := takeWhile_append_escapes hname hquote
  rw [htext, readOperand, htake, hdrop, String.ofList_toList]
  rfl

theorem readOperand_parameter {name : String} (h : Lexis.isParameterName name.toList) (read : Reader)
    (hrest : Stops rest) : readOperand read (("@" ++ name).toList ++ rest) = some (.param name .unknown, rest) := by
  have hname := Lexis.isNameChar_of_isParameterName h
  obtain ⟨htake, hdrop⟩ := takeWhile_append_escapes hname (hrest.escapes (by decide))
  have htext : ("@" ++ name).toList ++ rest = '@' :: (name.toList ++ rest) := by simp
  rw [htext, readOperand, htake, hdrop, String.ofList_toList]

theorem digit_head {ds cs : List Char} {c : Char} (h : ds ++ rest = c :: cs) (hsome : ds.isEmpty = false)
    (hdigits : ∀ d ∈ ds, d.isDigit = true) : c.isDigit = true := by
  cases ds with
  | nil => simp at hsome
  | cons d ds =>
    obtain rfl : d = c := (List.cons.inj h).1
    exact hdigits d List.mem_cons_self

theorem readOperand_number {i : Int64} (h : 0 ≤ i.toInt) (read : Reader) (hrest : Stops rest) :
    readOperand read ((toString i.toInt).toList ++ rest) = some (.literal (.int i) .unknown, rest) := by
  obtain ⟨m, hm⟩ := Int.eq_ofNat_of_zero_le h
  have htext : (toString i.toInt).toList = Nat.toDigits 10 m := by
    rw [hm]
    exact (congrArg String.toList Nat.toString_eq_ofList_toDigits).trans String.toList_ofList
  have hdigits := isDigit_of_mem_toDigits (n := m)
  obtain ⟨htake, hdrop⟩ := takeWhile_append_escapes hdigits (hrest.escapes (by decide))
  have hi : Int64.ofInt (Nat.ofDigitChars 10 (Nat.toDigits 10 m) 0) = i := by
    rw [Nat.ofDigitChars_toDigits (by decide) (by decide), ← Int64.ofInt_toInt i, hm]
  have hsome : (Nat.toDigits 10 m).isEmpty = false := List.isEmpty_eq_false_iff.mpr Nat.toDigits_ne_nil
  rw [htext]
  unfold readOperand
  split
  -- a digit is none of the characters that begin the other operands
  next cs heq => exact absurd (digit_head heq hsome hdigits) (by decide)
  next cs heq => exact absurd (digit_head heq hsome hdigits) (by decide)
  next cs heq => exact absurd (digit_head heq hsome hdigits) (by decide)
  next cs _ _ _ => simp only [htake, hdrop, hsome, hi, Bool.false_eq_true, ↓reduceIte]

theorem readOperand_brackets (h : ReadsAs e w) (hn : e.weight ≤ n) (rest : List Char) :
    readOperand (readWithin n) (("(" ++ w ++ ")").toList ++ rest) = some (e.bare, rest) := by
  have htext : ("(" ++ w ++ ")").toList ++ rest = '(' :: (w.toList ++ ')' :: rest) := by simp
  have hinner : readWithin n (w.toList ++ ')' :: rest) = some (e.bare, ')' :: rest) :=
    h n (')' :: rest) hn (by simp [Ends])
  rw [htext, readOperand, hinner]
  rfl

theorem literal_int {i : Int64} {dtype : DataType} (h : (Value.int i).literal dtype = .ok w) :
    w = toString i.toInt := by
  rw [Value.literal_plain rfl] at h
  cases dtype <;> simp_all [Value.plainLiteral, Value.genericLiteral, Value.date?, Value.dateTime?, Value.time?]

theorem readOperand_bracketed (h : ReadBack params e w) (hn : e.weight ≤ n) (hrest : Stops rest) :
    readOperand (readWithin n) ((bracketed e w).toList ++ rest) = some (e.bare, rest) := by
  obtain ⟨he, hw, hread⟩ := h
  cases he with
  | column h =>
    cases written_own rfl hw
    exact readOperand_column h _ _
  | parameter h =>
    cases written_own rfl hw with
    | parameter hplace =>
      obtain rfl := hplace
      exact readOperand_parameter h _ hrest
  | number h =>
    cases written_own rfl hw with
    | literal hliteral =>
      obtain rfl := literal_int hliteral
      exact readOperand_number h _ hrest
  | _ => exact readOperand_brackets hread hn rest

theorem readWithin_operand {first : Expr} {cs : List Char} (h : readOperand (readWithin n) cs = some (first, rest))
    (hrest : Ends rest) : readWithin (n + 1) cs = some (first, rest) := by
  simp only [readWithin, select_leads_operand h, h, Option.bind_eq_bind, Option.bind_some, select_tails_ends hrest]
  rfl

theorem readWithin_tail {word : String} {tail : Tail} (hword : (word, tail) ∈ tails) {first : Expr} {cs : List Char}
    (h : readOperand (readWithin n) cs = some (first, word.toList ++ rest)) :
    readWithin (n + 1) cs = readTail (readWithin n) first tail rest := by
  simp only [readWithin, select_leads_operand h, h, Option.bind_eq_bind, Option.bind_some, select_tails hword]

theorem readWithin_lead {word : String} {lead : Lead} (hword : (word, lead) ∈ leads) (cs : List Char) :
    readWithin (n + 1) (word.toList ++ cs) = readLead (readWithin n) lead cs := by
  simp only [readWithin, select_leads hword]

def callForms : List (Func × Formatter) :=
  [(.not, .leading "NOT "), (.isNull, .trailing " IS NULL"), (.notNull, .trailing " IS NOT NULL"), (.between, .between),
   (.stringSqlLike, .like)]

theorem get_call {func : Func} {f : Formatter} (h : (func, f) ∈ callForms) :
    Formatter.lookupOrder.get? (.call func) = some f := by
  simp only [callForms, List.mem_cons, Prod.mk.injEq, List.not_mem_nil, or_false] at h
  rcases h with ⟨rfl, rfl⟩ | ⟨rfl, rfl⟩ | ⟨rfl, rfl⟩ | ⟨rfl, rfl⟩ | ⟨rfl, rfl⟩ <;> rfl

section Binary

variable {op : BinaryOp} {left right : Expr} {dtype : DataType} {label : Option String}

theorem written_infixed (hf : Formatter.lookupOrder.get? (.binary op) = some .infixed)
    (h : Written params ⟨.binary op left right, dtype, label⟩ w) :
    ∃ a b, Written params left a ∧ Written params right b ∧
      w = (Layout.mk [] (Sql.binaryPieces op)).fill [bracketed left a, bracketed right b] := by
  obtain ⟨texts, ht, rfl⟩ := written_by h hf
  obtain _ | ⟨⟨a, ha, rfl⟩, _ | ⟨⟨b, hb, rfl⟩, ⟨⟩⟩⟩ := ht
  exact ⟨a, b, ha, hb, rfl⟩

theorem written_function {name : String} (hf : Formatter.lookupOrder.get? (.binary op) = some (.function name (some 2)))
    (h : Written params ⟨.binary op left right, dtype, label⟩ w) :
    ∃ a b, Written params left a ∧ Written params right b ∧ w = name ++ "(" ++ a ++ ", " ++ b ++ ")" := by
  obtain ⟨texts, ht, rfl⟩ := written_by h hf
  obtain _ | ⟨ha, _ | ⟨hb, ⟨⟩⟩⟩ := ht
  refine ⟨_, _, ha, hb, ?_⟩
  simp [Formatter.layout, Expr.operands, Op.operands, Layout.apply, Layout.parts, Layout.fill, Piece.fill,
    List.range_succ, String.append_assoc]

theorem get_binary (hop : op ∈ Expr.formulaOps) :
    (Formatter.lookupOrder.get? (.binary op) = some .infixed ∧
      ((∃ word, (word, Tail.binary op) ∈ tails ∧ Sql.binaryPieces op = [.part 0, .text word, .part 1]) ∨
       ∃ word, (word, Lead.function op true) ∈ leads ∧
         Sql.binaryPieces op = [.text word, .part 0, .text ", ", .part 1, .text ")"])) ∨
    ∃ name, Formatter.lookupOrder.get? (.binary op) = some (.function name (some 2)) ∧
      (name ++ "(", Lead.function op false) ∈ leads := by
  simp only [Expr.formulaOps, List.mem_cons, List.not_mem_nil, or_false] at hop
  rcases hop with rfl | rfl | rfl | rfl | rfl | rfl | rfl | rfl | rfl | rfl | rfl | rfl | rfl | rfl
  case inr.inr.inr.inl => exact .inr ⟨"IEEE_DIVIDE", rfl, by simp [leads]⟩
  case inr.inr.inr.inr.inl => exact .inr ⟨"MOD", rfl, by simp [leads]⟩
  case inr.inr.inr.inr.inr.inl => exact .inl ⟨rfl, .inr ⟨"pow(", by simp [leads], rfl⟩⟩
  all_goals exact .inl ⟨rfl, .inl ⟨_, by simp [tails], rfl⟩⟩

theorem written_binary (hop : op ∈ Expr.formulaOps) (h : Written params ⟨.binary op left right, dtype, label⟩ w) :
    ∃ a b, Written params left a ∧ Written params right b ∧
      ((∃ word, (word, Tail.binary op) ∈ tails ∧ w = bracketed left a ++ word ++ bracketed right b) ∨
       (∃ word, (word, Lead.function op true) ∈ leads ∧
         w = word ++ bracketed left a ++ ", " ++ bracketed right b ++ ")") ∨
       ∃ word, (word, Lead.function op false) ∈ leads ∧ w = word ++ a ++ ", " ++ b ++ ")") := by
  rcases get_binary hop with ⟨hf, hpieces⟩ | ⟨name, hf, hword⟩
  · obtain ⟨a, b, ha, hb, rfl⟩ := written_infixed hf h
    refine ⟨a, b, ha, hb, ?_⟩
    rcases hpieces with ⟨word, hword, hpieces⟩ | ⟨word, hword, hpieces⟩
    · exact .inl ⟨word, hword, by simp [hpieces, Layout.fill, Piece.fill, String.append_assoc]⟩
    · exact .inr (.inl ⟨word, hword, by simp [hpieces, Layout.fill, Piece.fill, String.append_assoc]⟩)
  · obtain ⟨a, b, ha, hb, rfl⟩ := written_function hf h
    exact ⟨a, b, ha, hb, .inr (.inr ⟨_, hword, rfl⟩)⟩

end Binary

theorem readsAs_of_step (h : ∀ n rest, (∀ x ∈ e.operands, x.weight ≤ n) → Ends rest →
    readWithin (n + 1) (w.toList ++ rest) = some (e.bare, rest)) : ReadsAs e w := by
  rintro (_ | n) rest hn hrest
  · exact absurd hn (Nat.not_le.mpr e.weight_pos)
  · exact h n rest (fun x hx => Nat.le_of_lt_succ (Nat.lt_of_lt_of_le (Expr.weight_operand hx) hn)) hrest

theorem readsAs_atom (h : ∀ n rest, Stops rest → readOperand (readWithin n) (w.toList ++ rest) = some (e.bare, rest)) :
    ReadsAs e w :=
  readsAs_of_step fun n rest _ hrest => readWithin_operand (h n rest hrest.stops) hrest

section Reading

variable {x y z : Expr} {a b c word : String} {dtype : DataType} {label : Option String}

theorem readsAs_infixed {op : BinaryOp} (hword : (word, Tail.binary op) ∈ tails) (hx : ReadBack params x a)
    (hy : ReadBack params y b) : ReadsAs ⟨.binary op x y, dtype, label⟩ (bracketed x a ++ word ++ bracketed y b) := by
  refine readsAs_of_step fun n rest hn hrest => ?_
  obtain ⟨hnx, hny⟩ : x.weight ≤ n ∧ y.weight ≤ n := by simpa [Expr.operands, Op.operands] using hn
  have hfirst := readOperand_bracketed hx hnx (stops_tails hword ((bracketed y b).toList ++ rest))
  have hsecond := readOperand_bracketed hy hny hrest.stops
  simp only [String.toList_append, List.append_assoc]
  rw [readWithin_tail hword hfirst, readTail, hsecond, Expr.bare_mk]
  rfl

theorem readsAs_function {op : BinaryOp} (hword : (word, Lead.function op false) ∈ leads) (hx : ReadsAs x a)
    (hy : ReadsAs y b) : ReadsAs ⟨.binary op x y, dtype, label⟩ (word ++ a ++ ", " ++ b ++ ")") := by
  refine readsAs_of_step fun n rest hn _ => ?_
  obtain ⟨hnx, hny⟩ : x.weight ≤ n ∧ y.weight ≤ n := by simpa [Expr.operands, Op.operands] using hn
  have hfirst := hx n (", ".toList ++ (b.toList ++ (")".toList ++ rest))) hnx (by simp [Ends])
  have hsecond := hy n (")".toList ++ rest) hny (by simp [Ends])
  simp only [String.toList_append, List.append_assoc]
  rw [readWithin_lead hword, readLead]
  simp only [Bool.false_eq_true, ↓reduceIte, hfirst, hsecond, expect_append, Option.bind_eq_bind, Option.bind_some]
  rw [Expr.bare_mk]
  rfl

theorem readsAs_power {op : BinaryOp} (hword : (word, Lead.function op true) ∈ leads) (hx : ReadBack params x a)
    (hy : ReadBack params y b) :
    ReadsAs ⟨.binary op x y, dtype, label⟩ (word ++ bracketed x a ++ ", " ++ bracketed y b ++ ")") := by
  refine readsAs_of_step fun n rest hn _ => ?_
  obtain ⟨hnx, hny⟩ : x.weight ≤ n ∧ y.weight ≤ n := by simpa [Expr.operands, Op.operands] using hn
  have hfirst := readOperand_bracketed hx hnx
    (show Stops (", ".toList ++ ((bracketed y b).toList ++ (")".toList ++ rest))) by simp [Stops])
  have hsecond := readOperand_bracketed hy hny (show Stops (")".toList ++ rest) by simp [Stops])
  simp only [String.toList_append, List.append_assoc]
  rw [readWithin_lead hword, readLead]
  simp only [↓reduceIte, hfirst, hsecond, expect_append, Option.bind_eq_bind, Option.bind_some]
  rw [Expr.bare_mk]
  rfl

theorem readsAs_not (hx : ReadBack params x a) : ReadsAs ⟨.call .not [x], dtype, label⟩ ("NOT " ++ bracketed x a) := by
  refine readsAs_of_step fun n rest hn hrest => ?_
  have hnx : x.weight ≤ n := by simpa [Expr.operands, Op.operands] using hn
  have harg := readOperand_bracketed hx hnx hrest.stops
  have hword : ("NOT ", Lead.not) ∈ leads := by simp [leads]
  rw [String.toList_append, List.append_assoc, readWithin_lead hword, readLead, harg, Expr.bare_mk]
  rfl

theorem readsAs_test {func : Func} (hword : (word, Tail.test func) ∈ tails) (hx : ReadBack params x a) :
    ReadsAs ⟨.call func [x], dtype, label⟩ (bracketed x a ++ word) := by
  refine readsAs_of_step fun n rest hn _ => ?_
  have hnx : x.weight ≤ n := by simpa [Expr.operands, Op.operands] using hn
  have harg := readOperand_bracketed hx hnx (stops_tails hword rest)
  rw [String.toList_append, List.append_assoc, readWithin_tail hword harg, readTail, Expr.bare_mk]
  rfl

/-- The word between the bounds is read before any conjunction, since the lower bound is a whole operand. -/
theorem readsAs_between (hx : ReadBack params x a) (hy : ReadBack params y b) (hz : ReadBack params z c) :
    ReadsAs ⟨.call .between [x, y, z], dtype, label⟩
      (bracketed x a ++ " BETWEEN " ++ bracketed y b ++ " AND " ++ bracketed z c) := by
  refine readsAs_of_step fun n rest hn hrest => ?_
  obtain ⟨hnx, hny, hnz⟩ : x.weight ≤ n ∧ y.weight ≤ n ∧ z.weight ≤ n := by
    simpa [Expr.operands, Op.operands] using hn
  have hword : (" BETWEEN ", Tail.between) ∈ tails := by simp [tails]
  have hand : (" AND ", Tail.binary .and) ∈ tails := by simp [tails]
  have harg := readOperand_bracketed hx hnx
    (stops_tails hword ((bracketed y b).toList ++ (" AND ".toList ++ ((bracketed z c).toList ++ rest))))
  have hlower := readOperand_bracketed hy hny (stops_tails hand ((bracketed z c).toList ++ rest))
  have hupper := readOperand_bracketed hz hnz hrest.stops
  simp only [String.toList_append, List.append_assoc]
  rw [readWithin_tail hword harg, readTail]
  simp only [hlower, hupper, expect_append, Option.bind_eq_bind, Option.bind_some]
  rw [Expr.bare_mk]
  rfl

theorem readsAs_like (hx : ReadBack params x a) (hy : ReadBack params y b) :
    ReadsAs ⟨.call .stringSqlLike [x, y], dtype, label⟩ (bracketed x a ++ " LIKE " ++ bracketed y b) := by
  refine readsAs_of_step fun n rest hn hrest => ?_
  obtain ⟨hnx, hny⟩ : x.weight ≤ n ∧ y.weight ≤ n := by simpa [Expr.operands, Op.operands] using hn
  have hword : (" LIKE ", Tail.like) ∈ tails := by simp [tails]
  have hfirst := readOperand_bracketed hx hnx (stops_tails hword ((bracketed y b).toList ++ rest))
  have hsecond := readOperand_bracketed hy hny hrest.stops
  simp only [String.toList_append, List.append_assoc]
  rw [readWithin_tail hword hfirst, readTail, hsecond, Expr.bare_mk]
  rfl

end Reading

theorem readBack (he : e.Formula) (hw : Written params e w) : ReadBack params e w := by
  induction he generalizing w with
  | column h =>
    refine ⟨.column h _ _ _, hw, readsAs_atom fun n rest _ => ?_⟩
    cases written_own rfl hw
    exact readOperand_column h _ _
  | parameter h =>
    refine ⟨.parameter h _ _, hw, readsAs_atom fun n rest hrest => ?_⟩
    cases written_own rfl hw with
    | parameter hplace =>
      obtain rfl := hplace
      exact readOperand_parameter h _ hrest
  | number h =>
    refine ⟨.number h _ _, hw, readsAs_atom fun n rest hrest => ?_⟩
    cases written_own rfl hw with
    | literal hliteral =>
      obtain rfl := literal_int hliteral
      exact readOperand_number h _ hrest
  | binary hop hl hr dtype label ihl ihr =>
    refine ⟨.binary hop hl hr _ _, hw, ?_⟩
    obtain ⟨a, b, ha, hb, ⟨word, hword, rfl⟩ | ⟨word, hword, rfl⟩ | ⟨word, hword, rfl⟩⟩ := written_binary hop hw
    · exact readsAs_infixed hword (ihl ha) (ihr hb)
    · exact readsAs_power hword (ihl ha) (ihr hb)
    · exact readsAs_function hword (ihl ha).reads (ihr hb).reads
  | not harg dtype label ih =>
    refine ⟨.not harg _ _, hw, ?_⟩
    obtain ⟨texts, ht, rfl⟩ := written_by hw (get_call (f := .leading "NOT ") (by simp [callForms]))
    obtain _ | ⟨⟨a, ha, rfl⟩, ⟨⟩⟩ := ht
    exact readsAs_not (ih ha)
  | isNull harg dtype label ih =>
    refine ⟨.isNull harg _ _, hw, ?_⟩
    have hword : (" IS NULL", Tail.test .isNull) ∈ tails := by simp [tails]
    obtain ⟨texts, ht, rfl⟩ := written_by hw (get_call (f := .trailing " IS NULL") (by simp [callForms]))
    obtain _ | ⟨⟨a, ha, rfl⟩, ⟨⟩⟩ := ht
    exact readsAs_test hword (ih ha)
  | notNull harg dtype label ih =>
    refine ⟨.notNull harg _ _, hw, ?_⟩
    have hword : (" IS NOT NULL", Tail.test .notNull) ∈ tails := by simp [tails]
    obtain ⟨texts, ht, rfl⟩ := written_by hw (get_call (f := .trailing " IS NOT NULL") (by simp [callForms]))
    obtain _ | ⟨⟨a, ha, rfl⟩, ⟨⟩⟩ := ht
    exact readsAs_test hword (ih ha)
  | between harg hlower hupper dtype label iharg ihlower ihupper =>
    refine ⟨.between harg hlower hupper _ _, hw, ?_⟩
    obtain ⟨texts, ht, rfl⟩ := written_by hw (get_call (f := .between) (by simp [callForms]))
    obtain _ | ⟨⟨a, ha, rfl⟩, _ | ⟨⟨b, hb, rfl⟩, _ | ⟨⟨c, hc, rfl⟩, ⟨⟩⟩⟩⟩ := ht
    exact readsAs_between (iharg ha) (ihlower hb) (ihupper hc)
  | like harg hpattern dtype label iharg ihpattern =>
    refine ⟨.like harg hpattern _ _, hw, ?_⟩
    obtain ⟨texts, ht, rfl⟩ := written_by hw (get_call (f := .like) (by simp [callForms]))
    obtain _ | ⟨⟨a, ha, rfl⟩, _ | ⟨⟨b, hb, rfl⟩, ⟨⟩⟩⟩ := ht
    exact readsAs_like (iharg ha) (ihpattern hb)

example : (readWithin 3 "\x60a b\x60 BETWEEN (MOD(@p, 7)) AND 10, 1".toList).map Prod.snd = some ", 1".toList := by
  decide +kernel

end Written

section Renders

variable {params : Params} {e : Expr}

def spelt (params : Params) (e : Expr) : Bool :=
  match e.op with
  | .scalarParameter name => (params.lookup name).isSome
  | .literal v => (v.literal e.dtype).toOption.isSome
  | _ => true

def Renders (params : Params) (e : Expr) : Prop :=
  ∀ ctx, ∃ w last, ((Compiler.bigQuery .declared).target params).render e ctx = .ok (w, last)

theorem renders_of_steps {f : Formatter} (hf : Formatter.lookupOrder.get? e.kind = some f)
    (h : ∀ s ∈ (f.layout e).steps, (∃ x, s.expr? = some x ∧ Renders params x) ∨
      ∃ name dtype, s = .parameter name dtype ∧ (params.lookup name).isSome) : Renders params e := by
  intro ctx
  have hget : ((Compiler.bigQuery .declared).target params).formatters.get? e.kind = some f :=
    (Formatter.get_lookupOrder _).trans hf
  cases hr : ((Compiler.bigQuery .declared).target params).render e ctx with
  | ok r => exact ⟨r.1, r.2, rfl⟩
  | error error =>
    rw [Target.render_eq, hget] at hr
    rcases render_bind_error hr with hr | ⟨texts, mid, -, hr⟩
    · obtain ⟨s, hs, mid, hstep⟩ := Target.mapM_error hr
      rcases h s hs with ⟨x, hx, hrenders⟩ | ⟨name, dtype, rfl, hsome⟩
      · rcases Target.takeStep_error hstep with ⟨y, hy, hwrite⟩ | ⟨name, dtype, rfl, -⟩ | rfl
        · obtain rfl : x = y := Option.some.inj (hx.symm.trans hy)
          obtain ⟨w, last, hok⟩ := hrenders mid
          rw [hok] at hwrite
          cases hwrite
        · cases hx
        · cases hx
      · simp [(Compiler.placeholder_error hstep).2] at hsome
    · cases hr

theorem spelt_self (h : ∀ x ∈ e.nodes, spelt params x) : spelt params e :=
  h e (Expr.nodes_eq e ▸ List.mem_cons_self)

theorem spelt_operand {x : Expr} (hx : x ∈ e.operands) (h : ∀ y ∈ e.nodes, spelt params y) :
    ∀ y ∈ x.nodes, spelt params y := by
  intro y hy
  rw [Expr.nodes_eq] at h
  exact h y (List.mem_cons_of_mem _ (List.mem_flatMap.mpr ⟨x, hx, hy⟩))

theorem renders_of_operands {f : Formatter} (hf : Formatter.lookupOrder.get? e.kind = some f)
    (hsteps : (f.layout e).steps = e.operands.map .nested ∨ (f.layout e).steps = e.operands.map .operand)
    (h : ∀ x ∈ e.operands, Renders params x) : Renders params e := by
  refine renders_of_steps hf fun s hs => .inl ?_
  rcases hsteps with hsteps | hsteps
  · obtain ⟨x, hx, rfl⟩ := List.mem_map.mp (hsteps ▸ hs)
    exact ⟨x, rfl, h x hx⟩
  · obtain ⟨x, hx, rfl⟩ := List.mem_map.mp (hsteps ▸ hs)
    exact ⟨x, rfl, h x hx⟩

theorem renders_binary {op : BinaryOp} {left right : Expr} (hop : op ∈ Expr.formulaOps) (hl : Renders params left)
    (hr : Renders params right) (dtype : DataType) (label : Option String) :
    Renders params ⟨.binary op left right, dtype, label⟩ := by
  have hoperands : ∀ x ∈ (Expr.mk (.binary op left right) dtype label).operands, Renders params x := by
    simp [Expr.operands, Op.operands, hl, hr]
  rcases get_binary hop with ⟨hf, -⟩ | ⟨name, hf, -⟩
  · exact renders_of_operands hf (.inl rfl) hoperands
  · exact renders_of_operands hf (.inr rfl) hoperands

theorem renders_formula (he : e.Formula) (hs : ∀ x ∈ e.nodes, spelt params x) : Renders params e := by
  induction he with
  | column => exact renders_of_operands (f := .column) rfl (.inl rfl) (by simp [Expr.operands, Op.operands])
  | parameter =>
    refine renders_of_steps (f := .parameter) rfl fun s hstep => .inr ?_
    obtain rfl := List.mem_singleton.mp hstep
    exact ⟨_, _, rfl, spelt_self hs⟩
  | @number i _ dtype label =>
    obtain ⟨w, hw⟩ : ∃ w, (Value.int i).literal dtype = .ok w := by
      cases hw : (Value.int i).literal dtype with
      | ok w => exact ⟨w, rfl⟩
      | error error => simpa [spelt, hw, Except.toOption] using spelt_self hs
    have hlayout : Formatter.literal.layout ⟨.literal (.int i), dtype, label⟩ =
        .ofExcept ((Value.int i).literal dtype) := rfl
    refine renders_of_operands (f := .literal) rfl (.inl ?_) (by simp [Expr.operands, Op.operands])
    rw [hlayout, hw]
    rfl
  | binary hop _ _ dtype label ihl ihr =>
    exact renders_binary hop (ihl (spelt_operand (by simp [Expr.operands, Op.operands]) hs))
      (ihr (spelt_operand (by simp [Expr.operands, Op.operands]) hs)) dtype label
  | not _ dtype label ih =>
    refine renders_of_operands (get_call (f := .leading "NOT ") (by simp [callForms])) (.inl rfl) fun x hx => ?_
    obtain rfl := List.mem_singleton.mp hx
    exact ih (spelt_operand hx hs)
  | isNull _ dtype label ih =>
    refine renders_of_operands (get_call (f := .trailing " IS NULL") (by simp [callForms])) (.inl rfl) fun x hx => ?_
    obtain rfl := List.mem_singleton.mp hx
    exact ih (spelt_operand hx hs)
  | notNull _ dtype label ih =>
    have hform : (Func.notNull, Formatter.trailing " IS NOT NULL") ∈ callForms := by simp [callForms]
    refine renders_of_operands (get_call hform) (.inl rfl) fun x hx => ?_
    obtain rfl := List.mem_singleton.mp hx
    exact ih (spelt_operand hx hs)
  | @between arg lower upper _ _ _ dtype label iharg ihlower ihupper =>
    refine renders_of_operands (get_call (f := .between) (by simp [callForms])) (.inl rfl) fun x hx => ?_
    have hx' : x = arg ∨ x = lower ∨ x = upper := by simpa [Expr.operands, Op.operands] using hx
    rcases hx' with rfl | rfl | rfl
    · exact iharg (spelt_operand hx hs)
    · exact ihlower (spelt_operand hx hs)
    · exact ihupper (spelt_operand hx hs)
  | @like arg pattern _ _ dtype label iharg ihpattern =>
    refine renders_of_operands (get_call (f := .like) (by simp [callForms])) (.inl rfl) fun x hx => ?_
    have hx' : x = arg ∨ x = pattern := by simpa [Expr.operands, Op.operands] using hx
    rcases hx' with rfl | rfl
    · exact iharg (spelt_operand hx hs)
    · exact ihpattern (spelt_operand hx hs)

end Renders

end Formula

namespace Compiler

/-- A formula is written as soon as its parameters have values and its numbers are of types that numbers are written
with, and its text tells all that is written of it. -/
theorem formulas_told_by_text (params : Params) :
    (∀ e : Expr, e.Formula → (∀ x ∈ e.nodes, Formula.spelt params x) →
      ∀ ctx, ∃ w last, ((bigQuery .declared).target params).render e ctx = .ok (w, last)) ∧
    ∀ (others : Params) (e e' : Expr) (w : String), e.Formula → e'.Formula →
      ((bigQuery .declared).target params).Writes e w → ((bigQuery .declared).target others).Writes e' w →
      e.bare = e'.bare := by
  refine ⟨fun e he hs => Formula.renders_formula he hs, ?_⟩
  intro others e e' w he he' hw hw'
  have hends : Formula.Ends [] := by simp [Formula.Ends]
  have hread := (Formula.readBack he hw).reads (max e.weight e'.weight) [] (Nat.le_max_left _ _) hends
  have hread' := (Formula.readBack he' hw').reads (max e.weight e'.weight) [] (Nat.le_max_right _ _) hends
  rw [hread] at hread'
  exact congrArg Prod.fst (Option.some.inj hread')

def rangeOf (table : Option String) (dtype : DataType) : Expr :=
  .call .between [.column "x" table dtype, (Expr.param "p" .bool).and (.not (.column "y" table .bool)),
    .literal (.int 10) dtype] .bool

theorem formula_rangeOf (table : Option String) (dtype : DataType) : (rangeOf table dtype).Formula :=
  .between (.column (by decide) _ _ _)
    (.binary (by decide) (.parameter (by decide) _ _) (.not (.column (by decide) _ _ _) _ _) _ _)
    (.number (by decide) _ _) _ _

theorem ranges_told_by_text :
    ((bigQuery .declared).target [("p", .bool true)]).Writes (rangeOf (some "t") .int64)
      "\x60x\x60 BETWEEN (@p AND (NOT \x60y\x60)) AND 10" ∧
    (rangeOf (some "t") .int64).bare = (rangeOf none .float64).bare ∧
    ∃ w last,
      ((bigQuery .declared).target [("p", .bool true)]).render (rangeOf none .float64) .start = .ok (w, last) := by
  obtain ⟨hrenders, htold⟩ := formulas_told_by_text [("p", .bool true)]
  have hwrites : ((bigQuery .declared).target [("p", .bool true)]).Writes (rangeOf (some "t") .int64)
      "\x60x\x60 BETWEEN (@p AND (NOT \x60y\x60)) AND 10" := by
    refine Target.writes_of_run ?_
    rw [render_ordered]
    decide +kernel
  have hother : ((bigQuery .declared).target [("p", .bool true)]).Writes (rangeOf none .float64)
      "\x60x\x60 BETWEEN (@p AND (NOT \x60y\x60)) AND 10" := by
    refine Target.writes_of_run ?_
    rw [render_ordered]
    decide +kernel
  refine ⟨hwrites, htold _ _ _ _ (formula_rangeOf _ _) (formula_rangeOf _ _) hwrites hother, ?_⟩
  exact hrenders _ (formula_rangeOf _ _) (by decide +kernel) .start

end Compiler

end BigQuerySql
