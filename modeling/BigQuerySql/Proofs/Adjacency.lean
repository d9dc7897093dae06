import BigQuerySql.Proofs.Shapes

namespace BigQuerySql

open Lexis

namespace Lexis

def scanned (s : String) : List Token :=
  (read .blank s.toList).2 ++ (read .blank s.toList).1.finish.getD []

namespace Token

def isAccessor : Token → Bool
  | .symbol c => c == '.' || c == '['
  | _ => false

def isBound : Token → Bool
  | .symbol c => "()[],".toList.contains c
  | _ => false

end Token

def leadsIn (s : String) : Bool :=
  ((scanned s).reverse.takeWhile fun t => !t.isBound).any Token.isOperator

def leadsOut (s : String) : Bool :=
  (scanned s).head?.any fun t => t.isOperator || t.isAccessor

def followed : List Piece → Bool
  | .text s :: _ => leadsOut s
  | _ => false

/-- The parts next to an operator or before an accessor; the flag says whether the text before leads in. -/
def exposedParts : Bool → List Piece → List Nat
  | _, [] => []
  | _, .text s :: rest => exposedParts (leadsIn s) rest
  | before, .part i :: rest =>
    if before || followed rest then i :: exposedParts false rest else exposedParts false rest

def still (s : String) : Bool :=
  !leadsIn s && !leadsOut s

theorem exposedParts_still {pieces : List Piece} (h : ∀ s, .text s ∈ pieces → still s) :
    exposedParts false pieces = [] := by
  induction pieces with
  | nil => rfl
  | cons p rest ih =>
    have hrest := ih fun s hs => h s (.tail _ hs)
    cases p with
    | text s =>
      obtain ⟨hin, -⟩ : leadsIn s = false ∧ leadsOut s = false := by simpa [still] using h s (by simp)
      rw [exposedParts, hin, hrest]
    | part i =>
      have hnext : followed rest = false := by
        cases rest with
        | nil => rfl
        | cons q rest =>
          cases q with
          | part j => rfl
          | text s =>
            obtain ⟨-, hout⟩ : leadsIn s = false ∧ leadsOut s = false := by simpa [still] using h s (by simp)
            exact hout
      simp [exposedParts, hnext, hrest]

theorem leadsOut_append {u v : String} {t : Token} {ts : List Token} (h : (read .blank u.toList).2 = t :: ts) :
    leadsOut (u ++ v) = (t.isOperator || t.isAccessor) := by
  rw [leadsOut, scanned, String.toList_append, read_append, h]
  rfl

theorem still_of_text {s : String} (h : tokens? s.toList = some [.text]) : still s := by
  obtain ⟨last, hlast, htokens⟩ := Option.map_eq_some_iff.mp h
  have hscan : scanned s = [.text] := by rw [scanned, hlast, Option.getD_some, htokens]
  rw [still, leadsIn, leadsOut, hscan]
  decide

end Lexis

namespace Layout

def besides (l : Layout) : List Step :=
  (exposedParts false l.pieces).filterMap (l.steps[·]?)

theorem mem_steps_of_besides {l : Layout} {s : Step} (h : s ∈ l.besides) : s ∈ l.steps := by
  obtain ⟨i, -, hi⟩ := List.mem_filterMap.mp h
  exact List.mem_of_getElem? hi

theorem exposed_apply {name : String} (h : still (name ++ "(")) (args : List Expr) :
    exposedParts false (apply name args).pieces = [] := by
  refine exposedParts_still fun s hs => ?_
  simp only [apply, List.mem_cons, List.mem_append, Piece.text.injEq, or_false, List.not_mem_nil] at hs
  rcases hs with rfl | hs | rfl
  · exact h
  · rw [text_mem_parts hs]
    decide
  · decide

theorem exposed_around {before after : String} (hb : still before) (ha : still after) :
    exposedParts false [.text before, .part 0, .text after] = [] := by
  refine exposedParts_still fun s hs => ?_
  obtain rfl | rfl : s = before ∨ s = after := by simpa using hs
  · exact hb
  · exact ha

end Layout

namespace Kind

def adjoins : Kind → Bool
  | .binary op => op != .divide && op != .modulus && op != .power
  | .call func =>
    [.negate, .not, .isNull, .notNull, .between, .stringSqlLike, .substring, .arrayIndex].contains func
  | .timestampFromUnix => true
  | .structField => true
  | _ => false

def bracketsOperands : Kind → Bool
  | .binary _ => true
  | .call func => func != .arrayIndex
  | _ => false

def stepTo (k : Kind) (y : Expr) : Step :=
  if k.bracketsOperands then .nested y else .operand y

end Kind

def Expr.besideOperator (e : Expr) : List Expr :=
  if e.kind.adjoins then
    match e.op with
    | .binary _ left right => [left, right]
    | .call .substring args => (args.drop 1).take 1
    | .call .arrayIndex args => args.take 1
    | .call _ args => args
    | .timestampFromUnix arg .nanosecond => [arg]
    | .structField arg _ => [arg]
    | _ => []
  else []

theorem Expr.eq_call_of_kind {e : Expr} {func : Func} (h : e.kind = .call func) :
    ∃ args dtype label, e = ⟨.call func args, dtype, label⟩ := by
  obtain ⟨op, dtype, label⟩ := e
  cases op <;> simp_all [kind, Op.kind]

namespace Formatter

open Sql

def placesOperands : Kind × Formatter → Bool
  | (k, .infixed) =>
    match k with
    | .binary op =>
      if k.adjoins then [0, 1].all (exposedParts false (binaryPieces op)).contains
      else exposedParts false (binaryPieces op) == []
    | _ => false
  | (k, .template _ pieces) =>
    if k.adjoins then k == .call .arrayIndex && exposedParts false pieces == [0]
    else exposedParts false pieces == []
  | (k, .leading words) =>
    k.adjoins && [.call .negate, .call .not].contains k && exposedParts false [.text words, .part 0] == [0]
  | (k, .trailing words) =>
    k.adjoins && [.call .isNull, .call .notNull].contains k && exposedParts false [.part 0, .text words] == [0]
  | (k, .between) => k.adjoins && k == .call .between
  | (k, .like) => k.adjoins && k == .call .stringSqlLike
  | (k, .substring) => k.adjoins && k == .call .substring
  | (k, .timestampFromUnix) => k.adjoins && k == .timestampFromUnix
  | (k, .structField) => k.adjoins && k == .structField
  | (k, .function name _) => !k.adjoins && still (name ++ "(")
  | (k, .intervalArithmetic name _) => !k.adjoins && still (name ++ "(")
  | (k, .reduction name) => !k.adjoins && still (name ++ "(")
  | (k, .singleReduction before after) => !k.adjoins && still before && still after
  | (k, .regex before middle after _) => !k.adjoins && still before && still middle && still after
  | (k, .truncate name units) =>
    !k.adjoins && still (name ++ "_TRUNC(") && units.all fun unit => still (", " ++ unit.sqlName ++ ")")
  | (k, _) => !k.adjoins

theorem bigQuery_placesOperands {k : Kind} {f : Formatter} (h : bigQuery.get? k = some f) :
    placesOperands (k, f) :=
  bigQuery_all (by decide +kernel) (by decide +kernel) h

theorem still_chainPieces {kind : SetOpKind} {parts : List Expr} {words : List String}
    (hw : ∀ word ∈ words, ∃ distinct, setKeyword kind distinct = .ok word) (i : Nat) {s : String}
    (h : .text s ∈ chainPieces i parts words) : still s := by
  induction parts generalizing i words with
  | nil => simp [chainPieces] at h
  | cons e rest ih =>
    have hpart (hs : .text s ∈ chainPart i e) : still s := by
      unfold chainPart at hs
      split at hs
      · obtain rfl | rfl : s = "(" ∨ s = ")" := by simpa using hs
        · decide
        · decide
      · simp at hs
    rw [chainPieces.eq_def] at h
    rcases List.mem_append.mp h with h | h
    · exact hpart h
    · split at h
      next => simp at h
      next word words _ _ =>
        rcases List.mem_cons.mp h with h | h
        · obtain rfl : s = "\n" ++ word ++ "\n" := by simpa using h
          obtain ⟨distinct, hword⟩ := hw word (by simp)
          cases kind <;> cases distinct <;> simp only [setKeyword, Except.ok.injEq, reduceCtorEq] at hword <;>
            subst hword <;> decide
        · exact ih (fun w hmem => hw w (.tail _ hmem)) (i + 1) h
      next => exact ih (by simp) (i + 1) h

theorem exposed_regex {before middle after : String} (hb : still before) (hm : still middle) (ha : still after)
    (arg pattern : Expr) (others : List Expr) :
    exposedParts false (regexLayout before middle after arg pattern others).pieces = [] := by
  refine exposedParts_still fun s hs => ?_
  have hcomma : still ", " := by decide
  simp only [regexLayout] at hs
  split at hs
  next raw hraw =>
    have htext := still_of_text (tokens_rawPattern hraw)
    split at hs <;> simp at hs <;> rcases hs with rfl | rfl | rfl | hs <;> grind
  next =>
    split at hs <;> simp at hs <;> grind

theorem exposed_cast {before words name : String} {t : Token} {ts : List Token} (hb : still before)
    (hw : (read .blank words.toList).2 = t :: ts) (ht : (t.isOperator || t.isAccessor) = false) :
    exposedParts false [.text before, .part 0, .text (words ++ name ++ ")")] = [] := by
  have hin : leadsIn before = false := by
    have hstill := hb
    simp only [still, Bool.and_eq_true, Bool.not_eq_true'] at hstill
    exact hstill.1
  have hout : leadsOut (words ++ name ++ ")") = false := by
    rw [String.append_assoc, leadsOut_append hw, ht]
  simp [exposedParts, followed, hin, hout]

theorem exposed_format {dtype : DataType} {pieces : List Piece} (h : formatPieces dtype = .ok pieces) :
    exposedParts false pieces = [] := by
  cases dtype with
  | date =>
    obtain rfl : _ = pieces := by simpa [formatPieces] using h
    decide +kernel
  | time =>
    obtain rfl : _ = pieces := by simpa [formatPieces] using h
    decide +kernel
  | timestamp zone =>
    obtain rfl : _ = pieces := by simpa [formatPieces] using h
    have htext := still_of_text (tokens_stringLiteral (zone.getD "UTC"))
    refine exposedParts_still fun s hs => ?_
    simp only [List.mem_cons, Piece.text.injEq, reduceCtorEq, false_or, List.not_mem_nil, or_false] at hs
    rcases hs with rfl | rfl | rfl | rfl | rfl
    · decide
    · decide
    · decide
    · exact htext
    · decide
  | _ => simp [formatPieces] at h

theorem exposed_stringJoin (n : Nat) :
    exposedParts false (.text "ARRAY_TO_STRING([" :: (Layout.parts ", " 0 n ++
      [Piece.text "], ", .part n, .text ")"])) = [] := by
  refine exposedParts_still fun s hs => ?_
  simp only [List.mem_cons, List.mem_append, Piece.text.injEq, reduceCtorEq, false_or, List.not_mem_nil,
    or_false] at hs
  rcases hs with rfl | hs | rfl | rfl
  · decide
  · rw [Layout.text_mem_parts hs]
    decide
  · decide
  · decide

theorem exposed_plain {f : Formatter} (hf : f.isPlain) (hs : f ≠ .substring) (hu : f ≠ .timestampFromUnix)
    (e : Expr) : exposedParts false (f.layout e).pieces = [] := by
  have hcase : exposedParts false ["CASE WHEN ", .part 0, " THEN ", .part 1, " ELSE ", .part 2, " END"] = [] := by
    decide
  have hdigests : ∀ name ∈ ["md5", "sha1", "sha256", "sha512"], still (name ++ "(") := by decide
  have hlayout := f.outcome e
  generalize f.layout e = l at hlayout
  cases hlayout with
  | fails => rfl
  | substringFrom | substring => exact absurd rfl hs
  | timestampFromUnix => exact absurd rfl hu
  | conditional => exact hcase
  | hash hop hhow => exact Layout.exposed_apply (hhow ▸ by decide) _
  | hashBytes hop hhow => exact Layout.exposed_apply (hdigests _ hhow) _
  | strftime hop hp => exact exposed_format hp
  | stringJoin => exact exposed_stringJoin _
  | countDistinct => exact Layout.exposed_around (by decide) (by decide)
  | ln | log | stringToTimestamp | simplify | arbitrary | sampleCovariance | populationCovariance =>
    exact Layout.exposed_apply (by decide) _
  | _ => cases hf

theorem exposed_nil {e : Expr} {f : Formatter} (hf : bigQuery.get? e.kind = some f) (hk : e.kind.adjoins = false)
    (hscan : e.kind ≠ .tableScan) : exposedParts false (f.layout e).pieces = [] := by
  have hplaces := bigQuery_placesOperands hf
  have hfits := bigQuery_fits hf
  have hown := bigQuery_keepsOwnKind hf
  cases hplain : f.isPlain with
  | true =>
    refine exposed_plain hplain ?_ ?_ e <;> rintro rfl <;> simp [placesOperands, hk] at hplaces
  | false =>
    have hlayout := f.outcome e
    generalize f.layout e = l at hlayout
    cases hlayout with
    | fails | literal | column | parameter => rfl
    | tableScan => exact absurd (by simpa [keepsOwnKind, ownKind?] using hown) hscan
    | cast ho hp =>
      have hwords : (read .blank " AS ".toList).2 = [.word "AS".toList] := by decide
      rcases castPieces_ok hp with ⟨-, rfl⟩ | ⟨name, -, rfl⟩
      · exact Layout.exposed_around (by decide) (by decide)
      · exact exposed_cast (by decide) hwords (by decide)
    | floor =>
      have hwords : (read .blank ") AS ".toList).2 = [.symbol ')', .word "AS".toList] := by decide
      exact exposed_cast (by decide) hwords (by decide)
    | template => simpa [placesOperands, hk] using hplaces
    | @infixed op left right hop =>
      have hkind : e.kind = .binary op := by simp [Expr.kind, Op.kind, hop]
      rw [hkind] at hplaces hk
      simpa [placesOperands, hk] using hplaces
    | setOp hop hflat => exact exposedParts_still fun s hs => still_chainPieces (flatten_words hflat) 0 hs
    | stringFind =>
      have hfind : exposedParts false ["STRPOS(", .part 0, ", ", .part 1, ") - 1"] = [] := by decide
      exact hfind
    | @truncate name units kind arg unit hop hunit =>
      obtain ⟨⟨-, hname⟩, hunits⟩ : (e.kind.adjoins = false ∧ still (name ++ "_TRUNC(") = true) ∧
          ∀ unit ∈ units, still (", " ++ unit.sqlName ++ ")") = true := by
        simpa [placesOperands] using hplaces
      exact Layout.exposed_around hname (hunits unit hunit)
    | function | intervalArithmetic | reduction =>
      obtain ⟨-, hname⟩ := Bool.and_eq_true_iff.mp hplaces
      exact Layout.exposed_apply hname _
    | @regex before middle after arity arg pattern others =>
      obtain ⟨⟨⟨-, hb⟩, hm⟩, ha⟩ : ((e.kind.adjoins = false ∧ still before = true) ∧ still middle = true) ∧
          still after = true := by
        simpa [placesOperands] using hplaces
      exact exposed_regex hb hm ha _ _ _
    | @singleReduction before after =>
      obtain ⟨⟨-, hb⟩, ha⟩ : (e.kind.adjoins = false ∧ still before = true) ∧ still after = true := by
        simpa [placesOperands] using hplaces
      exact Layout.exposed_around hb ha
    | leading | trailing | between | like | substringFrom | substring | timestampFromUnix | structField =>
      simp [placesOperands, hk] at hplaces
    | genericLiteral | genericCast | genericSetOp | genericLn | baseFirstLog | genericSubstringFrom | genericSubstring
    | findInSet => cases hfits
    | _ => cases hplain

theorem mem_besides_all {s : Step} {steps : List Step} {pieces : List Piece}
    (h : ∀ i < steps.length, i ∈ exposedParts false pieces) : s ∈ Layout.besides ⟨steps, pieces⟩ ↔ s ∈ steps := by
  rw [Layout.besides, List.mem_filterMap]
  constructor
  · rintro ⟨i, -, hi⟩
    exact List.mem_of_getElem? hi
  · intro hs
    obtain ⟨i, hi⟩ := List.mem_iff_getElem?.mp hs
    exact ⟨i, h i (List.getElem?_eq_some_iff.mp hi).1, hi⟩

theorem mem_besides_call {e : Expr} {func : Func} (hkind : e.kind = .call func) {args : List Expr}
    (hargs : e.operands = args) (hk : e.kind.adjoins) (hs : func ≠ .substring) (ha : func ≠ .arrayIndex)
    {pieces : List Piece} (h : ∀ i < args.length, i ∈ exposedParts false pieces) (s : Step) :
    s ∈ Layout.besides ⟨args.map .nested, pieces⟩ ↔ ∃ y ∈ e.besideOperator, s = e.kind.stepTo y := by
  have hbeside : e.besideOperator = args := by
    obtain ⟨args, dtype, label, rfl⟩ := Expr.eq_call_of_kind hkind
    rw [Expr.besideOperator, if_pos hk, ← hargs]
    split <;> simp_all [Expr.operands, Op.operands]
  have hstep (y : Expr) : e.kind.stepTo y = .nested y := by
    simp [hkind, Kind.stepTo, Kind.bracketsOperands, ha]
  rw [mem_besides_all (by simpa using h), hbeside, List.mem_map]
  simp only [hstep, eq_comm]

section Besides

variable {dtype : DataType} {label : Option String}

theorem mem_besides_binary {op : BinaryOp} {left right : Expr} (hk : (Kind.binary op).adjoins)
    (hplaces : placesOperands (.binary op, .infixed)) (s : Step) :
    s ∈ Layout.besides ⟨[.nested left, .nested right], binaryPieces op⟩ ↔
      ∃ y ∈ Expr.besideOperator ⟨.binary op left right, dtype, label⟩, s = Kind.stepTo (.binary op) y := by
  have hboth : 0 ∈ exposedParts false (binaryPieces op) ∧ 1 ∈ exposedParts false (binaryPieces op) := by
    simpa [placesOperands, hk] using hplaces
  have hall : ∀ i < 2, i ∈ exposedParts false (binaryPieces op) := by
    intro i hi
    obtain rfl | rfl : i = 0 ∨ i = 1 := by omega
    · exact hboth.1
    · exact hboth.2
  have hmem : s ∈ Layout.besides ⟨[.nested left, .nested right], binaryPieces op⟩ ↔ _ := mem_besides_all hall
  simpa [Expr.besideOperator, hk, Kind.stepTo, Kind.bracketsOperands, Expr.kind, Op.kind] using hmem

theorem mem_besides_index {args : List Expr} {pieces : List Piece} (hpart : exposedParts false pieces = [0])
    (s : Step) : s ∈ Layout.besides ⟨args.map .operand, pieces⟩ ↔
      ∃ y ∈ Expr.besideOperator ⟨.call .arrayIndex args, dtype, label⟩, s = Kind.stepTo (.call .arrayIndex) y := by
  cases args with
  | nil => exact iff_of_false (by simp [Layout.besides]) (by simp [Expr.besideOperator])
  | cons arg args =>
    have hbeside : Expr.besideOperator ⟨.call .arrayIndex (arg :: args), dtype, label⟩ = [arg] := rfl
    have hstep : Kind.stepTo (.call .arrayIndex) arg = .operand arg := rfl
    simp [Layout.besides, hpart, hbeside, hstep, @eq_comm _ s]

theorem mem_besides_substring {arg start : Expr} (others : List Expr) {pieces : List Piece}
    (hpart : exposedParts false pieces = [1]) (s : Step) :
    s ∈ Layout.besides ⟨.operand arg :: .nested start :: others.map .operand, pieces⟩ ↔
      ∃ y ∈ Expr.besideOperator ⟨.call .substring (arg :: start :: others), dtype, label⟩,
        s = Kind.stepTo (.call .substring) y := by
  have hbeside : Expr.besideOperator ⟨.call .substring (arg :: start :: others), dtype, label⟩ = [start] := rfl
  have hstep : Kind.stepTo (.call .substring) start = .nested start := rfl
  simp [Layout.besides, hpart, hbeside, hstep, @eq_comm _ s]

theorem mem_besides_unix {arg : Expr} {unit : IntervalUnit} {pieces : List Piece} (hp : unixPieces unit = .ok pieces)
    (s : Step) : s ∈ Layout.besides ⟨[.operand arg], pieces⟩ ↔
      ∃ y ∈ Expr.besideOperator ⟨.timestampFromUnix arg unit, dtype, label⟩, s = Kind.stepTo .timestampFromUnix y := by
  have hwhole {before : String} (hb : still before) : s ∈ Layout.besides ⟨[.operand arg],
      [.text before, .part 0, .text ")"]⟩ ↔ ∃ y ∈ ([] : List Expr), s = .operand y := by
    simp [Layout.besides, Layout.exposed_around hb (by decide : still ")")]
  cases unit <;> cases hp
  · exact hwhole (by decide)
  · exact hwhole (by decide)
  · exact hwhole (by decide)
  · have hpart : exposedParts false ["TIMESTAMP_MICROS(CAST(ROUND(", .part 0, " / 1000) AS INT64))"] = [0] := by decide
    have hbeside : Expr.besideOperator ⟨.timestampFromUnix arg .nanosecond, dtype, label⟩ = [arg] := rfl
    have hstep : Kind.stepTo .timestampFromUnix arg = .operand arg := rfl
    simp [Layout.besides, hpart, hbeside, hstep, @eq_comm _ s]

theorem mem_besides_field {arg : Expr} {field : String} (s : Step) :
    s ∈ Layout.besides ⟨[.operand arg], [.part 0, .text ("." ++ backtick field)]⟩ ↔
      ∃ y ∈ Expr.besideOperator ⟨.structField arg field, dtype, label⟩, s = Kind.stepTo .structField y := by
  have hpart : exposedParts false [.part 0, .text ("." ++ backtick field)] = [0] := by
    have hout : leadsOut ("." ++ backtick field) = true :=
      leadsOut_append (by decide : (read .blank ".".toList).2 = [.symbol '.'])
    simp [exposedParts, followed, hout]
  have hbeside : Expr.besideOperator ⟨.structField arg field, dtype, label⟩ = [arg] := rfl
  have hstep : Kind.stepTo .structField arg = .operand arg := rfl
  simp [Layout.besides, hpart, hbeside, hstep, @eq_comm _ s]

end Besides

theorem mem_besides {t : Target} {P : Expr → String → Prop} {e : Expr} {f : Formatter} {texts : List String}
    (hf : bigQuery.get? e.kind = some f) (ht : List.Forall₂ (t.Takes P) (f.layout e).steps texts) {s : Step}
    (hs : s.expr?.isSome) : s ∈ (f.layout e).besides ↔ ∃ y ∈ e.besideOperator, s = e.kind.stepTo y := by
  have hplaces := bigQuery_placesOperands hf
  cases hk : e.kind.adjoins with
  | false =>
    have hnone : e.besideOperator = [] := by simp [Expr.besideOperator, hk]
    by_cases hscan : e.kind = .tableScan
    · -- The name of a table stands after the star of its columns, but is no operand.
      rw [hscan] at hf
      obtain rfl := bigQuery_tableScan hf
      simp only [layout, hnone]
      split
      next name schema _ =>
        refine iff_of_false (fun hmem => ?_) (by simp)
        obtain rfl : s = .table name := by simpa using Layout.mem_steps_of_besides hmem
        simp [Step.expr?] at hs
      next => simp [Layout.besides, Layout.malformed, Layout.failure, exposedParts]
    · simp [Layout.besides, exposed_nil hf hk hscan, hnone]
  | true =>
    have hlayout := f.outcome e
    generalize f.layout e = l at hlayout ht ⊢
    have hcall (args : List Expr) {func : Func} {pieces : List Piece} (hkind : e.kind = .call func)
        (hshort : func ≠ .substring ∧ func ≠ .arrayIndex) (ho : e.operands = args)
        (hall : ∀ i < args.length, i ∈ exposedParts false pieces) :
        s ∈ Layout.besides ⟨args.map .nested, pieces⟩ ↔ ∃ y ∈ e.besideOperator, s = e.kind.stepTo y :=
      mem_besides_call hkind ho hk hshort.1 hshort.2 hall s
    cases hlayout with
    | @infixed op left right hop =>
      obtain ⟨o, dtype, label⟩ := e
      obtain rfl : o = .binary op left right := hop
      exact mem_besides_binary hk hplaces s
    | @leading words arg ho =>
      obtain ⟨hkind, hpart⟩ : (e.kind = .call .negate ∨ e.kind = .call .not) ∧
          exposedParts false [.text words, .part 0] = [0] := by
        simpa [placesOperands, hk] using hplaces
      rcases hkind with hkind | hkind <;> exact hcall [arg] hkind (by decide) ho (by simp [hpart])
    | @trailing words arg ho =>
      obtain ⟨hkind, hpart⟩ : (e.kind = .call .isNull ∨ e.kind = .call .notNull) ∧
          exposedParts false [.part 0, .text words] = [0] := by
        simpa [placesOperands, hk] using hplaces
      rcases hkind with hkind | hkind <;> exact hcall [arg] hkind (by decide) ho (by simp [hpart])
    | @between arg lower upper ho =>
      have hall : ∀ i < 3, i ∈ exposedParts false [.part 0, " BETWEEN ", .part 1, " AND ", .part 2] := by decide
      exact hcall [arg, lower, upper] (by simpa [placesOperands, hk] using hplaces) (by decide) ho hall
    | @like arg pattern ho =>
      have hall : ∀ i < 2, i ∈ exposedParts false [.part 0, " LIKE ", .part 1] := by decide
      exact hcall [arg, pattern] (by simpa [placesOperands, hk] using hplaces) (by decide) ho hall
    | @template arity pieces hlen =>
      obtain ⟨hkind, hpart⟩ : e.kind = .call .arrayIndex ∧ exposedParts false pieces = [0] := by
        simpa [placesOperands, hk] using hplaces
      obtain ⟨args, dtype, label, rfl⟩ := Expr.eq_call_of_kind hkind
      exact mem_besides_index hpart s
    | substringFrom ho =>
      have hpart : exposedParts false ["substr(", .part 0, ", ", .part 1, " + 1)"] = [1] := by decide
      have hkind : e.kind = .call .substring := by simpa [placesOperands, hk] using hplaces
      obtain ⟨args, dtype, label, rfl⟩ := Expr.eq_call_of_kind hkind
      cases ho
      exact mem_besides_substring [] hpart s
    | @substring arg start length ho =>
      have hpart : exposedParts false ["substr(", .part 0, ", ", .part 1, " + 1, ", .part 2, ")"] = [1] := by decide
      have hkind : e.kind = .call .substring := by simpa [placesOperands, hk] using hplaces
      obtain ⟨args, dtype, label, rfl⟩ := Expr.eq_call_of_kind hkind
      cases ho
      exact mem_besides_substring [length] hpart s
    | @timestampFromUnix arg unit pieces hop hp =>
      obtain ⟨o, dtype, label⟩ := e
      obtain rfl : o = .timestampFromUnix arg unit := hop
      exact mem_besides_unix hp s
    | @structField arg field hop =>
      obtain ⟨o, dtype, label⟩ := e
      obtain rfl : o = .structField arg field := hop
      exact mem_besides_field s
    | fails => exact absurd ht Target.not_takes_failing
    | _ => simp [placesOperands, hk] at hplaces

end Formatter

end BigQuerySql
