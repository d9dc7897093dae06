import BigQuerySql.Proofs.Adjacency
import BigQuerySql.Proofs.Readings

namespace BigQuerySql

open Lexis

namespace Lexis

theorem walk_neutral {ts : List Token} (h : ∀ t ∈ ts, t.opening? = none ∧ t.closing? = none ∧ t.separates = false)
    (stack : List Bracket) : walk stack ts = some stack ∧ shows stack ts = false := by
  induction ts with
  | nil => exact ⟨rfl, rfl⟩
  | cons t ts ih =>
    obtain ⟨⟨ho, hc, hs⟩, hrest⟩ := List.forall_mem_cons.mp h
    have henter : enter stack t = some stack := by simp [enter, ho, hc]
    obtain ⟨hwalk, hshow⟩ := ih hrest
    exact ⟨by simp [walk, henter, hwalk], by simp [shows, henter, hs, hshow]⟩

theorem neutral_append {u ts : List Token}
    (h : ∀ t ∈ ts, t.opening? = none ∧ t.closing? = none ∧ t.separates = false) :
    walk [] (u ++ ts) = walk [] u ∧ shows [] (u ++ ts) = shows [] u := by
  rw [walk_append, shows_append]
  cases walk [] u with
  | none => simp
  | some stack => simp [walk_neutral h stack]

theorem advance_point {m : Mode} {last : List Token} (h : m.finish = some last) :
    (∃ cs, m = .number cs) ∨ advance m '.' = (.blank, last ++ [.symbol '.']) := by
  have hstart : start '.' = (.blank, [.symbol '.']) := rfl
  have hname : Sql.isNameChar '.' = false := by decide
  have hquote : quote? '.' = none := by decide
  cases m with
  | number cs => exact .inl ⟨cs, rfl⟩
  | blank =>
    obtain rfl : [] = last := by simpa [Mode.finish] using h
    exact .inr hstart
  | word cs =>
    obtain rfl : [.word cs] = last := by simpa [Mode.finish] using h
    exact .inr (by simp [advance, hname, hquote, hstart, emit])
  | parameter cs =>
    obtain rfl : [.parameter cs] = last := by simpa [Mode.finish] using h
    exact .inr (by simp [advance, hname, hstart, emit])
  | emptied q =>
    obtain rfl : [.text] = last := by simpa [Mode.finish] using h
    have hne : '.' ≠ q.char := by cases q <;> decide
    exact .inr (by simp [advance, hne, hstart, emit])
  | _ => simp [Mode.finish] at h

end Lexis

theorem Reads.field {w field : String} {b : Bool} (h : Reads w b) (hf : (NameUse.quoted field).legible) :
    Reads (w ++ ("." ++ Sql.backtick field)) b := by
  obtain ⟨ts, hts, henc, hshow⟩ := reads_iff.mp h
  obtain ⟨last, hlast, rfl⟩ := Option.map_eq_some_iff.mp hts
  have hname := read_backtickChars (NameUse.closes_of_legible hf)
  have hchars : (w ++ ("." ++ Sql.backtick field)).toList =
      w.toList ++ '.' :: Sql.backtickChars field.toList := by
    simp [Sql.backtick]
  rcases advance_point hlast with ⟨cs, hm⟩ | hpoint
  · -- A number goes on with the point: both it and the longer one are neutral.
    rw [hm] at hlast
    obtain rfl : [.number cs] = last := by simpa [Mode.finish] using hlast
    have hpoint : advance (.number cs) '.' = (.number (cs ++ ['.']), []) := by simp [advance]
    have hbreak : read (.number (cs ++ ['.'])) (Sql.backtickChars field.toList) = _ := read_break rfl rfl
    obtain ⟨hwalk, hshown⟩ := @neutral_append (read .blank w.toList).2 [.number cs]
      (by simp [Token.opening?, Token.closing?, Token.separates, Token.isOperator])
    obtain ⟨hwalk', hshown'⟩ := @neutral_append (read .blank w.toList).2
      [.number (cs ++ ['.']), .name (field.toList.flatMap tickChar)]
      (by simp [Token.opening?, Token.closing?, Token.separates, Token.isOperator])
    refine reads_iff.mpr ⟨_, ?_, ?_, hshown'.trans (hshown.symm.trans hshow)⟩
    · rw [hchars, tokens?, read_append, hm, read_cons, hpoint, hbreak, hname]
      simp [Mode.finish]
    · exact hwalk'.trans (hwalk.symm.trans henc)
  · obtain ⟨hwalk, hshown⟩ := @neutral_append ((read .blank w.toList).2 ++ last)
      [.symbol '.', .name (field.toList.flatMap tickChar)]
      (by simp [Token.opening?, Token.closing?, Token.separates, Token.isOperator])
    refine reads_iff.mpr ⟨_, ?_, hwalk.trans henc, hshown.trans hshow⟩
    rw [hchars, tokens?, read_append, read_cons, hpoint, hname]
    simp [Mode.finish]

def Op.showsOperator (dtype : DataType) : Op Bool → Bool
  | .literal v => v.showsOperator dtype
  | op => op.kind.openness.shows (op.operands.headD false)

theorem Op.showsOperator_eq {dtype : DataType} {op : Op Bool} (h : op.kind ≠ .literal) :
    op.showsOperator dtype = op.kind.openness.shows (op.operands.headD false) := by
  cases op with
  | literal v => exact absurd rfl h
  | _ => rfl

namespace Expr

def showsOperator : Expr → Bool :=
  fold fun op dtype _ => op.showsOperator dtype

theorem showsOperator_literal {v : Value} {dtype : DataType} {label : Option String} :
    showsOperator ⟨.literal v, dtype, label⟩ = v.showsOperator dtype := by
  rw [showsOperator, fold_mk]
  rfl

theorem showsOperator_eq {e : Expr} (h : e.kind ≠ .literal) :
    e.showsOperator = e.kind.openness.shows (e.operands.head?.any showsOperator) := by
  obtain ⟨op, dtype, label⟩ := e
  have hhead (args : List Expr) : (args.map showsOperator).headD false = args.head?.any showsOperator := by
    cases args <;> rfl
  rw [showsOperator, fold_mk, ← showsOperator, Op.showsOperator_eq (by rwa [Op.kind_map]), Op.kind_map,
    Op.operands_map, hhead]
  rfl

end Expr

inductive WrittenIn : Expr → Expr → Prop where
  | self (e : Expr) : WrittenIn e e
  | operand {e x y : Expr} {f : Formatter} (hf : Formatter.bigQuery.get? e.kind = some f)
      (hx : x ∈ (f.layout e).operands) (h : WrittenIn y x) : WrittenIn y e

namespace Expr

def strayDecimals (e : Expr) : List String :=
  match e.op with
  | .literal v => v.strayDecimals e.dtype
  | _ => []

/-- An expression in whose text every name is one token, and every stray decimal closes its brackets. -/
def Legible (naming : ParamNaming) (e : Expr) : Prop :=
  ∀ x, WrittenIn x e → (∀ u ∈ x.ownNames naming, u.legible) ∧ ∀ d ∈ x.strayDecimals, whole d

theorem Legible.operand {naming : ParamNaming} {e x : Expr} {f : Formatter} (h : e.Legible naming)
    (hf : Formatter.bigQuery.get? e.kind = some f) (hx : x ∈ (f.layout e).operands) : x.Legible naming :=
  fun y hy => h y (.operand hf hx hy)

end Expr

section Written

variable {naming : ParamNaming} {params : Params}

theorem reads_step {t : Target} {s : Step} {x : Expr} {w : String} (hs : s.expr? = some x)
    (h : t.Takes (fun x w => Reads w x.showsOperator) s w) : ∃ b, Reads w b := by
  cases s with
  | operand y => exact ⟨_, h⟩
  | nested y =>
    obtain ⟨v, hv, rfl⟩ := h
    split
    · exact ⟨_, hv.parens⟩
    · exact ⟨_, hv⟩
  | _ => simp [Step.expr?] at hs

theorem isParameterName_generated (n : Nat) : isParameterName ("param_" ++ toString n).toList := by
  have hword : "param_".toList = 'p' :: "aram_".toList := rfl
  have hdigits : (toString n).toList.all Sql.isNameChar := by
    rw [Nat.toString_eq_repr, Nat.repr_eq_ofList_toDigits, String.toList_ofList, List.all_eq_true]
    exact fun c hc => isNameChar_of_isDigit (isDigit_of_mem_toDigits c hc)
  rw [String.toList_append, hword, List.cons_append, isParameterName, List.all_append, hdigits]
  decide

theorem reads_own {e : Expr} {w : String} (h : OwnText naming (fun x w => Reads w x.showsOperator) e w)
    (hn : ∀ u ∈ e.ownNames naming, u.legible) (hd : ∀ d ∈ e.strayDecimals, whole d) :
    Reads w e.showsOperator := by
  cases h with
  | literal hv =>
    rw [Expr.showsOperator_literal]
    exact Value.reads_literal hv (fun k hk => hn _ (by simpa [Expr.ownNames] using hk)) hd
  | @column name table dtype label => exact NameUse.reads_quoted (hn _ (by simp [Expr.ownNames]))
  | @parameter name placeholder dtype label hp =>
    cases naming with
    | declared =>
      obtain rfl : placeholder = name := hp
      exact NameUse.reads_parameter (hn _ (by simp [Expr.ownNames]))
    | generated =>
      obtain ⟨n, rfl⟩ := hp
      exact NameUse.reads_parameterName (isParameterName_generated n)
  | @scan name schema dtype label =>
    obtain ⟨b, hb⟩ := NameUse.reads_of_legible (hn (.identifier name) (by simp [Expr.ownNames]))
    have hscan : Reads "SELECT *\nFROM " true := by decide
    exact hscan.append hb (.inl (by decide))
  | @structField arg field dtype label w hw =>
    exact Reads.field hw (hn _ (by simp [Expr.ownNames]))
  | @unixMicros arg dtype label w hint hw => exact hw.around (by decide)
  | @cast arg dtype label name w hname hw =>
    obtain ⟨b, hb⟩ := DataType.reads_sqlName hname fun name hmem => hn _ (by simpa [Expr.ownNames] using hmem)
    exact (hw.named hb).around (by decide)
  | @floor arg dtype label name w hname hw =>
    obtain ⟨b, hb⟩ := DataType.reads_sqlName hname fun name hmem => hn _ (by simpa [Expr.ownNames] using hmem)
    have hfloor : Reads ("FLOOR(" ++ w ++ ")") false := hw.around (by decide)
    have htext : "CAST(FLOOR(" ++ (w ++ (") AS " ++ name)) ++ ")" =
        "CAST(" ++ ("FLOOR(" ++ w ++ ")" ++ (" AS " ++ name)) ++ ")" := by
      have hopen : "CAST(FLOOR(" = "CAST(" ++ "FLOOR(" := rfl
      have hclose : ") AS " = ")" ++ " AS " := rfl
      rw [hopen, hclose]
      simp only [String.append_assoc]
    rw [htext]
    exact (hfloor.named hb).around (by decide)

theorem Kind.eq_of_openness_first {k : Kind} (h : k.openness = .first) : k = .call .arrayIndex ∨ k = .structField := by
  unfold openness at h
  split at h <;> simp_all

def Formatter.keepsIndexForm : Kind × Formatter → Bool
  | (.call .arrayIndex, .template arity _) => arity == 2
  | (.call .arrayIndex, _) => false
  | _ => true

theorem Formatter.bigQuery_keepsIndexForm {k : Kind} {f : Formatter} (h : bigQuery.get? k = some f) :
    keepsIndexForm (k, f) :=
  bigQuery_all (by decide) (by decide) h

theorem reads_first {t : Target} {e : Expr} {f : Formatter} {texts : List String}
    (hf : Formatter.bigQuery.get? e.kind = some f) (hk : e.kind = .call .arrayIndex)
    (ht : List.Forall₂ (t.Takes fun x w => Reads w x.showsOperator) (f.layout e).steps texts) :
    Reads (texts.getD 0 "") (e.operands.head?.any Expr.showsOperator) := by
  have hform := Formatter.bigQuery_keepsIndexForm hf
  rw [hk] at hform
  have hlayout := f.outcome e
  generalize f.layout e = l at hlayout ht
  cases hlayout with
  | template hlen =>
    obtain rfl : _ = 2 := by simpa [Formatter.keepsIndexForm] using hform
    obtain ⟨arg, index, ho⟩ := List.length_eq_two.mp hlen
    rw [ho] at ht ⊢
    exact forall₂_getD (i := 0) ht rfl
  | fails => exact absurd ht Target.not_takes_failing
  | _ => cases hform

theorem reads_writes {e : Expr} {w : String} (h : ((Compiler.bigQuery naming).target params).Writes e w) :
    e.Legible naming → Reads w e.showsOperator := by
  refine Target.writes_induct (P := fun e w => e.Legible naming → Reads w e.showsOperator)
    (fun e f texts hf ht hl => ?_) h
  replace ht := Target.forall₂_takes_mono (fun x hx v hv => hv.2 (hl.operand hf hx)) ht
  rcases Compiler.written_cases hf ht with ⟨hkinds, hshaped⟩ | ⟨-, hown⟩
  · -- The operands are read as wholes, and only that of an array's element can show what it shows.
    have hliteral : e.kind ≠ .literal := by
      intro hk
      simp [hk, Formatter.ownKinds] at hkinds
    rw [Expr.showsOperator_eq hliteral]
    refine reads_pieces hshaped.joined hshaped.openness_eq (fun i hi => ?_) fun hfirst => ?_
    · have hstep : (f.layout e).steps[i]? = some ((f.layout e).steps.get ⟨i, (hshaped.covers i).mp hi⟩) := by simp
      obtain ⟨x, hx⟩ := Option.isSome_iff_exists.mp (hshaped.operands _ (List.mem_of_getElem? hstep))
      exact reads_step hx (forall₂_getD ht hstep)
    · rcases Kind.eq_of_openness_first hfirst with hk | hk
      · exact reads_first hf hk ht
      · simp [hk, Formatter.ownKinds] at hkinds
  · exact reads_own hown (hl e (.self e)).1 (hl e (.self e)).2

theorem exists_writes {t : Target} {P : Expr → String → Prop} {s : Step} {x : Expr} {v : String}
    (hs : s.expr? = some x) (h : t.Takes P s v) : ∃ u, P x u := by
  cases s with
  | operand y =>
    obtain rfl : y = x := by simpa [Step.expr?] using hs
    exact ⟨v, h⟩
  | nested y =>
    obtain rfl : y = x := by simpa [Step.expr?] using hs
    obtain ⟨u, hu, -⟩ := h
    exact ⟨u, hu⟩
  | _ => simp [Step.expr?] at hs

theorem writes_of_writtenIn {e x : Expr} (hx : WrittenIn x e) : ∀ {w : String},
    ((Compiler.bigQuery naming).target params).Writes e w →
      ∃ v, ((Compiler.bigQuery naming).target params).Writes x v := by
  induction hx with
  | self e => exact fun h => ⟨_, h⟩
  | @operand e x y f hf hx _ ih =>
    intro w h
    obtain ⟨g, texts, hg, ht, -⟩ := Target.writes_cases h
    obtain rfl : f = g := Option.some.inj (hf.symm.trans hg)
    obtain ⟨s, hs, hsx⟩ := List.mem_filterMap.mp hx
    obtain ⟨v, hv⟩ := forall₂_exists ht s hs
    obtain ⟨u, hu⟩ := exists_writes hsx hv
    exact ih hu

theorem WrittenIn.trans {e x y : Expr} (hy : WrittenIn y x) (hx : WrittenIn x e) : WrittenIn y e := by
  induction hx with
  | self e => exact hy
  | operand hf hx _ ih => exact .operand hf hx (ih hy)

def Beside (x : Expr) (s : Step) : Prop :=
  s.expr?.isSome ∧ ∃ f, Formatter.bigQuery.get? x.kind = some f ∧ s ∈ (f.layout x).besides

theorem stepTo_expr (k : Kind) (y : Expr) : (k.stepTo y).expr? = some y := by
  unfold Kind.stepTo
  split <;> rfl

theorem selfDelimiting_step {k : Kind} {y : Expr} {v : String} (hl : y.Legible naming)
    (h : ((Compiler.bigQuery naming).target params).Takes ((Compiler.bigQuery naming).target params).Writes
      (k.stepTo y) v) : selfDelimiting v ↔ (y.showsOperator → k.bracketsOperands ∧ y.needsParens) := by
  have hplain {u : String} (hu : ((Compiler.bigQuery naming).target params).Writes y u) :
      selfDelimiting u ↔ (y.showsOperator → False) := by
    rw [(reads_writes hu hl).selfDelimiting_eq]
    simp
  cases hk : k.bracketsOperands with
  | false =>
    rw [Kind.stepTo, hk] at h
    simpa using hplain h
  | true =>
    rw [Kind.stepTo, hk] at h
    obtain ⟨u, hu, rfl⟩ := h
    cases hp : y.needsParens with
    | false => simpa [hp] using hplain hu
    | true => simpa [hp] using (reads_writes hu hl).parens.selfDelimiting_eq

/-- Next to an operator or before an accessor every operand stands in brackets or shows no operator of its own,
just if brackets are put around each one that does: not before accessors and in nanoseconds, and not around
negations, searches, queries and negative constants, nor around their fields and elements. -/
theorem operands_beside_operators_delimited_iff {e : Expr} {w : String}
    (h : ((Compiler.bigQuery naming).target params).Writes e w) (hl : e.Legible naming) :
    (∀ x s v, WrittenIn x e → Beside x s →
        ((Compiler.bigQuery naming).target params).Takes ((Compiler.bigQuery naming).target params).Writes s v →
        selfDelimiting v) ↔
      ∀ x y, WrittenIn x e → y ∈ x.besideOperator → y.showsOperator →
        x.kind.bracketsOperands ∧ y.needsParens := by
  have hlegible {x y : Expr} {f : Formatter} (hx : WrittenIn x e) (hf : Formatter.bigQuery.get? x.kind = some f)
      (hmem : x.kind.stepTo y ∈ (f.layout x).besides) : y.Legible naming := by
    have hy : y ∈ (f.layout x).operands :=
      List.mem_filterMap.mpr ⟨_, Layout.mem_steps_of_besides hmem, stepTo_expr _ _⟩
    exact fun z hz => hl z ((WrittenIn.operand hf hy hz).trans hx)
  constructor
  · intro hdelimited x y hx hy
    obtain ⟨v, hv⟩ := writes_of_writtenIn hx h
    obtain ⟨f, texts, hf, ht, -⟩ := Target.writes_cases hv
    have hexpr : (x.kind.stepTo y).expr?.isSome := by rw [stepTo_expr, Option.isSome_some]
    have hmem := (Formatter.mem_besides hf ht hexpr).mpr ⟨y, hy, rfl⟩
    obtain ⟨u, hu⟩ := forall₂_exists ht _ (Layout.mem_steps_of_besides hmem)
    exact (selfDelimiting_step (hlegible hx hf hmem) hu).mp (hdelimited x _ u hx ⟨hexpr, f, hf, hmem⟩ hu)
  · rintro hbrackets x s v hx ⟨hexpr, f, hf, hmem⟩ hv
    obtain ⟨u, hu⟩ := writes_of_writtenIn hx h
    obtain ⟨g, texts, hg, ht, -⟩ := Target.writes_cases hu
    obtain rfl : f = g := Option.some.inj (hf.symm.trans hg)
    obtain ⟨y, hy, rfl⟩ := (Formatter.mem_besides hf ht hexpr).mp hmem
    exact (selfDelimiting_step (hlegible hx hf hmem) hv).mpr (hbrackets x y hx hy)

end Written

namespace Expr

theorem mem_nodes_of_operand {e x y : Expr} (hx : x ∈ e.operands) (hy : y ∈ x.nodes) : y ∈ e.nodes := by
  rw [nodes_eq e]
  exact .tail _ (List.mem_flatMap.mpr ⟨x, hx, hy⟩)

theorem mem_nodes_of_part {kind : SetOpKind} {e y : Expr} :
    ∀ {parts : List Expr} {words : List String}, Sql.flattenSetOp kind e = .ok (parts, words) →
      ∀ x ∈ parts, y ∈ x.nodes → y ∈ e.nodes := by
  induction e using Expr.induction_on with
  | step e ih =>
    intro parts words h x hx hy
    rcases Sql.flatten_cases h with ⟨-, rfl, rfl⟩ |
      ⟨left, right, distinct, dtype, label, lp, lw, word, rp, rw, rfl, hl, -, hr, rfl, rfl⟩
    · obtain rfl : x = e := by simpa using hx
      exact hy
    · have hleft : left ∈ [left, right] := by simp
      have hright : right ∈ [left, right] := by simp
      rcases List.mem_append.mp hx with hx | hx
      · exact mem_nodes_of_operand hleft (ih left hleft hl x hx hy)
      · exact mem_nodes_of_operand hright (ih right hright hr x hx hy)

def IsFiller (e : Expr) : Prop :=
  (∃ cond yes no, e.op = .ifElse cond yes no) ∨ e.op = .literal .null

theorem mem_nodes_of_filtered {arg y : Expr} {filter : Option Expr} (h : y ∈ (arg.filtered filter).nodes) :
    y.IsFiller ∨ y ∈ arg.nodes ∨ ∃ cond ∈ filter, y ∈ cond.nodes := by
  cases filter with
  | none => exact .inr (.inl h)
  | some cond =>
    have hnull : (null arg.dtype).nodes = [null arg.dtype] := by rw [nodes_eq]; rfl
    rw [filtered, nodes_eq] at h
    have hcases : y = ifElse cond arg (null arg.dtype) ∨ y ∈ cond.nodes ∨ y ∈ arg.nodes ∨ y = null arg.dtype := by
      simpa [ifElse, ofOp, operands, Op.operands, hnull, or_assoc] using h
    rcases hcases with rfl | h | h | rfl
    · exact .inl (.inl ⟨_, _, _, rfl⟩)
    · exact .inr (.inr ⟨cond, rfl, h⟩)
    · exact .inr (.inl h)
    · exact .inl (.inr rfl)

end Expr

theorem WrittenIn.mem_nodes {e x : Expr} (h : WrittenIn x e) : x ∈ e.nodes ∨ x.IsFiller := by
  induction h with
  | self e =>
    rw [Expr.nodes_eq]
    exact .inl (by simp)
  | @operand e x y f hf hx _ ih =>
    rcases ih with hy | hy
    · rcases f.layout_operand_cases hx with hx | ⟨arg, filter, rfl, harg, hfilter, -⟩ |
        ⟨kind, parts, words, -, hflat, hx⟩
      · exact .inl (Expr.mem_nodes_of_operand hx hy)
      · rcases Expr.mem_nodes_of_filtered hy with hy | hy | ⟨cond, hcond, hy⟩
        · exact .inr hy
        · exact .inl (Expr.mem_nodes_of_operand harg hy)
        · exact .inl (Expr.mem_nodes_of_operand (hfilter cond hcond) hy)
      · exact .inl (Expr.mem_nodes_of_part hflat x hx hy)
    · exact .inr hy

theorem Expr.IsFiller.quiet {e : Expr} (h : e.IsFiller) (naming : ParamNaming) :
    e.ownNames naming = [] ∧ e.strayDecimals = [] ∧ e.besideOperator = [] := by
  obtain ⟨op, dtype, label⟩ := e
  rcases h with ⟨cond, yes, no, rfl⟩ | rfl
  · exact ⟨rfl, rfl, rfl⟩
  · exact ⟨rfl, rfl, rfl⟩

theorem Expr.legible_of_nodes {naming : ParamNaming} {e : Expr}
    (h : e.nodes.all fun x => (x.ownNames naming).all NameUse.legible && x.strayDecimals.all whole) :
    e.Legible naming := by
  intro x hx
  rcases hx.mem_nodes with hx | hx
  · simpa using List.all_eq_true.mp h x hx
  · obtain ⟨hnames, hstray, -⟩ := hx.quiet naming
    simp [hnames, hstray]

namespace Compiler

theorem writes_of_ordered {naming : ParamNaming} {params : Params} {e : Expr} {w : String}
    (h : (((ordered naming).target params).render e .start).toOption.map Prod.fst = some w) :
    ((bigQuery naming).target params).Writes e w := by
  refine Target.writes_of_run ?_
  rwa [render_ordered]

def productOfSums : Expr :=
  let x : Expr := .column "x" none .int64
  ((x.binary .add (.param "n" .int64)).binary .multiply (x.binary .subtract (.literal (.int 2) .int64))).isNull.not

theorem productOfSums_delimited :
    ((bigQuery .declared).target [("n", .int 1)]).Writes productOfSums
        "NOT (((\x60x\x60 + @n) * (\x60x\x60 - 2)) IS NULL)" ∧
      ∀ x s v, WrittenIn x productOfSums → Beside x s →
        ((bigQuery .declared).target [("n", .int 1)]).Takes
          ((bigQuery .declared).target [("n", .int 1)]).Writes s v →
        selfDelimiting v := by
  have hwrites : ((bigQuery .declared).target [("n", .int 1)]).Writes productOfSums
      "NOT (((\x60x\x60 + @n) * (\x60x\x60 - 2)) IS NULL)" :=
    writes_of_ordered (by decide +kernel)
  have hlegible : productOfSums.Legible .declared := Expr.legible_of_nodes (by decide +kernel)
  have hnodes : productOfSums.nodes.all fun x => x.besideOperator.all fun y =>
      !y.showsOperator || (x.kind.bracketsOperands && y.needsParens) := by
    decide +kernel
  refine ⟨hwrites, (operands_beside_operators_delimited_iff hwrites hlegible).mpr fun x y hx hy hshow => ?_⟩
  rcases hx.mem_nodes with hx | hx
  · have hall := List.all_eq_true.mp (List.all_eq_true.mp hnodes x hx) y hy
    simpa [hshow] using hall
  · simp [(hx.quiet .declared).2.2] at hy

theorem doubledMinus_begins_comment :
    let minus : Expr := .call .negate [.column "x" none .int64] .int64
    let doubled : Expr := .call .negate [minus] .int64
    (∃ q, (bigQuery .declared).compile doubled [] = .ok q ∧ q.sql = "SELECT --\x60x\x60 AS \x60tmp\x60") ∧
      Beside doubled (.nested minus) ∧
      ((bigQuery .declared).target []).Takes ((bigQuery .declared).target []).Writes (.nested minus) "-\x60x\x60" ∧
      selfDelimiting "-\x60x\x60" = false := by
  intro minus doubled
  have hdoubled : ((bigQuery .declared).target []).Writes doubled "--\x60x\x60" :=
    writes_of_ordered (by decide +kernel)
  have hminus : ((bigQuery .declared).target []).Writes minus "-\x60x\x60" :=
    writes_of_ordered (by decide +kernel)
  obtain ⟨f, texts, hf, ht, -⟩ := Target.writes_cases hdoubled
  have hbeside : doubled.besideOperator = [minus] := rfl
  have hmem := (Formatter.mem_besides hf ht rfl).mpr ⟨minus, by simp [hbeside], rfl⟩
  refine ⟨?_, ⟨rfl, f, hf, hmem⟩, ⟨_, hminus, rfl⟩, by decide⟩
  refine compile_of_run ?_
  rw [compile_ordered]
  decide +kernel

end Compiler

end BigQuerySql
