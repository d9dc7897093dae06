import BigQuerySql.Expr.Basic
import BigQuerySql.Proofs.Sequences

namespace BigQuerySql

namespace Op

variable {α β γ : Type}

/-- Two operations differ in their operands only: all other data are the same, and so are the number of arguments and
the optional operands that are present. -/
inductive SameForm : Op α → Op β → Prop where
  | literal (value : Value) : SameForm (.literal value) (.literal value)
  | column (name : String) (table : Option String) : SameForm (.column name table) (.column name table)
  | scalarParameter (name : String) : SameForm (.scalarParameter name) (.scalarParameter name)
  | tableScan (name : String) (schema : Schema) : SameForm (.tableScan name schema) (.tableScan name schema)
  | setOp (kind : SetOpKind) (left right : α) (left' right' : β) (distinct : Bool) :
    SameForm (.setOp kind left right distinct) (.setOp kind left' right' distinct)
  | binary (op : BinaryOp) (left right : α) (left' right' : β) :
    SameForm (.binary op left right) (.binary op left' right')
  | call (func : Func) {args : List α} {args' : List β} (hargs : args.length = args'.length) :
    SameForm (.call func args) (.call func args')
  | cast (arg : α) (arg' : β) : SameForm (.cast arg) (.cast arg')
  | ifElse (cond yes no : α) (cond' yes' no' : β) : SameForm (.ifElse cond yes no) (.ifElse cond' yes' no')
  | reduction (func : Agg) {args : List α} {args' : List β} {filter : Option α} {filter' : Option β}
    (hargs : args.length = args'.length) (hfilter : filter.isSome = filter'.isSome) :
    SameForm (.reduction func args filter) (.reduction func args' filter')
  | covariance (left right : α) (left' right' : β) (how : String) {filter : Option α} {filter' : Option β}
    (hfilter : filter.isSome = filter'.isSome) :
    SameForm (.covariance left right how filter) (.covariance left' right' how filter')
  | arbitrary (arg : α) (arg' : β) (how : Option String) {filter : Option α} {filter' : Option β}
    (hfilter : filter.isSome = filter'.isSome) : SameForm (.arbitrary arg how filter) (.arbitrary arg' how filter')
  | truncate (kind : TemporalKind) (arg : α) (arg' : β) (unit : IntervalUnit) :
    SameForm (.truncate kind arg unit) (.truncate kind arg' unit)
  | intervalArithmetic (op : IntervalOp) (arg offset : α) (arg' offset' : β) :
    SameForm (.intervalArithmetic op arg offset) (.intervalArithmetic op arg' offset')
  | timestampFromUnix (arg : α) (arg' : β) (unit : IntervalUnit) :
    SameForm (.timestampFromUnix arg unit) (.timestampFromUnix arg' unit)
  | stringFind (arg substr : α) (arg' substr' : β) {start stop : Option α} {start' stop' : Option β}
    (hstart : start.isSome = start'.isSome) (hstop : stop.isSome = stop'.isSome) :
    SameForm (.stringFind arg substr start stop) (.stringFind arg' substr' start' stop')
  | hash (arg : α) (arg' : β) (how : String) : SameForm (.hash arg how) (.hash arg' how)
  | hashBytes (arg : α) (arg' : β) (how : String) : SameForm (.hashBytes arg how) (.hashBytes arg' how)
  | strftime (arg format : α) (arg' format' : β) : SameForm (.strftime arg format) (.strftime arg' format')
  | stringToTimestamp (arg format : α) (arg' format' : β) {timezone : Option α} {timezone' : Option β}
    (htimezone : timezone.isSome = timezone'.isSome) :
    SameForm (.stringToTimestamp arg format timezone) (.stringToTimestamp arg' format' timezone')
  | structField (arg : α) (arg' : β) (field : String) : SameForm (.structField arg field) (.structField arg' field)

theorem SameForm.kind_eq {op : Op α} {op' : Op β} (h : SameForm op op') : op'.kind = op.kind := by
  cases h <;> rfl

theorem sameForm_map (f : α → β) (op : Op α) : SameForm op (op.map f) := by
  cases op <;> constructor <;> simp

theorem ext_operands {op₁ op₂ : Op α} (hform : op₁.map (fun _ => ()) = op₂.map fun _ => ())
    (hoperands : op₁.operands = op₂.operands) : op₁ = op₂ := by
  -- operations of different forms are apart already
  cases op₁ <;> cases op₂ <;> first | (cases hform; done) | skip
  case reduction func args filter func' args' filter' =>
    have hlength : args.length = args'.length := by
      simpa using congrArg List.length (Op.reduction.inj hform).2.1
    obtain ⟨hargs, hfilter⟩ := List.append_inj hoperands hlength
    rw [(Op.reduction.inj hform).1, hargs, option_toList_inj.mp hfilter]
  case stringFind arg substr start stop arg' substr' start' stop' =>
    have hlength : start.toList.length = start'.toList.length := by
      simpa [Option.toList_map] using congrArg (List.length ∘ Option.toList) (Op.stringFind.inj hform).2.2.1
    simp only [operands, List.cons.injEq] at hoperands
    obtain ⟨harg, hsubstr, hrest⟩ := hoperands
    obtain ⟨hstart, hstop⟩ := List.append_inj hrest hlength
    rw [harg, hsubstr, option_toList_inj.mp hstart, option_toList_inj.mp hstop]
  all_goals simp_all [map, operands, option_toList_inj]

theorem SameForm.map_unit {op : Op α} {op' : Op β} (h : SameForm op op') :
    op.map (fun _ => ()) = op'.map fun _ => () := by
  have hlist {xs : List α} {ys : List β} (hlength : xs.length = ys.length) :
      xs.map (fun _ => ()) = ys.map fun _ => () := by simp [List.map_const', hlength]
  have hoption {o : Option α} {o' : Option β} (hsome : o.isSome = o'.isSome) :
      o.map (fun _ => ()) = o'.map fun _ => () := by cases o <;> cases o' <;> simp_all
  cases h with
  | call func hargs => rw [map, map, hlist hargs]
  | reduction func hargs hfilter => rw [map, map, hlist hargs, hoption hfilter]
  | covariance _ _ _ _ how hfilter => rw [map, map, hoption hfilter]
  | arbitrary _ _ how hfilter => rw [map, map, hoption hfilter]
  | stringFind _ _ _ _ hstart hstop => rw [map, map, hoption hstart, hoption hstop]
  | stringToTimestamp _ _ _ _ htimezone => rw [map, map, hoption htimezone]
  | _ => rfl

theorem SameForm.eq_of_operands {op : Op α} {first second : Op β} (hfirst : SameForm op first)
    (hsecond : SameForm op second) (h : first.operands = second.operands) : first = second :=
  ext_operands (hfirst.map_unit.symm.trans hsecond.map_unit) h

section Effects

variable {m : Type → Type} [Monad m] [LawfulMonad m]

theorem toList_mapM (f : α → m β) (o : Option α) : Option.toList <$> o.mapM f = o.toList.mapM f := by
  cases o <;> simp

theorem operands_mapM (f : α → m β) (op : Op α) : operands <$> op.mapM f = op.operands.mapM f := by
  cases op <;> simp [mapM, operands, ← toList_mapM]

theorem option_mapM_pure (f : α → β) (o : Option α) : o.mapM (fun x => (pure (f x) : m β)) = pure (o.map f) := by
  cases o <;> simp

theorem mapM_pure (f : α → β) (op : Op α) : op.mapM (fun x => (pure (f x) : m β)) = pure (op.map f) := by
  cases op <;> simp [mapM, map, option_mapM_pure]

end Effects

section State

variable {σ : Type}

def noted (f : α → StateM σ β) (x : α) : StateM (σ × List α) β := fun (s, asked) =>
  let (y, last) := f x s
  (y, last, asked ++ [x])

theorem run_mapM_noted (f : α → StateM σ β) (xs : List α) (s : σ) (asked : List α) :
    (xs.mapM (noted f)).run (s, asked) =
      (((xs.mapM f).run s).1, ((xs.mapM f).run s).2, asked ++ xs) := by
  induction xs generalizing s asked with
  | nil => exact congrArg (fun noted => (([] : List β), s, noted)) asked.append_nil.symm
  | cons x rest ih =>
    have hrest := ih (f x s).2 (asked ++ [x])
    rw [List.append_assoc, List.singleton_append] at hrest
    rw [List.mapM_cons, List.mapM_cons]
    exact congrArg (fun r => ((f x s).1 :: r.1, r.2)) hrest

theorem length_run_mapM (f : α → StateM σ β) (xs : List α) (s : σ) :
    ((xs.mapM f).run s).1.length = xs.length := by
  induction xs generalizing s with
  | nil => rfl
  | cons x rest ih =>
    rw [List.mapM_cons]
    exact congrArg (· + 1) (ih (f x s).2)

theorem isSome_run_mapM (f : α → StateM σ β) (o : Option α) (s : σ) :
    ((o.mapM f).run s).1.isSome = o.isSome := by
  cases o <;> rfl

theorem sameForm_run_mapM (f : α → StateM σ β) (op : Op α) (s : σ) : SameForm op ((op.mapM f).run s).1 := by
  cases op with
  | call func args => exact .call func (length_run_mapM f args s).symm
  | reduction func args filter =>
    exact .reduction func (length_run_mapM f args s).symm (isSome_run_mapM f filter _).symm
  | covariance left right how filter => exact .covariance left right _ _ how (isSome_run_mapM f filter _).symm
  | arbitrary arg how filter => exact .arbitrary arg _ how (isSome_run_mapM f filter _).symm
  | stringFind arg substr start stop =>
    exact .stringFind arg substr _ _ (isSome_run_mapM f start _).symm (isSome_run_mapM f stop _).symm
  | stringToTimestamp arg format timezone =>
    exact .stringToTimestamp arg format _ _ (isSome_run_mapM f timezone _).symm
  | _ => constructor

theorem run_operands_mapM (f : α → StateM σ β) (op : Op α) (s : σ) :
    (op.operands.mapM f).run s = (((op.mapM f).run s).1.operands, ((op.mapM f).run s).2) := by
  rw [← operands_mapM, StateT.run_map]
  rfl

end State

end Op

namespace Expr

structure SameFrame (e e' : Expr) : Prop where
  kind : e'.kind = e.kind
  dtype : e'.dtype = e.dtype
  label : e'.label = e.label
  form : e.op.SameForm e'.op

theorem sameFrame_of_form {e : Expr} {op : Op Expr} (h : e.op.SameForm op) : SameFrame e ⟨op, e.dtype, e.label⟩ :=
  ⟨h.kind_eq, rfl, rfl, h⟩

theorem SameFrame.eq_of_operands {e first second : Expr} (hfirst : SameFrame e first) (hsecond : SameFrame e second)
    (h : first.operands = second.operands) : first = second := by
  obtain ⟨op, dtype, label⟩ := first
  obtain ⟨op', dtype', label'⟩ := second
  obtain rfl : op = op' := hfirst.form.eq_of_operands hsecond.form h
  obtain rfl : dtype = dtype' := hfirst.dtype.trans hsecond.dtype.symm
  obtain rfl : label = label' := hfirst.label.trans hsecond.label.symm
  rfl

theorem sameFrame_mapOperands (f : Expr → Expr) (e : Expr) : SameFrame e (e.mapOperands f) :=
  sameFrame_of_form (e.op.sameForm_map f)

section State

variable {σ : Type} (f : Expr → StateM σ Expr) (e : Expr) (s : σ)

theorem sameFrame_run_mapOperandsM : SameFrame e ((e.mapOperandsM f).run s).1 :=
  sameFrame_of_form (e.op.sameForm_run_mapM f s)

theorem run_operands_mapOperandsM :
    (e.operands.mapM f).run s = (((e.mapOperandsM f).run s).1.operands, ((e.mapOperandsM f).run s).2) :=
  e.op.run_operands_mapM f s

theorem run_mapOperandsM_noted :
    (e.mapOperandsM (Op.noted f)).run (s, []) =
      (((e.mapOperandsM f).run s).1, ((e.mapOperandsM f).run s).2, e.operands) := by
  have hnoted := run_operands_mapOperandsM (Op.noted f) e (s, [])
  rw [Op.run_mapM_noted, run_operands_mapOperandsM, List.nil_append] at hnoted
  obtain ⟨hoperands, hstate⟩ := Prod.mk.inj hnoted
  refine Prod.ext ?_ hstate.symm
  exact (sameFrame_run_mapOperandsM _ e _).eq_of_operands (sameFrame_run_mapOperandsM f e s) hoperands.symm

end State

/-- The operands of a node and the replacement of its operands agree: the replaced node has the replaced operands in
order and is otherwise the same node, which the two determine; replacing nothing changes nothing, and two replacements
in a row are one. A replacement with a state goes through the operands as through their list, is asked for each of them
once and in order, and without a state it is the plain one. -/
theorem mapOperands_follows_operands (e : Expr) :
    (∀ f, SameFrame e (e.mapOperands f) ∧ (e.mapOperands f).operands = e.operands.map f) ∧
    (∀ f e', SameFrame e e' → e'.operands = e.operands.map f → e' = e.mapOperands f) ∧
    e.mapOperands id = e ∧
    (∀ f g, (e.mapOperands f).mapOperands g = e.mapOperands (g ∘ f)) ∧
    ∀ (σ : Type) (s : σ),
      (∀ f : Expr → StateM σ Expr, ∃ e' last,
        (e.mapOperandsM f).run s = (e', last) ∧ (e.operands.mapM f).run s = (e'.operands, last) ∧ SameFrame e e' ∧
          (e.mapOperandsM (Op.noted f)).run (s, []) = (e', last, e.operands)) ∧
      ∀ f : Expr → Expr, (e.mapOperandsM fun x => (pure (f x) : StateM σ Expr)).run s = (e.mapOperands f, s) := by
  have hoperands (f : Expr → Expr) : (e.mapOperands f).operands = e.operands.map f := e.op.operands_map f
  refine ⟨fun f => ⟨sameFrame_mapOperands f e, hoperands f⟩, ?_, ?_, ?_, fun σ s => ⟨fun f => ?_, fun f => ?_⟩⟩
  · intro f e' hnode h
    exact hnode.eq_of_operands (sameFrame_mapOperands f e) (h.trans (hoperands f).symm)
  · obtain ⟨op, dtype, label⟩ := e
    rw [mapOperands, Op.map_id]
  · intro f g
    rw [mapOperands, mapOperands, mapOperands, Op.map_map]
  · exact ⟨_, _, rfl, run_operands_mapOperandsM f e s, sameFrame_run_mapOperandsM f e s, run_mapOperandsM_noted f e s⟩
  · rw [mapOperandsM, Op.mapM_pure, pure_bind]
    rfl

end Expr

end BigQuerySql
