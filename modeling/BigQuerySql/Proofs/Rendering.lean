import BigQuerySql.Compiler
import BigQuerySql.Proofs.Outcomes
import BigQuerySql.Proofs.Registry
import BigQuerySql.Proofs.Sequences
import Mathlib.Algebra.Order.BigOperators.Group.List
import Mathlib.Algebra.Order.Ring.Nat

namespace BigQuerySql

theorem render_bind_ok {α β : Type} {x : Render α} {f : α → Render β} {ctx last : Context} {b : β} :
    (x >>= f) ctx = .ok (b, last) ↔ ∃ a mid, x ctx = .ok (a, mid) ∧ f a mid = .ok (b, last) := by
  cases h : x ctx with
  | error e => simp [bind, StateT.bind, Except.bind, h]
  | ok p =>
    obtain ⟨a, mid⟩ := p
    simp [bind, StateT.bind, Except.bind, h]

theorem render_pure_ok {α : Type} {a b : α} {ctx last : Context} :
    (pure a : Render α) ctx = .ok (b, last) ↔ a = b ∧ ctx = last := by
  have hrun : (pure a : Render α) ctx = .ok (a, ctx) := rfl
  rw [hrun]
  simp

namespace Op

theorem ownWeight_pos {α : Type} (op : Op α) : 0 < op.ownWeight := by
  cases op <;> simp [ownWeight]

theorem map_fst_pair {α β : Type} (f : α → β) (op : Op α) :
    (op.map fun x => (x, f x)).map Prod.fst = op := by
  rw [map_map]
  cases op <;> simp [map, Function.comp_def]

end Op

namespace Expr

theorem weight_eq (e : Expr) :
    e.weight = e.op.ownWeight + (e.operands.map weight).sum := by
  obtain ⟨op, dtype, label⟩ := e
  have hw : (op.map weight).ownWeight = op.ownWeight := by cases op <;> rfl
  simp only [weight, operands] at hw ⊢
  rw [fold_mk, Op.operands_map, hw, List.sum_eq_foldr]

theorem weight_pos (e : Expr) : 0 < e.weight := by
  have hp := e.op.ownWeight_pos
  rw [weight_eq e]
  omega

theorem weight_operand {x e : Expr} (h : x ∈ e.operands) : x.weight < e.weight := by
  have hx : x.weight ≤ (e.operands.map weight).sum :=
    List.single_le_sum (by simp) _ (List.mem_map_of_mem h)
  have hp := e.op.ownWeight_pos
  rw [weight_eq e]
  omega

theorem weight_filtered (arg : Expr) (filter : Option Expr) :
    (arg.filtered filter).weight ≤ arg.weight + (filter.toList.map weight).sum + 2 := by
  cases filter with
  | none => simp [filtered]
  | some cond =>
    have hn : (null arg.dtype).weight = 1 := by rw [weight_eq]; rfl
    have hw : (ifElse cond arg (null arg.dtype)).weight =
        1 + (cond.weight + (arg.weight + ((null arg.dtype).weight + 0))) := by
      rw [weight_eq]; rfl
    simp only [filtered, Option.toList_some, List.map_cons, List.map_nil, List.sum_cons,
      List.sum_nil]
    omega

end Expr

namespace Step

def expr? : Step → Option Expr
  | .operand e => some e
  | .nested e => some e
  | _ => none

end Step

namespace Layout

def operands (l : Layout) : List Expr :=
  l.steps.filterMap Step.expr?

end Layout

namespace Sql

theorem flatten_same (kind : SetOpKind) (left right : Expr) (distinct : Bool) (dtype : DataType)
    (label : Option String) :
    flattenSetOp kind ⟨.setOp kind left right distinct, dtype, label⟩ = (do
      let (leftParts, leftWords) ← flattenSetOp kind left
      let word ← setKeyword kind distinct
      let (rightParts, rightWords) ← flattenSetOp kind right
      return (leftParts ++ rightParts, leftWords ++ word :: rightWords)) := by
  simp only [flattenSetOp, Expr.para_mk, Op.map, if_true]

theorem flatten_other {kind : SetOpKind} {e : Expr} (h : e.kind ≠ .setOp kind) :
    flattenSetOp kind e = .ok ([e], []) := by
  obtain ⟨op, dtype, label⟩ := e
  have hself := fun f : Expr → Except SqlError (List Expr × List String) =>
    congrArg (fun op : Op Expr => Except.ok (ε := SqlError) ([Expr.mk op dtype label],
      ([] : List String))) (Op.map_fst_pair f op)
  simp only [flattenSetOp, Expr.para_mk]
  cases op with
  | setOp k left right distinct =>
    have hk : k ≠ kind := fun hk => h (by rw [← hk]; rfl)
    simp only [Op.map, if_neg hk]
  | _ => exact hself _

theorem flatten_cases {kind : SetOpKind} {e : Expr} {parts : List Expr} {words : List String}
    (h : flattenSetOp kind e = .ok (parts, words)) :
    (e.kind ≠ .setOp kind ∧ parts = [e] ∧ words = []) ∨
    ∃ left right distinct dtype label lp lw word rp rw,
      e = ⟨.setOp kind left right distinct, dtype, label⟩ ∧
      flattenSetOp kind left = .ok (lp, lw) ∧ setKeyword kind distinct = .ok word ∧
      flattenSetOp kind right = .ok (rp, rw) ∧ parts = lp ++ rp ∧ words = lw ++ word :: rw := by
  by_cases hk : e.kind = .setOp kind
  · obtain ⟨op, dtype, label⟩ := e
    cases op with
    | setOp k left right distinct =>
      obtain rfl : k = kind := by simpa [Expr.kind, Op.kind] using hk
      simp only [flatten_same, except_bind_ok, Prod.exists] at h
      obtain ⟨lp, lw, hl, word, hw, rp, rw, hr, hp⟩ := h
      obtain ⟨rfl, rfl⟩ : lp ++ rp = parts ∧ lw ++ word :: rw = words := by
        simpa [pure, Except.pure] using hp
      exact .inr ⟨left, right, distinct, dtype, label, lp, lw, word, rp, rw, rfl, hl, hw, hr, rfl, rfl⟩
    | _ => simp [Expr.kind, Op.kind] at hk
  · rw [flatten_other hk] at h
    obtain ⟨rfl, rfl⟩ : [e] = parts ∧ [] = words := by simpa using h
    exact .inl ⟨hk, rfl, rfl⟩

theorem flatten_weight {kind : SetOpKind} {e : Expr} :
    ∀ {parts : List Expr} {words : List String}, flattenSetOp kind e = .ok (parts, words) →
      ∀ x ∈ parts, x.weight ≤ e.weight ∧ (e.kind = .setOp kind → x.weight < e.weight) := by
  induction e using Expr.induction_on with
  | step e ih =>
    intro parts words h x hx
    rcases flatten_cases h with ⟨hk, rfl, rfl⟩ |
      ⟨left, right, distinct, dtype, label, lp, lw, word, rp, rw, rfl, hl, -, hr, rfl, rfl⟩
    · simp_all
    · have hlt (y : Expr) (hy : y ∈ [left, right]) (hxy : x.weight ≤ y.weight) :
          x.weight < (Expr.mk (.setOp kind left right distinct) dtype label).weight :=
        hxy.trans_lt (Expr.weight_operand hy)
      have hx : x.weight < (Expr.mk (.setOp kind left right distinct) dtype label).weight := by
        rcases List.mem_append.mp hx with hx | hx
        · exact hlt left (by simp) (ih left (by simp [Expr.operands, Op.operands]) hl x hx).1
        · exact hlt right (by simp) (ih right (by simp [Expr.operands, Op.operands]) hr x hx).1
      exact ⟨hx.le, fun _ => hx⟩

end Sql

namespace Layout

@[simp] theorem fill_constant (s : String) (texts : List String) : (constant s).fill texts = s := by
  simp [constant, fill, Piece.fill]

@[simp] theorem operands_failure (error : SqlError) : (failure error).operands = [] := rfl

@[simp] theorem operands_malformed (e : Expr) (what : String) : (malformed e what).operands = [] := rfl

@[simp] theorem operands_constant (s : String) : (constant s).operands = [] := rfl

@[simp] theorem operands_ofExcept (r : Except SqlError String) : (ofExcept r).operands = [] := by
  cases r <;> rfl

@[simp] theorem operands_nil (pieces : List Piece) : (Layout.mk [] pieces).operands = [] := rfl

@[simp] theorem operands_operand (e : Expr) (steps : List Step) (pieces : List Piece) :
    (Layout.mk (.operand e :: steps) pieces).operands = e :: (Layout.mk steps pieces).operands := rfl

@[simp] theorem operands_nested (e : Expr) (steps : List Step) (pieces : List Piece) :
    (Layout.mk (.nested e :: steps) pieces).operands = e :: (Layout.mk steps pieces).operands := rfl

@[simp] theorem operands_parameter (name : String) (dtype : DataType) (steps : List Step)
    (pieces : List Piece) :
    (Layout.mk (.parameter name dtype :: steps) pieces).operands = (Layout.mk steps pieces).operands :=
  rfl

@[simp] theorem operands_table (name : String) (steps : List Step) (pieces : List Piece) :
    (Layout.mk (.table name :: steps) pieces).operands = (Layout.mk steps pieces).operands := rfl

@[simp] theorem operands_map_append (es : List Expr) (steps : List Step) (pieces : List Piece) :
    (Layout.mk (es.map .operand ++ steps) pieces).operands = es ++ (Layout.mk steps pieces).operands := by
  simp [operands, List.filterMap_append, List.filterMap_map, Function.comp_def, Step.expr?]

@[simp] theorem operands_map (es : List Expr) (pieces : List Piece) :
    (Layout.mk (es.map .operand) pieces).operands = es := by
  simpa using operands_map_append es [] pieces

@[simp] theorem operands_apply (function : String) (args : List Expr) :
    (apply function args).operands = args := operands_map _ _

@[simp] theorem operands_checked (steps : List Step) (result : Except SqlError (List Piece)) :
    (checked steps result).operands = (Layout.mk steps []).operands := by
  cases result <;> simp [checked, operands, Step.expr?]

end Layout

namespace Formatter

open Sql

theorem operands_regexLayout {before middle after : String} {arg pattern x : Expr} {others : List Expr}
    (h : x ∈ (regexLayout before middle after arg pattern others).operands) :
    x ∈ arg :: pattern :: others := by
  simp only [regexLayout] at h
  cases hr : rawPattern? pattern <;> simp [hr] at h ⊢ <;> tauto

def Masked (e x : Expr) : Prop :=
  ∃ arg filter, x = arg.filtered filter ∧ arg ∈ e.operands ∧ (∀ c ∈ filter, c ∈ e.operands) ∧
    arg.weight + (filter.toList.map Expr.weight).sum + 2 < e.weight

theorem masked_of_operands {e arg : Expr} {args : List Expr} {filter : Option Expr}
    (ho : e.operands = args ++ filter.toList) (hw : e.op.ownWeight = 3) (ha : arg ∈ args) :
    Masked e (arg.filtered filter) := by
  have hle : arg.weight ≤ (args.map Expr.weight).sum :=
    List.single_le_sum (by simp) _ (List.mem_map_of_mem ha)
  refine ⟨arg, filter, rfl, by simp [ho, ha], ?_, ?_⟩
  · intro c hc
    simp [ho, Option.mem_toList.mpr hc]
  · rw [Expr.weight_eq e, ho, hw, List.map_append, List.sum_append]
    omega

theorem masked_reduction {e arg : Expr} {func : Agg} {args : List Expr} {filter : Option Expr}
    (hop : e.op = .reduction func args filter) (ha : arg ∈ args) : Masked e (arg.filtered filter) :=
  masked_of_operands (by simp [Expr.operands, Op.operands, hop]) (by simp [Op.ownWeight, hop]) ha

theorem layout_operand_cases (f : Formatter) {e x : Expr} (h : x ∈ (f.layout e).operands) :
    x ∈ e.operands ∨
    Masked e x ∨
    ∃ kind parts words, e.kind = .setOp kind ∧ flattenSetOp kind e = .ok (parts, words) ∧ x ∈ parts := by
  have hlayout := f.outcome e
  generalize f.layout e = l at hlayout h
  cases hlayout with
  | @setOp kind _ _ _ parts words hop hflat =>
    exact .inr (.inr ⟨kind, parts, words, by simp [Expr.kind, Op.kind, hop], hflat, by simpa using h⟩)
  | @reduction name func args filter hop =>
    obtain ⟨arg, ha, rfl⟩ : ∃ arg ∈ args, arg.filtered filter = x := by simpa using h
    exact .inr (.inl (masked_reduction hop ha))
  | @countDistinct func arg filter hop | @singleReduction before after func arg filter hop =>
    obtain rfl : x = arg.filtered filter := by simpa using h
    exact .inr (.inl (masked_reduction hop (by simp)))
  | @arbitrary arg how filter hop =>
    obtain rfl : x = arg.filtered filter := by simpa using h
    have ho : e.operands = [arg] ++ filter.toList := by simp [Expr.operands, Op.operands, hop]
    exact .inr (.inl (masked_of_operands ho (by simp [Op.ownWeight, hop]) (by simp)))
  | @sampleCovariance left right how filter hop | @populationCovariance left right how filter hop =>
    have ho : e.operands = [left, right] ++ filter.toList := by simp [Expr.operands, Op.operands, hop]
    obtain rfl | rfl : x = left.filtered filter ∨ x = right.filtered filter := by simpa using h
    · exact .inr (.inl (masked_of_operands ho (by simp [Op.ownWeight, hop]) (by simp)))
    · exact .inr (.inl (masked_of_operands ho (by simp [Op.ownWeight, hop]) (by simp)))
  | regex ho =>
    rw [ho]
    exact .inl (operands_regexLayout h)
  | fails hargs error =>
    refine .inl (hargs ?_)
    simpa [Layout.operands, Step.expr?] using h
  | _ =>
    refine .inl ?_
    simp at h <;> grind [Expr.operands, Op.operands]

theorem weight_layout (f : Formatter) {e x : Expr} (h : x ∈ (f.layout e).operands) :
    x.weight < e.weight := by
  rcases layout_operand_cases f h with hx | ⟨arg, filter, rfl, -, -, hw⟩ | ⟨kind, parts, words, hk, hf, hx⟩
  · exact Expr.weight_operand hx
  · exact (Expr.weight_filtered arg filter).trans_lt hw
  · exact (flatten_weight hf x hx).2 hk

end Formatter

namespace Target

theorem takeStep_congr (t : Target) {write other : Expr → Render String} {s : Step}
    (h : ∀ x, s.expr? = some x → write x = other x) : t.takeStep write s = t.takeStep other s := by
  cases s with
  | operand e => exact h e rfl
  | nested e => simp only [takeStep, h e rfl]
  | _ => rfl

theorem mapM_takeStep_congr (t : Target) {write other : Expr → Render String} {steps : List Step}
    (h : ∀ x ∈ steps.filterMap Step.expr?, write x = other x) :
    steps.mapM (t.takeStep write) = steps.mapM (t.takeStep other) :=
  mapM_congr fun s hs => t.takeStep_congr fun x hx => h x (List.mem_filterMap.mpr ⟨s, hs, hx⟩)

theorem renderWithin_congr (t : Target) : ∀ {n m : Nat} {e : Expr}, e.weight ≤ n → e.weight ≤ m →
    t.renderWithin n e = t.renderWithin m e := by
  intro n
  induction n with
  | zero =>
    intro m e hn
    have := e.weight_pos
    omega
  | succ n ih =>
    intro m e hn hm
    cases m with
    | zero =>
      have := e.weight_pos
      omega
    | succ m =>
      simp only [renderWithin]
      split
      next => rfl
      next f hf =>
        have hs : ((f.layout e).steps.mapM (t.takeStep (t.renderWithin n))) =
            (f.layout e).steps.mapM (t.takeStep (t.renderWithin m)) := by
          refine t.mapM_takeStep_congr fun x hx => ?_
          have hw : x.weight < e.weight := f.weight_layout hx
          exact ih (by omega) (by omega)
        rw [hs]

theorem render_eq (t : Target) (e : Expr) :
    t.render e =
      match t.formatters.get? e.kind with
      | none => throw (t.missing e.kind)
      | some f => do
        let texts ← (f.layout e).steps.mapM (t.takeStep t.render)
        return (f.layout e).fill texts := by
  obtain ⟨n, hn⟩ : ∃ n, e.weight = n + 1 := ⟨e.weight - 1, by have := e.weight_pos; omega⟩
  rw [render, hn]
  simp only [renderWithin]
  cases hf : t.formatters.get? e.kind with
  | none => rfl
  | some f =>
    have hs : (f.layout e).steps.mapM (t.takeStep (t.renderWithin n)) =
        (f.layout e).steps.mapM (t.takeStep t.render) := by
      refine t.mapM_takeStep_congr fun x hx => ?_
      have hw : x.weight < e.weight := f.weight_layout hx
      exact t.renderWithin_congr (by omega) le_rfl
    simp only [hs]

theorem render_congr (t : Target) (table : DispatchTable Formatter)
    (h : ∀ k, t.formatters.get? k = table.get? k) (e : Expr) :
    t.render e = Target.render { t with formatters := table } e := by
  have hstep (write : Expr → Render String) :
      t.takeStep write = Target.takeStep { t with formatters := table } write := by
    funext s
    cases s <;> rfl
  have hwithin : ∀ n e, t.renderWithin n e = renderWithin { t with formatters := table } n e := by
    intro n
    induction n with
    | zero => exact fun _ => rfl
    | succ n ih =>
      intro e
      have hn : t.renderWithin n = renderWithin { t with formatters := table } n := funext ih
      simp only [renderWithin, h, hn, hstep]
  exact hwithin e.weight e

/-- What a run may know by the time it writes something. -/
inductive Reached (t : Target) : Context → Prop where
  | start : t.Reached .start
  | place {ctx last : Context} {name w : String} {dtype : DataType} (h : t.Reached ctx)
      (hp : t.placeholder name dtype ctx = .ok (w, last)) : t.Reached last

theorem throw_ne_ok {α : Type} {error : SqlError} {ctx : Context} {r : α × Context} :
    (throw error : Render α) ctx ≠ .ok r := by
  simp [throw, throwThe, MonadExceptOf.throw, StateT.lift, bind, Except.bind]

theorem reached_takeStep {t : Target} {write : Expr → Render String} {s : Step} {ctx last : Context}
    {w : String} (hwrite : ∀ x ctx v last, t.Reached ctx → write x ctx = .ok (v, last) → t.Reached last)
    (hctx : t.Reached ctx) (h : t.takeStep write s ctx = .ok (w, last)) : t.Reached last := by
  cases s with
  | operand x => exact hwrite x ctx w last hctx h
  | nested x =>
    obtain ⟨v, mid, hv, hw⟩ := render_bind_ok.mp h
    obtain ⟨-, rfl⟩ := render_pure_ok.mp hw
    exact hwrite x ctx v mid hctx hv
  | parameter name dtype => exact .place hctx h
  | table name =>
    obtain ⟨-, rfl⟩ := render_pure_ok.mp h
    exact hctx
  | fail error => exact absurd h throw_ne_ok

theorem reached_mapM {t : Target} {write : Expr → Render String} {steps : List Step}
    {ctx last : Context} {texts : List String}
    (hwrite : ∀ x ctx v last, t.Reached ctx → write x ctx = .ok (v, last) → t.Reached last)
    (hctx : t.Reached ctx) (h : steps.mapM (t.takeStep write) ctx = .ok (texts, last)) :
    t.Reached last := by
  induction steps generalizing ctx texts with
  | nil =>
    obtain ⟨-, rfl⟩ := render_pure_ok.mp h
    exact hctx
  | cons s rest ih =>
    rw [List.mapM_cons] at h
    obtain ⟨w, mid, hw, h⟩ := render_bind_ok.mp h
    obtain ⟨ws, fin, hws, h⟩ := render_bind_ok.mp h
    obtain ⟨-, rfl⟩ := render_pure_ok.mp h
    exact ih (reached_takeStep hwrite hctx hw) hws

theorem reached_renderWithin {t : Target} {n : Nat} {e : Expr} {ctx last : Context} {w : String}
    (hctx : t.Reached ctx) (h : t.renderWithin n e ctx = .ok (w, last)) : t.Reached last := by
  induction n generalizing e ctx w last with
  | zero => exact absurd h throw_ne_ok
  | succ n ih =>
    simp only [renderWithin] at h
    cases hf : t.formatters.get? e.kind with
    | none =>
      simp only [hf] at h
      exact absurd h throw_ne_ok
    | some f =>
      simp only [hf] at h
      obtain ⟨texts, mid, ht, h⟩ := render_bind_ok.mp h
      obtain ⟨-, rfl⟩ := render_pure_ok.mp h
      exact reached_mapM (fun x ctx v last hctx hv => ih hctx hv) hctx ht

def Writes (t : Target) (e : Expr) (text : String) : Prop :=
  ∃ ctx last, t.Reached ctx ∧ t.render e ctx = .ok (text, last)

theorem writes_of_run {t : Target} {e : Expr} {text : String}
    (h : (t.render e .start).toOption.map Prod.fst = some text) : t.Writes e text := by
  cases hr : t.render e .start with
  | error error => simp [hr, Except.toOption] at h
  | ok r =>
    obtain ⟨w, last⟩ := r
    obtain rfl : w = text := by simpa [hr, Except.toOption] using h
    exact ⟨.start, last, .start, hr⟩

def Takes (t : Target) (P : Expr → String → Prop) : Step → String → Prop
  | .operand x, w => P x w
  | .nested x, w => ∃ v, P x v ∧ w = if x.needsParens then "(" ++ v ++ ")" else v
  | .parameter name dtype, w => ∃ ctx last, t.Reached ctx ∧ t.placeholder name dtype ctx = .ok (w, last)
  | .table name, w => w = t.tableName name
  | .fail _, _ => False

theorem not_takes_fail {t : Target} {P : Expr → String → Prop} {steps : List Step} {texts : List String}
    {error : SqlError} (h : List.Forall₂ (t.Takes P) steps texts) : .fail error ∉ steps := by
  intro hmem
  obtain ⟨w, hw⟩ := forall₂_exists h _ hmem
  exact hw

theorem not_takes_failing {t : Target} {P : Expr → String → Prop} {args : List Expr} {error : SqlError}
    {texts : List String} : ¬List.Forall₂ (t.Takes P) (args.map Step.operand ++ [Step.fail error]) texts :=
  fun h => not_takes_fail h (List.mem_append_right _ (.head _))

theorem takes_of_takeStep {t : Target} {s : Step} {ctx last : Context} {w : String}
    (hctx : t.Reached ctx) (h : t.takeStep t.render s ctx = .ok (w, last)) : t.Takes t.Writes s w := by
  cases s with
  | operand x => exact ⟨ctx, last, hctx, h⟩
  | nested x =>
    obtain ⟨v, mid, hv, hw⟩ := render_bind_ok.mp h
    obtain ⟨rfl, rfl⟩ := render_pure_ok.mp hw
    exact ⟨v, ⟨ctx, mid, hctx, hv⟩, rfl⟩
  | parameter name dtype => exact ⟨ctx, last, hctx, h⟩
  | table name =>
    obtain ⟨rfl, -⟩ := render_pure_ok.mp h
    rfl
  | fail error => exact absurd h throw_ne_ok

theorem takes_of_mapM {t : Target} {steps : List Step} {ctx last : Context} {texts : List String}
    (hctx : t.Reached ctx) (h : steps.mapM (t.takeStep t.render) ctx = .ok (texts, last)) :
    List.Forall₂ (t.Takes t.Writes) steps texts := by
  induction steps generalizing ctx texts with
  | nil =>
    obtain ⟨rfl, -⟩ := render_pure_ok.mp h
    exact .nil
  | cons s rest ih =>
    rw [List.mapM_cons] at h
    obtain ⟨w, mid, hw, h⟩ := render_bind_ok.mp h
    obtain ⟨ws, fin, hws, h⟩ := render_bind_ok.mp h
    obtain ⟨rfl, rfl⟩ := render_pure_ok.mp h
    have hmid : t.Reached mid := reached_takeStep (fun _ _ _ _ => reached_renderWithin) hctx hw
    exact .cons (takes_of_takeStep hctx hw) (ih hmid hws)

theorem writes_cases {t : Target} {e : Expr} {text : String} (h : t.Writes e text) :
    ∃ f texts, t.formatters.get? e.kind = some f ∧
      List.Forall₂ (t.Takes t.Writes) (f.layout e).steps texts ∧ text = (f.layout e).fill texts := by
  obtain ⟨ctx, last, hctx, h⟩ := h
  rw [render_eq] at h
  cases hf : t.formatters.get? e.kind with
  | none =>
    simp only [hf] at h
    exact absurd h throw_ne_ok
  | some f =>
    simp only [hf] at h
    obtain ⟨texts, mid, ht, h⟩ := render_bind_ok.mp h
    obtain ⟨rfl, -⟩ := render_pure_ok.mp h
    exact ⟨f, texts, rfl, takes_of_mapM hctx ht, rfl⟩

theorem takes_mono {t : Target} {P Q : Expr → String → Prop} {s : Step} {w : String}
    (hPQ : ∀ x v, s.expr? = some x → P x v → Q x v) (h : t.Takes P s w) : t.Takes Q s w := by
  cases s with
  | operand x => exact hPQ x w rfl h
  | nested x =>
    obtain ⟨v, hv, rfl⟩ := h
    exact ⟨v, hPQ x v rfl hv, rfl⟩
  | _ => exact h

theorem forall₂_takes_mono {t : Target} {P Q : Expr → String → Prop} {steps : List Step}
    {texts : List String} (hPQ : ∀ x ∈ steps.filterMap Step.expr?, ∀ v, P x v → Q x v)
    (h : List.Forall₂ (t.Takes P) steps texts) : List.Forall₂ (t.Takes Q) steps texts := by
  induction h with
  | nil => exact .nil
  | @cons s w rest ws hs _ ih =>
    refine .cons (takes_mono (fun x v hx => hPQ x ?_ v) hs) (ih fun x hx => hPQ x ?_)
    · exact List.mem_filterMap.mpr ⟨s, by simp, hx⟩
    · obtain ⟨r, hr, hx⟩ := List.mem_filterMap.mp hx
      exact List.mem_filterMap.mpr ⟨r, by simp [hr], hx⟩

theorem writes_induct {t : Target} {P : Expr → String → Prop}
    (step : ∀ e f texts, t.formatters.get? e.kind = some f →
      List.Forall₂ (t.Takes fun x w => t.Writes x w ∧ P x w) (f.layout e).steps texts →
      P e ((f.layout e).fill texts)) {e : Expr} {text : String} (h : t.Writes e text) : P e text := by
  obtain ⟨f, texts, hf, ht, rfl⟩ := writes_cases h
  refine step e f texts hf (forall₂_takes_mono (fun x hx v hv => ⟨hv, ?_⟩) ht)
  have hw : x.weight < e.weight := f.weight_layout hx
  exact writes_induct step hv
termination_by e.weight

end Target

namespace ParamNaming

def Places : ParamNaming → String → String → Prop
  | .declared, name, placeholder => placeholder = name
  | .generated, _, placeholder => ∃ n : Nat, placeholder = "param_" ++ toString n

end ParamNaming

namespace Context

def Places (ctx : Context) (naming : ParamNaming) : Prop :=
  ∀ slot ∈ ctx.slots, naming.Places slot.declared slot.placeholder

theorem place_places {ctx : Context} {naming : ParamNaming} (h : ctx.Places naming) (name : String)
    (dtype : DataType) :
    naming.Places name (ctx.place naming name dtype).1 ∧ (ctx.place naming name dtype).2.Places naming := by
  unfold place
  split
  next slot hfind =>
    obtain rfl : slot.declared = name := by simpa using List.find?_some hfind
    exact ⟨h slot (List.mem_of_find?_eq_some hfind), h⟩
  next =>
    cases naming with
    | declared =>
      refine ⟨rfl, fun slot hslot => ?_⟩
      rcases List.mem_append.mp hslot with hslot | hslot
      · exact h slot hslot
      · obtain rfl := List.mem_singleton.mp hslot
        rfl
    | generated =>
      refine ⟨⟨_, rfl⟩, fun slot hslot => ?_⟩
      rcases List.mem_append.mp hslot with hslot | hslot
      · exact h slot hslot
      · obtain rfl := List.mem_singleton.mp hslot
        exact ⟨_, rfl⟩

end Context

namespace Compiler

theorem placeholder_ok {c : Compiler} {params : Params} {name w : String} {dtype : DataType}
    {ctx last : Context} (h : (c.target params).placeholder name dtype ctx = .ok (w, last)) :
    w = "@" ++ (ctx.place c.naming name dtype).1 ∧ last = (ctx.place c.naming name dtype).2 := by
  simp only [target] at h
  split at h
  next => simp at h
  next =>
    obtain ⟨rfl, rfl⟩ : "@" ++ (ctx.place c.naming name dtype).1 = w ∧
        (ctx.place c.naming name dtype).2 = last := by simpa using h
    exact ⟨rfl, rfl⟩

theorem reached_places {c : Compiler} {params : Params} {ctx : Context}
    (h : (c.target params).Reached ctx) : ctx.Places c.naming := by
  induction h with
  | start => simp [Context.Places, Context.start]
  | @place ctx last name w dtype _ hp ih =>
    obtain ⟨-, rfl⟩ := placeholder_ok hp
    exact (Context.place_places ih name dtype).2

theorem placeholder_places {c : Compiler} {params : Params} {P : Expr → String → Prop} {name w : String}
    {dtype : DataType} (h : (c.target params).Takes P (.parameter name dtype) w) :
    ∃ placeholder, c.naming.Places name placeholder ∧ w = "@" ++ placeholder := by
  obtain ⟨ctx, last, hctx, hp⟩ := h
  obtain ⟨rfl, -⟩ := placeholder_ok hp
  exact ⟨_, (Context.place_places (reached_places hctx) name dtype).1, rfl⟩

/-- The compiler of BigQuery statements over the table that is quick to look things up in. -/
def ordered (naming : ParamNaming) : Compiler :=
  ⟨Formatter.lookupOrder, Rule.bigQuery, naming⟩

theorem render_ordered (naming : ParamNaming) (params : Params) (e : Expr) :
    ((bigQuery naming).target params).render e = ((ordered naming).target params).render e := by
  rw [Target.render_congr _ Formatter.lookupOrder]
  · rfl
  · intro k
    exact Formatter.get_lookupOrder k

end Compiler

end BigQuerySql
