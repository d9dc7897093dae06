import BigQuerySql.Proofs.Termination

namespace BigQuerySql

namespace Rule

def replacing : List (Kind × Rule) :=
  [(.call .dayOfWeekName, .dayOfWeekName), (.binary .floorDivide, .floorDivide),
   (.binary .identicalTo, .identicalTo), (.call .log2, .log2), (.reduction .sum, .booleanAsInteger),
   (.reduction .mean, .booleanAsInteger)]

theorem getD_bigQuery (k : Kind) : (bigQuery.get? k).getD .keep = (replacing.lookup k).getD .keep := by
  have hempty : (DispatchTable.empty : DispatchTable Rule).get? k = none := rfl
  rw [bigQuery, generic, DispatchTable.get_insertMany, DispatchTable.get_insertMany, hempty]
  simp only [List.reverse_cons, List.reverse_nil, List.nil_append, List.cons_append,
    lookup_cons_if, List.lookup_nil, replacing]
  by_cases hk : k ∈ replacing.map Prod.fst
  · simp only [replacing, List.map_cons, List.map_nil, List.mem_cons, List.not_mem_nil, or_false] at hk
    rcases hk with rfl | rfl | rfl | rfl | rfl | rfl <;> rfl
  · simp only [replacing, List.map_cons, List.map_nil, List.mem_cons, List.not_mem_nil, or_false, not_or] at hk
    simp only [hk, if_false]
    (repeat' split) <;> rfl

end Rule

namespace Op

def isForeign {α : Type} : Op α → Bool
  | .binary .floorDivide _ _ => true
  | .binary .identicalTo _ _ => true
  | .call .dayOfWeekName [_] => true
  | .call .log2 [_] => true
  | _ => false

def summand? {α : Type} : Op α → Option α
  | .reduction .sum [arg] _ => some arg
  | .reduction .mean [arg] _ => some arg
  | _ => none

theorem mem_summand {α : Type} {op : Op α} {arg : α} :
    arg ∈ op.summand? ↔ ∃ func ∈ [Agg.sum, .mean], ∃ filter, op = .reduction func [arg] filter := by
  constructor
  · intro h
    unfold summand? at h
    split at h
    next found filter =>
      obtain rfl : found = arg := Option.some.inj h
      exact ⟨.sum, by simp, filter, rfl⟩
    next found filter =>
      obtain rfl : found = arg := Option.some.inj h
      exact ⟨.mean, by simp, filter, rfl⟩
    next => exact absurd h (by simp)
  · rintro ⟨func, hfunc, filter, rfl⟩
    simp only [List.mem_cons, List.not_mem_nil, or_false] at hfunc
    rcases hfunc with rfl | rfl <;> rfl

end Op

namespace Expr

structure Unfit (e : Expr) : Prop where
  native : e.op.isForeign = false
  counted : ∀ arg ∈ e.op.summand?, arg.dtype.isBoolean = false

inductive Replaces : Expr → Expr → Prop where
  | same {e : Expr} (h : e.Unfit) : Replaces e e
  | identicalTo (left right : Expr) (dtype : DataType) (label : Option String) :
      Replaces ⟨.binary .identicalTo left right, dtype, label⟩
        ⟨.binary .or (left.isNull.and right.isNull) (left.equals right), .bool, label⟩
  | floorDivide (left right : Expr) (dtype : DataType) (label : Option String) :
      Replaces ⟨.binary .floorDivide left right, dtype, label⟩
        ⟨.call .floor [left.divide right], .int64, label⟩
  | log2 (arg : Expr) (dtype : DataType) (label : Option String) :
      Replaces ⟨.call .log2 [arg], dtype, label⟩ ⟨.call .log [arg, literal (.int 2) .int8], .float64, label⟩
  | dayOfWeekName (arg : Expr) (dtype : DataType) (label : Option String) :
      Replaces ⟨.call .dayOfWeekName [arg], dtype, label⟩
        ⟨.strftime arg (literal (.string "%A") .string), .string, label⟩
  | booleanAsInteger {func : Agg} (hfunc : func ∈ [.sum, .mean]) (arg : Expr) (filter : Option Expr)
      (dtype : DataType) (label : Option String) (hbool : arg.dtype.isBoolean = true) :
      Replaces ⟨.reduction func [arg] filter, dtype, label⟩
        ⟨.reduction func [arg.cast .int64] filter, dtype, label⟩

theorem replaced_eq {e : Expr} {rule : Rule} (h : (Rule.replacing.lookup e.kind).getD .keep = rule) :
    e.replaced Rule.bigQuery = ⟨(rule.apply e).op, (rule.apply e).dtype, (rule.apply e).label <|> e.label⟩ := by
  rw [← Rule.getD_bigQuery] at h
  cases hget : Rule.bigQuery.get? e.kind with
  | none =>
    obtain rfl : Rule.keep = rule := by simpa [hget] using h
    simp [replaced, hget, Rule.apply]
  | some found =>
    obtain rfl : found = rule := by simpa [hget] using h
    simp [replaced, hget]

theorem replaced_of_unfit {e : Expr} {rule : Rule} (h : (Rule.replacing.lookup e.kind).getD .keep = rule)
    (hunfit : rule.apply e = e) : e.replaced Rule.bigQuery = e := by
  have hlabel : (e.label <|> e.label) = e.label := by cases e.label <;> rfl
  rw [replaced_eq h, hunfit, hlabel]
  cases e with
  | mk op dtype label => rfl

theorem replaces_of_unfit {e : Expr} {rule : Rule} (h : (Rule.replacing.lookup e.kind).getD .keep = rule)
    (hsame : rule.apply e = e) (hunfit : e.Unfit) : Replaces e (e.replaced Rule.bigQuery) := by
  rw [replaced_of_unfit h hsame]
  exact .same hunfit

theorem replaces_bigQuery (e : Expr) : Replaces e (e.replaced Rule.bigQuery) := by
  obtain ⟨op, dtype, label⟩ := e
  cases op with
  | binary op left right =>
    cases op with
    | identicalTo =>
      rw [replaced_eq rfl]
      exact .identicalTo left right dtype label
    | floorDivide =>
      rw [replaced_eq rfl]
      exact .floorDivide left right dtype label
    | _ => exact replaces_of_unfit rfl rfl ⟨rfl, by simp [Op.summand?]⟩
  | call func args =>
    cases func with
    | log2 =>
      rcases args with _ | ⟨arg, _ | ⟨other, rest⟩⟩
      · exact replaces_of_unfit rfl rfl ⟨rfl, by simp [Op.summand?]⟩
      · rw [replaced_eq rfl]
        exact .log2 arg dtype label
      · exact replaces_of_unfit rfl rfl ⟨rfl, by simp [Op.summand?]⟩
    | dayOfWeekName =>
      rcases args with _ | ⟨arg, _ | ⟨other, rest⟩⟩
      · exact replaces_of_unfit rfl rfl ⟨rfl, by simp [Op.summand?]⟩
      · rw [replaced_eq rfl]
        exact .dayOfWeekName arg dtype label
      · exact replaces_of_unfit rfl rfl ⟨rfl, by simp [Op.summand?]⟩
    | _ => exact replaces_of_unfit rfl rfl ⟨rfl, by simp [Op.summand?]⟩
  | reduction func args filter =>
    by_cases hfunc : func ∈ [Agg.sum, Agg.mean]
    · have hrule : (Rule.replacing.lookup (Kind.reduction func)).getD .keep = .booleanAsInteger := by
        simp only [List.mem_cons, List.not_mem_nil, or_false] at hfunc
        rcases hfunc with rfl | rfl <;> rfl
      rcases args with _ | ⟨arg, _ | ⟨other, rest⟩⟩
      · exact replaces_of_unfit hrule rfl ⟨rfl, by simp [Op.summand?]⟩
      · cases hbool : arg.dtype.isBoolean with
        | true =>
          have heq := replaced_eq (e := ⟨.reduction func [arg] filter, dtype, label⟩) hrule
          simp only [Rule.apply, hbool, if_true] at heq
          rw [heq]
          exact .booleanAsInteger hfunc arg filter dtype label hbool
        | false =>
          refine replaces_of_unfit hrule (by simp [Rule.apply, hbool]) ⟨rfl, fun found hfound => ?_⟩
          obtain ⟨_, _, _, hop⟩ := Op.mem_summand.mp hfound
          obtain ⟨-, rfl, -⟩ := Op.reduction.inj hop |>.imp_right (And.imp_left List.singleton_inj.mp)
          exact hbool
      · exact replaces_of_unfit hrule rfl ⟨rfl, by simp [Op.summand?]⟩
    · have hrule : (Rule.replacing.lookup (Kind.reduction func)).getD .keep = .keep := by
        simp only [List.mem_cons, List.not_mem_nil, or_false, not_or] at hfunc
        simp [Rule.replacing, lookup_cons_if, hfunc]
      refine replaces_of_unfit hrule rfl ⟨rfl, fun found hfound => ?_⟩
      obtain ⟨other, hother, _, hop⟩ := Op.mem_summand.mp hfound
      obtain rfl : func = other := by simpa [Op.kind] using congrArg Op.kind hop
      exact absurd hother hfunc
  | _ => exact replaces_of_unfit rfl rfl ⟨rfl, by simp [Op.summand?]⟩

theorem lower_eq (e : Expr) :
    e.lower Rule.bigQuery = (e.replaced Rule.bigQuery).mapOperands (lower Rule.bigQuery) :=
  lower_eq_of_wellFounded (wellFounded_of_endsWithin Rule.endsWithin_bigQuery) e

theorem lower_kept {e : Expr} (h : Rule.replacing.lookup e.kind = none) :
    e.lower Rule.bigQuery = e.mapOperands (lower Rule.bigQuery) := by
  have hrule : (Rule.replacing.lookup e.kind).getD .keep = .keep := by rw [h, Option.getD_none]
  rw [lower_eq, replaced_of_unfit hrule rfl]

theorem lower_induct {P : Expr → Prop} (step : ∀ e, (∀ x ∈ (e.replaced Rule.bigQuery).operands, P x) → P e)
    (e : Expr) : P e :=
  (wellFounded_of_endsWithin Rule.endsWithin_bigQuery).induction e step

end Expr

end BigQuerySql
