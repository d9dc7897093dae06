import BigQuerySql.Proofs.Lowering
import BigQuerySql.Proofs.Names

namespace BigQuerySql

abbrev Truth := Option Bool

namespace Truth

def not : Truth → Truth :=
  Option.map fun b => !b

def and : Truth → Truth → Truth
  | some false, _ => some false
  | _, some false => some false
  | some true, some true => some true
  | _, _ => none

def or : Truth → Truth → Truth
  | some true, _ => some true
  | _, some true => some true
  | some false, some false => some false
  | _, _ => none

end Truth

namespace Value

def isNull : Value → Bool
  | .null => true
  | _ => false

def ofTruth : Truth → Value
  | none => .null
  | some b => .bool b

def truth? : Value → Option Truth
  | .null => some none
  | .bool b => some (some b)
  | _ => none

theorem truth_ofTruth (t : Truth) : (ofTruth t).truth? = some t := by
  cases t <;> rfl

theorem truth_bool (b : Bool) : (bool b).truth? = some (some b) := rfl

theorem ofTruth_of_truth {v : Value} {t : Truth} (h : v.truth? = some t) : v = ofTruth t := by
  cases v <;> simp [truth?] at h <;> subst h <;> rfl

variable (same : Value → Value → Bool)

def equality (a b : Value) : Truth :=
  if a.isNull || b.isNull then none else some (same a b)

def identity (a b : Value) : Truth :=
  if a.isNull && b.isNull then some true
  else if a.isNull || b.isNull then some false
  else some (same a b)

/-- Two nulls are identical, for a null and another value it is unknown. -/
def looseIdentity (a b : Value) : Truth :=
  if a.isNull && b.isNull then some true else equality same a b

theorem or_equality_eq_looseIdentity (a b : Value) :
    Truth.or (Truth.and (some a.isNull) (some b.isNull)) (equality same a b) = looseIdentity same a b := by
  cases ha : a.isNull <;> cases hb : b.isNull <;> cases hs : same a b <;>
    simp [Truth.and, Truth.or, looseIdentity, equality, ha, hb, hs]

theorem looseIdentity_eq_identity_iff (a b : Value) :
    looseIdentity same a b = identity same a b ↔ a.isNull = b.isNull := by
  cases ha : a.isNull <;> cases hb : b.isNull <;> simp [looseIdentity, identity, equality, ha, hb]

end Value

abbrev Row := Option String → String → Value

structure Comparison where
  same : Value → Value → Bool
  identical : Value → Value → Truth

namespace Op

def meaning (c : Comparison) (row : Row) : Op (Option Value) → Option Value
  | .literal v => some v
  | .column name table => some (row table name)
  | .call .not [a] => do return .ofTruth (← (← a).truth?).not
  | .call .isNull [a] => do return .bool (← a).isNull
  | .call .notNull [a] => do return .bool !(← a).isNull
  | .binary .and a b => do return .ofTruth ((← (← a).truth?).and (← (← b).truth?))
  | .binary .or a b => do return .ofTruth ((← (← a).truth?).or (← (← b).truth?))
  | .binary .equals a b => do return .ofTruth (Value.equality c.same (← a) (← b))
  | .binary .identicalTo a b => do return .ofTruth (c.identical (← a) (← b))
  | _ => none

theorem meaning_of_kind {op : Op (Option Value)} (h : op.kind ≠ .binary .identicalTo) (c : Comparison) (row : Row)
    (identical : Value → Value → Truth) : op.meaning ⟨c.same, identical⟩ row = op.meaning c row := by
  cases op with
  | binary op a b =>
    cases op with
    | identicalTo => exact absurd rfl h
    | _ => rfl
  | call func args => cases func <;> rcases args with _ | ⟨a, _ | ⟨b, rest⟩⟩ <;> rfl
  | _ => rfl

end Op

namespace Expr

def meaning (c : Comparison) (row : Row) : Expr → Option Value :=
  fold fun op _ _ => op.meaning c row

theorem meaning_mk (c : Comparison) (row : Row) (op : Op Expr) (dtype : DataType) (label : Option String) :
    meaning c row ⟨op, dtype, label⟩ = (op.map (meaning c row)).meaning c row := by
  rw [meaning, fold_mk]

theorem meaning_lower_identity (c : Comparison) (row : Row) (left right : Expr) (label : Option String) :
    meaning c row
        (mapOperands (lower Rule.bigQuery)
          ⟨.binary .or (left.isNull.and right.isNull) (left.equals right), .bool, label⟩) =
      do return .ofTruth (Value.looseIdentity c.same (← meaning c row (left.lower Rule.bigQuery))
        (← meaning c row (right.lower Rule.bigQuery))) := by
  have hnull (x : Expr) : x.isNull.lower Rule.bigQuery = (x.lower Rule.bigQuery).isNull := lower_kept rfl
  have hand : (left.isNull.and right.isNull).lower Rule.bigQuery =
      (left.lower Rule.bigQuery).isNull.and (right.lower Rule.bigQuery).isNull := by
    rw [lower_kept rfl, ← hnull, ← hnull]
    rfl
  have hequals : meaning c row ((left.equals right).lower Rule.bigQuery) =
      meaning c row ((left.lower Rule.bigQuery).equals (right.lower Rule.bigQuery)) := by
    rw [lower_kept rfl]
    rfl
  rw [mapOperands, meaning_mk]
  simp only [Op.map, hand, hequals]
  simp only [and, equals, binary, isNull, call, ofOp, meaning_mk, Op.map, List.map_cons, List.map_nil, Op.meaning]
  cases meaning c row (left.lower Rule.bigQuery) with
  | none => rfl
  | some a =>
    cases meaning c row (right.lower Rule.bigQuery) with
    | none => rfl
    | some b => simp [Value.truth_bool, Value.truth_ofTruth, Value.or_equality_eq_looseIdentity]

theorem meaning_lower (c : Comparison) (row : Row) (e : Expr) :
    meaning c row (e.lower Rule.bigQuery) = meaning ⟨c.same, Value.looseIdentity c.same⟩ row e := by
  induction e using Expr.induction_on with
  | step e ih =>
    have hreplaces := replaces_bigQuery e
    rw [lower_eq]
    generalize e.replaced Rule.bigQuery = r at hreplaces
    cases hreplaces with
    | same h =>
      obtain ⟨op, dtype, label⟩ := e
      have hkind : (op.map (meaning ⟨c.same, Value.looseIdentity c.same⟩ row)).kind ≠ .binary .identicalTo := by
        rw [Op.kind_map]
        intro hk
        cases op <;> simp [Op.kind] at hk
        subst hk
        exact absurd h.native (by simp [Op.isForeign])
      have hmap : op.map (meaning c row ∘ lower Rule.bigQuery) =
          op.map (meaning ⟨c.same, Value.looseIdentity c.same⟩ row) := Op.map_congr ih
      rw [mapOperands, meaning_mk, meaning_mk, Op.map_map, hmap]
      exact (Op.meaning_of_kind hkind c row _).symm
    | identicalTo left right dtype label =>
      rw [meaning_lower_identity, ih left (by simp [operands, Op.operands]),
        ih right (by simp [operands, Op.operands]), meaning_mk]
      rfl
    | _ => rfl

variable (same : Value → Value → Bool) (row : Row)

def value : Expr → Option Value :=
  meaning ⟨same, Value.identity same⟩ row

/-- An identity of which just one side is null. -/
def HalfNull (e : Expr) : Prop :=
  ∃ left right a b, e.op = .binary .identicalTo left right ∧ value same row left = some a ∧
    value same row right = some b ∧ a.isNull ≠ b.isNull

theorem halfNull_iff {left right : Expr} {dtype : DataType} {label : Option String} :
    HalfNull same row ⟨.binary .identicalTo left right, dtype, label⟩ ↔
      ∃ a b, value same row left = some a ∧ value same row right = some b ∧ a.isNull ≠ b.isNull := by
  constructor
  · rintro ⟨left, right, a, b, hop, h⟩
    obtain ⟨rfl, rfl⟩ : _ = left ∧ _ = right := by simpa using hop
    exact ⟨a, b, h⟩
  · rintro ⟨a, b, h⟩
    exact ⟨left, right, a, b, rfl, h⟩

theorem loose_iff_not_halfNull {e : Expr}
    (h : ∀ x ∈ e.operands, meaning ⟨same, Value.looseIdentity same⟩ row x = value same row x) :
    meaning ⟨same, Value.looseIdentity same⟩ row e = value same row e ↔ ¬HalfNull same row e := by
  obtain ⟨op, dtype, label⟩ := e
  have hmap : op.map (meaning ⟨same, Value.looseIdentity same⟩ row) = op.map (value same row) := Op.map_congr h
  by_cases hkind : op.kind = .binary .identicalTo
  · obtain ⟨left, right, rfl⟩ : ∃ left right, op = .binary .identicalTo left right := by
      cases op <;> simp [Op.kind] at hkind
      exact ⟨_, _, by rw [hkind]⟩
    have hmeaning (identical : Value → Value → Truth) :
        Op.meaning ⟨same, identical⟩ row ((Op.binary .identicalTo left right).map (value same row)) =
          do return .ofTruth (identical (← value same row left) (← value same row right)) := rfl
    rw [meaning_mk, hmap, hmeaning, value, meaning_mk, ← value, hmeaning, halfNull_iff]
    cases value same row left with
    | none => simp
    | some a =>
      cases value same row right with
      | none => simp
      | some b =>
        have hinj : Function.Injective Value.ofTruth := by
          intro t u htu
          simpa [Value.truth_ofTruth] using congrArg Value.truth? htu
        simp [hinj.eq_iff, Value.looseIdentity_eq_identity_iff]
  · have hvalue : meaning ⟨same, Value.looseIdentity same⟩ row ⟨op, dtype, label⟩ =
        value same row ⟨op, dtype, label⟩ := by
      rw [meaning_mk, hmap, value, meaning_mk, ← value]
      exact (Op.meaning_of_kind (by rwa [Op.kind_map]) _ row _).symm
    refine iff_of_true hvalue ?_
    rintro ⟨left, right, a, b, rfl, -⟩
    exact hkind rfl

theorem loose_nodes_iff (e : Expr) :
    (∀ x ∈ e.nodes, meaning ⟨same, Value.looseIdentity same⟩ row x = value same row x) ↔
      ∀ x ∈ e.nodes, ¬HalfNull same row x := by
  induction e using Expr.induction_on with
  | step e ih =>
    have hself (x : Expr) : x ∈ x.nodes := by simp [nodes_eq x]
    have hoperands : (∀ x ∈ e.operands.flatMap nodes,
          meaning ⟨same, Value.looseIdentity same⟩ row x = value same row x) ↔
        ∀ x ∈ e.operands.flatMap nodes, ¬HalfNull same row x := by
      simp only [List.mem_flatMap, forall_exists_index, and_imp]
      exact ⟨fun h x y hy => (ih y hy).mp (fun x hx => h x y hy hx) x,
        fun h x y hy => (ih y hy).mpr (fun x hx => h x y hy hx) x⟩
    rw [nodes_eq, List.forall_mem_cons, List.forall_mem_cons, hoperands]
    -- Below a node whose operands have all kept their values only the node itself is left to compare.
    refine and_congr_left fun h => loose_iff_not_halfNull same row fun x hx => ?_
    exact hoperands.mpr h x (List.mem_flatMap.mpr ⟨x, hx, hself x⟩)

inductive Logical : Bool → Expr → Prop where
  | literal {truth : Bool} {v : Value} {dtype : DataType} {label : Option String}
      (h : truth = true → v.truth?.isSome) : Logical truth ⟨.literal v, dtype, label⟩
  | column {truth : Bool} {name : String} {table : Option String} {dtype : DataType} {label : Option String}
      (h : truth = true → (row table name).truth?.isSome) : Logical truth ⟨.column name table, dtype, label⟩
  | not {truth : Bool} {arg : Expr} {dtype : DataType} {label : Option String} (h : Logical true arg) :
      Logical truth ⟨.call .not [arg], dtype, label⟩
  | nullTest {truth : Bool} {func : Func} {arg : Expr} {dtype : DataType} {label : Option String}
      (hfunc : func ∈ [.isNull, .notNull]) (h : Logical false arg) : Logical truth ⟨.call func [arg], dtype, label⟩
  | connective {truth : Bool} {op : BinaryOp} {left right : Expr} {dtype : DataType} {label : Option String}
      (hop : op ∈ [.and, .or]) (hleft : Logical true left) (hright : Logical true right) :
      Logical truth ⟨.binary op left right, dtype, label⟩
  | comparison {truth : Bool} {op : BinaryOp} {left right : Expr} {dtype : DataType} {label : Option String}
      (hop : op ∈ [.equals, .identicalTo]) (hleft : Logical false left) (hright : Logical false right) :
      Logical truth ⟨.binary op left right, dtype, label⟩

theorem meaning_logical {c : Comparison} {row : Row} {truth : Bool} {e : Expr} (h : Logical row truth e) :
    ∃ v, meaning c row e = some v ∧ (truth = true → ∃ t, v = .ofTruth t) := by
  induction h with
  | @literal truth v dtype label h =>
    refine ⟨v, rfl, fun htruth => ?_⟩
    obtain ⟨t, ht⟩ := Option.isSome_iff_exists.mp (h htruth)
    exact ⟨t, Value.ofTruth_of_truth ht⟩
  | @column truth name table dtype label h =>
    refine ⟨row table name, rfl, fun htruth => ?_⟩
    obtain ⟨t, ht⟩ := Option.isSome_iff_exists.mp (h htruth)
    exact ⟨t, Value.ofTruth_of_truth ht⟩
  | not _ ih =>
    obtain ⟨v, hv, ht⟩ := ih
    obtain ⟨t, rfl⟩ := ht rfl
    refine ⟨.ofTruth t.not, ?_, fun _ => ⟨_, rfl⟩⟩
    simp [meaning_mk, Op.map, Op.meaning, hv, Value.truth_ofTruth]
  | nullTest hfunc _ ih =>
    obtain ⟨v, hv, -⟩ := ih
    simp only [List.mem_cons, List.not_mem_nil, or_false] at hfunc
    rcases hfunc with rfl | rfl
    · exact ⟨.bool v.isNull, by simp [meaning_mk, Op.map, Op.meaning, hv], fun _ => ⟨some _, rfl⟩⟩
    · exact ⟨.bool !v.isNull, by simp [meaning_mk, Op.map, Op.meaning, hv], fun _ => ⟨some _, rfl⟩⟩
  | connective hop _ _ ihl ihr =>
    obtain ⟨v, hv, ht⟩ := ihl
    obtain ⟨w, hw, hu⟩ := ihr
    obtain ⟨t, rfl⟩ := ht rfl
    obtain ⟨u, rfl⟩ := hu rfl
    simp only [List.mem_cons, List.not_mem_nil, or_false] at hop
    rcases hop with rfl | rfl
    · refine ⟨.ofTruth (t.and u), ?_, fun _ => ⟨_, rfl⟩⟩
      simp [meaning_mk, Op.map, Op.meaning, hv, hw, Value.truth_ofTruth]
    · refine ⟨.ofTruth (t.or u), ?_, fun _ => ⟨_, rfl⟩⟩
      simp [meaning_mk, Op.map, Op.meaning, hv, hw, Value.truth_ofTruth]
  | comparison hop _ _ ihl ihr =>
    obtain ⟨v, hv, -⟩ := ihl
    obtain ⟨w, hw, -⟩ := ihr
    simp only [List.mem_cons, List.not_mem_nil, or_false] at hop
    rcases hop with rfl | rfl
    · refine ⟨.ofTruth (Value.equality c.same v w), ?_, fun _ => ⟨_, rfl⟩⟩
      simp [meaning_mk, Op.map, Op.meaning, hv, hw]
    · refine ⟨.ofTruth (c.identical v w), ?_, fun _ => ⟨_, rfl⟩⟩
      simp [meaning_mk, Op.map, Op.meaning, hv, hw]

/-- A condition and what it is lowered to both have a truth value. Lowering keeps the value of every part of the
condition just if no identity in it has one side that is null and one that is not. -/
theorem lowering_keeps_values_iff {e : Expr} (h : Logical row true e) :
    (∃ t, value same row e = some (.ofTruth t)) ∧
      (∃ t, value same row (e.lower Rule.bigQuery) = some (.ofTruth t)) ∧
      ((∀ x ∈ e.nodes, value same row (x.lower Rule.bigQuery) = value same row x) ↔
        ∀ x ∈ e.nodes, ¬HalfNull same row x) := by
  have hlower (x : Expr) : value same row (x.lower Rule.bigQuery) =
      meaning ⟨same, Value.looseIdentity same⟩ row x := meaning_lower _ row x
  have htruth (c : Comparison) : ∃ t, meaning c row e = some (.ofTruth t) := by
    obtain ⟨v, hv, ht⟩ := meaning_logical (c := c) h
    obtain ⟨t, rfl⟩ := ht rfl
    exact ⟨t, hv⟩
  simp only [hlower]
  exact ⟨htruth _, htruth _, loose_nodes_iff same row e⟩

def differs : Expr :=
  ((column "x" none .int64).binary .identicalTo (column "y" none .int64)).not

theorem differs_logical (row : Row) : Logical row true differs :=
  .not (.comparison (by simp) (.column (by simp)) (.column (by simp)))

def nulls : Row :=
  fun _ _ => .null

theorem nulls_keep_values : Logical nulls true differs ∧
    ∀ x ∈ differs.nodes, value (fun _ _ => false) nulls (x.lower Rule.bigQuery) = value (fun _ _ => false) nulls x := by
  refine ⟨differs_logical nulls, (lowering_keeps_values_iff _ nulls (differs_logical nulls)).2.2.mpr fun x hx => ?_⟩
  have hnodes : differs.nodes = [differs, (column "x" none .int64).binary .identicalTo (column "y" none .int64),
    column "x" none .int64, column "y" none .int64] := rfl
  simp only [hnodes, List.mem_cons, List.not_mem_nil, or_false] at hx
  rintro ⟨left, right, a, b, hop, ha, hb, hne⟩
  rcases hx with rfl | rfl | rfl | rfl
  · simp [differs, not, call, ofOp] at hop
  · obtain ⟨rfl, rfl⟩ : column "x" none .int64 = left ∧ column "y" none .int64 = right := by
      simpa [binary, ofOp] using hop
    obtain rfl : Value.null = a := Option.some.inj ha
    obtain rfl : Value.null = b := Option.some.inj hb
    exact hne rfl
  · simp [column, ofOp] at hop
  · simp [column, ofOp] at hop

def halfNull : Row :=
  fun _ name => if name = "x" then .int 1 else .null

theorem half_null_loses_truth :
    value (fun _ _ => false) halfNull differs = some (.bool true) ∧
      value (fun _ _ => false) halfNull (differs.lower Rule.bigQuery) = some .null := by
  refine ⟨rfl, ?_⟩
  have hlower := meaning_lower ⟨fun _ _ => false, Value.identity fun _ _ => false⟩ halfNull differs
  rw [value, hlower]
  rfl

end Expr

end BigQuerySql
