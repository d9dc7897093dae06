import BigQuerySql.Proofs.Lowering
import BigQuerySql.Proofs.Names

namespace BigQuerySql

theorem DataType.isBoolean_iff {t : DataType} : t.isBoolean = true ↔ t = .bool := by
  cases t <;> simp [isBoolean]

namespace Op

section Map

variable {α β : Type} (f : α → β) (op : Op α)

@[simp] theorem isForeign_map : (op.map f).isForeign = op.isForeign := by
  cases op with
  | binary op left right => cases op <;> rfl
  | call func args => cases func <;> rcases args with _ | ⟨arg, _ | ⟨other, rest⟩⟩ <;> rfl
  | _ => rfl

@[simp] theorem summand_map : (op.map f).summand? = op.summand?.map f := by
  cases op with
  | reduction func args filter => cases func <;> rcases args with _ | ⟨arg, _ | ⟨other, rest⟩⟩ <;> rfl
  | _ => rfl

end Map

variable {α : Type}

theorem mem_operands_of_summand {op : Op α} {arg : α} (h : arg ∈ op.summand?) : arg ∈ op.operands := by
  obtain ⟨func, -, filter, rfl⟩ := mem_summand.mp h
  simp [operands]

theorem map_eq_self_iff {f : α → α} {op : Op α} : op.map f = op ↔ ∀ x ∈ op.operands, f x = x := by
  constructor
  · intro h x hx
    have hoperands : op.operands.map f = op.operands.map id := by rw [← operands_map, h, List.map_id]
    exact List.map_inj_left.mp hoperands x hx
  · intro h
    exact (map_congr h).trans op.map_id

end Op

namespace Expr

theorem forall_mem_nodes {P : Expr → Prop} {e : Expr} :
    (∀ x ∈ e.nodes, P x) ↔ P e ∧ ∀ x ∈ e.operands, ∀ y ∈ x.nodes, P y := by
  rw [nodes_eq, List.forall_mem_cons]
  simp only [List.mem_flatMap, forall_exists_index, and_imp]
  exact and_congr_right fun _ => forall_comm.trans (forall_congr' fun x => forall_comm)

theorem operand_mem_nodes {e x y : Expr} (hx : x ∈ e.nodes) (hy : y ∈ x.operands) : y ∈ e.nodes := by
  have hself (x : Expr) : x ∈ x.nodes := by simp [nodes_eq x]
  induction e using Expr.induction_on with
  | step e ih =>
    rw [nodes_eq, List.mem_cons] at hx
    rw [nodes_eq, List.mem_cons, List.mem_flatMap]
    rcases hx with rfl | hx
    · exact .inr ⟨y, hy, hself y⟩
    · obtain ⟨z, hz, hx⟩ := List.mem_flatMap.mp hx
      exact .inr ⟨z, hz, ih z hz hx⟩

theorem mapOperands_eq_self_iff {f : Expr → Expr} {e : Expr} :
    e.mapOperands f = e ↔ ∀ x ∈ e.operands, f x = x := by
  obtain ⟨op, dtype, label⟩ := e
  simp [mapOperands, operands, Op.map_eq_self_iff]

theorem forall_mem_nodes_lower {P : Expr → Prop} {e : Expr} :
    (∀ x ∈ (e.lower Rule.bigQuery).nodes, P x) ↔
      P (e.lower Rule.bigQuery) ∧
        ∀ x ∈ (e.replaced Rule.bigQuery).operands, ∀ y ∈ (x.lower Rule.bigQuery).nodes, P y := by
  rw [forall_mem_nodes]
  refine and_congr_right fun _ => ?_
  rw [lower_eq, operands, mapOperands, Op.operands_map, List.forall_mem_map]
  exact Iff.rfl

theorem op_lower (e : Expr) :
    (e.lower Rule.bigQuery).op = (e.replaced Rule.bigQuery).op.map (lower Rule.bigQuery) := by
  rw [lower_eq, mapOperands]

theorem dtype_lower (e : Expr) : (e.lower Rule.bigQuery).dtype = (e.replaced Rule.bigQuery).dtype := by
  rw [lower_eq, mapOperands]

theorem Replaces.native {e node : Expr} (h : Replaces e node) : node.op.isForeign = false := by
  cases h with
  | same h => exact h.native
  | _ => rfl

theorem Replaces.eq_of_unfit {e node : Expr} (h : Replaces e node) (hunfit : e.Unfit) : node = e := by
  cases h with
  | same h => rfl
  | booleanAsInteger hfunc arg filter dtype label hbool =>
    have hcounted := hunfit.counted arg (Op.mem_summand.mpr ⟨_, hfunc, filter, rfl⟩)
    exact absurd hbool (by simp [hcounted])
  | _ => exact absurd hunfit.native (by simp [Op.isForeign])

theorem native_lower (e : Expr) : ∀ x ∈ (e.lower Rule.bigQuery).nodes, x.op.isForeign = false := by
  induction e using Expr.lower_induct with
  | step e ih =>
    rw [forall_mem_nodes_lower, op_lower, Op.isForeign_map]
    exact ⟨(replaces_bigQuery e).native, ih⟩

theorem dtype_lower_cast (arg : Expr) (dtype : DataType) : ((arg.cast dtype).lower Rule.bigQuery).dtype = dtype := by
  rw [lower_kept rfl]
  rfl

theorem unfit_of_lower_eq {e : Expr} (h : e.lower Rule.bigQuery = e) : e.Unfit := by
  have hop := op_lower e
  have hreplaces := replaces_bigQuery e
  rw [h] at hop
  generalize e.replaced Rule.bigQuery = node at hop hreplaces
  -- a rule that fits changes the operation, or makes an integer of a boolean argument
  cases hreplaces with
  | same hunfit => exact hunfit
  | booleanAsInteger hfunc arg filter dtype label hbool =>
    have harg : arg = (arg.cast .int64).lower Rule.bigQuery := by simpa [Op.map] using (Op.reduction.inj hop).2.1
    rw [harg, dtype_lower_cast] at hbool
    exact absurd hbool (by simp [DataType.isBoolean])
  | _ => exact absurd hop (by simp [Op.map])

theorem lower_eq_self_iff (e : Expr) : e.lower Rule.bigQuery = e ↔ ∀ x ∈ e.nodes, x.Unfit := by
  induction e using Expr.induction_on with
  | step e ih =>
    rw [forall_mem_nodes]
    have hself (hunfit : e.Unfit) :
        e.lower Rule.bigQuery = e ↔ ∀ x ∈ e.operands, x.lower Rule.bigQuery = x := by
      rw [lower_eq, (replaces_bigQuery e).eq_of_unfit hunfit, mapOperands_eq_self_iff]
    constructor
    · intro h
      have hunfit := unfit_of_lower_eq h
      exact ⟨hunfit, fun x hx => (ih x hx).mp ((hself hunfit).mp h x hx)⟩
    · rintro ⟨hunfit, h⟩
      exact (hself hunfit).mpr fun x hx => (ih x hx).mpr (h x hx)

def SteadySums (e : Expr) : Prop :=
  ∀ x ∈ e.nodes, ∀ arg ∈ x.op.summand?, arg.kind = .binary .identicalTo → arg.dtype = .bool

theorem steadySums_mk (op : Op Expr) (dtype : DataType) (label : Option String) :
    SteadySums ⟨op, dtype, label⟩ ↔
      (∀ arg ∈ op.summand?, arg.kind = .binary .identicalTo → arg.dtype = .bool) ∧
        ∀ x ∈ op.operands, x.SteadySums :=
  forall_mem_nodes

theorem Replaces.isBoolean_iff {e node : Expr} (h : Replaces e node) (hdtype : e.dtype.isBoolean = false) :
    node.dtype.isBoolean = true ↔ e.kind = .binary .identicalTo := by
  cases h with
  | same h =>
    refine iff_of_false (by simp [hdtype]) fun hkind => ?_
    obtain ⟨op, dtype, label⟩ := e
    cases op <;> simp [kind, Op.kind] at hkind
    subst hkind
    exact absurd h.native (by simp [Op.isForeign])
  | booleanAsInteger hfunc arg filter dtype label hbool =>
    exact iff_of_false (by simpa using hdtype) (by simp [kind, Op.kind])
  | _ => simp [kind, Op.kind, DataType.isBoolean]

/-- The sums over what the pass leaves of an argument find no boolean. -/
def CountsIntegers (e : Expr) : Prop :=
  ∀ arg ∈ e.op.summand?, (arg.lower Rule.bigQuery).dtype.isBoolean = false

theorem Replaces.steadySums_iff {e node : Expr} (h : Replaces e node) :
    node.CountsIntegers ∧ (∀ x ∈ node.operands, x.SteadySums) ↔ e.SteadySums := by
  cases h with
  | same h =>
    obtain ⟨op, dtype, label⟩ := e
    rw [steadySums_mk]
    refine and_congr_left fun _ => forall₂_congr fun arg harg => ?_
    have hdtype := h.counted arg harg
    have hiff := (replaces_bigQuery arg).isBoolean_iff hdtype
    have hne : arg.dtype ≠ .bool := fun hbool => by simp [hbool, DataType.isBoolean] at hdtype
    rw [dtype_lower, ← Bool.not_eq_true, hiff]
    simp [hne]
  | @booleanAsInteger func hfunc arg filter dtype label hbool =>
    have hcast : (arg.cast .int64).SteadySums ↔ arg.SteadySums := by
      simp [cast, ofOp, steadySums_mk, Op.summand?, Op.operands]
    have hsummand (x : Expr) : (Op.reduction func [x] filter).summand? = some x :=
      Op.mem_summand.mpr ⟨func, hfunc, filter, rfl⟩
    have hcounts : CountsIntegers ⟨.reduction func [arg.cast .int64] filter, dtype, label⟩ := by
      intro found hfound
      obtain rfl : arg.cast .int64 = found := by simpa [hsummand] using hfound
      rw [dtype_lower_cast]
      rfl
    simp [hcounts, steadySums_mk, hsummand, operands, Op.operands, hcast, DataType.isBoolean_iff.mp hbool]
  | _ => simp [CountsIntegers, steadySums_mk, Op.summand?, operands, Op.operands, and, isNull, equals, divide, call,
      binary, literal, ofOp]

theorem countsIntegers_lower_iff (e : Expr) :
    (∀ x ∈ (e.lower Rule.bigQuery).nodes, ∀ arg ∈ x.op.summand?, arg.dtype.isBoolean = false) ↔ e.SteadySums := by
  induction e using Expr.lower_induct with
  | step e ih =>
    rw [forall_mem_nodes_lower, ← (replaces_bigQuery e).steadySums_iff, op_lower, Op.summand_map]
    refine and_congr ?_ (forall₂_congr ih)
    simp [CountsIntegers]

theorem lower_lower_iff (e : Expr) :
    (e.lower Rule.bigQuery).lower Rule.bigQuery = e.lower Rule.bigQuery ↔ e.SteadySums := by
  rw [lower_eq_self_iff, ← countsIntegers_lower_iff]
  exact ⟨fun h x hx => (h x hx).counted, fun h x hx => ⟨native_lower e x hx, h x hx⟩⟩

def HasBinaryType (e : Expr) : Prop :=
  ∀ op left right, e.op = .binary op left right → e.dtype = binaryType op left.dtype

theorem steadySums_of_binaryTypes {e : Expr} (h : ∀ x ∈ e.nodes, x.HasBinaryType) : e.SteadySums := by
  intro x hx arg harg hkind
  have hnode := operand_mem_nodes hx (Op.mem_operands_of_summand harg)
  obtain ⟨op, dtype, label⟩ := arg
  cases op <;> simp [kind, Op.kind] at hkind
  subst hkind
  exact h _ hnode _ _ _ rfl

/-- A second pass changes nothing just if every identity that is the only argument of a sum or a mean is declared
boolean, as it is where binary operations are declared with the types that their constructor gives them. -/
theorem lower_idempotent_iff (e : Expr) :
    ((e.lower Rule.bigQuery).lower Rule.bigQuery = e.lower Rule.bigQuery ↔
      ∀ x ∈ e.nodes, ∀ arg ∈ x.op.summand?, arg.kind = .binary .identicalTo → arg.dtype = .bool) ∧
    ((∀ x ∈ e.nodes, x.HasBinaryType) →
      (e.lower Rule.bigQuery).lower Rule.bigQuery = e.lower Rule.bigQuery) :=
  ⟨lower_lower_iff e, fun h => (lower_lower_iff e).mpr (steadySums_of_binaryTypes h)⟩

def meanOfIdentities : Expr :=
  reduction .mean [((column "x" none .int64).binary .floorDivide (column "y" none .int64)).binary .identicalTo
    (column "z" none .int64)] none .float64

theorem meanOfIdentities_settles : (∀ x ∈ meanOfIdentities.nodes, x.HasBinaryType) ∧
    (meanOfIdentities.lower Rule.bigQuery).lower Rule.bigQuery = meanOfIdentities.lower Rule.bigQuery := by
  have htypes : ∀ x ∈ meanOfIdentities.nodes, x.HasBinaryType := by
    have hbinary (left right : Expr) (op : BinaryOp) : (left.binary op right).HasBinaryType := by
      rintro _ _ _ hop
      obtain ⟨rfl, rfl, rfl⟩ := Op.binary.inj hop
      rfl
    have hnodes : meanOfIdentities.nodes = [meanOfIdentities,
      ((column "x" none .int64).binary .floorDivide (column "y" none .int64)).binary .identicalTo
        (column "z" none .int64),
      (column "x" none .int64).binary .floorDivide (column "y" none .int64), column "x" none .int64,
      column "y" none .int64, column "z" none .int64] := rfl
    simp only [hnodes, List.forall_mem_cons]
    refine ⟨?_, hbinary _ _ _, hbinary _ _ _, ?_, ?_, ?_, by simp⟩
    all_goals exact fun _ _ _ hop => absurd hop (by simp [meanOfIdentities, reduction, column, ofOp])
  exact ⟨htypes, (lower_idempotent_iff meanOfIdentities).2 htypes⟩

example : ¬(reduction .sum [⟨.binary .identicalTo (column "x" none .int64) (column "y" none .int64), .int64, none⟩] none
    .int64).SteadySums := by
  rw [reduction, ofOp, steadySums_mk]
  exact fun h => absurd (h.1 _ rfl rfl) (by simp)

/-- No node of a lowered expression is foreign to BigQuery, and the pass leaves an expression as it is just if it has
neither such a node nor a sum or a mean of one boolean. -/
theorem lowered_normal (e : Expr) :
    (∀ x ∈ (e.lower Rule.bigQuery).nodes, x.op.isForeign = false) ∧
      (e.lower Rule.bigQuery = e ↔
        ∀ x ∈ e.nodes, x.op.isForeign = false ∧ ∀ arg ∈ x.op.summand?, arg.dtype ≠ .bool) := by
  refine ⟨native_lower e, (lower_eq_self_iff e).trans (forall₂_congr fun x _ => ?_)⟩
  simp only [ne_eq, ← DataType.isBoolean_iff, Bool.not_eq_true]
  exact ⟨fun h => ⟨h.native, h.counted⟩, fun h => ⟨h.1, h.2⟩⟩

end Expr

end BigQuerySql
