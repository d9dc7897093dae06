import BigQuerySql.Proofs.RecordedParameters

namespace BigQuerySql

namespace Expr

section Keys

variable {γ : Type} {xs ys : List (String × γ)}

theorem firstByKey_append_list (xs ys : List (String × γ)) :
    firstByKey (xs ++ ys) =
      firstByKey xs ++ (firstByKey ys).filter fun e => e.1 ∉ (firstByKey xs).map Prod.fst := by
  induction ys using List.reverseRecOn with
  | nil => simp [firstByKey]
  | append_singleton ys e ih =>
    have hkey : e.1 ∈ (firstByKey (xs ++ ys)).map Prod.fst ↔
        e.1 ∈ (firstByKey xs).map Prod.fst ∨ e.1 ∈ (firstByKey ys).map Prod.fst := by
      simp only [mem_keys_firstByKey, List.map_append, List.mem_append]
    rw [← List.append_assoc, firstByKey_append, firstByKey_append, ih]
    rw [ih] at hkey
    by_cases hys : e.1 ∈ (firstByKey ys).map Prod.fst
    · rw [if_pos (hkey.mpr (.inr hys)), if_pos hys]
    · by_cases hxs : e.1 ∈ (firstByKey xs).map Prod.fst
      · rw [if_pos (hkey.mpr (.inl hxs)), if_neg hys, List.filter_append]
        simp [hxs]
      · rw [if_neg (mt hkey.mp (not_or.mpr ⟨hxs, hys⟩)), if_neg hys, List.filter_append]
        simp [hxs]

theorem firstByKey_append_self (xs : List (String × γ)) : firstByKey (xs ++ xs) = firstByKey xs := by
  rw [firstByKey_append_list, List.filter_eq_nil_iff.mpr, List.append_nil]
  intro e he
  simpa using ⟨e.2, he⟩

theorem firstByKey_append_congr {xs' ys' : List (String × γ)} (hxs : firstByKey xs = firstByKey xs')
    (hys : firstByKey ys = firstByKey ys') : firstByKey (xs ++ ys) = firstByKey (xs' ++ ys') := by
  rw [firstByKey_append_list, firstByKey_append_list, hxs, hys]

theorem firstByKey_flatMap_congr {α : Type} {items : List α} {f g : α → List (String × γ)}
    (h : ∀ x ∈ items, firstByKey (f x) = firstByKey (g x)) :
    firstByKey (items.flatMap f) = firstByKey (items.flatMap g) := by
  induction items with
  | nil => rfl
  | cons x rest ih =>
    rw [List.forall_mem_cons] at h
    exact firstByKey_append_congr h.1 (ih h.2)

end Keys

structure OfReferences {γ : Type} (own : Expr → Option (String × γ)) : Prop where
  others : ∀ e, (∀ name table, e.op ≠ .column name table) → (∀ name, e.op ≠ .scalarParameter name) → own e = none
  relabelled : ∀ e label, own ⟨e.op, e.dtype, label⟩ = own e

def marks {γ : Type} (own : Expr → Option (String × γ)) (e : Expr) : List (String × γ) :=
  e.nodes.filterMap own

section Marks

variable {γ : Type} {own : Expr → Option (String × γ)}

theorem marks_eq (e : Expr) : marks own e = (own e).toList ++ e.operands.flatMap (marks own) := by
  have hflat : (e.operands.flatMap nodes).filterMap own = e.operands.flatMap (marks own) := by
    rw [List.filterMap_flatMap]
    rfl
  rw [marks, nodes_eq, List.filterMap_cons, hflat]
  cases own e <;> rfl

variable (hown : OfReferences own)
include hown

theorem marks_other {op : Op Expr} {dtype : DataType} {label : Option String}
    (hcolumn : ∀ name table, op ≠ .column name table) (hparameter : ∀ name, op ≠ .scalarParameter name) :
    marks own ⟨op, dtype, label⟩ = op.operands.flatMap (marks own) := by
  rw [marks_eq, hown.others _ hcolumn hparameter]
  rfl

theorem marks_relabelled (e : Expr) (label : Option String) : marks own ⟨e.op, e.dtype, label⟩ = marks own e := by
  rw [marks_eq, marks_eq e, hown.relabelled]
  rfl

theorem marks_operands {e x : Expr} {rest : List Expr} (h : e.operands = x :: rest) :
    marks own e = (x :: rest).flatMap (marks own) := by
  obtain ⟨op, dtype, label⟩ := e
  have hoperands : op.operands = x :: rest := h
  rw [marks_other hown, hoperands]
  · rintro name table rfl
    cases hoperands
  · rintro name rfl
    cases hoperands

theorem marks_literal (value : Value) (dtype : DataType) : marks own (literal value dtype) = [] := by
  simp [literal, ofOp, marks_other hown, Op.operands]

theorem firsts_apply (rule : Rule) (e : Expr) :
    firstByKey (marks own (rule.apply e)) = firstByKey (marks own e) := by
  have hmade := rule.outcome e
  generalize rule.apply e = made at hmade
  obtain ⟨op, dtype, label⟩ := e
  cases hmade with
  | kept => rfl
  | reaggregate hop | negated hop | floorDivide hop =>
    cases hop
    simp [reduction, floor, divide, binary, call, ofOp, marks_other hown, Op.operands]
  | @identicalTo op left right hop =>
    cases hop
    -- left and right appear twice, the second time after both have appeared
    have htwice : marks own ((left.isNull.and right.isNull).or (left.equals right)) =
        (marks own left ++ marks own right) ++ (marks own left ++ marks own right) := by
      simp [or, and, isNull, equals, binary, call, ofOp, marks_other hown, Op.operands]
    have honce : marks own ⟨.binary op left right, dtype, label⟩ = marks own left ++ marks own right := by
      simp [marks_other hown, Op.operands]
    rw [htwice, firstByKey_append_self, honce]
  | dayOfWeekName ho | log2 ho =>
    simp [marks_operands hown ho, strftime, log, call, ofOp, marks_other hown, Op.operands, marks_literal hown]
  | booleanAsInteger hop =>
    cases hop
    simp [reduction, cast, ofOp, marks_other hown, Op.operands]

theorem firsts_replaced (rules : DispatchTable Rule) (e : Expr) :
    firstByKey (marks own (e.replaced rules)) = firstByKey (marks own e) := by
  rw [replaced]
  cases rules.get? e.kind with
  | none => rw [marks_relabelled hown]
  | some rule => rw [marks_relabelled hown, firsts_apply hown]

theorem firsts_mapOperands {f : Expr → Expr} {e : Expr}
    (h : ∀ x ∈ e.operands, firstByKey (marks own (f x)) = firstByKey (marks own x)) :
    firstByKey (marks own (e.mapOperands f)) = firstByKey (marks own e) := by
  obtain ⟨op, dtype, label⟩ := e
  have hoperands : firstByKey (((op.map f).operands).flatMap (marks own)) =
      firstByKey (op.operands.flatMap (marks own)) := by
    rw [Op.operands_map, List.flatMap_map]
    exact firstByKey_flatMap_congr h
  -- the nodes that leave marks have no operands
  cases op with
  | column name table => rfl
  | scalarParameter name => rfl
  | _ =>
    rw [mapOperands, marks_other hown (by simp [Op.map]) (by simp [Op.map]), marks_other hown (by simp) (by simp)]
    exact hoperands

theorem firsts_lowerWithin (rules : DispatchTable Rule) (n : Nat) (e : Expr) :
    firstByKey (marks own (e.lowerWithin rules n)) = firstByKey (marks own e) := by
  induction n generalizing e with
  | zero => rfl
  | succ n ih =>
    rw [lowerWithin, firsts_mapOperands hown fun x _ => ih x]
    exact firsts_replaced hown rules e

end Marks

theorem isTable_of_operand {e arg : Expr} (h : e.operands = [arg]) : e.isTable = false := by
  obtain ⟨op, dtype, label⟩ := e
  cases op with
  | tableScan name schema => cases h
  | setOp kind left right distinct => cases h
  | _ => rfl

theorem isTable_apply (rule : Rule) (e : Expr) : (rule.apply e).isTable = e.isTable := by
  have hmade := rule.outcome e
  generalize rule.apply e = made at hmade
  cases hmade with
  | kept => rfl
  | dayOfWeekName ho | log2 ho =>
    rw [isTable_of_operand ho]
    rfl
  | reaggregate hop | negated hop | floorDivide hop | identicalTo hop | booleanAsInteger hop =>
    simp [isTable, hop, reduction, floor, or, binary, call, ofOp]

theorem isTable_mapOperands (f : Expr → Expr) (e : Expr) : (e.mapOperands f).isTable = e.isTable := by
  obtain ⟨op, dtype, label⟩ := e
  cases op <;> rfl

theorem isTable_lowerWithin (rules : DispatchTable Rule) (n : Nat) (e : Expr) :
    (e.lowerWithin rules n).isTable = e.isTable := by
  cases n with
  | zero => rfl
  | succ n =>
    have hreplaced : (e.replaced rules).isTable = e.isTable := by
      rw [replaced]
      cases rules.get? e.kind with
      | none => rfl
      | some rule => exact isTable_apply rule e
    rw [lowerWithin, isTable_mapOperands, hreplaced]

/-- What a statement is built from besides the text of an expression is the same for the lowered expression: the name of
its output, whether it gives rows, the tables it refers to and its parameters, in the order of first appearance. -/
theorem lowering_keeps_statement (rules : DispatchTable Rule) (e : Expr) :
    (e.lower rules).label = e.label ∧ (e.lower rules).isTable = e.isTable ∧
      (e.lower rules).referencedTables = e.referencedTables ∧
      (e.lower rules).scalarParameters = e.scalarParameters ∧
      ∀ body, Compiler.statement (e.lower rules) body = Compiler.statement e body := by
  have hlabel : (e.lower rules).label = e.label := label_lowerWithin rules _ e
  have htable : (e.lower rules).isTable = e.isTable := isTable_lowerWithin rules _ e
  have htables : (e.lower rules).referencedTables = e.referencedTables := by
    refine congrArg (List.map Prod.fst) (firsts_lowerWithin ⟨fun x hcolumn _ => ?_, fun _ _ => rfl⟩ rules _ e)
    split
    next name table hop => exact absurd hop (hcolumn name _)
    next => rfl
  have hparameters : (e.lower rules).scalarParameters = e.scalarParameters := by
    refine firsts_lowerWithin ⟨fun x _ hparameter => ?_, fun _ _ => rfl⟩ rules _ e
    split
    next name hop => exact absurd hop (hparameter name)
    next => rfl
  refine ⟨hlabel, htable, htables, hparameters, fun body => ?_⟩
  rw [Compiler.statement, Compiler.statement, hlabel, htable, htables]

end Expr

end BigQuerySql
