import BigQuerySql.Lowering.Pass
import BigQuerySql.Proofs.Outcomes
import BigQuerySql.Proofs.Registry
import Mathlib.Data.List.Perm.Subperm
import Mathlib.Order.WellFounded

/-!
Where the pass that replaces nodes comes to an end. It goes on with the operands of what a rule has made, which may be
new nodes with rules of their own. Whether it ends on every expression depends on the kinds alone: it does just if no
kind leads back to itself through what the rules make. Then the bound of the pass is never reached, so that the pass is
the only function that puts the replaced node over its own results for the operands of that node.
-/

namespace BigQuerySql

section Descent

variable {α : Type} {r : α → α → Prop}

def EndsWithin (r : α → α → Prop) : Nat → α → Prop
  | 0, _ => False
  | n + 1, a => ∀ b, r b a → EndsWithin r n b

namespace EndsWithin

theorem pos {n : Nat} {a : α} (h : EndsWithin r n a) : 0 < n := by
  cases n with
  | zero => exact h.elim
  | succ n => exact n.succ_pos

theorem mono {n m : Nat} {a : α} (h : EndsWithin r n a) (hle : n ≤ m) : EndsWithin r m a := by
  induction n generalizing m a with
  | zero => exact h.elim
  | succ n ih =>
    obtain ⟨m, rfl⟩ : ∃ k, m = k + 1 := ⟨m - 1, by omega⟩
    exact fun b hb => ih (h b hb) (by omega)

theorem acc {n : Nat} {a : α} (h : EndsWithin r n a) : Acc r a := by
  induction n generalizing a with
  | zero => exact h.elim
  | succ n ih => exact .intro a fun b hb => ih (h b hb)

end EndsWithin

theorem exists_chain_of_not_endsWithin {n : Nat} {a : α} (h : ¬EndsWithin r n a) :
    ∃ chain : List α, chain.length = n ∧ ((a :: chain).IsChain fun x y => r y x) ∧ ∀ b ∈ chain, ∃ x, r b x := by
  induction n generalizing a with
  | zero => exact ⟨[], rfl, .singleton a, by simp⟩
  | succ n ih =>
    obtain ⟨b, hb, hends⟩ : ∃ b, r b a ∧ ¬EndsWithin r n b := by simpa [EndsWithin] using h
    obtain ⟨chain, hlength, hchain, hreached⟩ := ih hends
    exact ⟨b :: chain, by simp [hlength], .cons_cons hb hchain, List.forall_mem_cons.mpr ⟨⟨a, hb⟩, hreached⟩⟩

theorem endsWithin_of_subset {targets : List α} (hwf : WellFounded r) (h : ∀ b a, r b a → b ∈ targets) (a : α) :
    EndsWithin r (targets.length + 1) a := by
  by_contra hends
  -- a longer descent would meet a member of the list twice
  obtain ⟨chain, hlength, hchain, hreached⟩ := exists_chain_of_not_endsWithin hends
  have hsubset : chain ⊆ targets := by
    intro b hb
    obtain ⟨x, hx⟩ := hreached b hb
    exact h b x hx
  have hnodup : chain.Nodup := (nodup_of_isChain hwf hchain).of_cons
  have hle := (hnodup.subperm hsubset).length_le
  omega

end Descent

namespace Rule

/-- The operations that a rule puts below the node that it makes of one of a kind. Constants, casts and tests for null,
which it may put there too, are left out: no rule puts an operation below what it makes of these. -/
def makes : Rule → Kind → List Kind
  | .floorDivide, .binary _ => [.binary .divide]
  | .identicalTo, .binary _ => [.binary .and, .binary .equals]
  | .reaggregate target true, .reduction _ => [.reduction target]
  | _, _ => []

def Makes (rules : DispatchTable Rule) (made k : Kind) : Prop :=
  ∃ rule ∈ rules.get? k, made ∈ rule.makes k

variable {rules : DispatchTable Rule}

def targets : List Kind :=
  [Kind.binary .divide, Kind.binary .and, Kind.binary .equals] ++ Agg.every.map Kind.reduction

theorem Makes.mem_targets {made k : Kind} (h : Makes rules made k) : made ∈ targets := by
  obtain ⟨rule, -, hmade⟩ := h
  unfold makes at hmade
  split at hmade
  next =>
    obtain rfl := List.mem_singleton.mp hmade
    simp [targets]
  next =>
    rcases List.mem_pair.mp hmade with rfl | rfl <;> simp [targets]
  next target _ =>
    obtain rfl := List.mem_singleton.mp hmade
    have htarget : target ∈ Agg.every := by cases target <;> decide
    exact List.mem_append_right _ (List.mem_map_of_mem htarget)
  next => simp at hmade

theorem Makes.binary_or_reduction {made k : Kind} (h : Makes rules made k) :
    (∃ op, k = .binary op) ∨ ∃ func, k = .reduction func := by
  obtain ⟨rule, -, hmade⟩ := h
  unfold makes at hmade
  split at hmade
  next op => exact .inl ⟨op, rfl⟩
  next op => exact .inl ⟨op, rfl⟩
  next func => exact .inr ⟨func, rfl⟩
  next => simp at hmade

theorem endsWithin_makes (h : WellFounded (Makes rules)) (k : Kind) : EndsWithin (Makes rules) (targets.length + 1) k :=
  endsWithin_of_subset h (fun _ _ hmade => hmade.mem_targets) k

theorem not_makes_of_get {k : Kind} (h : rules.get? k = none) (made : Kind) : ¬Makes rules made k := by
  rintro ⟨rule, hrule, -⟩
  simp [h] at hrule

theorem get_layer {layer : List (Kind × Rule)} (k : Kind) :
    (DispatchTable.empty.insertMany layer).get? k = layer.reverse.lookup k := by
  have hempty : (DispatchTable.empty : DispatchTable Rule).get? k = none := rfl
  rw [DispatchTable.get_insertMany, hempty, Option.or_none]

theorem endsWithin_of_layer {layer : List (Kind × Rule)}
    (h : ∀ entry ∈ layer, ∀ made ∈ entry.2.makes entry.1, made ∉ layer.map Prod.fst) (k : Kind) :
    EndsWithin (Makes (DispatchTable.empty.insertMany layer)) 2 k := by
  rintro made ⟨rule, hrule, hmade⟩ other hother
  rw [get_layer] at hrule
  refine not_makes_of_get ?_ other hother
  rw [get_layer, List.lookup_eq_none_iff]
  intro entry hentry
  have hmem : entry.1 ∈ layer.map Prod.fst := List.mem_map_of_mem (List.mem_reverse.mp hentry)
  have hne : made ≠ entry.1 := fun heq => h _ (List.mem_reverse.mp (mem_of_lookup hrule)) made hmade (heq ▸ hmem)
  simpa using hne

theorem endsWithin_generic (k : Kind) : EndsWithin (Makes generic) 2 k :=
  endsWithin_of_layer (by decide) k

theorem endsWithin_bigQuery (k : Kind) : EndsWithin (Makes bigQuery) 2 k := by
  rw [bigQuery, generic, ← DispatchTable.insertMany_append]
  exact endsWithin_of_layer (by decide) k

theorem exists_makes_bigQuery {k : Kind} (h : k ∈ [.binary .floorDivide, .binary .identicalTo]) :
    ∃ made, Makes bigQuery made k := by
  rcases List.mem_pair.mp h with rfl | rfl
  · exact ⟨.binary .divide, .floorDivide, by rw [bigQuery, DispatchTable.get_insertMany]; rfl, by simp [makes]⟩
  · exact ⟨.binary .and, .identicalTo, by rw [bigQuery, DispatchTable.get_insertMany]; rfl, by simp [makes]⟩

theorem exists_makes_generic {k : Kind} (h : k ∈ [.reduction .notAny, .reduction .notAll]) :
    ∃ made, Makes generic made k := by
  rcases List.mem_pair.mp h with rfl | rfl
  · exact ⟨.reduction .max, .reaggregate .max true, by rw [generic, get_layer]; rfl, by simp [makes]⟩
  · exact ⟨.reduction .min, .reaggregate .min true, by rw [generic, get_layer]; rfl, by simp [makes]⟩

end Rule

namespace Expr

variable {rules : DispatchTable Rule}

theorem height_eq (e : Expr) : e.height = (e.operands.map height).foldl max 0 + 1 := by
  obtain ⟨op, dtype, label⟩ := e
  rw [height, fold_mk, Op.operands_map]
  rfl

theorem height_operand {x e : Expr} (h : x ∈ e.operands) : x.height < e.height := by
  have hmax := (foldl_max_le.mp (Nat.le_refl ((e.operands.map height).foldl max 0))).2
  have hx := hmax x.height (List.mem_map_of_mem h)
  rw [height_eq e]
  omega

theorem mapOperands_congr {e : Expr} {f g : Expr → Expr} (h : ∀ x ∈ e.operands, f x = g x) :
    e.mapOperands f = e.mapOperands g := by
  rw [mapOperands, mapOperands, Op.map_congr h]

def Calls (rules : DispatchTable Rule) (x e : Expr) : Prop :=
  x ∈ (e.replaced rules).operands

/-- What the pass on a node goes on with: an operand of the node, a constant, an operand taken for an integer, or an
operation over operands and tests of operands for null. -/
inductive Below (rules : DispatchTable Rule) (e : Expr) : Expr → Prop where
  | operand {x : Expr} (h : x ∈ e.operands) : Below rules e x
  | literal (h : e.operands ≠ []) (value : Value) (dtype : DataType) : Below rules e (literal value dtype)
  | cast {func : Agg} (hkind : e.kind = .reduction func) {x : Expr} (h : x ∈ e.operands) :
      Below rules e (x.cast .int64)
  | made {x : Expr} (hmade : Rule.Makes rules x.kind e.kind)
      (h : ∀ y ∈ x.operands, y ∈ e.operands ∨ ∃ z ∈ e.operands, y = z.isNull) : Below rules e x

theorem below_apply {e x : Expr} {rule : Rule} (hrule : rules.get? e.kind = some rule)
    (h : x ∈ (rule.apply e).operands) : Below rules e x := by
  have hmade := rule.outcome e
  generalize rule.apply e = made at hmade h
  obtain ⟨op, dtype, label⟩ := e
  cases hmade with
  | kept => exact .operand h
  | reaggregate hop =>
    cases hop
    exact .operand h
  | @negated target func args filter hop =>
    cases hop
    obtain rfl : x = reduction target args filter dtype := List.mem_singleton.mp h
    exact .made ⟨_, hrule, List.mem_singleton_self _⟩ fun y hy => .inl hy
  | @floorDivide op left right hop =>
    cases hop
    obtain rfl : x = left.divide right := List.mem_singleton.mp h
    exact .made ⟨_, hrule, List.mem_singleton_self _⟩ fun y hy => .inl hy
  | @identicalTo op left right hop =>
    cases hop
    rcases List.mem_pair.mp h with rfl | rfl
    · refine .made ⟨_, hrule, List.mem_cons_self⟩ fun y hy => .inr ?_
      rcases List.mem_pair.mp hy with rfl | rfl
      · exact ⟨left, List.mem_cons_self, rfl⟩
      · exact ⟨right, List.mem_cons_of_mem _ List.mem_cons_self, rfl⟩
    · exact .made ⟨_, hrule, List.mem_cons_of_mem _ List.mem_cons_self⟩ fun y hy => .inl hy
  | dayOfWeekName ho | log2 ho =>
    rcases List.mem_pair.mp h with rfl | rfl
    · exact .operand (by simp [ho])
    · exact .literal (by simp [ho]) _ _
  | booleanAsInteger hop =>
    cases hop
    rcases List.mem_cons.mp h with rfl | hfilter
    · exact .cast rfl List.mem_cons_self
    · exact .operand (List.mem_cons_of_mem _ hfilter)

theorem below_of_calls {e x : Expr} (h : Calls rules x e) : Below rules e x := by
  rw [Calls, operands, replaced] at h
  cases hrule : rules.get? e.kind with
  | none =>
    rw [hrule] at h
    exact .operand h
  | some rule =>
    rw [hrule] at h
    exact below_apply hrule h

theorem calls_of_makes {e : Expr} {made : Kind} (h : Rule.Makes rules made e.kind) :
    ∃ x, Calls rules x e ∧ x.kind = made ∧ ∀ y ∈ e.operands, y.height < x.height := by
  obtain ⟨rule, hrule, hmade⟩ := h
  have hcalls {x : Expr} (hx : x ∈ (rule.apply e).operands) : Calls rules x e := by
    rw [Calls, operands, replaced, Option.mem_def.mp hrule]
    exact hx
  obtain ⟨op, dtype, label⟩ := e
  unfold Rule.makes at hmade
  split at hmade
  next _ hkind =>
    cases op <;> simp only [kind, Op.kind, reduceCtorEq] at hkind
    obtain rfl := List.mem_singleton.mp hmade
    exact ⟨_, hcalls List.mem_cons_self, rfl, fun y hy => height_operand hy⟩
  next _ hkind =>
    cases op with
    | binary op left right =>
      rcases List.mem_pair.mp hmade with rfl | rfl
      · refine ⟨_, hcalls List.mem_cons_self, rfl, fun y hy => ?_⟩
        have hnull : y.height < y.isNull.height := height_operand List.mem_cons_self
        exact hnull.trans (height_operand (List.mem_map_of_mem (f := isNull) hy))
      · exact ⟨_, hcalls (List.mem_cons_of_mem _ List.mem_cons_self), rfl, fun y hy => height_operand hy⟩
    | _ => simp [kind, Op.kind] at hkind
  next _ hkind =>
    cases op <;> simp only [kind, Op.kind, reduceCtorEq] at hkind
    obtain rfl := List.mem_singleton.mp hmade
    exact ⟨_, hcalls List.mem_cons_self, rfl, fun y hy => height_operand hy⟩
  next => simp at hmade

theorem exists_kind_of_makes {made k : Kind} (h : Rule.Makes rules made k) : ∃ e : Expr, e.kind = k := by
  rcases h.binary_or_reduction with ⟨op, rfl⟩ | ⟨func, rfl⟩
  · exact ⟨(null .bool).binary op (null .bool), rfl⟩
  · exact ⟨reduction func [] none .bool, rfl⟩

theorem endsWithin_literal (value : Value) (dtype : DataType) {n : Nat} (hn : 0 < n) :
    EndsWithin (Calls rules) n (literal value dtype) := by
  obtain ⟨n, rfl⟩ : ∃ m, n = m + 1 := ⟨n - 1, by omega⟩
  intro x hx
  have hoperands : (literal value dtype).operands = [] := rfl
  have hkind : (literal value dtype).kind = .literal := rfl
  generalize literal value dtype = e at hx hoperands hkind
  cases below_of_calls hx with
  | operand h => simp [hoperands] at h
  | literal h => exact absurd hoperands h
  | cast _ h => simp [hoperands] at h
  | made hmade h => simpa [hkind] using hmade.binary_or_reduction

theorem endsWithin_idle {e : Expr} (hkind : e.kind = .cast ∨ e.kind = .call .isNull) {n : Nat}
    (h : ∀ x ∈ e.operands, EndsWithin (Calls rules) n x) : EndsWithin (Calls rules) (n + 1) e := by
  intro x hx
  cases below_of_calls hx with
  | operand hx => exact h x hx
  | literal hne value dtype =>
    obtain ⟨y, hy⟩ := List.exists_mem_of_ne_nil _ hne
    exact endsWithin_literal value dtype (h y hy).pos
  | cast hreduction => simp [hreduction] at hkind
  | made hmade =>
    rcases hmade.binary_or_reduction with ⟨op, hop⟩ | ⟨func, hfunc⟩
    · simp [hop] at hkind
    · simp [hfunc] at hkind

theorem endsWithin_node {m n : Nat} {e : Expr} (hkind : EndsWithin (Rule.Makes rules) m e.kind)
    (h : ∀ x ∈ e.operands, EndsWithin (Calls rules) n x) : EndsWithin (Calls rules) (n + 2 * m) e := by
  -- each operation that rules make in a row adds itself, and below it a test for null or a cast
  induction m generalizing n e with
  | zero => exact hkind.elim
  | succ m ih =>
    have hsimple {x y : Expr} (hy : y ∈ e.operands) (hx : x.operands = [y])
        (hkind : x.kind = .cast ∨ x.kind = .call .isNull) : EndsWithin (Calls rules) (n + 1) x :=
      endsWithin_idle hkind (by simpa [hx] using h y hy)
    have hbound : n + 2 * (m + 1) = n + 1 + 2 * m + 1 := by omega
    rw [hbound]
    intro x hx
    cases below_of_calls hx with
    | operand hx => exact (h x hx).mono (by omega)
    | literal _ value dtype => exact endsWithin_literal value dtype (by omega)
    | cast _ hy => exact (hsimple hy rfl (.inl rfl)).mono (by omega)
    | made hmade hoperands =>
      refine ih (hkind _ hmade) fun y hy => ?_
      rcases hoperands y hy with hy | ⟨z, hz, rfl⟩
      · exact (h y hy).mono (by omega)
      · exact hsimple hz rfl (.inr rfl)

theorem endsWithin_calls {m : Nat} (h : ∀ k, EndsWithin (Rule.Makes rules) m k) (e : Expr) :
    EndsWithin (Calls rules) (2 * m * e.height) e := by
  induction e using Expr.induction_on with
  | step e ih =>
    obtain ⟨n, hn⟩ : ∃ n, e.height = n + 1 := ⟨_, height_eq e⟩
    have hends := endsWithin_node (h e.kind) fun x hx => (ih x hx).mono
      (Nat.mul_le_mul_left (2 * m) (Nat.le_of_lt_succ (hn ▸ height_operand hx)))
    rwa [hn, Nat.mul_succ]

theorem wellFounded_of_endsWithin {m : Nat} (h : ∀ k, EndsWithin (Rule.Makes rules) m k) : WellFounded (Calls rules) :=
  ⟨fun e => (endsWithin_calls h e).acc⟩

theorem wellFounded_calls_iff : WellFounded (Calls rules) ↔ WellFounded (Rule.Makes rules) := by
  constructor
  · intro h
    have hkind (e : Expr) : Acc (Rule.Makes rules) e.kind := by
      induction e using h.induction with
      | _ e ih =>
        refine .intro _ fun made hmade => ?_
        obtain ⟨x, hx, rfl, -⟩ := calls_of_makes hmade
        exact ih x hx
    refine ⟨fun k => .intro k fun made hmade => ?_⟩
    obtain ⟨e, rfl⟩ := exists_kind_of_makes hmade
    exact (hkind e).inv hmade
  · intro h
    exact wellFounded_of_endsWithin (Rule.endsWithin_makes h)

example : ¬WellFounded (Calls (Rule.bigQuery.insert (.binary .divide) .floorDivide)) := by
  intro h
  have hrule : (Rule.bigQuery.insert (.binary .divide) .floorDivide).get? (.binary .divide) = some .floorDivide := by
    rw [DispatchTable.get_insert, if_pos rfl]
  exact (wellFounded_calls_iff.mp h).irrefl.irrefl (.binary .divide) ⟨_, hrule, List.mem_singleton_self _⟩

theorem lowerWithin_congr {n m : Nat} {e : Expr} (hn : EndsWithin (Calls rules) n e)
    (hm : EndsWithin (Calls rules) m e) : lowerWithin rules n e = lowerWithin rules m e := by
  induction n generalizing m e with
  | zero => exact hn.elim
  | succ n ih =>
    cases m with
    | zero => exact hm.elim
    | succ m => exact mapOperands_congr fun x hx => ih (hn x hx) (hm x hx)

theorem endsWithin_loweringDepth (h : WellFounded (Calls rules)) (e : Expr) :
    EndsWithin (Calls rules) e.loweringDepth e := by
  refine (endsWithin_calls (Rule.endsWithin_makes (wellFounded_calls_iff.mp h)) e).mono ?_
  exact Nat.mul_le_mul_right e.height (by decide)

theorem lower_eq_of_wellFounded (h : WellFounded (Calls rules)) (e : Expr) :
    e.lower rules = (e.replaced rules).mapOperands (lower rules) := by
  have hends := endsWithin_loweringDepth h
  have he := hends e
  rw [lower]
  generalize e.loweringDepth = n at he
  cases n with
  | zero => exact he.elim
  | succ n => exact mapOperands_congr fun x hx => lowerWithin_congr (he x hx) (hends x)

theorem eq_lower_iff (h : WellFounded (Calls rules)) (pass : Expr → Expr) :
    (∀ e, pass e = (e.replaced rules).mapOperands pass) ↔ pass = lower rules := by
  constructor
  · intro hpass
    funext e
    induction e using h.induction with
    | _ e ih =>
      rw [hpass, lower_eq_of_wellFounded h]
      exact mapOperands_congr ih
  · rintro rfl
    exact lower_eq_of_wellFounded h

/-- The pass ends with a table: its calls are well-founded, it nests them at most four times as deep as the expression
is high, and it is the only function that puts the replaced node over its own results for the operands of that node. -/
structure Terminates (rules : DispatchTable Rule) : Prop where
  wellFounded : WellFounded (Calls rules)
  nesting : ∀ e, EndsWithin (Calls rules) (4 * e.height) e
  result : ∀ pass : Expr → Expr, (∀ e, pass e = (e.replaced rules).mapOperands pass) ↔ pass = lower rules

theorem terminates_of_endsWithin (h : ∀ k, EndsWithin (Rule.Makes rules) 2 k) : Terminates rules where
  wellFounded := wellFounded_of_endsWithin h
  nesting := endsWithin_calls h
  result := eq_lower_iff (wellFounded_of_endsWithin h)

/-- The pass ends with the rules of BigQuery and with the generic ones, although these lead it to nodes that are higher
than every operand of the node that it comes from. -/
theorem lowering_terminates :
    (Terminates Rule.bigQuery ∧ ∀ e, e.kind ∈ [.binary .floorDivide, .binary .identicalTo] →
      ∃ x, Calls Rule.bigQuery x e ∧ ∀ y ∈ e.operands, y.height < x.height) ∧
    (Terminates Rule.generic ∧ ∀ e, e.kind ∈ [.reduction .notAny, .reduction .notAll] →
      ∃ x, Calls Rule.generic x e ∧ ∀ y ∈ e.operands, y.height < x.height) := by
  refine ⟨⟨terminates_of_endsWithin Rule.endsWithin_bigQuery, fun e he => ?_⟩,
    ⟨terminates_of_endsWithin Rule.endsWithin_generic, fun e he => ?_⟩⟩
  · obtain ⟨made, hmade⟩ := Rule.exists_makes_bigQuery he
    obtain ⟨x, hx, -, hhigher⟩ := calls_of_makes hmade
    exact ⟨x, hx, hhigher⟩
  · obtain ⟨made, hmade⟩ := Rule.exists_makes_generic he
    obtain ⟨x, hx, -, hhigher⟩ := calls_of_makes hmade
    exact ⟨x, hx, hhigher⟩

theorem lowering_leads_higher :
    (∃ x, Calls Rule.bigQuery x ((null .int64).binary .floorDivide (null .int64)) ∧ (null .int64).height < x.height) ∧
      ∃ x, Calls Rule.generic x (reduction .notAny [null .bool] none .bool) ∧ (null .bool).height < x.height := by
  obtain ⟨⟨-, hbigQuery⟩, -, hgeneric⟩ := lowering_terminates
  obtain ⟨x, hx, hhigher⟩ := hbigQuery ((null .int64).binary .floorDivide (null .int64)) List.mem_cons_self
  obtain ⟨y, hy, hyhigher⟩ := hgeneric (reduction .notAny [null .bool] none .bool) List.mem_cons_self
  exact ⟨⟨x, hx, hhigher _ List.mem_cons_self⟩, ⟨y, hy, hyhigher _ List.mem_cons_self⟩⟩

end Expr

end BigQuerySql
