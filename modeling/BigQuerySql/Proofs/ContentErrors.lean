import BigQuerySql.Proofs.Binding
import BigQuerySql.Proofs.Names

namespace BigQuerySql

def SqlError.blamesNode : SqlError → Bool
  | .malformedNode _ _ => true
  | .notImplemented _ => true
  | .missingParameter _ => true
  | _ => false

def FailsOnContent {α : Type} (x : Except SqlError α) : Prop :=
  ∀ error, x = .error error → error.blamesNode = false

section FailsOnContent

variable {α β : Type}

theorem failsOnContent_ok (a : α) : FailsOnContent (.ok a) := by
  intro error h
  simp at h

theorem failsOnContent_error {error : SqlError} (h : error.blamesNode = false) :
    FailsOnContent (.error error : Except SqlError α) := by
  rintro _ ⟨rfl⟩
  exact h

theorem failsOnContent_bind {x : Except SqlError α} {f : α → Except SqlError β} (hx : FailsOnContent x)
    (hf : ∀ a, FailsOnContent (f a)) : FailsOnContent (x >>= f) := by
  cases x with
  | error error => exact failsOnContent_error (hx error rfl)
  | ok a => exact hf a

theorem failsOnContent_of_bind {x : Except SqlError α} {f : α → Except SqlError β} (h : FailsOnContent (x >>= f)) :
    FailsOnContent x := by
  rintro error rfl
  exact h error rfl

theorem failsOnContent_mapM {f : α → Except SqlError β} {xs : List α} (h : ∀ x ∈ xs, FailsOnContent (f x)) :
    FailsOnContent (xs.mapM f) := by
  induction xs with
  | nil => exact failsOnContent_ok []
  | cons x rest ih =>
    rw [List.forall_mem_cons] at h
    rw [List.mapM_cons]
    exact failsOnContent_bind h.1 fun _ => failsOnContent_bind (ih h.2) fun _ => failsOnContent_ok _

end FailsOnContent

theorem DataType.sqlName_failsOnContent (t : DataType) : FailsOnContent t.sqlName := by
  induction t using DataType.induction_on with
  | plain t ht =>
    rw [sqlName.eq_def]
    (repeat' split) <;>
      first
      | exact failsOnContent_ok _
      | exact failsOnContent_error rfl
      | simp [isComposite] at ht
  | array element ih =>
    rw [sqlName]
    split
    · exact failsOnContent_error rfl
    · exact failsOnContent_bind ih fun _ => failsOnContent_ok _
  | struct fields ih =>
    rw [sqlName, sqlFields_eq]
    refine failsOnContent_bind (failsOnContent_mapM fun f hf => ?_) fun _ => failsOnContent_ok _
    exact failsOnContent_bind (ih f hf) fun _ => failsOnContent_ok _

namespace Value

theorem plainLiteral_failsOnContent (v : Value) (t : DataType) : FailsOnContent (v.plainLiteral t) := by
  simp only [plainLiteral]
  (repeat' split) <;>
    first
    | exact failsOnContent_ok _
    | exact failsOnContent_error rfl
    | exact failsOnContent_bind (DataType.sqlName_failsOnContent _) fun _ => failsOnContent_ok _

theorem literal_failsOnContent (v : Value) : ∀ t : DataType, FailsOnContent (v.literal t) := by
  induction v using Value.induction_on with
  | plain v hv =>
    intro t
    rw [literal_plain hv]
    exact plainLiteral_failsOnContent v t
  | array items ih =>
    intro t
    cases t with
    | array element =>
      rw [literal, itemLiterals_eq]
      exact failsOnContent_bind (failsOnContent_mapM fun x hx => ih x hx element) fun _ => failsOnContent_ok _
    | _ => rw [literal] <;> first | exact plainLiteral_failsOnContent _ _ | simp
  | struct members ih =>
    intro t
    cases t with
    | struct fields =>
      rw [literal, memberLiterals_eq]
      refine failsOnContent_bind (failsOnContent_mapM fun m hm => ?_) fun _ => failsOnContent_ok _
      rw [memberLiteral]
      split
      · exact failsOnContent_error rfl
      · exact failsOnContent_bind (ih m hm _) fun _ => failsOnContent_ok _
    | _ => rw [literal] <;> first | exact plainLiteral_failsOnContent _ _ | simp

end Value

namespace QueryParameter

theorem bindScalar_failsOnContent (name : String) (t : DataType) (v : Value) :
    FailsOnContent (bindScalar name t v) := by
  unfold bindScalar
  (repeat' split) <;> first | exact failsOnContent_ok _ | exact failsOnContent_error rfl

theorem failsOnContent_bindItems {name : String} {element : DataType} {items : List Value}
    (h : ∀ x ∈ items, FailsOnContent (bind name element x)) : FailsOnContent (bindItems name element items) := by
  induction items with
  | nil =>
    rw [bindItems]
    exact failsOnContent_ok []
  | cons x rest ih =>
    rw [List.forall_mem_cons] at h
    by_cases hx : x = .null
    · subst hx
      rw [bindItems]
      exact failsOnContent_bind (ih h.2) fun _ => failsOnContent_ok _
    · rw [bindItems]
      · refine failsOnContent_bind h.1 fun p => ?_
        split
        · exact failsOnContent_bind (ih h.2) fun _ => failsOnContent_ok _
        · exact failsOnContent_error rfl
      · exact hx

theorem failsOnContent_bindMembers {name : String} {fields : List FieldType} {members : List (String × Value)}
    (h : ∀ m ∈ members, ∀ t, FailsOnContent (bind m.1 t m.2)) : FailsOnContent (bindMembers name fields members) := by
  induction members with
  | nil =>
    rw [bindMembers]
    exact failsOnContent_ok []
  | cons m rest ih =>
    rw [List.forall_mem_cons] at h
    rw [bindMembers]
    split
    · exact failsOnContent_error rfl
    · exact failsOnContent_bind (h.1 _) fun _ => failsOnContent_bind (ih h.2) fun _ => failsOnContent_ok _

theorem failsOnContent_bindStructs {fields : List FieldType} {i : Nat} {items : List Value}
    (h : ∀ members, .struct members ∈ items → ∀ name, FailsOnContent (bindMembers name fields members)) :
    FailsOnContent (bindStructs fields i items) := by
  induction items generalizing i with
  | nil =>
    rw [bindStructs]
    exact failsOnContent_ok []
  | cons x rest ih =>
    cases x with
    | struct members =>
      rw [bindStructs]
      refine failsOnContent_bind (h members List.mem_cons_self _) fun _ => ?_
      have hrest := ih (i := i + 1) fun members hm => h members (List.mem_cons_of_mem _ hm)
      exact failsOnContent_bind hrest fun _ => failsOnContent_ok _
    | _ =>
      rw [bindStructs]
      · exact failsOnContent_error rfl
      · simp

theorem bind_failsOnContent (v : Value) : ∀ name t, FailsOnContent (bind name t v) := by
  induction v using Value.induction_on with
  | plain v hv =>
    intro name t
    rw [bind_plain hv]
    exact bindScalar_failsOnContent name t v
  | array items ih =>
    intro name t
    rw [bind.eq_def]
    dsimp only
    split
    next fields =>
      refine failsOnContent_bind (failsOnContent_bindStructs fun members hm name => ?_) fun _ => failsOnContent_ok _
      -- an item is bound as a struct of its own would be, and that fails just if its members do
      have hstruct := ih _ hm name (.struct fields)
      rw [bind] at hstruct
      exact failsOnContent_of_bind hstruct
    next => exact failsOnContent_error rfl
    next element _ _ =>
      refine failsOnContent_bind (failsOnContent_bindItems fun x hx => ih x hx name element) fun _ => ?_
      exact failsOnContent_bind element.sqlName_failsOnContent fun _ => failsOnContent_ok _
    next => exact bindScalar_failsOnContent _ _ _
  | struct members ih =>
    intro name t
    rw [bind.eq_def]
    dsimp only
    split
    · exact failsOnContent_bind (failsOnContent_bindMembers fun m hm => ih m hm m.1) fun _ => failsOnContent_ok _
    · exact bindScalar_failsOnContent _ _ _

end QueryParameter

theorem Context.bindAll_failsOnContent {ctx : Context} {params : Params}
    (h : ∀ slot ∈ ctx.slots, (params.lookup slot.declared).isSome) : FailsOnContent (ctx.bindAll params) := by
  refine failsOnContent_mapM fun slot hslot => ?_
  obtain ⟨v, hv⟩ := Option.isSome_iff_exists.mp (h slot hslot)
  rw [hv]
  exact QueryParameter.bind_failsOnContent v slot.placeholder slot.dtype

end BigQuerySql
