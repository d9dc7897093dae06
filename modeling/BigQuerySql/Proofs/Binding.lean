import BigQuerySql.Proofs.LiteralTokens

namespace BigQuerySql

namespace Value

inductive DenotesDate : Value → Date → Prop where
  | date (d : Date) : DenotesDate (.date d) d
  | timestamp (t : DateTime) : DenotesDate (.timestamp t) t.date
  | instant (t : DateTime) : DenotesDate (.instant t) t.date
  | text {s : String} {d : Date} (h : Date.parse? s = some d) : DenotesDate (.string s) d

inductive DenotesInstant : Value → DateTime → Prop where
  | instant (t : DateTime) : DenotesInstant (.instant t) t
  | timestamp (t : DateTime) : DenotesInstant (.timestamp t) t
  | date (d : Date) : DenotesInstant (.date d) (.atMidnight d)
  | text {s : String} {t : DateTime} (h : DateTime.parse? s = some t) : DenotesInstant (.string s) t

theorem denotesDate_iff {v : Value} {d : Date} : v.DenotesDate d ↔ v.date? = some d := by
  constructor
  · intro h
    cases h with
    | text h => exact h
    | _ => rfl
  · intro h
    cases v with
    | string s => exact .text h
    | date _ | timestamp _ | instant _ =>
      obtain rfl := Option.some.inj h
      constructor
    | _ => cases h

theorem denotesInstant_iff {v : Value} {t : DateTime} : v.DenotesInstant t ↔ v.instant? = some t := by
  constructor
  · intro h
    cases h with
    | text h => exact h
    | _ => rfl
  · intro h
    cases v with
    | string s => exact .text h
    | date _ | timestamp _ | instant _ =>
      obtain rfl := Option.some.inj h
      constructor
    | _ => cases h

end Value

namespace QueryParameter

attribute [local simp] bind bindMembers bindItems bindStructs

def scalarTypes : List String :=
  ["TIMESTAMP", "DATE", "STRING", "BOOL", "INT64", "FLOAT64"]

/-- What a single value is bound to at a type: the name of the type that is sent, and the value. -/
inductive BindsLeaf : DataType → Value → String → Value → Prop where
  | timestamp {timezone : Option String} {v : Value} {t : DateTime} (h : v.DenotesInstant t) :
      BindsLeaf (.timestamp timezone) v "TIMESTAMP" (.instant t)
  | date {v : Value} {d : Date} (h : v.DenotesDate d) : BindsLeaf .date v "DATE" (.date d)
  | string (s : String) : BindsLeaf .string (.string s) "STRING" (.string s)
  | bool (b : Bool) : BindsLeaf .bool (.bool b) "BOOL" (.bool b)
  | int {dtype : DataType} (h : dtype.isInteger) (i : Int64) : BindsLeaf dtype (.int i) "INT64" (.int i)
  | float {dtype : DataType} (h : dtype.isFloating) (x : Binary64) : BindsLeaf dtype (.float x) "FLOAT64" (.float x)

section Scalar

variable {name : String} {dtype : DataType} {v : Value} {p : QueryParameter}

theorem bindScalar_ok_iff :
    bindScalar name dtype v = .ok p ↔
      ∃ typeName w, BindsLeaf dtype v typeName w ∧ p = .scalar name typeName w := by
  constructor
  · intro h
    unfold bindScalar at h
    split at h
    · split at h
      next t ht => exact ⟨_, _, .timestamp (Value.denotesInstant_iff.mpr ht), (Except.ok.inj h).symm⟩
      next => cases h
    · split at h
      next d hd => exact ⟨_, _, .date (Value.denotesDate_iff.mpr hd), (Except.ok.inj h).symm⟩
      next => cases h
    next s => exact ⟨_, _, .string s, (Except.ok.inj h).symm⟩
    next b => exact ⟨_, _, .bool b, (Except.ok.inj h).symm⟩
    next i _ _ =>
      split at h
      next hint => exact ⟨_, _, .int hint i, (Except.ok.inj h).symm⟩
      next => cases h
    next x _ _ =>
      split at h
      next hfloat => exact ⟨_, _, .float hfloat x, (Except.ok.inj h).symm⟩
      next => cases h
    next => cases h
  · rintro ⟨typeName, w, hleaf, rfl⟩
    cases hleaf with
    | timestamp h => simp [bindScalar, Value.denotesInstant_iff.mp h]
    | date h => simp [bindScalar, Value.denotesDate_iff.mp h]
    | string s => rfl
    | bool b => rfl
    | int h i => cases dtype <;> simp [DataType.isInteger] at h <;> rfl
    | float h x => cases dtype <;> simp [DataType.isFloating] at h <;> rfl

theorem bindsLeaf_plain {w : Value} {typeName : String} (h : BindsLeaf dtype v typeName w) :
    v.isComposite = false := by
  cases h with
  | timestamp h => cases h <;> rfl
  | date h => cases h <;> rfl
  | _ => rfl

theorem bindsLeaf_single {w : Value} {typeName : String} (h : BindsLeaf dtype v typeName w) :
    (∀ element, dtype ≠ .array element) ∧ ∀ fields, dtype ≠ .struct fields := by
  constructor
  all_goals
    rintro t rfl
    cases h with
    | int h i => cases h
    | float h x => cases h

theorem bindScalar_composite (hv : v.isComposite) : bindScalar name dtype v ≠ .ok p := by
  rw [Ne, bindScalar_ok_iff]
  rintro ⟨typeName, w, hleaf, -⟩
  simp [bindsLeaf_plain hleaf] at hv

theorem bindScalar_array {element : DataType} : bindScalar name (.array element) v ≠ .ok p := by
  rw [Ne, bindScalar_ok_iff]
  rintro ⟨typeName, w, hleaf, -⟩
  exact (bindsLeaf_single hleaf).1 element rfl

theorem bindScalar_struct {fields : List FieldType} : bindScalar name (.struct fields) v ≠ .ok p := by
  rw [Ne, bindScalar_ok_iff]
  rintro ⟨typeName, w, hleaf, -⟩
  exact (bindsLeaf_single hleaf).2 fields rfl

theorem bindScalar_null : bindScalar name dtype .null ≠ .ok p := by
  rw [Ne, bindScalar_ok_iff]
  rintro ⟨typeName, w, hleaf, -⟩
  cases hleaf with
  | timestamp h => cases h
  | date h => cases h

theorem bindScalar_ok (h : bindScalar name dtype v = .ok p) :
    ∃ typeName value, typeName ∈ scalarTypes ∧ p = .scalar name typeName value := by
  obtain ⟨typeName, w, hleaf, rfl⟩ := bindScalar_ok_iff.mp h
  refine ⟨typeName, w, ?_, rfl⟩
  cases hleaf <;> decide

theorem bind_plain (hv : v.isComposite = false) : bind name dtype v = bindScalar name dtype v := by
  cases v <;> simp_all [Value.isComposite]

theorem bind_single (ha : ∀ t, dtype ≠ .array t) (hs : ∀ fields, dtype ≠ .struct fields) :
    bind name dtype v = bindScalar name dtype v := by
  cases v with
  | array items =>
    rw [bind]
    · exact fun fields h => ha _ h
    · exact fun t h => ha _ h
    · exact ha
  | struct members =>
    rw [bind]
    exact hs
  | _ => rfl

end Scalar

def Binds (fields : List FieldType) (m : String × Value) (p : QueryParameter) : Prop :=
  ∃ field, (fields.find? fun f => f.name == m.1) = some field ∧ bind m.1 field.dtype m.2 = .ok p

theorem bindMembers_ok {name : String} {fields : List FieldType} {members : List (String × Value)}
    {bound : List QueryParameter} :
    bindMembers name fields members = .ok bound ↔ List.Forall₂ (Binds fields) members bound := by
  induction members generalizing bound with
  | nil => simp [eq_comm]
  | cons m rest ih =>
    obtain ⟨member, v⟩ := m
    rw [bindMembers, List.forall₂_cons_left_iff]
    cases hf : fields.find? fun f => f.name == member with
    | none => simp [Binds, hf]
    | some field => simp [Binds, hf, except_bind_ok, ih, pure, Except.pure, @eq_comm _ _ bound]

theorem bind_struct {name : String} {dtype : DataType} {members : List (String × Value)} {p : QueryParameter} :
    bind name dtype (.struct members) = .ok p ↔
      ∃ fields bound, dtype = .struct fields ∧ List.Forall₂ (Binds fields) members bound ∧
        p = .struct name bound := by
  cases dtype with
  | struct fields =>
    rw [bind, except_bind_ok]
    simp [bindMembers_ok, pure, Except.pure, @eq_comm _ p]
  | _ =>
    rw [bind]
    · simp [bindScalar_composite (v := .struct members) rfl]
    · simp

theorem bind_array_structs {name : String} {fields : List FieldType} {items : List Value} {p : QueryParameter} :
    bind name (.array (.struct fields)) (.array items) = .ok p ↔
      ∃ bound, bindStructs fields 0 items = .ok bound ∧ p = .structs name bound := by
  rw [bind, except_bind_ok]
  simp [pure, Except.pure, @eq_comm _ p]

theorem bind_array_single {name : String} {element : DataType} {items : List Value} {p : QueryParameter}
    (ha : ∀ t, element ≠ .array t) (hs : ∀ fields, element ≠ .struct fields) :
    bind name (.array element) (.array items) = .ok p ↔
      ∃ values typeName, bindItems name element items = .ok values ∧ element.sqlName = .ok typeName ∧
        p = .array name typeName values := by
  rw [bind, except_bind_ok]
  · simp only [except_bind_ok, pure, Except.pure, Except.ok.injEq, exists_and_left, @eq_comm _ p]
  · exact hs
  · exact ha

theorem bind_array {name : String} {dtype : DataType} {items : List Value} {p : QueryParameter}
    (h : bind name dtype (.array items) = .ok p) :
    (∃ fields bound, dtype = .array (.struct fields) ∧ bindStructs fields 0 items = .ok bound ∧
      p = .structs name bound) ∨
    ∃ element typeName values, dtype = .array element ∧ (∀ t, element ≠ .array t) ∧
      (∀ fields, element ≠ .struct fields) ∧ bindItems name element items = .ok values ∧
      element.sqlName = .ok typeName ∧ p = .array name typeName values := by
  cases dtype with
  | array element =>
    cases element with
    | struct fields =>
      obtain ⟨bound, hbound, rfl⟩ := bind_array_structs.mp h
      exact .inl ⟨fields, bound, rfl, hbound, rfl⟩
    | array element => simp at h
    | _ =>
      obtain ⟨values, typeName, hvalues, htype, rfl⟩ := (bind_array_single (by simp) (by simp)).mp h
      exact .inr ⟨_, typeName, values, rfl, by simp, by simp, hvalues, htype, rfl⟩
  | _ =>
    rw [bind] at h
    · exact absurd h (bindScalar_composite rfl)
    · simp
    · simp
    · simp

theorem bind_name {name : String} {dtype : DataType} {v : Value} {p : QueryParameter}
    (h : bind name dtype v = .ok p) : p.name = name := by
  cases v with
  | struct members =>
    obtain ⟨fields, bound, -, -, rfl⟩ := bind_struct.mp h
    rfl
  | array items =>
    rcases bind_array h with ⟨fields, bound, -, -, rfl⟩ | ⟨element, typeName, values, -, -, -, -, -, rfl⟩ <;> rfl
  | _ =>
    rw [bind_plain rfl] at h
    obtain ⟨typeName, value, -, rfl⟩ := bindScalar_ok h
    rfl

theorem binds_name {fields : List FieldType} {m : String × Value} {p : QueryParameter}
    (h : Binds fields m p) : p.name = m.1 := by
  obtain ⟨field, -, hp⟩ := h
  exact bind_name hp

theorem binds_keys {fields : List FieldType} {members : List (String × Value)} {bound : List QueryParameter}
    (h : List.Forall₂ (Binds fields) members bound) : bound.map name = members.map Prod.fst := by
  induction h with
  | nil => rfl
  | cons hp _ ih => simp [binds_name hp, ih]

def BindsItem (fields : List FieldType) (item : Value) (bound : String × List QueryParameter) : Prop :=
  ∃ members, item = .struct members ∧ List.Forall₂ (Binds fields) members bound.2

theorem bind_at_struct {name : String} {fields : List FieldType} {v : Value} {p : QueryParameter} :
    bind name (.struct fields) v = .ok p ↔
      ∃ members bound, v = .struct members ∧ List.Forall₂ (Binds fields) members bound ∧ p = .struct name bound := by
  cases v with
  | struct members =>
    rw [bind_struct]
    simp
  | array items =>
    refine iff_of_false (fun h => ?_) (by simp)
    rcases bind_array h with ⟨_, _, h, -⟩ | ⟨_, _, _, h, -⟩ <;> cases h
  | _ =>
    rw [bind_plain rfl]
    exact iff_of_false bindScalar_struct (by simp)

theorem bindsItem_iff {fields : List FieldType} {item : Value} {bound : String × List QueryParameter} :
    BindsItem fields item bound ↔ bind bound.1 (.struct fields) item = .ok (.struct bound.1 bound.2) := by
  rw [bind_at_struct]
  simp [BindsItem]

theorem bindStructs_ok_iff {fields : List FieldType} {i : Nat} {items : List Value}
    {bound : List (String × List QueryParameter)} :
    bindStructs fields i items = .ok bound ↔
      bound.map Prod.fst = (List.range' i items.length).map itemName ∧
        List.Forall₂ (BindsItem fields) items bound := by
  induction items generalizing i bound with
  | nil => cases bound <;> simp
  | cons item rest ih =>
    rw [List.forall₂_cons_left_iff]
    cases item with
    | struct members =>
      rw [bindStructs, except_bind_ok]
      simp only [bindMembers_ok, except_bind_ok, ih]
      constructor
      · rintro ⟨first, hfirst, others, ⟨hnames, hothers⟩, h⟩
        obtain rfl : (itemName i, first) :: others = bound := by simpa [pure, Except.pure] using h
        exact ⟨by simp [hnames, List.range'_succ], _, others, ⟨members, rfl, hfirst⟩, hothers, rfl⟩
      · rintro ⟨hnames, ⟨own, first⟩, others, ⟨members', hmembers, hfirst⟩, hothers, rfl⟩
        obtain rfl : members = members' := by simpa using hmembers
        obtain ⟨hown, hrest⟩ : own = itemName i ∧
            others.map Prod.fst = (List.range' (i + 1) rest.length).map itemName := by
          simpa [List.range'_succ] using hnames
        exact ⟨first, hfirst, others, ⟨hrest, hothers⟩, by rw [hown]; rfl⟩
    | _ => simp [BindsItem]

theorem exists_bindStructs {fields : List FieldType} {items : List Value}
    (h : ∀ x ∈ items, ∃ name p, bind name (.struct fields) x = .ok p) (i : Nat) :
    ∃ bound, bindStructs fields i items = .ok bound := by
  induction items generalizing i with
  | nil => exact ⟨[], rfl⟩
  | cons x rest ih =>
    rw [List.forall_mem_cons] at h
    obtain ⟨name, p, hp⟩ := h.1
    obtain ⟨members, bound, rfl, hbound, -⟩ := bind_at_struct.mp hp
    obtain ⟨others, hothers⟩ := ih h.2 (i + 1)
    refine ⟨(itemName i, bound) :: others, ?_⟩
    rw [bindStructs, bindMembers_ok.mpr hbound, hothers]
    rfl

theorem bindStructs_ok {fields : List FieldType} {i : Nat} {items : List Value}
    {bound : List (String × List QueryParameter)} (h : bindStructs fields i items = .ok bound) :
    List.Forall₂ (BindsItem fields) items bound :=
  (bindStructs_ok_iff.mp h).2

theorem isComposite_of_bind_scalar {name own typeName : String} {dtype : DataType} {v w : Value}
    (h : bind name dtype v = .ok (.scalar own typeName w)) : v.isComposite = false := by
  cases v with
  | struct members =>
    obtain ⟨fields, bound, -, -, h⟩ := bind_struct.mp h
    cases h
  | array items =>
    rcases bind_array h with ⟨fields, bound, -, -, h⟩ | ⟨element, typeName, values, -, -, -, -, -, h⟩ <;> cases h
  | _ => rfl

theorem bindItems_ok {name : String} {element : DataType} {items values : List Value} :
    bindItems name element items = .ok values ↔
      List.Forall₂ (fun x v => (x = .null ∧ v = .null) ∨
        ∃ own typeName, bind name element x = .ok (.scalar own typeName v)) items values := by
  induction items generalizing values with
  | nil => simp [eq_comm]
  | cons x rest ih =>
    rw [List.forall₂_cons_left_iff]
    by_cases hx : x = .null
    · subst hx
      simp [except_bind_ok, ih, bindScalar_null, pure, Except.pure, @eq_comm _ _ values]
    · rw [bindItems, except_bind_ok]
      · constructor
        · rintro ⟨p, hp, h⟩
          split at h
          next own typeName bound =>
            obtain ⟨others, hothers, h⟩ := except_bind_ok.mp h
            obtain rfl := Except.ok.inj h
            exact ⟨bound, others, .inr ⟨own, typeName, hp⟩, ih.mp hothers, rfl⟩
          next => cases h
        · rintro ⟨bound, others, ⟨hnull, -⟩ | ⟨own, typeName, hp⟩, hothers, rfl⟩
          · exact absurd hnull hx
          · exact ⟨_, hp, except_bind_ok.mpr ⟨others, ih.mpr hothers, rfl⟩⟩
      · exact hx

theorem bindItems_plain {name : String} {element : DataType} {items values : List Value}
    (h : bindItems name element items = .ok values) : ∀ x ∈ items, x.isComposite = false := by
  intro x hx
  obtain ⟨v, -, ⟨rfl, -⟩ | ⟨own, typeName, hbind⟩⟩ := forall₂_mem (bindItems_ok.mp h) hx
  · rfl
  · exact isComposite_of_bind_scalar hbind

end QueryParameter

end BigQuerySql
