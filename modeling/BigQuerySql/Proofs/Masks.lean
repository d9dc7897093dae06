import BigQuerySql.Proofs.DistinctTexts
import BigQuerySql.Proofs.Documents
import BigQuerySql.Proofs.Operands

namespace BigQuerySql

namespace Value

mutual

def masked : Value → Value
  | .float x => .float (if x.isFinite then x else .nan)
  | .array items => .array (maskedItems items)
  | .struct members => .struct (maskedMembers members)
  | v => v

def maskedItems : List Value → List Value
  | [] => []
  | v :: rest => v.masked :: maskedItems rest

def maskedMembers : List (String × Value) → List (String × Value)
  | [] => []
  | (name, v) :: rest => (name, v.masked) :: maskedMembers rest

end

theorem maskedItems_eq (items : List Value) : maskedItems items = items.map masked := by
  induction items with
  | nil => rfl
  | cons v rest ih => rw [maskedItems, ih, List.map_cons]

theorem maskedMembers_eq (members : List (String × Value)) :
    maskedMembers members = members.map fun m => (m.1, m.2.masked) := by
  induction members with
  | nil => rfl
  | cons m rest ih =>
    obtain ⟨name, v⟩ := m
    rw [maskedMembers, ih, List.map_cons]

def nonFinite? : Value → Option Binary64
  | .float x => if x.isFinite then none else some x
  | _ => none

def nonFinite (v : Value) : List Binary64 :=
  v.parts.filterMap nonFinite?

theorem nonFinite_array (items : List Value) : (Value.array items).nonFinite = items.flatMap nonFinite := by
  rw [nonFinite, parts, itemParts_eq, List.filterMap_cons, List.filterMap_flatMap]
  rfl

theorem nonFinite_struct (members : List (String × Value)) :
    (Value.struct members).nonFinite = members.flatMap fun m => m.2.nonFinite := by
  rw [nonFinite, parts, memberParts_eq, List.filterMap_cons, List.filterMap_flatMap]
  rfl

theorem length_nonFinite_masked (v : Value) : v.masked.nonFinite.length = v.nonFinite.length := by
  induction v using Value.induction_on with
  | plain v hv =>
    cases v with
    | float x => cases x <;> rfl
    | array items => simp [isComposite] at hv
    | struct members => simp [isComposite] at hv
    | _ => rfl
  | array items ih =>
    rw [masked, maskedItems_eq, nonFinite_array, nonFinite_array, List.flatMap_map, List.length_flatMap,
      List.length_flatMap]
    exact congrArg List.sum (List.map_congr_left ih)
  | struct members ih =>
    rw [masked, maskedMembers_eq, nonFinite_struct, nonFinite_struct, List.flatMap_map, List.length_flatMap,
      List.length_flatMap]
    exact congrArg List.sum (List.map_congr_left ih)

theorem plain_array (items : List Value) :
    (Value.array items).toJson.plain = .obj [("Array", .arr (items.map fun v => v.toJson.plain))] := by
  simp [toJson, itemsToJson_eq, Json.plain, Json.plainMembers, Json.plainItems_eq]

theorem plain_struct (members : List (String × Value)) :
    (Value.struct members).toJson.plain =
      .obj [("Struct", .obj (members.map fun m => (m.1, m.2.toJson.plain)))] := by
  simp [toJson, membersToJson_eq, Json.plain, Json.plainMembers_eq]

theorem plain_masked (v : Value) : v.masked.toJson.plain = v.toJson.plain := by
  induction v using Value.induction_on with
  | plain v hv =>
    cases v with
    | float x => cases x <;> rfl
    | array items => simp [isComposite] at hv
    | struct members => simp [isComposite] at hv
    | _ => rfl
  | array items ih =>
    rw [masked, maskedItems_eq, plain_array, plain_array, List.map_map, ← List.map_congr_left ih]
    rfl
  | struct members ih =>
    have hmembers : ∀ m ∈ members, (m.1, m.2.masked.toJson.plain) = (m.1, m.2.toJson.plain) := fun m hm => by
      rw [ih m hm]
    rw [masked, maskedMembers_eq, plain_struct, plain_struct, List.map_map, ← List.map_congr_left hmembers]
    rfl

theorem masked_of_plain_atom {v w : Value} (hv : v.isComposite = false) (h : v.toJson.plain = w.toJson.plain) :
    v.masked = w.masked := by
  -- constants of different kinds are written under different names
  cases v <;> cases w <;> simp [toJson, Json.plain, Json.plainMembers, isComposite] at h hv
  case null.null => rfl
  case bool.bool => rw [h]
  case int.int => rw [Int64.toInt_inj.mp h]
  case float.float x y => by_cases hx : x.isFinite = true <;> by_cases hy : y.isFinite = true <;> simp_all [masked]
  case decimal.decimal => rw [h]
  case string.string => rw [h]
  case bytes.bytes bs cs =>
    have hbyte : Function.Injective fun b : UInt8 => Json.int b.toNat := fun b c hbc =>
      UInt8.toNat_inj.mp (by simpa using hbc)
    have hplain (bs : List UInt8) :
        Json.plainItems (bs.map fun b => Json.int b.toNat) = bs.map fun b => Json.int b.toNat := by
      rw [Json.plainItems_eq, List.map_map]
      rfl
    rw [hplain, hplain] at h
    rw [List.map_injective_iff.mpr hbyte h]
  case date.date => rw [Date.text_inj h]
  case time.time => rw [TimeOfDay.text_inj h]
  case timestamp.timestamp => rw [DateTime.text_inj h]
  case instant.instant => rw [DateTime.text_inj h]
  case interval.interval => rw [Int64.toInt_inj.mp h]

theorem masked_of_plain {v w : Value} (h : v.toJson.plain = w.toJson.plain) : v.masked = w.masked := by
  induction v using Value.induction_on generalizing w with
  | plain v hv => exact masked_of_plain_atom hv h
  | array items ih =>
    obtain ⟨others, rfl⟩ : ∃ others, w = .array others := by
      cases w <;> simp [toJson, Json.plain, Json.plainMembers] at h ⊢
    simp only [plain_array, Json.obj.injEq, List.cons.injEq, Prod.mk.injEq, true_and, Json.arr.injEq, and_true] at h
    rw [masked, masked, maskedItems_eq, maskedItems_eq, map_eq_map_of h fun v hv w _ => ih v hv]
  | struct members ih =>
    obtain ⟨others, rfl⟩ : ∃ others, w = .struct others := by
      cases w <;> simp [toJson, Json.plain, Json.plainMembers] at h ⊢
    simp only [plain_struct, Json.obj.injEq, List.cons.injEq, Prod.mk.injEq, true_and, and_true] at h
    rw [masked, masked, maskedMembers_eq, maskedMembers_eq, map_eq_map_of h]
    intro m hm k _ hk
    obtain ⟨hname, hplain⟩ := Prod.mk.inj hk
    rw [hname, ih m hm hplain]

theorem isComposite_masked (v : Value) : v.masked.isComposite = v.isComposite := by
  cases v <;> rfl

theorem masked_leaf {v : Value} (hv : v.isComposite = false) (hfloat : ∀ x, v ≠ .float x) : v.masked = v := by
  cases v <;> simp_all [masked, isComposite]

theorem float_of_masked {x : Binary64} {w : Value} (h : (Value.float x).masked = w.masked) :
    ∃ y, w = .float y ∧ (x = y ∨ x.isFinite = false ∧ y.isFinite = false) := by
  cases w <;> simp only [masked, reduceCtorEq, float.injEq] at h
  case float y =>
    refine ⟨y, rfl, ?_⟩
    cases hx : x.isFinite <;> cases hy : y.isFinite <;> simp only [hx, hy, if_true, Bool.false_eq_true, if_false] at h
    case true.true => exact .inl h
    case false.false => exact .inr ⟨rfl, rfl⟩
    -- not-a-number itself is not finite
    case true.false => exact absurd hx (by rw [h]; decide)
    case false.true => exact absurd hy (by rw [← h]; decide)

theorem array_of_masked {items : List Value} {w : Value} (h : (Value.array items).masked = w.masked) :
    ∃ others, w = .array others ∧ items.map masked = others.map masked := by
  cases w <;> simp [masked, maskedItems_eq] at h ⊢
  exact h

theorem struct_of_masked {members : List (String × Value)} {w : Value}
    (h : (Value.struct members).masked = w.masked) : ∃ others, w = .struct others ∧
      (members.map fun m => (m.1, m.2.masked)) = others.map fun m => (m.1, m.2.masked) := by
  cases w <;> simp [masked, maskedMembers_eq] at h ⊢
  exact h

theorem eq_of_masked_leaf {v w : Value} (hv : v.isComposite = false) (hfloat : ∀ x, v ≠ .float x)
    (h : v.masked = w.masked) : v = w := by
  have hw : w.isComposite = false := by rw [← isComposite_masked, ← h, isComposite_masked, hv]
  have hmask : v = w.masked := by rw [← h, masked_leaf hv hfloat]
  rw [hmask, masked_leaf hw]
  rintro x rfl
  exact hfloat _ hmask

theorem eq_of_masked {v w : Value} (h : v.masked = w.masked) (hdoubles : v.nonFinite = w.nonFinite) : v = w := by
  have hlength (v w : Value) (h : v.masked = w.masked) : v.nonFinite.length = w.nonFinite.length := by
    rw [← length_nonFinite_masked, h, length_nonFinite_masked]
  induction v using Value.induction_on generalizing w with
  | plain v hv =>
    by_cases hfloat : ∃ x, v = .float x
    · obtain ⟨x, rfl⟩ := hfloat
      obtain ⟨y, rfl, rfl | ⟨hx, hy⟩⟩ := float_of_masked h
      · rfl
      · simpa [nonFinite, parts, nonFinite?, hx, hy] using hdoubles
    · exact eq_of_masked_leaf hv (fun x hx => hfloat ⟨x, hx⟩) h
  | array items ih =>
    obtain ⟨others, rfl, hmasks⟩ := array_of_masked h
    rw [nonFinite_array, nonFinite_array] at hdoubles
    have hitems : items = others := map_cancel (fun v hv w _ hvw => ih v hv (Prod.mk.inj hvw).1 (Prod.mk.inj hvw).2)
      (map_pair_eq hlength hmasks hdoubles)
    rw [hitems]
  | struct members ih =>
    obtain ⟨others, rfl, hmasks⟩ := struct_of_masked h
    rw [nonFinite_struct, nonFinite_struct] at hdoubles
    have hmembers : members = others := by
      refine map_cancel (fun m hm k _ hmk => ?_)
        (map_pair_eq (fun m k hmk => hlength m.2 k.2 (Prod.mk.inj hmk).2) hmasks hdoubles)
      obtain ⟨hmask, hlist⟩ := Prod.mk.inj hmk
      exact Prod.ext (Prod.mk.inj hmask).1 (ih m hm (Prod.mk.inj hmask).2 hlist)
    rw [hmembers]

end Value

namespace Op

variable {α β γ : Type}

theorem map_eq_of_operands {f : α → β} {g : α → γ} {op₁ op₂ : Op α} (h : op₁.map f = op₂.map f)
    (hoperands : op₁.operands.map g = op₂.operands.map g) : op₁.map g = op₂.map g := by
  have hform := congrArg (Op.map fun _ => ()) h
  rw [map_map, map_map] at hform
  refine ext_operands ?_ ?_
  · rw [map_map, map_map]
    exact hform
  · rw [operands_map, operands_map, hoperands]

def masked : Op α → Op α
  | .literal value => .literal value.masked
  | op => op

theorem masked_of_ne {op : Op α} (h : ∀ v, op ≠ .literal v) : op.masked = op := by
  cases op <;> simp_all [masked]

theorem literal_of_formName {op : Op α} (h : op.kind.formName = "Literal") : ∃ v, op = .literal v := by
  cases op <;> simp [kind, Kind.formName, Kind.formNames, Kind.form] at h ⊢

theorem entries_plain {op : Op Json} (h : ∀ v, op ≠ .literal v) :
    (op.entries.map fun m => (m.1, m.2.map Json.plain)) = (op.map Json.plain).entries := by
  cases op <;> simp_all [entries, map, Json.plain, Json.plainItems_eq, (Func.steady_toJson _).plain_eq,
    (Schema.steady_toJson _).plain_eq]
  all_goals rfl

end Op

namespace Expr

def masked : Expr → Expr :=
  fold fun op dtype label => ⟨op.masked, dtype, label⟩

theorem masked_eq (e : Expr) : e.masked = ⟨(e.op.map masked).masked, e.dtype, e.label⟩ := by
  obtain ⟨op, dtype, label⟩ := e
  rw [masked, fold_mk]

def nonFinite (e : Expr) : List Binary64 :=
  e.constants.filterMap Value.nonFinite?

theorem plainMembers_present (entries : List (String × Option Json)) :
    Json.plainMembers (Json.present entries) = Json.present (entries.map fun m => (m.1, m.2.map Json.plain)) := by
  rw [Json.plainMembers_eq, Json.present, Json.present, List.map_filterMap, List.filterMap_map]
  congr 1
  funext m
  obtain ⟨name, _ | j⟩ := m <;> rfl

def plainEntries (e : Expr) : List (String × Option Json) :=
  (entries (e.op.map toJson) e.dtype e.label).map fun m => (m.1, m.2.map Json.plain)

theorem plain_toJson (e : Expr) : e.toJson.plain = .obj (Json.present e.plainEntries) := by
  rw [toJson_eq, Json.plain, plainMembers_present, plainEntries]

theorem member_plainEntries {e : Expr} {m : String × Option Json}
    (h : m ∈ entries (e.op.map toJson) e.dtype e.label) : Json.member? (Json.present e.plainEntries) m.1 = some (m.2.map Json.plain) := by
  have hnames : (e.plainEntries.map Prod.fst).Nodup := by
    rw [plainEntries, List.map_map]
    exact nodup_names (e.op.map toJson) e.dtype e.label
  exact Json.member_present hnames (List.mem_map_of_mem h)

structure SameNode (e₁ e₂ : Expr) : Prop where
  form : e₁.op.kind.formName = e₂.op.kind.formName
  members : ((e₁.op.map toJson).entries.map fun m => m.2.map Json.plain) =
    (e₂.op.map toJson).entries.map fun m => m.2.map Json.plain
  dtype : e₁.dtype = e₂.dtype
  label : e₁.label = e₂.label

theorem mapM_member_plainEntries (e : Expr) :
    ((e.op.map toJson).entries.map Prod.fst).mapM (Json.member? (Json.present e.plainEntries)) =
      some ((e.op.map toJson).entries.map fun m => m.2.map Json.plain) :=
  mapM_map_eq_some fun _ hm => member_plainEntries (mem_entries_of_op hm)

theorem sameNode_of_plain {e₁ e₂ : Expr} (h : e₁.toJson.plain = e₂.toJson.plain) : SameNode e₁ e₂ := by
  rw [plain_toJson, plain_toJson, Json.obj.injEq] at h
  have hlookup {m k : String × Option Json} (hm : m ∈ entries (e₁.op.map toJson) e₁.dtype e₁.label)
      (hk : k ∈ entries (e₂.op.map toJson) e₂.dtype e₂.label) (hname : m.1 = k.1) :
      m.2.map Json.plain = k.2.map Json.plain := by
    have hmember := member_plainEntries hm
    rw [h, hname, member_plainEntries hk] at hmember
    exact (Option.some.inj hmember).symm
  have hform : e₁.op.kind.formName = e₂.op.kind.formName := by
    have htype := hlookup (type_mem_entries ..) (type_mem_entries ..) rfl
    simpa [Op.kind_map, Json.plain] using htype
  have hnames : (e₁.op.map toJson).entries.map Prod.fst = (e₂.op.map toJson).entries.map Prod.fst := by
    rw [← Option.some.injEq, ← Op.memberNames_formName, ← Op.memberNames_formName, Op.kind_map, Op.kind_map, hform]
  constructor
  · exact hform
  · have hmembers := mapM_member_plainEntries e₁
    rw [hnames, h, mapM_member_plainEntries e₂] at hmembers
    exact (Option.some.inj hmembers).symm
  · have hdtype := hlookup (dtype_mem_entries ..) (dtype_mem_entries ..) rfl
    rw [Option.map_some, Option.map_some, e₁.dtype.steady_toJson.plain_eq, e₂.dtype.steady_toJson.plain_eq] at hdtype
    exact DataType.toJson_inj (Option.some.inj hdtype)
  · have hlabel := hlookup (label_mem_entries ..) (label_mem_entries ..) rfl
    rw [Option.map_map, Option.map_map] at hlabel
    exact Option.map_injective (fun s t hst => Json.str.inj hst) hlabel

theorem masked_literal {e : Expr} {v : Value} (h : e.op = .literal v) :
    e.masked = ⟨.literal v.masked, e.dtype, e.label⟩ := by
  rw [masked_eq, h]
  rfl

theorem map_ne_literal {op : Op Expr} (h : ∀ v, op ≠ .literal v) {β : Type} (f : Expr → β) :
    ∀ v, op.map f ≠ .literal v := by
  cases op <;> simp_all [Op.map]

theorem masked_of_ne {e : Expr} (h : ∀ v, e.op ≠ .literal v) : e.masked = e.mapOperands masked := by
  rw [masked_eq, Op.masked_of_ne (map_ne_literal h masked), mapOperands]

theorem members_plain {op : Op Expr} (h : ∀ v, op ≠ .literal v) :
    ((op.map toJson).entries.map fun m => (m.1, m.2.map Json.plain)) = (op.map (Json.plain ∘ toJson)).entries := by
  rw [Op.entries_plain (map_ne_literal h toJson), Op.map_map]

theorem SameNode.map_plain {e₁ e₂ : Expr} (h : SameNode e₁ e₂) (h₁ : ∀ v, e₁.op ≠ .literal v)
    (h₂ : ∀ v, e₂.op ≠ .literal v) : e₁.op.map (Json.plain ∘ toJson) = e₂.op.map (Json.plain ∘ toJson) := by
  have hdecode {op : Op Expr} (hop : ∀ v, op ≠ .literal v) :
      Op.ofMembers? some op.kind.formName ((op.map toJson).entries.map fun m => m.2.map Json.plain) =
        some (op.map (Json.plain ∘ toJson)) := by
    have hread : Op.ofMembers? some op.kind.formName ((op.map (Json.plain ∘ toJson)).entries.map Prod.snd) =
        some (op.map (Json.plain ∘ toJson)) :=
      Op.ofMembers_entries (fun x _ => ⟨by simp [plain_toJson], rfl⟩) fun v hv => absurd hv (hop v)
    rw [← members_plain hop, List.map_map] at hread
    exact hread
  have hdecoded := hdecode h₁
  rw [h.form, h.members, hdecode h₂] at hdecoded
  exact (Option.some.inj hdecoded).symm

theorem masked_of_plain {e₁ e₂ : Expr} (h : e₁.toJson.plain = e₂.toJson.plain) : e₁.masked = e₂.masked := by
  induction e₁ using Expr.induction_on generalizing e₂ with
  | step e₁ ih =>
    have hnode := sameNode_of_plain h
    by_cases hliteral : ∃ v, e₁.op = .literal v
    · obtain ⟨v, hv⟩ := hliteral
      obtain ⟨w, hw⟩ : ∃ w, e₂.op = .literal w := Op.literal_of_formName (by rw [← hnode.form, hv]; rfl)
      have hvalue : v.toJson.plain = w.toJson.plain := by
        simpa [hv, hw, Op.map, Op.entries] using hnode.members
      rw [masked_literal hv, masked_literal hw, Value.masked_of_plain hvalue, hnode.dtype, hnode.label]
    · have h₁ : ∀ v, e₁.op ≠ .literal v := fun v hv => hliteral ⟨v, hv⟩
      have h₂ : ∀ v, e₂.op ≠ .literal v := fun v hv =>
        hliteral (Op.literal_of_formName (by rw [hnode.form, hv]; rfl))
      have hplain := hnode.map_plain h₁ h₂
      have htexts := congrArg Op.operands hplain
      rw [Op.operands_map, Op.operands_map] at htexts
      have hoperands := map_eq_map_of htexts fun x hx y _ => ih x hx
      rw [masked_of_ne h₁, masked_of_ne h₂, mapOperands, mapOperands, Op.map_eq_of_operands hplain hoperands,
        hnode.dtype, hnode.label]

theorem plain_masked (e : Expr) : e.masked.toJson.plain = e.toJson.plain := by
  induction e using Expr.induction_on with
  | step e ih =>
    have hentries : e.masked.plainEntries = e.plainEntries := by
      by_cases hliteral : ∃ v, e.op = .literal v
      · obtain ⟨v, hv⟩ := hliteral
        simp [plainEntries, masked_literal hv, hv, entries, Op.map, Op.entries, Op.kind, Value.plain_masked]
      · have hne : ∀ v, e.op ≠ .literal v := fun v hv => hliteral ⟨v, hv⟩
        have hoperands : (e.op.map masked).map (Json.plain ∘ toJson) = e.op.map (Json.plain ∘ toJson) := by
          rw [Op.map_map]
          exact Op.map_congr ih
        simp only [plainEntries, masked_of_ne hne, mapOperands, entries, List.map_cons, List.map_append, Op.kind_map]
        rw [members_plain hne, members_plain (map_ne_literal hne masked), hoperands]
    rw [plain_toJson, plain_toJson, hentries]

theorem identity_eq_iff_masked {e₁ e₂ : Expr} : e₁.identity = e₂.identity ↔ e₁.masked = e₂.masked := by
  constructor
  · intro h
    exact masked_of_plain (Json.plain_of_chars (String.ofList_inj.mp h))
  · intro h
    have hchars : e₁.toJson.chars = e₂.toJson.chars := by
      rw [← Json.chars_plain, ← plain_masked, h, plain_masked, Json.chars_plain]
    rw [identity, identity, Json.text, Json.text, hchars]

theorem nonFinite_literal {e : Expr} {v : Value} (h : e.op = .literal v) : e.nonFinite = v.nonFinite := by
  have hoperands : e.operands = [] := by rw [operands, h, Op.operands]
  rw [nonFinite, constants_eq, hoperands, List.flatMap_nil, List.append_nil, literalValue?, h]
  rfl

theorem nonFinite_of_ne {e : Expr} (h : ∀ v, e.op ≠ .literal v) : e.nonFinite = e.operands.flatMap nonFinite := by
  have hown : e.literalValue? = none := by
    unfold literalValue?
    split <;> simp_all
  rw [nonFinite, constants_eq, hown, Option.map_none, Option.getD_none, List.nil_append, List.filterMap_flatMap]
  rfl

theorem masked_ne_literal {e : Expr} : (∀ v, e.masked.op ≠ .literal v) ↔ ∀ v, e.op ≠ .literal v := by
  rw [masked_eq]
  cases e.op <;> simp [Op.map, Op.masked]

theorem literal_of_masked {e₁ e₂ : Expr} {v : Value} (h : e₁.masked = e₂.masked) (hv : e₁.op = .literal v) :
    ∃ w, e₂.op = .literal w ∧ v.masked = w.masked ∧ e₁.dtype = e₂.dtype ∧ e₁.label = e₂.label := by
  obtain ⟨w, hw⟩ : ∃ w, e₂.op = .literal w := by
    by_contra hw
    have hne := masked_ne_literal.mpr fun w hw' => hw ⟨w, hw'⟩
    rw [← h] at hne
    exact masked_ne_literal.mp hne v hv
  rw [masked_literal hv, masked_literal hw, mk.injEq, Op.literal.injEq] at h
  exact ⟨w, hw, h⟩

theorem length_nonFinite_masked (e : Expr) : e.masked.nonFinite.length = e.nonFinite.length := by
  induction e using Expr.induction_on with
  | step e ih =>
    by_cases hliteral : ∃ v, e.op = .literal v
    · obtain ⟨v, hv⟩ := hliteral
      have hmasked : e.masked.op = .literal v.masked := by rw [masked_literal hv]
      rw [nonFinite_literal hmasked, nonFinite_literal hv, Value.length_nonFinite_masked]
    · have hne : ∀ v, e.op ≠ .literal v := fun v hv => hliteral ⟨v, hv⟩
      have hoperands : e.masked.operands = e.operands.map masked := by
        rw [masked_of_ne hne, operands, mapOperands, Op.operands_map, operands]
      rw [nonFinite_of_ne (masked_ne_literal.mpr hne), nonFinite_of_ne hne, hoperands, List.flatMap_map,
        List.length_flatMap, List.length_flatMap]
      exact congrArg List.sum (List.map_congr_left ih)

theorem eq_of_masked {e₁ e₂ : Expr} (h : e₁.masked = e₂.masked) (hdoubles : e₁.nonFinite = e₂.nonFinite) :
    e₁ = e₂ := by
  have hlength (x y : Expr) (h : x.masked = y.masked) : x.nonFinite.length = y.nonFinite.length := by
    rw [← length_nonFinite_masked, h, length_nonFinite_masked]
  induction e₁ using Expr.induction_on generalizing e₂ with
  | step e₁ ih =>
    suffices e₁.op = e₂.op by
      rw [masked_eq, masked_eq, mk.injEq] at h
      obtain ⟨op₁, dtype₁, label₁⟩ := e₁
      obtain ⟨op₂, dtype₂, label₂⟩ := e₂
      rw [mk.injEq]
      exact ⟨this, h.2⟩
    by_cases hliteral : ∃ v, e₁.op = .literal v
    · obtain ⟨v, hv⟩ := hliteral
      obtain ⟨w, hw, hmasks, -⟩ := literal_of_masked h hv
      rw [nonFinite_literal hv, nonFinite_literal hw] at hdoubles
      rw [hv, hw, Value.eq_of_masked hmasks hdoubles]
    · have h₁ : ∀ v, e₁.op ≠ .literal v := fun v hv => hliteral ⟨v, hv⟩
      have h₂ : ∀ v, e₂.op ≠ .literal v := by
        rw [← masked_ne_literal, ← h, masked_ne_literal]
        exact h₁
      rw [nonFinite_of_ne h₁, nonFinite_of_ne h₂] at hdoubles
      rw [masked_of_ne h₁, masked_of_ne h₂, mapOperands, mapOperands, mk.injEq] at h
      have hmasked : e₁.operands.map masked = e₂.operands.map masked := by
        rw [operands, operands, ← Op.operands_map, ← Op.operands_map, h.1]
      have hoperands : e₁.operands = e₂.operands :=
        map_cancel (fun x hx y _ hxy => ih x hx (Prod.mk.inj hxy).1 (Prod.mk.inj hxy).2)
          (map_pair_eq hlength hmasked hdoubles)
      have hop := Op.map_eq_of_operands h.1 (congrArg (List.map id) hoperands)
      rw [Op.map_id, Op.map_id] at hop
      exact hop

end Expr

end BigQuerySql
