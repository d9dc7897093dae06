import BigQuerySql.Expr.Codec
import BigQuerySql.Proofs.SteadyDocuments

namespace BigQuerySql

namespace Json

theorem named_str {α : Type} (inner : Bool) (ofName? : String → Option α) (s : String) :
    (Json.str s).named? inner ofName? = ofName? s :=
  rfl

end Json

theorem SetOpKind.ofName_name (k : SetOpKind) : ofName? k.name = some k := by
  cases k <;> decide

theorem BinaryOp.ofName_name (op : BinaryOp) : ofName? op.name = some op := by
  cases op <;> decide

theorem Agg.ofName_name (func : Agg) : ofName? func.name = some func := by
  cases func <;> decide

theorem TemporalKind.ofName_name (k : TemporalKind) : ofName? k.name = some k := by
  cases k <;> decide

theorem IntervalOp.ofName_name (op : IntervalOp) : ofName? op.name = some op := by
  cases op <;> decide

theorem GeoFunc.ofName_name (g : GeoFunc) : ofName? g.name = some g := by
  cases g <;> decide

namespace Func

theorem ofName_name : ∀ f ∈ plain, ofName? f.name = some f := by
  decide +kernel

theorem plain_or_geo (f : Func) : f ∈ plain ∧ f.toJson = .str f.name ∨ ∃ g, f = .geo g := by
  cases f with
  | geo g => exact .inr ⟨g, rfl⟩
  | _ => exact .inl ⟨by decide, rfl⟩

theorem steady_toJson (f : Func) : f.toJson.Steady := by
  rcases f.plain_or_geo with ⟨-, hjson⟩ | ⟨g, rfl⟩
  · rw [hjson]
    rfl
  · rfl

theorem decode_toJson (inner : Bool) (f : Func) : decode inner f.toJson = some f := by
  rcases f.plain_or_geo with ⟨hplain, hjson⟩ | ⟨g, rfl⟩
  · rw [hjson, decode, Json.named_str, ofName_name f hplain]
    simp [Json.choice?]
  · simp [toJson, decode, Json.choice?, Json.named_str, g.ofName_name]

end Func

namespace Json

def present (entries : List (String × Option Json)) : List (String × Json) :=
  entries.filterMap fun e => e.2.map (e.1, ·)

theorem forall_mem_present {P : Json → Prop} {entries : List (String × Option Json)} :
    (∀ m ∈ present entries, P m.2) ↔ ∀ e ∈ entries, ∀ j ∈ e.2, P j := by
  simp only [present, List.mem_filterMap, Option.map_eq_some_iff]
  constructor
  · intro h e he j hj
    exact h (e.1, j) ⟨e, he, j, hj, rfl⟩
  · rintro h _ ⟨e, he, j, hj, rfl⟩
    exact h e he j hj

theorem filter_present_eq_nil {name : String} {entries : List (String × Option Json)}
    (h : name ∉ entries.map Prod.fst) : (present entries).filter (·.1 == name) = [] := by
  simp only [present, List.filter_eq_nil_iff, List.mem_filterMap, Option.map_eq_some_iff, beq_iff_eq]
  rintro _ ⟨e, he, j, _, rfl⟩ rfl
  exact h (List.mem_map_of_mem he)

theorem member_present {entries : List (String × Option Json)} (hnames : (entries.map Prod.fst).Nodup)
    {e : String × Option Json} (he : e ∈ entries) : member? (present entries) e.1 = some e.2 := by
  have hfilter : (present entries).filter (·.1 == e.1) = (e.2.map (e.1, ·)).toList := by
    induction entries with
    | nil => simp at he
    | cons d rest ih =>
      rw [List.map_cons, List.nodup_cons] at hnames
      have hcons : present (d :: rest) = (d.2.map (d.1, ·)).toList ++ present rest := by
        rw [present, List.filterMap_cons]
        cases d.2 <;> rfl
      rw [hcons, List.filter_append]
      rcases List.mem_cons.mp he with rfl | he
      · rw [filter_present_eq_nil hnames.1, List.append_nil]
        cases e.2 <;> simp
      · have hne : d.1 ≠ e.1 := fun heq => hnames.1 (heq ▸ List.mem_map_of_mem he)
        rw [ih hnames.2 he]
        cases d.2 <;> simp [hne]
  rw [member?, hfilter]
  cases e.2 <;> rfl

theorem optional_map {α β : Type} {encode : α → Json} {decode : Json → Option β} {f : α → β} {o : Option α}
    (h : ∀ x ∈ o, encode x ≠ .null ∧ decode (encode x) = some (f x)) :
    optional? decode (o.map encode) = some (o.map f) := by
  cases o with
  | none => rfl
  | some x =>
    obtain ⟨hnull, hdecode⟩ := h x rfl
    rw [Option.map_some, optional?, nullable?, hdecode]
    · rfl
    · exact hnull

theorem optional_str (s : Option String) : optional? str? (s.map .str) = some s := by
  cases s <;> rfl

end Json

namespace Op

def entries : Op Json → List (String × Option Json)
  | .literal value => [("value", value.toJson)]
  | .column name table => [("name", Json.str name), ("table", table.map .str)]
  | .scalarParameter name => [("name", Json.str name)]
  | .tableScan name schema => [("name", Json.str name), ("schema", schema.toJson)]
  | .setOp kind left right distinct =>
    [("kind", Json.str kind.name), ("left", left), ("right", right), ("distinct", Json.bool distinct)]
  | .binary op left right => [("op", Json.str op.name), ("left", left), ("right", right)]
  | .call func args => [("func", func.toJson), ("args", Json.arr args)]
  | .cast arg => [("arg", arg)]
  | .ifElse cond yes no => [("cond", cond), ("then", yes), ("otherwise", no)]
  | .reduction func args filter => [("func", Json.str func.name), ("args", Json.arr args), ("where", filter)]
  | .covariance left right how filter =>
    [("left", left), ("right", right), ("how", Json.str how), ("where", filter)]
  | .arbitrary arg how filter => [("arg", arg), ("how", how.map .str), ("where", filter)]
  | .truncate kind arg unit => [("kind", Json.str kind.name), ("arg", arg), ("unit", Json.str unit.code)]
  | .intervalArithmetic op arg offset => [("op", Json.str op.name), ("arg", arg), ("offset", offset)]
  | .timestampFromUnix arg unit => [("arg", arg), ("unit", Json.str unit.code)]
  | .stringFind arg substr start stop => [("arg", arg), ("substr", substr), ("start", start), ("end", stop)]
  | .hash arg how => [("arg", arg), ("how", Json.str how)]
  | .hashBytes arg how => [("arg", arg), ("how", Json.str how)]
  | .strftime arg format => [("arg", arg), ("format", format)]
  | .stringToTimestamp arg format timezone => [("arg", arg), ("format", format), ("timezone", timezone)]
  | .structField arg field => [("arg", arg), ("field", Json.str field)]

theorem optionalMember_eq {α : Type} (name : String) (f : α → Json) (o : Option α) :
    optionalMember name f o = Json.present [(name, o.map f)] := by
  cases o <;> rfl

theorem members_eq (op : Op Json) : op.members = Json.present op.entries := by
  cases op with
  | column name table => cases table <;> rfl
  | reduction func args filter => cases filter <;> rfl
  | covariance left right how filter => cases filter <;> rfl
  | arbitrary arg how filter => cases how <;> cases filter <;> rfl
  | stringFind arg substr start stop => cases start <;> cases stop <;> rfl
  | stringToTimestamp arg format timezone => cases timezone <;> rfl
  | _ => rfl

theorem steady_entries {op : Op Json} (hop : ∀ j ∈ op.operands, j.Steady)
    (hliteral : ∀ v, op = .literal v → v.toJson.Steady) : ∀ e ∈ op.entries, ∀ j ∈ e.2, j.Steady := by
  cases op <;>
    simp only [operands, entries, List.mem_append, Option.mem_toList, List.mem_cons, List.not_mem_nil, or_false, or_imp,
      forall_and, forall_eq, forall_eq', Option.mem_def, Option.some.injEq, Json.steady_str, Json.steady_bool,
      Json.steady_arr, Func.steady_toJson, Schema.steady_toJson, true_and, and_true] at hop ⊢
  all_goals simp_all [Json.steady_str]

theorem depth_operand_le {op : Op Json} {j : Json} (h : j ∈ op.operands) :
    ∃ e ∈ op.entries, ∃ k ∈ e.2, j.depth ≤ k.depth := by
  have hargs {args : List Json} (h : j ∈ args) : j.depth ≤ (Json.arr args).depth :=
    Nat.le_succ_of_le (Json.depth_le_depthItems h)
  cases op with
  | call func args => exact ⟨("args", some (.arr args)), by simp [entries], _, rfl, hargs h⟩
  | _ =>
    simp only [operands, entries, List.mem_append, Option.mem_toList, List.mem_cons, List.not_mem_nil, or_false,
      Option.mem_def, exists_eq_or_imp, exists_eq_left, Option.some.injEq, exists_eq_left'] at h ⊢ <;>
      grind

theorem memberNames_formName (op : Op Json) : memberNames op.kind.formName = some (op.entries.map Prod.fst) := by
  cases op <;> rfl

variable {α β : Type}

theorem bind_of_some {γ δ : Type} {x : Option γ} {g : γ → Option δ} {a : γ} {b : Option δ} (hx : x = some a)
    (hg : g a = b) : x.bind g = b := by
  rw [hx, Option.bind_some, hg]

theorem ofMembers_entries {encode : α → Json} {operand : Json → Option β} {f : α → β} {op : Op α}
    (hop : ∀ x ∈ op.operands, encode x ≠ .null ∧ operand (encode x) = some (f x))
    (hliteral : ∀ v, op = .literal v → Value.ofInnerJson? v.toJson = some v) :
    ofMembers? operand op.kind.formName ((op.map encode).entries.map Prod.snd) = some (op.map f) := by
  have hone : ∀ x ∈ op.operands, operand (encode x) = some (f x) := fun x hx => (hop x hx).2
  have hlist : ∀ xs : List α, (∀ x ∈ xs, x ∈ op.operands) → (xs.map encode).mapM operand = some (xs.map f) :=
    fun xs hxs => mapM_map_eq_some fun x hx => hone x (hxs x hx)
  have hoption : ∀ o : Option α, (∀ x ∈ o, x ∈ op.operands) →
      Json.optional? operand (o.map encode) = some (o.map f) :=
    fun o ho => Json.optional_map fun x hx => hop x (ho x hx)
  -- the chain of each form is that of its decoder, one look-up a member
  cases op with
  | literal value =>
    change (Value.ofInnerJson? value.toJson).map Op.literal = _
    rw [hliteral value rfl]
    rfl
  | column name table => exact bind_of_some (Json.optional_str table) rfl
  | scalarParameter name => rfl
  | tableScan name schema => exact bind_of_some schema.ofInnerJson_toJson rfl
  | setOp kind left right distinct =>
    exact bind_of_some kind.ofName_name (bind_of_some (hone left (by simp [operands]))
      (bind_of_some (hone right (by simp [operands])) rfl))
  | binary op left right =>
    exact bind_of_some op.ofName_name (bind_of_some (hone left (by simp [operands]))
      (bind_of_some (hone right (by simp [operands])) rfl))
  | call func args =>
    exact bind_of_some (func.decode_toJson true) (bind_of_some (hlist args (by simp +contextual [operands])) rfl)
  | cast arg =>
    change (operand (encode arg)).map Op.cast = _
    rw [hone arg (by simp [operands])]
    rfl
  | ifElse cond yes no =>
    exact bind_of_some (hone cond (by simp [operands])) (bind_of_some (hone yes (by simp [operands]))
      (bind_of_some (hone no (by simp [operands])) rfl))
  | reduction func args filter =>
    exact bind_of_some func.ofName_name (bind_of_some (hlist args (by simp +contextual [operands]))
      (bind_of_some (hoption filter (by simp +contextual [operands])) rfl))
  | covariance left right how filter =>
    exact bind_of_some (hone left (by simp [operands])) (bind_of_some (hone right (by simp [operands]))
      (bind_of_some rfl (bind_of_some (hoption filter (by simp +contextual [operands])) rfl)))
  | arbitrary arg how filter =>
    exact bind_of_some (hone arg (by simp [operands])) (bind_of_some (Json.optional_str how)
      (bind_of_some (hoption filter (by simp +contextual [operands])) rfl))
  | truncate kind arg unit =>
    exact bind_of_some kind.ofName_name (bind_of_some (hone arg (by simp [operands]))
      (bind_of_some unit.ofCode?_code rfl))
  | intervalArithmetic op arg offset =>
    exact bind_of_some op.ofName_name (bind_of_some (hone arg (by simp [operands]))
      (bind_of_some (hone offset (by simp [operands])) rfl))
  | timestampFromUnix arg unit =>
    exact bind_of_some (hone arg (by simp [operands])) (bind_of_some unit.ofCode?_code rfl)
  | stringFind arg substr start stop =>
    exact bind_of_some (hone arg (by simp [operands])) (bind_of_some (hone substr (by simp [operands]))
      (bind_of_some (hoption start (by simp +contextual [operands]))
        (bind_of_some (hoption stop (by simp +contextual [operands])) rfl)))
  | hash arg how => exact bind_of_some (hone arg (by simp [operands])) rfl
  | hashBytes arg how => exact bind_of_some (hone arg (by simp [operands])) rfl
  | strftime arg format =>
    exact bind_of_some (hone arg (by simp [operands])) (bind_of_some (hone format (by simp [operands])) rfl)
  | stringToTimestamp arg format timezone =>
    exact bind_of_some (hone arg (by simp [operands])) (bind_of_some (hone format (by simp [operands]))
      (bind_of_some (hoption timezone (by simp +contextual [operands])) rfl))
  | structField arg field => exact bind_of_some (hone arg (by simp [operands])) rfl

end Op

namespace Expr

def entries (op : Op Json) (dtype : DataType) (label : Option String) : List (String × Option Json) :=
  ("type", some (.str op.kind.formName)) ::
    (op.entries ++ [("dtype", some dtype.toJson), ("alias", label.map .str)])

section Entries

variable (op : Op Json) (dtype : DataType) (label : Option String)

theorem type_mem_entries : ("type", some (.str op.kind.formName)) ∈ entries op dtype label := by
  simp [entries]

theorem dtype_mem_entries : ("dtype", some dtype.toJson) ∈ entries op dtype label := by
  simp [entries]

theorem label_mem_entries : ("alias", label.map .str) ∈ entries op dtype label := by
  simp [entries]

theorem nodup_names : ((entries op dtype label).map Prod.fst).Nodup := by
  cases op <;> simp [entries, Op.entries]

variable {op dtype label}

theorem mem_entries_of_op {m : String × Option Json} (h : m ∈ op.entries) : m ∈ entries op dtype label := by
  simp [entries, h]

theorem member_entries {m : String × Option Json} (h : m ∈ entries op dtype label) :
    Json.member? (Json.present (entries op dtype label)) m.1 = some m.2 :=
  Json.member_present (nodup_names op dtype label) h

end Entries

theorem toJson_eq (e : Expr) : e.toJson = .obj (Json.present (entries (e.op.map toJson) e.dtype e.label)) := by
  obtain ⟨op, dtype, label⟩ := e
  rw [toJson, fold_mk, Op.members_eq, Op.optionalMember_eq, ← toJson]
  simp [entries, Json.present]

theorem toJson_ne_null (e : Expr) : e.toJson ≠ .null := by
  rw [toJson_eq]
  simp

theorem decode_node {inner : Bool} {n : Nat} {e : Expr}
    (hreadable : inner = true ∨ e.toJson.Steady)
    (hoperands : ∀ x ∈ e.operands, decode true n x.toJson = some x)
    (hliteral : ∀ v, e.op = .literal v → Value.ofInnerJson? v.toJson = some v) :
    decode inner (n + 1) e.toJson = some e := by
  obtain ⟨op, dtype, label⟩ := e
  have hguard : (inner || isReadableNode (Json.present (entries (op.map toJson) dtype label))) = true := by
    rcases hreadable with rfl | hsteady
    · rfl
    · rw [toJson_eq, Json.steady_obj] at hsteady
      simp only [isReadableNode, Bool.or_eq_true, List.all_eq_true]
      exact .inr fun m hm => .inr (hsteady m hm).isReadable
  have hform := member_entries (type_mem_entries (op.map toJson) dtype label)
  have hdtype := member_entries (dtype_mem_entries (op.map toJson) dtype label)
  have hlabel := member_entries (label_mem_entries (op.map toJson) dtype label)
  have hmembers : ((op.map toJson).entries.map Prod.fst).mapM
      (Json.member? (Json.present (entries (op.map toJson) dtype label))) =
        some ((op.map toJson).entries.map Prod.snd) :=
    mapM_map_eq_some fun m hm => member_entries (mem_entries_of_op hm)
  have hop : Op.ofMembers? (decode true n) op.kind.formName ((op.map toJson).entries.map Prod.snd) =
      some (op.map id) :=
    Op.ofMembers_entries (fun x hx => ⟨x.toJson_ne_null, hoperands x hx⟩) hliteral
  have hnames : Op.memberNames op.kind.formName = some ((op.map toJson).entries.map Prod.fst) := by
    rw [← Op.memberNames_formName, Op.kind_map]
  have hdecoded : (if inner then DataType.ofInnerJson? else DataType.ofJson?) dtype.toJson = some dtype := by
    cases inner
    · exact dtype.ofJson_toJson
    · exact dtype.ofInnerJson_toJson
  rw [toJson_eq]
  simp only [decode, guard, if_pos hguard, hform, hdtype, hlabel, Option.bind_eq_bind, Option.bind_some, formName?,
    Op.kind_map, hnames, hmembers, hop, Op.map_id, hdecoded, Json.optional_str]
  rfl

theorem depth_operand_lt {e x : Expr} (h : x ∈ e.operands) : x.toJson.depth < e.toJson.depth := by
  have hmap : x.toJson ∈ (e.op.map toJson).operands := by
    rw [Op.operands_map]
    exact List.mem_map_of_mem h
  obtain ⟨m, hm, j, hj, hdepth⟩ := Op.depth_operand_le hmap
  have hmembers : ∀ m ∈ entries (e.op.map toJson) e.dtype e.label, ∀ j ∈ m.2, j.depth < e.toJson.depth := by
    rw [toJson_eq, ← Json.forall_mem_present]
    exact fun m hm => Nat.lt_succ_of_le (Json.depth_le_depthMembers hm)
  exact lt_of_le_of_lt hdepth (hmembers m (mem_entries_of_op hm) j hj)

def constants (e : Expr) : List Value :=
  e.nodes.flatMap fun x => (x.literalValue?.map Value.parts).getD []

theorem constants_eq (e : Expr) :
    e.constants = (e.literalValue?.map Value.parts).getD [] ++ e.operands.flatMap constants := by
  rw [constants, nodes_eq, List.flatMap_cons, List.flatMap_assoc]
  rfl

theorem parts_subset_constants {e : Expr} {v : Value} (h : e.op = .literal v) : v.parts ⊆ e.constants := by
  rw [constants_eq, literalValue?, h]
  exact List.subset_append_left _ _

theorem constants_operand {e x : Expr} (h : x ∈ e.operands) : x.constants ⊆ e.constants := by
  intro v hv
  rw [constants_eq e]
  exact List.mem_append_right _ (List.mem_flatMap_of_mem h hv)

theorem steady_toJson (e : Expr) (h : ∀ x, .float x ∈ e.constants → (Json.float x).Steady) : e.toJson.Steady := by
  induction e using Expr.induction_on with
  | step e ih =>
    have hop : ∀ j ∈ (e.op.map toJson).operands, j.Steady := by
      rw [Op.operands_map, List.forall_mem_map]
      exact fun x hx => ih x hx fun c hc => h c (constants_operand hx hc)
    have hliteral : ∀ v, e.op.map toJson = .literal v → v.toJson.Steady := by
      intro v hv
      have hv : e.op = .literal v := by
        cases hkind : e.op with
        | literal w =>
          rw [hkind] at hv
          obtain rfl : w = v := Op.literal.inj hv
          rfl
        | _ =>
          rw [hkind] at hv
          cases hv
      exact v.steady_toJson fun c hc => h c (parts_subset_constants hv hc)
    have hlabel : ∀ j ∈ e.label.map Json.str, j.Steady := by
      simp [Json.steady_str]
    rw [toJson_eq, Json.steady_obj, Json.forall_mem_present, entries, List.forall_mem_cons, List.forall_mem_append]
    refine ⟨?_, Op.steady_entries hop hliteral, ?_⟩
    · simp [Json.steady_str]
    · simpa [e.dtype.steady_toJson] using hlabel

theorem decode_toJson (inner : Bool) (e : Expr) (hreadable : inner = true ∨ e.toJson.Steady)
    (h : ∀ members, .struct members ∈ e.constants → (members.map Prod.fst).Nodup) :
    ∀ {n : Nat}, e.toJson.depth < n → decode inner n e.toJson = some e := by
  induction e using Expr.induction_on generalizing inner with
  | step e ih =>
    intro n hn
    obtain ⟨n, rfl⟩ : ∃ m, n = m + 1 := ⟨n - 1, by omega⟩
    refine decode_node hreadable (fun x hx => ?_) fun v hv => ?_
    · have hdepth := depth_operand_lt hx
      exact ih x hx true (.inl rfl) (fun ms hms => h ms (constants_operand hx hms)) (by omega)
    · exact Value.ofInnerJson_toJson fun ms hms => h ms (parts_subset_constants hv hms)

/-- An expression is decoded from the text that identifies it, if its doubles are finite and read back and the keys of
its structs are distinct. -/
theorem ofJson_identity (e : Expr) (hnesting : e.toJson.depth ≤ Json.nestingLimit)
    (hfinite : ∀ x, .float x ∈ e.constants → x.isFinite = true)
    (hdoubles : ∀ x, .float x ∈ e.constants → Json.read? (x.text Json.doubleStyle) = some (.float x))
    (hkeys : ∀ members, .struct members ∈ e.constants → (members.map Prod.fst).Nodup) :
    (Json.document? e.identity).bind ofJson? = some e := by
  have hsteady : e.toJson.Steady :=
    steady_toJson e fun x hx => Json.steady_float (hfinite x hx) (hdoubles x hx)
  have hread : Json.document? e.identity = some e.toJson := by
    rw [Json.document?, identity, Json.read_text, hsteady, Option.map_some, Json.clipped_of_depth_le _ hnesting]
  rw [hread, Option.bind_some]
  exact decode_toJson false e (.inr hsteady) hkeys (Nat.lt_succ_self _)

theorem read_double {x : Binary64} (hfinite : x.isFinite = true) {p : Json.NumberParts}
    (hparts : Json.readParts (Json.floatChars x) = some (p, [])) (hpointed : p.IsPointed)
    (hvalue : Json.doubleOf p.negative p.whole p.fraction (p.power.getD 0) = x) :
    Json.read? (x.text Json.doubleStyle) = some (.float x) := by
  have hnumber : p.toJson = .float x := by
    rw [Json.NumberParts.toJson, Json.numberOf, if_neg, hvalue, if_pos hfinite]
    rcases hpointed with h | h <;> simp [h]
  rw [Json.read_float hfinite, Json.reread, if_pos hfinite, Json.rereadNumber, hparts, Option.map_some,
    Option.getD_some, hnumber]

def minusTenth : Binary64 :=
  .finite true ⟨4591870180066957722, by decide⟩

def ancientInstant : DateTime :=
  ⟨⟨-44, 3, 15, by decide⟩, ⟨23, by decide⟩, ⟨59, by decide⟩, ⟨60, by decide⟩, ⟨500000000, by decide⟩⟩

def markedReading : Expr where
  op := .arbitrary
    ⟨.literal (.struct [("taken", .instant ancientInstant), ("celsius", .float minusTenth)]),
      .struct [⟨"taken", .utcTimestamp, false⟩, ⟨"celsius", .float64, true⟩], none⟩
    (some "first") (some ⟨.column "valid" none, .bool, none⟩)
  dtype := .struct [⟨"taken", .utcTimestamp, false⟩, ⟨"celsius", .float64, true⟩]
  label := some "reading"

theorem constants_markedReading : markedReading.constants =
    [.struct [("taken", .instant ancientInstant), ("celsius", .float minusTenth)], .instant ancientInstant,
     .float minusTenth] :=
  rfl

theorem read_minusTenth : Json.read? (minusTenth.text Json.doubleStyle) = some (.float minusTenth) := by
  have hchars : Json.floatChars minusTenth = ['-', '0', '.', '1'] := by decide +kernel
  refine read_double (p := ⟨true, ['0'], ['1'], none⟩) rfl ?_ (.inl (by simp)) (by decide +kernel)
  rw [hchars]
  rfl

theorem markedReading_returns :
    markedReading.toJson.depth ≤ Json.nestingLimit ∧
      .float minusTenth ∈ markedReading.constants ∧
      Json.read? (minusTenth.text Json.doubleStyle) = some (.float minusTenth) ∧
      (Json.document? markedReading.identity).bind ofJson? = some markedReading := by
  have hdoubles : ∀ x, .float x ∈ markedReading.constants → x = minusTenth := by
    simp [constants_markedReading]
  refine ⟨by decide, by simp [constants_markedReading], read_minusTenth,
    ofJson_identity markedReading (by decide) ?_ ?_ ?_⟩
  · intro x hx
    rw [hdoubles x hx]
    rfl
  · intro x hx
    rw [hdoubles x hx]
    exact read_minusTenth
  · simp [constants_markedReading]

end Expr

end BigQuerySql
