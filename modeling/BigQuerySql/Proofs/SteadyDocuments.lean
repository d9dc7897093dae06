import BigQuerySql.DataType.Codec
import BigQuerySql.Proofs.CalendarText
import BigQuerySql.Proofs.JsonText
import BigQuerySql.Proofs.LiteralTokens
import BigQuerySql.Proofs.Names
import BigQuerySql.Value.Codec

namespace BigQuerySql

namespace Json

theorem depth_le_depthItems {j : Json} {items : List Json} (h : j ∈ items) : j.depth ≤ depthItems items := by
  induction items with
  | nil => simp at h
  | cons k rest ih =>
    simp only [depthItems]
    rcases List.mem_cons.mp h with rfl | h
    · omega
    · have := ih h
      omega

theorem depth_le_depthMembers {m : String × Json} {members : List (String × Json)} (h : m ∈ members) :
    m.2.depth ≤ depthMembers members := by
  induction members with
  | nil => simp at h
  | cons k rest ih =>
    obtain ⟨name, j⟩ := k
    simp only [depthMembers]
    rcases List.mem_cons.mp h with rfl | h
    · exact Nat.le_max_left ..
    · have := ih h
      omega

theorem clippedItems_eq (limit : Nat) (items : List Json) :
    clippedItems limit items = items.map fun j => j.clipped limit := by
  induction items with
  | nil => rfl
  | cons j rest ih => rw [clippedItems, ih, List.map_cons]

theorem clippedMembers_eq (limit : Nat) (members : List (String × Json)) :
    clippedMembers limit members = members.map fun m => (m.1, m.2.clipped limit) := by
  induction members with
  | nil => rfl
  | cons m rest ih =>
    obtain ⟨name, j⟩ := m
    rw [clippedMembers, ih, List.map_cons]

theorem clipped_of_depth_le (j : Json) : ∀ {limit : Nat}, j.depth ≤ limit → j.clipped limit = j := by
  induction j using Json.induction_on with
  | atom j hj =>
    intro limit _
    cases j <;> first | rfl | simp [isComposite] at hj
  | arr items ih =>
    intro limit h
    rw [depth] at h
    obtain ⟨limit, rfl⟩ : ∃ n, limit = n + 1 := ⟨limit - 1, by omega⟩
    have hitems : ∀ j ∈ items, j.clipped limit = j := fun j hj => ih j hj (by
      have := depth_le_depthItems hj
      omega)
    rw [clipped, clippedItems_eq, List.map_congr_left hitems, List.map_id']
  | obj members ih =>
    intro limit h
    rw [depth] at h
    obtain ⟨limit, rfl⟩ : ∃ n, limit = n + 1 := ⟨limit - 1, by omega⟩
    have hmembers : ∀ m ∈ members, (m.1, m.2.clipped limit) = m := fun m hm => by
      have hdepth := depth_le_depthMembers hm
      rw [ih m hm (by omega)]
    rw [clipped, clippedMembers_eq, List.map_congr_left hmembers, List.map_id']

def Steady (j : Json) : Prop :=
  j.reread = j

theorem steady_arr {items : List Json} : (Json.arr items).Steady ↔ ∀ j ∈ items, j.Steady := by
  rw [Steady, reread, rereadItems_eq, arr.injEq]
  conv_lhs => rw [← List.map_id items, List.map_map, List.map_inj_left]
  rfl

theorem steady_obj {members : List (String × Json)} :
    (Json.obj members).Steady ↔ ∀ m ∈ members, m.2.Steady := by
  rw [Steady, reread, rereadMembers_eq, obj.injEq]
  conv_lhs => rw [← List.map_id members, List.map_map, List.map_inj_left]
  simp [Steady, Prod.ext_iff]

theorem steady_str (s : String) : (Json.str s).Steady := rfl

theorem steady_bool (b : Bool) : (Json.bool b).Steady := rfl

theorem steady_int {i : Int} (hlow : -2 ^ 63 ≤ i) (hhigh : i < 2 ^ 64) : (Json.int i).Steady := by
  rw [Steady, reread, ← chars_intParts, rereadNumber_chars (intParts_wellFormed i), toJson_intParts hlow hhigh]

theorem steady_byte (b : UInt8) : (Json.int b.toNat).Steady :=
  steady_int (by omega) (by have := b.toNat_lt; omega)

theorem steady_int64 (i : Int64) : (Json.int i.toInt).Steady :=
  steady_int i.le_toInt (by have := i.toInt_lt; omega)

theorem read_float {x : Binary64} (h : x.isFinite = true) :
    read? (x.text doubleStyle) = some (Json.float x).reread := by
  have htext : (Json.float x).text = x.text doubleStyle := by
    rw [text, chars, floatChars, if_pos h, String.ofList_toList]
  rw [← htext, read_text]

theorem steady_float {x : Binary64} (hfinite : x.isFinite = true)
    (hread : read? (x.text doubleStyle) = some (.float x)) : (Json.float x).Steady := by
  rw [read_float hfinite] at hread
  exact Option.some.inj hread

theorem areItemsReadable_eq (items : List Json) : areItemsReadable items = items.all isReadable := by
  induction items with
  | nil => rfl
  | cons j rest ih => rw [areItemsReadable, ih, List.all_cons]

theorem areMembersReadable_eq (members : List (String × Json)) :
    areMembersReadable members = members.all fun m => m.2.isReadable := by
  induction members with
  | nil => rfl
  | cons m rest ih =>
    obtain ⟨name, j⟩ := m
    rw [areMembersReadable, ih, List.all_cons]

theorem Steady.isReadable {j : Json} (h : j.Steady) : j.isReadable = true := by
  induction j using Json.induction_on with
  | atom j hj =>
    cases j with
    | unreadable => simp [Steady, reread] at h
    | arr items => simp [isComposite] at hj
    | obj members => simp [isComposite] at hj
    | _ => rfl
  | arr items ih =>
    rw [Json.isReadable, areItemsReadable_eq, List.all_eq_true]
    exact fun j hj => ih j hj (steady_arr.mp h j hj)
  | obj members ih =>
    rw [Json.isReadable, areMembersReadable_eq, List.all_eq_true]
    exact fun m hm => ih m hm (steady_obj.mp h m hm)

theorem byte_toNat (b : UInt8) : (Json.int b.toNat).byte? = some b := by
  have := b.toNat_lt
  simp [byte?, int?]
  omega

theorem int64_toInt (i : Int64) : (Json.int i.toInt).int64? = some i := by
  simp [int64?, int?]
  exact ⟨i.le_toInt, i.toInt_lt⟩

end Json

namespace DataType

theorem fieldsToJson_eq (fields : List FieldType) : fieldsToJson fields = fields.map FieldType.toJson := by
  induction fields with
  | nil => rfl
  | cons f rest ih =>
    obtain ⟨name, dtype, nullable⟩ := f
    rw [fieldsToJson, ih, List.map_cons]
    rfl

theorem steady_field {f : FieldType} (h : f.dtype.toJson.Steady) : f.toJson.Steady := by
  rw [FieldType.toJson, Json.steady_obj]
  simp [h, Json.steady_str, Json.steady_bool]

theorem steady_fields {fields : List FieldType} (h : ∀ f ∈ fields, f.dtype.toJson.Steady) :
    (Json.arr (fieldsToJson fields)).Steady := by
  rw [fieldsToJson_eq, Json.steady_arr]
  intro j hj
  obtain ⟨f, hf, rfl⟩ := List.mem_map.mp hj
  exact steady_field (h f hf)

theorem steady_toJson (t : DataType) : t.toJson.Steady := by
  induction t using DataType.induction_on with
  | plain t ht =>
    cases t with
    | decimal precision scale => simp [toJson, Json.steady_obj, Json.steady_byte]
    | timestamp zone => cases zone <;> rfl
    | array element => simp [isComposite] at ht
    | struct fields => simp [isComposite] at ht
    | _ => rfl
  | array element ih => simpa [toJson, Json.steady_obj] using ih
  | struct fields ih => simpa [toJson, Json.steady_obj] using steady_fields ih

theorem fieldOf_toJson {decode : Json → Option DataType} {f : FieldType} (h : decode f.dtype.toJson = some f.dtype) :
    fieldOf? decode f.toJson = some f := by
  simp [fieldOf?, FieldType.toJson, Json.record?, Json.member?, Json.str?, Json.bool?, h]

theorem mapM_fieldOf {decode : Json → Option DataType} {fields : List FieldType}
    (h : ∀ f ∈ fields, decode f.dtype.toJson = some f.dtype) :
    (fieldsToJson fields).mapM (fieldOf? decode) = some fields := by
  rw [fieldsToJson_eq, mapM_map_eq_some (f := id), List.map_id]
  exact fun f hf => fieldOf_toJson (h f hf)

theorem depth_field_lt {f : FieldType} {fields : List FieldType} (h : f ∈ fields) :
    f.dtype.toJson.depth < (Json.arr (fieldsToJson fields)).depth := by
  have hfield : f.toJson.depth ≤ Json.depthItems (fieldsToJson fields) := by
    rw [fieldsToJson_eq]
    exact Json.depth_le_depthItems (List.mem_map_of_mem h)
  simp only [FieldType.toJson, Json.depth, Json.depthMembers] at hfield ⊢
  omega

theorem decode_toJson (inner : Bool) (t : DataType) :
    ∀ {n : Nat}, t.toJson.depth < n → decode inner n t.toJson = some t := by
  induction t using DataType.induction_on with
  | plain t ht =>
    intro n hn
    obtain ⟨n, rfl⟩ : ∃ m, n = m + 1 := ⟨n - 1, by omega⟩
    cases t with
    | decimal precision scale =>
      simp [toJson, decode, Json.choice?, Json.record?, Json.member?, Json.byte_toNat]
    | timestamp zone =>
      cases zone <;> simp [toJson, decode, Json.choice?, Json.record?, Json.member?, Json.ofOption, Json.optional?,
        Json.nullable?, Json.str?]
    | interval unit =>
      simp [toJson, decode, Json.choice?, Json.record?, Json.member?, Json.named?, Json.plainChoice?,
        IntervalUnit.ofCode?_code]
    | array element => simp [isComposite] at ht
    | struct fields => simp [isComposite] at ht
    | _ => rfl
  | array element ih =>
    intro n hn
    obtain ⟨n, rfl⟩ : ∃ m, n = m + 1 := ⟨n - 1, by omega⟩
    have helement : decode inner n element.toJson = some element := ih (by
      simp only [toJson, Json.depth, Json.depthMembers] at hn
      omega)
    simp [toJson, decode, Json.choice?, helement]
  | struct fields ih =>
    intro n hn
    obtain ⟨n, rfl⟩ : ∃ m, n = m + 1 := ⟨n - 1, by omega⟩
    have hfields : (fieldsToJson fields).mapM (fieldOf? (decode inner n)) = some fields := by
      refine mapM_fieldOf fun f hf => ih f hf ?_
      have hdepth := depth_field_lt hf
      simp only [toJson, Json.depth, Json.depthMembers] at hn hdepth
      omega
    simp [toJson, decode, Json.choice?, hfields]

theorem ofJson_toJson (t : DataType) : ofJson? t.toJson = some t :=
  decode_toJson false t (Nat.lt_succ_self _)

theorem toJson_inj {t u : DataType} (h : t.toJson = u.toJson) : t = u := by
  have hdecode := t.ofJson_toJson
  rw [h, u.ofJson_toJson] at hdecode
  exact (Option.some.inj hdecode).symm

theorem ofInnerJson_toJson (t : DataType) : ofInnerJson? t.toJson = some t :=
  decode_toJson true t (Nat.lt_succ_self _)

end DataType

namespace Schema

theorem steady_toJson (schema : Schema) : schema.toJson.Steady := by
  simpa [toJson, Json.steady_obj] using DataType.steady_fields fun f _ => f.dtype.steady_toJson

theorem ofInnerJson_toJson (schema : Schema) : ofInnerJson? schema.toJson = some schema := by
  have hfields : (DataType.fieldsToJson schema.fields).mapM (DataType.fieldOf? DataType.ofInnerJson?) =
      some schema.fields :=
    DataType.mapM_fieldOf fun f _ => f.dtype.ofInnerJson_toJson
  simp [ofInnerJson?, decode, toJson, Json.record?, Json.member?, hfields]

end Schema

namespace Json

theorem putEntry_of_notMem {α : Type} {key : String} (value : α) {entries : List (String × α)}
    (h : key ∉ entries.map Prod.fst) : putEntry key value entries = entries ++ [(key, value)] := by
  induction entries with
  | nil => rfl
  | cons e rest ih =>
    obtain ⟨k, v⟩ := e
    simp only [List.map_cons, List.mem_cons, not_or] at h
    rw [putEntry, if_neg (Ne.symm h.1), ih h.2, List.cons_append]

theorem foldl_putEntry {α : Type} (done entries : List (String × α)) (h : ((done ++ entries).map Prod.fst).Nodup) :
    entries.foldl (fun done e => putEntry e.1 e.2 done) done = done ++ entries := by
  induction entries generalizing done with
  | nil => simp
  | cons e rest ih =>
    have hnew : e.1 ∉ done.map Prod.fst := by
      rw [List.map_append, List.map_cons, List.nodup_append] at h
      intro hmem
      exact h.2.2 e.1 hmem e.1 (by simp) rfl
    rw [List.foldl_cons, putEntry_of_notMem e.2 hnew, ih _ (by simpa using h), List.append_assoc]
    rfl

theorem orderedEntries_of_nodup {α : Type} {entries : List (String × α)} (h : (entries.map Prod.fst).Nodup) :
    orderedEntries entries = entries :=
  foldl_putEntry [] entries h

end Json

namespace Value

mutual

def parts : Value → List Value
  | .array items => .array items :: itemParts items
  | .struct members => .struct members :: memberParts members
  | v => [v]

def itemParts : List Value → List Value
  | [] => []
  | v :: rest => v.parts ++ itemParts rest

def memberParts : List (String × Value) → List Value
  | [] => []
  | (_, v) :: rest => v.parts ++ memberParts rest

end

theorem itemParts_eq (items : List Value) : itemParts items = items.flatMap parts := by
  induction items with
  | nil => rfl
  | cons v rest ih => rw [itemParts, ih, List.flatMap_cons]

theorem memberParts_eq (members : List (String × Value)) :
    memberParts members = members.flatMap fun m => m.2.parts := by
  induction members with
  | nil => rfl
  | cons m rest ih =>
    obtain ⟨name, v⟩ := m
    rw [memberParts, ih, List.flatMap_cons]

theorem parts_item {v : Value} {items : List Value} (h : v ∈ items) : v.parts ⊆ (Value.array items).parts := by
  intro w hw
  rw [parts, itemParts_eq]
  exact List.mem_cons_of_mem _ (List.mem_flatMap_of_mem h hw)

theorem parts_member {m : String × Value} {members : List (String × Value)} (h : m ∈ members) :
    m.2.parts ⊆ (Value.struct members).parts := by
  intro w hw
  rw [parts, memberParts_eq]
  exact List.mem_cons_of_mem _ (List.mem_flatMap_of_mem h hw)

theorem itemsToJson_eq (items : List Value) : itemsToJson items = items.map toJson := by
  induction items with
  | nil => rfl
  | cons v rest ih => rw [itemsToJson, ih, List.map_cons]

theorem membersToJson_eq (members : List (String × Value)) :
    membersToJson members = members.map fun m => (m.1, m.2.toJson) := by
  induction members with
  | nil => rfl
  | cons m rest ih =>
    obtain ⟨name, v⟩ := m
    rw [membersToJson, ih, List.map_cons]

theorem steady_toJson (v : Value) (h : ∀ x, .float x ∈ v.parts → (Json.float x).Steady) : v.toJson.Steady := by
  induction v using Value.induction_on with
  | plain v hv =>
    cases v with
    | int i => simp [toJson, Json.steady_obj, Json.steady_int64]
    | float x => simpa [toJson, Json.steady_obj] using h x (by simp [parts])
    | bytes bs => simp [toJson, Json.steady_obj, Json.steady_arr, Json.steady_byte]
    | interval count => simp [toJson, Json.steady_obj, Json.steady_int64]
    | array items => simp [isComposite] at hv
    | struct members => simp [isComposite] at hv
    | _ => rfl
  | array items ih =>
    have hitems : ∀ v ∈ items, v.toJson.Steady := fun v hv =>
      ih v hv fun x hx => h x (parts_item hv hx)
    simpa [toJson, Json.steady_obj, itemsToJson_eq, Json.steady_arr] using hitems
  | struct members ih =>
    have hmembers : ∀ m ∈ members, m.2.toJson.Steady := fun m hm =>
      ih m hm fun x hx => h x (parts_member hm hx)
    rw [toJson, membersToJson_eq, Json.steady_obj, List.forall_mem_singleton, Json.steady_obj, List.forall_mem_map]
    exact hmembers

theorem decode_toJson_plain (inner : Bool) {v : Value} (hv : v.isComposite = false) (n : Nat) :
    decode inner (n + 1) v.toJson = some v := by
  cases v with
  | int i => simp [toJson, decode, Json.choice?, Json.int64_toInt]
  | bytes bs =>
    have hbytes : (bs.map fun b => Json.int b.toNat).mapM Json.byte? = some bs := by
      rw [mapM_map_eq_some (f := id) fun b _ => Json.byte_toNat b, List.map_id]
    simp [toJson, decode, Json.choice?, hbytes]
  | date d => simp [toJson, decode, Json.choice?, Json.str?, d.read_text]
  | time t => simp [toJson, decode, Json.choice?, Json.str?, t.read_text]
  | timestamp t => simp [toJson, decode, Json.choice?, Json.str?, t.read_text]
  | instant t => simp [toJson, decode, Json.choice?, Json.str?, t.readZoned_text]
  | interval count => simp [toJson, decode, Json.choice?, Json.int64_toInt]
  | array items => simp [isComposite] at hv
  | struct members => simp [isComposite] at hv
  | _ => rfl

theorem decode_toJson (inner : Bool) (v : Value)
    (h : ∀ members, .struct members ∈ v.parts → (members.map Prod.fst).Nodup) :
    ∀ {n : Nat}, v.toJson.depth < n → decode inner n v.toJson = some v := by
  induction v using Value.induction_on with
  | plain v hv =>
    intro n hn
    obtain ⟨n, rfl⟩ : ∃ m, n = m + 1 := ⟨n - 1, by omega⟩
    exact decode_toJson_plain inner hv n
  | array items ih =>
    intro n hn
    obtain ⟨n, rfl⟩ : ∃ m, n = m + 1 := ⟨n - 1, by omega⟩
    have hitems : (itemsToJson items).mapM (decode inner n) = some items := by
      rw [itemsToJson_eq, mapM_map_eq_some (f := id), List.map_id]
      intro v hv
      refine ih v hv (fun ms hms => h ms (parts_item hv hms)) ?_
      have hdepth := Json.depth_le_depthItems (List.mem_map_of_mem (f := toJson) hv)
      simp only [toJson, itemsToJson_eq, Json.depth, Json.depthMembers] at hn
      omega
    simp [toJson, decode, Json.choice?, hitems]
  | struct members ih =>
    intro n hn
    obtain ⟨n, rfl⟩ : ∃ m, n = m + 1 := ⟨n - 1, by omega⟩
    have hmembers : (membersToJson members).mapM (fun m => (decode inner n m.2).map (m.1, ·)) = some members := by
      rw [membersToJson_eq, mapM_map_eq_some (f := id), List.map_id]
      intro m hm
      have hdepth : m.2.toJson.depth ≤ _ :=
        Json.depth_le_depthMembers (List.mem_map_of_mem (f := fun m => (m.1, toJson m.2)) hm)
      have hread : decode inner n m.2.toJson = some m.2 := by
        refine ih m hm (fun ms hms => h ms (parts_member hm hms)) ?_
        simp only [toJson, membersToJson_eq, Json.depth, Json.depthMembers] at hn
        omega
      simp only [hread, Option.map_some, id]
    have hkeys := Json.orderedEntries_of_nodup (h members (by simp [parts]))
    simp [toJson, decode, Json.choice?, hmembers, hkeys]

theorem ofInnerJson_toJson {v : Value} (h : ∀ members, .struct members ∈ v.parts → (members.map Prod.fst).Nodup) :
    ofInnerJson? v.toJson = some v :=
  decode_toJson true v h (Nat.lt_succ_self _)

end Value

end BigQuerySql
