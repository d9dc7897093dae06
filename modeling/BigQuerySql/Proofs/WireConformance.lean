import BigQuerySql.Proofs.Binding

namespace BigQuerySql

namespace Json

theorem lookup_insertMember (name : String) (value : Json) (members : List (String × Json)) (k : String) :
    (insertMember name value members).lookup k = if k = name then some value else members.lookup k := by
  induction members with
  | nil => simp [insertMember, lookup_cons_if]
  | cons m rest ih =>
    obtain ⟨n, v⟩ := m
    simp only [insertMember]
    split
    · rw [lookup_cons_if]
    · split
      next hname =>
        rw [lookup_cons_if, lookup_cons_if, hname]
        by_cases hk : k = n <;> simp [hk]
      next hname =>
        rw [lookup_cons_if, lookup_cons_if, ih]
        by_cases hk : k = name
        · simp [hk, hname]
        · simp [hk]

theorem mem_keys_insertMember {name : String} {value : Json} {members : List (String × Json)} {k : String} :
    k ∈ (insertMember name value members).map Prod.fst ↔ k = name ∨ k ∈ members.map Prod.fst := by
  induction members with
  | nil => simp [insertMember]
  | cons m rest ih =>
    obtain ⟨n, v⟩ := m
    simp only [insertMember]
    split
    · simp
    · split
      next hname => simp [hname]
      next =>
        rw [List.map_cons, List.mem_cons, ih, List.map_cons, List.mem_cons]
        tauto

theorem sortMembers_append (members : List (String × Json)) (m : String × Json) :
    sortMembers (members ++ [m]) = insertMember m.1 m.2 (sortMembers members) := by
  simp [sortMembers, List.foldl_append]

theorem lookup_sortMembers (members : List (String × Json)) (k : String) :
    (sortMembers members).lookup k = members.reverse.lookup k := by
  induction members using List.reverseRecOn with
  | nil => rfl
  | append_singleton members m ih =>
    rw [sortMembers_append, lookup_insertMember, ih, List.reverse_append, List.reverse_singleton, List.singleton_append,
      lookup_cons_if]

theorem mem_keys_sortMembers {members : List (String × Json)} {k : String} :
    k ∈ (sortMembers members).map Prod.fst ↔ k ∈ members.map Prod.fst := by
  induction members using List.reverseRecOn with
  | nil => rfl
  | append_singleton members m ih =>
    rw [sortMembers_append, mem_keys_insertMember, ih, List.map_append, List.mem_append]
    simp [or_comm]

end Json

def wireMember (m : String × Json) : Json :=
  .obj [("name", .str m.1), ("type", m.2)]

/-- Whether a value on the wire conforms to a type: single values are texts or null, the items of an array conform to
its item type, and a struct has just the members that its type lists, each of which conforms to its own type. -/
inductive Conforms : Json → Json → Prop where
  | scalar {typeName : String} {text : Option String} (h : typeName ≠ "ARRAY" ∧ typeName ≠ "STRUCT") :
      Conforms (.obj [("type", .str typeName)]) (.obj [("value", Json.ofOption .str text)])
  | array {item : Json} {items : List Json} (h : ∀ j ∈ items, Conforms item j) :
      Conforms (.obj [("arrayType", item), ("type", .str "ARRAY")]) (.obj [("arrayValues", .arr items)])
  | struct {types members : List (String × Json)}
      (hkeys : ∀ k, k ∈ members.map Prod.fst ↔ k ∈ types.map Prod.fst)
      (h : ∀ m ∈ types, ∀ j, members.lookup m.1 = some j → Conforms m.2 j) :
      Conforms (.obj [("structTypes", .arr (types.map wireMember)), ("type", .str "STRUCT")])
        (.obj [("structValues", .obj members)])

theorem conforms_array {item : Json} {items : List Json} :
    Conforms (.obj [("arrayType", item), ("type", .str "ARRAY")]) (.obj [("arrayValues", .arr items)]) ↔
      ∀ j ∈ items, Conforms item j := by
  refine ⟨fun h => ?_, .array⟩
  generalize ht : Json.obj [("arrayType", item), ("type", .str "ARRAY")] = type at h
  generalize hv : Json.obj [("arrayValues", .arr items)] = value at h
  cases h with
  | scalar => simp at ht
  | array h =>
    obtain rfl : item = _ := by simpa using ht
    obtain rfl : items = _ := by simpa using hv
    exact h
  | struct => simp at ht

theorem conforms_struct {types members : List (String × Json)} :
    Conforms (.obj [("structTypes", .arr (types.map wireMember)), ("type", .str "STRUCT")])
        (.obj [("structValues", .obj members)]) ↔
      (∀ k, k ∈ members.map Prod.fst ↔ k ∈ types.map Prod.fst) ∧
        ∀ m ∈ types, ∀ j, members.lookup m.1 = some j → Conforms m.2 j := by
  refine ⟨fun h => ?_, fun h => .struct h.1 h.2⟩
  have hinj : Function.Injective wireMember := by
    rintro ⟨k, t⟩ ⟨k', t'⟩ h
    simpa [wireMember] using h
  generalize ht : Json.obj [("structTypes", .arr (types.map wireMember)), ("type", .str "STRUCT")] = type at h
  generalize hv : Json.obj [("structValues", .obj members)] = value at h
  cases h with
  | scalar => simp at ht
  | array => simp at ht
  | @struct types' members' hkeys h =>
    obtain rfl : types = types' := hinj.list_map (by simpa using ht)
    obtain rfl : members = members' := by simpa using hv
    exact ⟨hkeys, h⟩

namespace Value

/-- Whether a value has just the members, at every depth, of the type that is taken from another one. An array of
structs gives the type of its first item, an empty one that of a struct without members. -/
inductive Fits : Value → Value → Prop where
  | plain {pattern v : Value} (h : v.isComposite = false) : Fits pattern v
  | array {patterns items : List Value} (h : ∀ x ∈ items, Fits (patterns.headD (.struct [])) x) :
      Fits (.array patterns) (.array items)
  | struct {patterns members : List (String × Value)}
      (hkeys : ∀ k, k ∈ members.map Prod.fst ↔ k ∈ patterns.map Prod.fst)
      (h : ∀ m ∈ patterns, ∀ v, members.reverse.lookup m.1 = some v → Fits m.2 v) :
      Fits (.struct patterns) (.struct members)

theorem fits_array {patterns items : List Value} :
    Fits (.array patterns) (.array items) ↔ ∀ x ∈ items, Fits (patterns.headD (.struct [])) x := by
  refine ⟨fun h => ?_, .array⟩
  cases h with
  | plain h => simp [isComposite] at h
  | array h => exact h

theorem fits_struct {patterns members : List (String × Value)} :
    Fits (.struct patterns) (.struct members) ↔
      (∀ k, k ∈ members.map Prod.fst ↔ k ∈ patterns.map Prod.fst) ∧
        ∀ m ∈ patterns, ∀ v, members.reverse.lookup m.1 = some v → Fits m.2 v := by
  refine ⟨fun h => ?_, fun h => .struct h.1 h.2⟩
  cases h with
  | plain h => simp [isComposite] at h
  | struct hkeys h => exact ⟨hkeys, h⟩

end Value

namespace QueryParameter

theorem wireMemberTypes_eq (members : List QueryParameter) :
    wireMemberTypes members = (members.map fun p => (p.name, p.wireType)).map wireMember := by
  induction members with
  | nil => rfl
  | cons p rest ih => simp [wireMemberTypes, ih, wireMember]

theorem wireMembers_eq (members : List QueryParameter) :
    wireMembers members = members.map fun p => (p.name, p.wireParameter) := by
  induction members with
  | nil => rfl
  | cons p rest ih => simp [wireMembers, ih]

theorem wireItems_eq (name : String) (items : List (String × List QueryParameter)) :
    wireItems items = items.map fun item => (QueryParameter.struct name item.2).wireParameter := by
  induction items with
  | nil => rfl
  | cons item rest ih => simp [wireItems, ih, wireParameter]

theorem wireItemType_eq (name : String) (items : List (String × List QueryParameter)) :
    wireItemType items = (QueryParameter.struct name (items.headD ("", [])).2).wireType := by
  cases items with
  | nil => simp [wireItemType, wireType, wireMemberTypes]
  | cons item rest => simp [wireItemType, wireType]

theorem binds_lookup {fields : List FieldType} {members : List (String × Value)} {bound : List QueryParameter}
    (h : List.Forall₂ (Binds fields) members bound) (k : String) :
    Option.Rel (fun v j => ∃ p, Binds fields (k, v) p ∧ j = p.wireParameter)
      (members.lookup k) ((bound.map fun p => (p.name, p.wireParameter)).lookup k) := by
  induction h with
  | nil => exact .none
  | @cons m p members bound hp _ ih =>
    obtain ⟨n, v⟩ := m
    rw [List.map_cons, binds_name hp, List.lookup_cons, List.lookup_cons]
    cases hk : k == n with
    | true =>
      obtain rfl : k = n := by simpa using hk
      exact .some ⟨p, hp, rfl⟩
    | false => exact ih

theorem conforms_members {fields : List FieldType} {patterns members : List (String × Value)} {a b : String}
    {types bound : List QueryParameter} (ht : List.Forall₂ (Binds fields) patterns types)
    (hb : List.Forall₂ (Binds fields) members bound)
    (ih : ∀ k pattern v p q, (k, v) ∈ members → Binds fields (k, pattern) p → Binds fields (k, v) q →
      (Conforms p.wireType q.wireParameter ↔ Value.Fits pattern v)) :
    Conforms (QueryParameter.struct a types).wireType (QueryParameter.struct b bound).wireParameter ↔
      Value.Fits (.struct patterns) (.struct members) := by
  have hlookup (k : String) := binds_lookup (List.forall₂_reverse_iff.mpr hb) k
  rw [wireType, wireStructType, wireMemberTypes_eq, wireParameter, conforms_struct, Value.fits_struct]
  simp only [Json.mem_keys_sortMembers, Json.lookup_sortMembers, wireMembers_eq, List.map_map, Function.comp_def,
    ← List.map_reverse, binds_keys ht, binds_keys hb]
  refine and_congr_right fun _ => ⟨?_, ?_⟩
  · rintro h ⟨k, pattern⟩ hk v hv
    obtain ⟨p, hp, hbind⟩ := forall₂_mem ht hk
    have hrel := hlookup k
    rw [hv] at hrel
    generalize hj : List.lookup k (bound.reverse.map fun p => (p.name, p.wireParameter)) = j at hrel
    cases hrel with
    | some hq =>
      obtain ⟨q, hq, rfl⟩ := hq
      have hmem : (k, v) ∈ members := List.mem_reverse.mp (mem_of_lookup hv)
      refine (ih k pattern v p q hmem hbind hq).mp (h (k, p.wireType) ?_ q.wireParameter hj)
      exact List.mem_map.mpr ⟨p, hp, by rw [binds_name hbind]⟩
  · rintro h ⟨k, t⟩ hk j hj
    obtain ⟨p, hp, hpair⟩ := List.mem_map.mp hk
    obtain ⟨⟨rfl⟩, rfl⟩ : p.name = k ∧ p.wireType = t := by simpa using hpair
    obtain ⟨⟨k, pattern⟩, hpattern, hbind⟩ := forall₂_mem ht.flip hp
    obtain rfl : p.name = k := binds_name hbind
    have hrel := hlookup p.name
    rw [hj] at hrel
    generalize hv : List.lookup p.name members.reverse = v at hrel
    cases hrel with
    | @some v j hq =>
      obtain ⟨q, hq, rfl⟩ := hq
      have hmem : (p.name, v) ∈ members := List.mem_reverse.mp (mem_of_lookup hv)
      exact (ih p.name pattern v p q hmem hbind hq).mpr (h (p.name, pattern) hpattern v hv)

theorem sqlName_plain {t : DataType} {name : String} (ha : ∀ element, t ≠ .array element)
    (hs : ∀ fields, t ≠ .struct fields) (h : t.sqlName = .ok name) : name ≠ "ARRAY" ∧ name ≠ "STRUCT" := by
  cases t with
  | array element => exact absurd rfl (ha element)
  | struct fields => exact absurd rfl (hs fields)
  | decimal precision scale =>
    constructor <;> rintro rfl <;> rw [DataType.sqlName] at h <;> (repeat' split at h) <;> simp at h
  | timestamp zone => constructor <;> rintro rfl <;> cases zone <;> simp [DataType.sqlName] at h
  | _ => constructor <;> rintro rfl <;> simp [DataType.sqlName] at h

theorem conforms_items {fields : List FieldType} {patterns items : List Value} {a b : String}
    {types bound : List (String × List QueryParameter)} (ht : List.Forall₂ (BindsItem fields) patterns types)
    (hb : List.Forall₂ (BindsItem fields) items bound)
    (ih : ∀ x ∈ items, ∀ {dtype : DataType} {v : Value} {a b : String} {p q : QueryParameter},
      bind a dtype v = .ok p → bind b dtype x = .ok q → (Conforms p.wireType q.wireParameter ↔ v.Fits x)) :
    Conforms (QueryParameter.structs a types).wireType (QueryParameter.structs b bound).wireParameter ↔
      Value.Fits (.array patterns) (.array items) := by
  obtain ⟨first, hfirst, hmembers⟩ : BindsItem fields (patterns.headD (.struct [])) (types.headD ("", [])) := by
    cases ht with
    | nil => exact ⟨[], rfl, .nil⟩
    | cons h _ => exact h
  have hpattern : bind a (.struct fields) (.struct first) = .ok (.struct a (types.headD ("", [])).2) :=
    bind_struct.mpr ⟨fields, _, rfl, hmembers, rfl⟩
  have hitem (x : Value) (item : String × List QueryParameter) (hx : x ∈ items) (h : BindsItem fields x item) :
      Conforms (QueryParameter.struct a (types.headD ("", [])).2).wireType
          (QueryParameter.struct b item.2).wireParameter ↔ Value.Fits (.struct first) x := by
    obtain ⟨members, rfl, hbound⟩ := h
    exact ih _ hx hpattern (bind_struct.mpr ⟨fields, _, rfl, hbound, rfl⟩)
  rw [wireType, wireItemType_eq a, wireParameter, wireItems_eq b, conforms_array, Value.fits_array, hfirst,
    List.forall_mem_map]
  constructor
  · intro h x hx
    obtain ⟨item, hmem, hbound⟩ := forall₂_mem hb hx
    exact (hitem x item hx hbound).mp (h item hmem)
  · intro h item hmem
    obtain ⟨x, hx, hbound⟩ := forall₂_mem hb.flip hmem
    exact (hitem x item hx hbound).mpr (h x hx)

theorem dtype_of_bind_array {name : String} {dtype : DataType} {items : List Value} {p : QueryParameter}
    (h : bind name dtype (.array items) = .ok p) : ∃ element, dtype = .array element := by
  rcases bind_array h with ⟨fields, bound, rfl, -⟩ | ⟨element, typeName, values, rfl, -⟩
  · exact ⟨_, rfl⟩
  · exact ⟨_, rfl⟩

theorem conforms_iff_fits {w : Value} : ∀ {dtype : DataType} {v : Value} {a b : String} {p q : QueryParameter},
    bind a dtype v = .ok p → bind b dtype w = .ok q →
      (Conforms p.wireType q.wireParameter ↔ v.Fits w) := by
  -- The type comes from the first item of an array, so the value that gives it must stay apart from the one sent.
  induction w using Value.induction_on with
  | plain w hw =>
    intro dtype v a b p q hp hq
    rw [bind_plain hw] at hq
    have hv : v.isComposite = false := by
      cases v with
      | struct members =>
        obtain ⟨fields, bound, rfl, -⟩ := bind_struct.mp hp
        exact absurd hq bindScalar_struct
      | array items =>
        obtain ⟨element, rfl⟩ := dtype_of_bind_array hp
        exact absurd hq bindScalar_array
      | _ => rfl
    rw [bind_plain hv] at hp
    obtain ⟨typeName, value, htype, rfl⟩ := bindScalar_ok hp
    obtain ⟨typeName', value', -, rfl⟩ := bindScalar_ok hq
    have hother : typeName ≠ "ARRAY" ∧ typeName ≠ "STRUCT" := by
      constructor <;> rintro rfl <;> simp [scalarTypes] at htype
    exact iff_of_true (.scalar hother) (.plain hw)
  | array items ih =>
    intro dtype v a b p q hp hq
    obtain ⟨element, rfl⟩ := dtype_of_bind_array hq
    obtain ⟨patterns, rfl⟩ : ∃ patterns, v = .array patterns := by
      cases v with
      | array patterns => exact ⟨patterns, rfl⟩
      | struct members =>
        obtain ⟨fields, bound, h, -⟩ := bind_struct.mp hp
        simp at h
      | _ =>
        rw [bind_plain rfl] at hp
        exact absurd hp bindScalar_array
    rcases bind_array hq with ⟨fields, bound, hfields, hbound, rfl⟩ |
      ⟨element', typeName, values, helement, ha, hs, hitems, -, rfl⟩
    · obtain rfl : element = .struct fields := by simpa using hfields
      rcases bind_array hp with ⟨fields', types, hfields', htypes, rfl⟩ | ⟨element', -, -, h, -, hs, -⟩
      · obtain rfl : fields = fields' := by simpa using hfields'
        exact conforms_items (bindStructs_ok htypes) (bindStructs_ok hbound) fun x hx => ih x hx
      · exact absurd (by simpa using h.symm) (hs fields)
    · obtain rfl : element = element' := by simpa using helement
      rcases bind_array hp with ⟨fields, types, h, -⟩ | ⟨element', typeName', values', h, -, -, -, htype, rfl⟩
      · exact absurd (by simpa using h) (hs fields)
      · obtain rfl : element = element' := by simpa using h
        have hplain := bindItems_plain hitems
        refine iff_of_true (.array fun j hj => ?_) (.array fun x hx => .plain (hplain x hx))
        obtain ⟨x, -, rfl⟩ := List.mem_map.mp hj
        exact .scalar (sqlName_plain ha hs htype)
  | struct members ih =>
    intro dtype v a b p q hp hq
    obtain ⟨fields, bound, rfl, hbound, rfl⟩ := bind_struct.mp hq
    cases v with
    | struct patterns =>
      obtain ⟨fields', types, hfields, htypes, rfl⟩ := bind_struct.mp hp
      obtain rfl : fields = fields' := by simpa using hfields
      refine conforms_members htypes hbound fun k pattern v p q hv hp hq => ?_
      obtain ⟨field, hfield, hp⟩ := hp
      obtain ⟨field', hfield', hq⟩ := hq
      obtain rfl : field = field' := by simpa [hfield] using hfield'
      exact ih (k, v) hv hp hq
    | array items =>
      obtain ⟨element, h⟩ := dtype_of_bind_array hp
      simp at h
    | _ =>
      rw [bind_plain rfl] at hp
      exact absurd hp bindScalar_struct

/-- A bound parameter is sent with a value that conforms to its type just if the value fits itself: the items of each
array of structs in it have the members of the first one. -/
theorem sent_value_conforms_iff {name : String} {dtype : DataType} {v : Value} {p : QueryParameter}
    (h : bind name dtype v = .ok p) :
    p.toWire =
        .obj [("name", .str name), ("parameterType", p.wireType), ("parameterValue", p.wireParameter)] ∧
      (Conforms p.wireType p.wireParameter ↔ v.Fits v) := by
  refine ⟨?_, conforms_iff_fits h h⟩
  rw [toWire, bind_name h]

def orderType : DataType :=
  .array (.struct [⟨"id", .int64, false⟩,
    ⟨"lines", .array (.struct [⟨"sku", .string, false⟩, ⟨"note", .string, true⟩]), true⟩])

def orders : Value :=
  .array [.struct [("id", .int 1), ("lines", .array [.struct [("sku", .string "a")], .struct [("sku", .string "b")]])],
    .struct [("lines", .array []), ("id", .int 2)]]

theorem sent_orders_conform :
    ∃ p, bind "orders" orderType orders = .ok p ∧ Conforms p.wireType p.wireParameter := by
  have hfits : orders.Fits orders := by
    have hid : (Value.int 1).Fits (.int 2) ∧ (Value.int 1).Fits (.int 1) := ⟨.plain rfl, .plain rfl⟩
    have hsku : (Value.string "a").Fits (.string "a") ∧ (Value.string "a").Fits (.string "b") :=
      ⟨.plain rfl, .plain rfl⟩
    simp [orders, Value.fits_array, Value.fits_struct, List.lookup_cons, or_comm, hid, hsku]
  obtain ⟨p, h⟩ : ∃ p, bind "orders" orderType orders = .ok p := ⟨_, rfl⟩
  exact ⟨p, h, (sent_value_conforms_iff h).2.mpr hfits⟩

def lineType : DataType :=
  .array (.struct [⟨"sku", .string, false⟩, ⟨"note", .string, true⟩])

def lines : Value :=
  .array [.struct [("sku", .string "a")], .struct [("sku", .string "b"), ("note", .string "c")]]

theorem sent_lines_not_conforming :
    ∃ p, bind "lines" lineType lines = .ok p ∧ ¬ Conforms p.wireType p.wireParameter := by
  have hfits : ¬ lines.Fits lines := by simp [lines, Value.fits_array, Value.fits_struct]
  obtain ⟨p, h⟩ : ∃ p, bind "lines" lineType lines = .ok p := ⟨_, rfl⟩
  exact ⟨p, h, fun hconforms => hfits ((conforms_iff_fits h h).mp hconforms)⟩

end QueryParameter

end BigQuerySql
