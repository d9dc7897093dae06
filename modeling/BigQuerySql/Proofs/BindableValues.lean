import BigQuerySql.Proofs.Binding

namespace BigQuerySql

namespace QueryParameter

inductive Bindable : DataType → Value → Prop where
  | leaf {dtype : DataType} {v w : Value} {typeName : String} (h : BindsLeaf dtype v typeName w) : Bindable dtype v
  | struct {fields : List FieldType} {members : List (String × Value)}
      (hfields : ∀ m ∈ members, ∃ field, (fields.find? fun f => f.name == m.1) = some field)
      (h : ∀ m ∈ members, ∀ field, (fields.find? fun f => f.name == m.1) = some field → Bindable field.dtype m.2) :
      Bindable (.struct fields) (.struct members)
  | structs {fields : List FieldType} {items : List Value} (h : ∀ x ∈ items, Bindable (.struct fields) x) :
      Bindable (.array (.struct fields)) (.array items)
  | array {element : DataType} {items : List Value} (ha : ∀ t, element ≠ .array t)
      (hs : ∀ fields, element ≠ .struct fields) (hname : ∃ typeName, element.sqlName = .ok typeName)
      -- items may be null, where a value by itself may not
      (h : ∀ x ∈ items, x ≠ .null → Bindable element x) : Bindable (.array element) (.array items)

/-- The parameters that hold a value of a type: whole, in order, and under the names of its members and places. -/
inductive Holds : DataType → Value → QueryParameter → Prop where
  | leaf {dtype : DataType} {v w : Value} {name typeName : String} (h : BindsLeaf dtype v typeName w) :
      Holds dtype v (.scalar name typeName w)
  | struct {fields : List FieldType} {members : List (String × Value)} {name : String} {bound : List QueryParameter}
      (hnames : bound.map QueryParameter.name = members.map Prod.fst)
      (hfields : ∀ m ∈ members, ∃ field, (fields.find? fun f => f.name == m.1) = some field)
      (h : ∀ (i : Nat) m p field, members[i]? = some m → bound[i]? = some p →
        (fields.find? fun f => f.name == m.1) = some field → Holds field.dtype m.2 p) :
      Holds (.struct fields) (.struct members) (.struct name bound)
  | structs {fields : List FieldType} {items : List Value} {name : String}
      {bound : List (String × List QueryParameter)}
      (hnames : bound.map Prod.fst = (List.range items.length).map itemName)
      (h : ∀ (i : Nat) x b, items[i]? = some x → bound[i]? = some b → Holds (.struct fields) x (.struct b.1 b.2)) :
      Holds (.array (.struct fields)) (.array items) (.structs name bound)
  | array {element : DataType} {items values : List Value} {name typeName : String} (ha : ∀ t, element ≠ .array t)
      (hs : ∀ fields, element ≠ .struct fields) (hname : element.sqlName = .ok typeName)
      (hlength : values.length = items.length)
      (h : ∀ (i : Nat) x w, items[i]? = some x → values[i]? = some w →
        (x = .null ∧ w = .null) ∨ ∃ own, BindsLeaf element x own w) :
      Holds (.array element) (.array items) (.array name typeName values)

theorem bind_leaf {name : String} {dtype : DataType} {v w : Value} {typeName : String}
    (h : BindsLeaf dtype v typeName w) : bind name dtype v = .ok (.scalar name typeName w) := by
  rw [bind_plain (bindsLeaf_plain h), bindScalar_ok_iff]
  exact ⟨typeName, w, h, rfl⟩

theorem items_iff {name : String} {element : DataType} {items values : List Value} (ha : ∀ t, element ≠ .array t)
    (hs : ∀ fields, element ≠ .struct fields) :
    bindItems name element items = .ok values ↔
      List.Forall₂ (fun x w => (x = .null ∧ w = .null) ∨ ∃ own, BindsLeaf element x own w) items values := by
  rw [bindItems_ok]
  have hitem (x w : Value) : (∃ own typeName, bind name element x = .ok (.scalar own typeName w)) ↔
      ∃ own, BindsLeaf element x own w := by
    simp [bind_single ha hs, bindScalar_ok_iff]
  simp only [hitem]

theorem bind_ok_iff {name : String} {dtype : DataType} {v : Value} {p : QueryParameter} :
    bind name dtype v = .ok p ↔ p.name = name ∧ Holds dtype v p := by
  induction v using Value.induction_on generalizing name dtype p with
  | plain v hv =>
    rw [bind_plain hv, bindScalar_ok_iff]
    constructor
    · rintro ⟨typeName, w, hleaf, rfl⟩
      exact ⟨rfl, .leaf hleaf⟩
    · rintro ⟨rfl, hholds⟩
      cases hholds with
      | leaf hleaf => exact ⟨_, _, hleaf, rfl⟩
      | _ => cases hv
  | array items ih =>
    constructor
    · intro h
      refine ⟨bind_name h, ?_⟩
      rcases bind_array h with ⟨fields, bound, rfl, hbound, rfl⟩ |
        ⟨element, typeName, values, rfl, ha, hs, hvalues, htype, rfl⟩
      · obtain ⟨hnames, hitems⟩ := bindStructs_ok_iff.mp hbound
        refine .structs (by rw [hnames, List.range_eq_range']) fun i x b hx hb => ?_
        have hitem : BindsItem fields x b := (forall₂_iff_getElem.mp hitems).2 i x b hx hb
        exact ((ih x (List.mem_of_getElem? hx)).mp (bindsItem_iff.mp hitem)).2
      · obtain ⟨hlength, hitems⟩ := forall₂_iff_getElem.mp ((items_iff ha hs).mp hvalues)
        exact .array ha hs htype hlength hitems
    · rintro ⟨rfl, hholds⟩
      cases hholds with
      | leaf hleaf => cases bindsLeaf_plain hleaf
      | @structs fields _ name bound hnames h =>
        refine bind_array_structs.mpr ⟨bound, bindStructs_ok_iff.mpr ⟨?_, ?_⟩, rfl⟩
        · rw [hnames, List.range_eq_range']
        · refine forall₂_iff_getElem.mpr ⟨by simpa using congrArg List.length hnames, fun i x b hx hb => ?_⟩
          exact bindsItem_iff.mpr ((ih x (List.mem_of_getElem? hx)).mpr ⟨rfl, h i x b hx hb⟩)
      | array ha hs htype hlength h =>
        exact (bind_array_single ha hs).mpr
          ⟨_, _, (items_iff ha hs).mpr (forall₂_iff_getElem.mpr ⟨hlength, h⟩), htype, rfl⟩
  | struct members ih =>
    rw [bind_struct]
    constructor
    · rintro ⟨fields, bound, rfl, hbound, rfl⟩
      refine ⟨rfl, .struct (binds_keys hbound) ?_ ?_⟩
      · intro m hm
        obtain ⟨p, -, field, hfield, -⟩ := forall₂_mem hbound hm
        exact ⟨field, hfield⟩
      · intro i m p field hm hp hfield
        obtain ⟨field', hfield', hbind⟩ := (forall₂_iff_getElem.mp hbound).2 i m p hm hp
        obtain rfl : field = field' := by simpa [hfield] using hfield'
        exact ((ih m (List.mem_of_getElem? hm)).mp hbind).2
    · rintro ⟨rfl, hholds⟩
      cases hholds with
      | leaf hleaf => cases bindsLeaf_plain hleaf
      | @struct fields _ name bound hnames hfields h =>
        refine ⟨fields, bound, rfl, forall₂_iff_getElem.mpr ⟨by simpa using congrArg List.length hnames, ?_⟩, rfl⟩
        intro i m p hm hp
        obtain ⟨field, hfield⟩ := hfields m (List.mem_of_getElem? hm)
        have hname : p.name = m.1 := by simpa [hm, hp] using congrArg (·[i]?) hnames
        exact ⟨field, hfield, (ih m (List.mem_of_getElem? hm)).mpr ⟨hname, h i m p field hm hp hfield⟩⟩

theorem bindable_of_holds {dtype : DataType} {v : Value} {p : QueryParameter} (h : Holds dtype v p) :
    Bindable dtype v := by
  induction h with
  | leaf h => exact .leaf h
  | @struct fields members name bound hnames hfields _ ih =>
    have hlength : bound.length = members.length := by simpa using congrArg List.length hnames
    refine .struct hfields fun m hm field hfield => ?_
    obtain ⟨i, hi, rfl⟩ := List.getElem_of_mem hm
    exact ih i _ _ field (List.getElem?_eq_getElem hi) (List.getElem?_eq_getElem (hlength ▸ hi)) hfield
  | @structs fields items name bound hnames _ ih =>
    have hlength : bound.length = items.length := by simpa using congrArg List.length hnames
    refine .structs fun x hx => ?_
    obtain ⟨i, hi, rfl⟩ := List.getElem_of_mem hx
    exact ih i _ _ (List.getElem?_eq_getElem hi) (List.getElem?_eq_getElem (hlength ▸ hi))
  | @array element items values name typeName ha hs hname hlength h =>
    refine .array ha hs ⟨typeName, hname⟩ fun x hx hnull => ?_
    obtain ⟨i, hi, rfl⟩ := List.getElem_of_mem hx
    rcases h i _ _ (List.getElem?_eq_getElem hi) (List.getElem?_eq_getElem (hlength ▸ hi)) with ⟨h, -⟩ | ⟨own, hleaf⟩
    · exact absurd h hnull
    · exact .leaf hleaf

theorem bind_of_bindable {dtype : DataType} {v : Value} (h : Bindable dtype v) (name : String) :
    ∃ p, bind name dtype v = .ok p := by
  induction h generalizing name with
  | leaf h => exact ⟨_, bind_leaf h⟩
  | @struct fields members hfields _ ih =>
    obtain ⟨bound, hbound⟩ : ∃ bound, List.Forall₂ (Binds fields) members bound :=
      exists_forall₂_of_mem fun m hm => by
        obtain ⟨field, hfield⟩ := hfields m hm
        obtain ⟨p, hp⟩ := ih m hm field hfield m.1
        exact ⟨p, field, hfield, hp⟩
    exact ⟨_, bind_struct.mpr ⟨fields, bound, rfl, hbound, rfl⟩⟩
  | structs _ ih =>
    obtain ⟨bound, hbound⟩ := exists_bindStructs (fun x hx => ⟨name, ih x hx name⟩) 0
    exact ⟨_, bind_array_structs.mpr ⟨bound, hbound, rfl⟩⟩
  | @array element items ha hs hname _ ih =>
    obtain ⟨typeName, htype⟩ := hname
    obtain ⟨values, hvalues⟩ : ∃ values, List.Forall₂
        (fun x w => (x = .null ∧ w = .null) ∨ ∃ own, BindsLeaf element x own w) items values :=
      exists_forall₂_of_mem fun x hx => by
        by_cases hnull : x = .null
        · exact ⟨.null, .inl ⟨hnull, rfl⟩⟩
        · obtain ⟨p, hp⟩ := ih x hx hnull name
          rw [bind_single ha hs] at hp
          obtain ⟨own, w, hleaf, -⟩ := bindScalar_ok_iff.mp hp
          exact ⟨w, .inr ⟨own, hleaf⟩⟩
    exact ⟨_, (bind_array_single ha hs).mpr ⟨values, typeName, (items_iff ha hs).mpr hvalues, htype, rfl⟩⟩

/-- A value is bound just if it is bindable at its type, and then to the parameter of the given name that holds it. -/
theorem bind_characterised (name : String) (dtype : DataType) (v : Value) :
    ((∃ p, bind name dtype v = .ok p) ↔ Bindable dtype v) ∧
      ∀ p, bind name dtype v = .ok p ↔ p.name = name ∧ Holds dtype v p :=
  ⟨⟨fun ⟨_, h⟩ => bindable_of_holds (bind_ok_iff.mp h).2, fun h => bind_of_bindable h name⟩, fun _ => bind_ok_iff⟩

section SingleItem

variable {element : DataType} {v : Value}

theorem bind_one_item {name : String} (ha : ∀ t, element ≠ .array t) (hs : ∀ fields, element ≠ .struct fields)
    (hv : v ≠ .null) {p : QueryParameter} :
    bind name (.array element) (.array [v]) = .ok p ↔
      ∃ typeName own w, BindsLeaf element v own w ∧ element.sqlName = .ok typeName ∧
        p = .array name typeName [w] := by
  rw [bind_array_single ha hs]
  simp only [items_iff ha hs, List.forall₂_cons_left_iff, List.forall₂_nil_left_iff, hv, false_and, false_or]
  constructor
  · rintro ⟨_, typeName, ⟨w, _, ⟨own, hleaf⟩, rfl, rfl⟩, htype, rfl⟩
    exact ⟨typeName, own, w, hleaf, htype, rfl⟩
  · rintro ⟨typeName, own, w, hleaf, htype, rfl⟩
    exact ⟨[w], typeName, ⟨w, [], ⟨own, hleaf⟩, rfl, rfl⟩, htype, rfl⟩

theorem sqlName_of_bindsLeaf {w : Value} {own : String} (h : BindsLeaf element v own w) (hwide : element ≠ .uint64) :
    ∃ typeName, element.sqlName = .ok typeName ∧ (element ≠ .timestamp none → typeName = own) := by
  cases h with
  | @timestamp timezone _ _ _ =>
    cases timezone with
    | none => exact ⟨"DATETIME", rfl, fun h => absurd rfl h⟩
    | some zone => exact ⟨"TIMESTAMP", rfl, fun _ => rfl⟩
  | date _ => exact ⟨"DATE", rfl, fun _ => rfl⟩
  | string _ => exact ⟨"STRING", rfl, fun _ => rfl⟩
  | bool _ => exact ⟨"BOOL", rfl, fun _ => rfl⟩
  | int hint _ =>
    refine ⟨"INT64", ?_, fun _ => rfl⟩
    cases element <;> simp [DataType.isInteger] at hint hwide <;> rfl
  | float hfloat _ =>
    refine ⟨"FLOAT64", ?_, fun _ => rfl⟩
    cases element <;> simp [DataType.isFloating] at hfloat <;> rfl

/-- An array of one item is bound just if the item is bound by itself and is not one of the widest unsigned integers, and
holds what the item is bound to. Its type is that of a column. -/
theorem single_item_bound_as_value (name : String) (element : DataType) (v : Value) (ha : ∀ t, element ≠ .array t)
    (hs : ∀ fields, element ≠ .struct fields) (hv : v ≠ .null) :
    ((∃ p, bind name (.array element) (.array [v]) = .ok p) ↔
      (∃ q, bind name element v = .ok q) ∧ element ≠ .uint64) ∧
    ∀ p q, bind name (.array element) (.array [v]) = .ok p → bind name element v = .ok q →
      ∃ typeName own w, p = .array name typeName [w] ∧ q = .scalar name own w ∧ element.sqlName = .ok typeName ∧
        (element ≠ .timestamp none → typeName = own) := by
  constructor
  · simp only [bind_one_item ha hs hv, bind_single ha hs, bindScalar_ok_iff]
    constructor
    · rintro ⟨_, typeName, own, w, hleaf, htype, rfl⟩
      refine ⟨⟨_, own, w, hleaf, rfl⟩, ?_⟩
      rintro rfl
      cases htype
    · rintro ⟨⟨_, own, w, hleaf, rfl⟩, hwide⟩
      obtain ⟨typeName, htype, -⟩ := sqlName_of_bindsLeaf hleaf hwide
      exact ⟨_, typeName, own, w, hleaf, htype, rfl⟩
  · intro p q hp hq
    obtain ⟨typeName, own, w, hleaf, htype, rfl⟩ := (bind_one_item ha hs hv).mp hp
    have hwide : element ≠ .uint64 := by
      rintro rfl
      cases htype
    obtain ⟨typeName', htype', hsame⟩ := sqlName_of_bindsLeaf hleaf hwide
    obtain rfl : typeName = typeName' := by simpa [htype] using htype'
    rw [bind_leaf hleaf] at hq
    exact ⟨typeName, own, w, rfl, (Except.ok.inj hq).symm, htype, hsame⟩

end SingleItem

theorem offset_item_bound_as_value :
    ∃ w, bind "at" (.array .utcTimestamp) (.array [.string "2017-01-01T06:55:59+02:00"]) =
        .ok (.array "at" "TIMESTAMP" [w]) ∧
      bind "at" .utcTimestamp (.string "2017-01-01T06:55:59+02:00") = .ok (.scalar "at" "TIMESTAMP" w) := by
  have hbinds : (bind "at" .utcTimestamp (.string "2017-01-01T06:55:59+02:00")).toOption.isSome := by decide +kernel
  cases hq : bind "at" .utcTimestamp (.string "2017-01-01T06:55:59+02:00") with
  | error error => simp [hq, Except.toOption] at hbinds
  | ok q =>
    obtain ⟨hiff, hsame⟩ := single_item_bound_as_value "at" .utcTimestamp (.string "2017-01-01T06:55:59+02:00")
      (by simp [DataType.utcTimestamp]) (by simp [DataType.utcTimestamp]) (by simp)
    obtain ⟨p, hp⟩ := hiff.mpr ⟨⟨q, hq⟩, by simp [DataType.utcTimestamp]⟩
    obtain ⟨typeName, own, w, rfl, rfl, htype, hown⟩ := hsame p q hp hq
    obtain rfl : "TIMESTAMP" = typeName := Except.ok.inj htype
    obtain rfl : "TIMESTAMP" = own := hown (by simp [DataType.utcTimestamp])
    exact ⟨w, hp, rfl⟩

def newYear : Value := .date ⟨2017, 1, 1, by decide⟩

theorem item_and_value_differ :
    ¬ ((∃ p, bind "n" (.array .uint64) (.array [.int 1]) = .ok p) ↔ ∃ q, bind "n" .uint64 (.int 1) = .ok q) ∧
    ∃ w, bind "at" (.array (.timestamp none)) (.array [newYear]) = .ok (.array "at" "DATETIME" [w]) ∧
      bind "at" (.timestamp none) newYear = .ok (.scalar "at" "TIMESTAMP" w) := by
  refine ⟨fun h => ?_, _, rfl, rfl⟩
  obtain ⟨p, hp⟩ := h.mpr ⟨_, rfl⟩
  cases hp

end QueryParameter

end BigQuerySql
