import BigQuerySql.Proofs.Names
import BigQuerySql.Warehouse.FieldSchema

namespace BigQuerySql

namespace DataType

theorem mem_primitives_of_ofSqlName {name : String} {t : DataType} (h : ofSqlName name = .ok t) :
    (standardName name, t) ∈ primitives := by
  cases hlookup : primitives.lookup (standardName name) with
  | none => simp [ofSqlName, hlookup] at h
  | some found =>
    obtain rfl : found = t := by simpa [ofSqlName, hlookup] using h
    exact mem_of_lookup hlookup

theorem exists_ofSqlName_iff {name : String} :
    (∃ t, ofSqlName name = .ok t) ↔ standardName name ∈ primitives.map Prod.fst := by
  constructor
  · rintro ⟨t, ht⟩
    exact List.mem_map_of_mem (mem_primitives_of_ofSqlName ht)
  · intro hname
    cases hlookup : primitives.lookup (standardName name) with
    | none =>
      obtain ⟨entry, hentry, hkey⟩ := List.mem_map.mp hname
      have hne := List.lookup_eq_none_iff.mp hlookup entry hentry
      simp [hkey] at hne
    | some t => exact ⟨t, by simp [ofSqlName, hlookup]⟩

theorem sqlName_of_mem_primitives :
    ∀ entry ∈ primitives, entry.2.sqlName = .ok entry.1 ∧ entry.2.isArray = false := by
  simp [primitives, utcTimestamp, sqlName, isArray]

end DataType

namespace FieldSchema

theorem induction_on {P : FieldSchema → Prop}
    (step : ∀ name typeName mode fields, (∀ f ∈ fields, P f) → P ⟨name, typeName, mode, fields⟩) : ∀ f, P f
  | ⟨name, typeName, mode, fields⟩ => step name typeName mode fields fun f _ => induction_on step f
termination_by f => sizeOf f
decreasing_by
  have := List.sizeOf_lt_of_mem ‹_›
  simp
  omega

structure Describes (f : FieldSchema) (column : FieldType) : Prop where
  name_eq : column.name = f.name
  dtype_ok : f.dataType = .ok column.dtype
  nullable_iff : column.nullable = true ↔ f.mode ≠ .required

section Columns

variable {fields : List FieldSchema} {columns : List FieldType}

theorem dataTypes_cons_ok_iff {f : FieldSchema} :
    dataTypes (f :: fields) = .ok columns ↔
      ∃ column rest, f.Describes column ∧ dataTypes fields = .ok rest ∧ columns = column :: rest := by
  rw [dataTypes, except_bind_ok]
  constructor
  · rintro ⟨dtype, hdtype, h⟩
    obtain ⟨rest, hrest, h⟩ := except_bind_ok.mp h
    obtain rfl := Except.ok.inj h
    exact ⟨_, rest, ⟨rfl, hdtype, by simp⟩, hrest, rfl⟩
  · rintro ⟨⟨name, dtype, nullable⟩, rest, ⟨rfl, hdtype, hnullable⟩, hrest, rfl⟩
    have hmode : nullable = decide (f.mode ≠ .required) := Bool.eq_iff_iff.mpr (by simpa using hnullable)
    exact ⟨dtype, hdtype, except_bind_ok.mpr ⟨rest, hrest, by rw [hmode]; rfl⟩⟩

theorem dataTypes_ok_iff : dataTypes fields = .ok columns ↔ List.Forall₂ Describes fields columns := by
  induction fields generalizing columns with
  | nil => simp [dataTypes, eq_comm]
  | cons f rest ih =>
    rw [dataTypes_cons_ok_iff, List.forall₂_cons_left_iff]
    simp only [ih]

theorem exists_dataTypes_iff : (∃ columns, dataTypes fields = .ok columns) ↔ ∀ f ∈ fields, ∃ t, f.dataType = .ok t := by
  induction fields with
  | nil => simp [dataTypes]
  | cons f rest ih =>
    rw [List.forall_mem_cons, ← ih]
    constructor
    · rintro ⟨columns, h⟩
      obtain ⟨column, others, hcolumn, hothers, -⟩ := dataTypes_cons_ok_iff.mp h
      exact ⟨⟨_, hcolumn.dtype_ok⟩, others, hothers⟩
    · rintro ⟨⟨dtype, hdtype⟩, others, hothers⟩
      exact ⟨_, dataTypes_cons_ok_iff.mpr
        ⟨⟨f.name, dtype, decide (f.mode ≠ .required)⟩, others, ⟨rfl, hdtype, by simp⟩, hothers, rfl⟩⟩

end Columns

section Types

variable {name typeName : String} {mode : FieldMode} {fields : List FieldSchema} {t : DataType}

theorem dataType_record (h : isRecordName typeName = true) :
    dataType ⟨name, typeName, mode, fields⟩ = .ok t ↔
      fields ≠ [] ∧ ∃ columns, dataTypes fields = .ok columns ∧ wrapped mode (.struct columns) = t := by
  cases fields with
  | nil => simp [dataType, h, throw, throwThe, MonadExceptOf.throw, bind, Except.bind]
  | cons f rest => simp [dataType, h, except_bind_ok, pure, Except.pure]

theorem dataType_plain (h : isRecordName typeName = false) :
    dataType ⟨name, typeName, mode, fields⟩ = .ok t ↔
      ∃ own, DataType.ofSqlName typeName = .ok own ∧ wrapped mode own = t := by
  simp [dataType, h, except_bind_ok, pure, Except.pure]

theorem exists_dataType_record (h : isRecordName typeName = true) :
    (∃ t, dataType ⟨name, typeName, mode, fields⟩ = .ok t) ↔ fields ≠ [] ∧ ∀ f ∈ fields, ∃ t, f.dataType = .ok t := by
  simp only [dataType_record h, ← exists_dataTypes_iff]
  constructor
  · rintro ⟨-, hne, columns, hcolumns, rfl⟩
    exact ⟨hne, columns, hcolumns⟩
  · rintro ⟨hne, columns, hcolumns⟩
    exact ⟨_, hne, columns, hcolumns, rfl⟩

theorem exists_dataType_plain (h : isRecordName typeName = false) :
    (∃ t, dataType ⟨name, typeName, mode, fields⟩ = .ok t) ↔
      DataType.standardName typeName ∈ DataType.primitives.map Prod.fst := by
  simp only [dataType_plain h, ← DataType.exists_ofSqlName_iff]
  constructor
  · rintro ⟨-, own, hown, rfl⟩
    exact ⟨own, hown⟩
  · rintro ⟨own, hown⟩
    exact ⟨_, own, hown, rfl⟩

end Types

/-- Fields that have no type: empty records, records with such a field, and others whose name is unknown. -/
inductive Untyped : FieldSchema → Prop where
  | empty {name typeName : String} {mode : FieldMode} (h : isRecordName typeName = true) :
      Untyped ⟨name, typeName, mode, []⟩
  | member {name typeName : String} {mode : FieldMode} {fields : List FieldSchema} {f : FieldSchema}
      (h : isRecordName typeName = true) (hf : f ∈ fields) (hmember : Untyped f) :
      Untyped ⟨name, typeName, mode, fields⟩
  | unknown {name typeName : String} {mode : FieldMode} {fields : List FieldSchema}
      (h : isRecordName typeName = false)
      (hname : DataType.standardName typeName ∉ DataType.primitives.map Prod.fst) :
      Untyped ⟨name, typeName, mode, fields⟩

theorem exists_dataType_iff (f : FieldSchema) : (∃ t, f.dataType = .ok t) ↔ ¬f.Untyped := by
  induction f using FieldSchema.induction_on with
  | step name typeName mode fields ih =>
    cases h : isRecordName typeName with
    | true =>
      rw [exists_dataType_record h, forall₂_congr ih]
      constructor
      · rintro ⟨hne, hmembers⟩ huntyped
        cases huntyped with
        | empty => exact hne rfl
        | member _ hf hmember => exact hmembers _ hf hmember
        | unknown hplain => simp [h] at hplain
      · refine fun htyped => ⟨?_, fun f hf hmember => htyped (.member h hf hmember)⟩
        rintro rfl
        exact htyped (.empty h)
    | false =>
      rw [exists_dataType_plain h]
      constructor
      · intro hname huntyped
        cases huntyped with
        | empty hrecord => simp [h] at hrecord
        | member hrecord => simp [h] at hrecord
        | unknown _ hunknown => exact hunknown hname
      · exact fun htyped => by_contra fun hname => htyped (.unknown h hname)

def modeText (mode : FieldMode) (text : String) : String :=
  if mode = .repeated then "ARRAY<" ++ text ++ ">" else text

mutual

def typeText : FieldSchema → String
  | ⟨_, typeName, mode, fields⟩ =>
    modeText mode <|
      if isRecordName typeName then "STRUCT<" ++ String.intercalate ", " (memberTexts fields) ++ ">"
      else DataType.standardName typeName

def memberTexts : List FieldSchema → List String
  | [] => []
  | f :: rest => (Sql.identifier f.name ++ " " ++ f.typeText) :: memberTexts rest

end

theorem memberTexts_eq (fields : List FieldSchema) :
    memberTexts fields = fields.map fun f => Sql.identifier f.name ++ " " ++ f.typeText := by
  induction fields with
  | nil => rfl
  | cons f rest ih => rw [memberTexts, ih, List.map_cons]

theorem sqlName_wrapped {t : DataType} {text : String} (h : t.sqlName = .ok text) (ha : t.isArray = false)
    (mode : FieldMode) : (wrapped mode t).sqlName = .ok (modeText mode text) := by
  cases mode with
  | repeated => simp [wrapped, modeText, DataType.sqlName, h, ha, bind, Except.bind, pure, Except.pure]
  | _ => exact h

theorem sqlName_dataType (f : FieldSchema) : ∀ {t : DataType}, f.dataType = .ok t → t.sqlName = .ok f.typeText := by
  induction f using FieldSchema.induction_on with
  | step name typeName mode fields ih =>
    intro t ht
    -- what a mode wraps is a struct or a primitive type and never an array, so no array of arrays is refused
    cases h : isRecordName typeName with
    | true =>
      obtain ⟨-, columns, hcolumns, rfl⟩ := (dataType_record h).mp ht
      have htexts : List.Forall₂ (fun column text => DataType.sqlField column = .ok text) columns
          (memberTexts fields) := by
        have hdescribed := (List.forall₂_and_left _ _).mpr ⟨fun f hf => @ih f hf, dataTypes_ok_iff.mp hcolumns⟩
        rw [memberTexts_eq, List.forall₂_map_right_iff]
        refine (hdescribed.imp fun f column hf => ?_).flip
        obtain ⟨hname, hdescribes⟩ := hf
        rw [flip, DataType.sqlField_ok]
        exact ⟨f.typeText, hname hdescribes.dtype_ok, by rw [hdescribes.name_eq, String.append_assoc]⟩
      have hstruct : (DataType.struct columns).sqlName =
          .ok ("STRUCT<" ++ String.intercalate ", " (memberTexts fields) ++ ">") := by
        rw [DataType.sqlName, DataType.sqlFields_eq, mapM_ok.mpr htexts]
        rfl
      simpa [typeText, h] using sqlName_wrapped hstruct rfl mode
    | false =>
      obtain ⟨own, hown, rfl⟩ := (dataType_plain h).mp ht
      obtain ⟨hname, harray⟩ := DataType.sqlName_of_mem_primitives _ (DataType.mem_primitives_of_ofSqlName hown)
      simpa [typeText, h] using sqlName_wrapped hname harray mode

/-- A field has no type just if it is an empty record, a record with such a field, or no record and unknown by name. The
type of any other field is written as the field is described, an array just if the field is repeated. -/
theorem field_types_map_back (f : FieldSchema) :
    ((∃ error, f.dataType = .error error) ↔ f.Untyped) ∧ ∀ t, f.dataType = .ok t → t.sqlName = .ok f.typeText := by
  refine ⟨?_, fun t => f.sqlName_dataType⟩
  rw [except_error_iff, exists_dataType_iff, not_not]

def orderLines : FieldSchema :=
  ⟨"lines", "RECORD", .repeated,
    [⟨"sku", "STRING", .required, []⟩, ⟨"unit price", "NUMERIC", .nullable, []⟩,
     ⟨"stock", "STRUCT", .nullable, [⟨"sites", "INTEGER", .repeated, []⟩]⟩]⟩

theorem orderLines_map_back :
    ∃ t, orderLines.dataType = .ok t ∧
      t.sqlName = .ok "ARRAY<STRUCT<sku STRING, \x60unit price\x60 NUMERIC, stock STRUCT<sites ARRAY<INT64>>>>" :=
  ⟨_, rfl, (field_types_map_back orderLines).2 _ rfl⟩

def disguised : FieldSchema :=
  ⟨"x", "INT64", .nullable, [⟨"y", "JSONB", .nullable, []⟩]⟩

theorem disguised_has_type :
    ¬((∃ error, disguised.dataType = .error error) ↔
      (isRecordName disguised.typeName = true ∧ disguised.fields = []) ∨
      (∃ f ∈ disguised.fields, ∃ error, f.dataType = .error error) ∨
      (isRecordName disguised.typeName = false ∧
        DataType.standardName disguised.typeName ∉ DataType.primitives.map Prod.fst)) := by
  have htype : disguised.dataType = .ok .int64 := rfl
  have hmember : ∃ f ∈ disguised.fields, ∃ error, f.dataType = .error error := ⟨_, List.mem_singleton_self _, _, rfl⟩
  intro h
  obtain ⟨error, herror⟩ := h.mpr (.inr (.inl hmember))
  rw [htype] at herror
  cases herror

end FieldSchema

end BigQuerySql
