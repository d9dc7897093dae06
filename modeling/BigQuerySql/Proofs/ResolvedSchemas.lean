import BigQuerySql.Proofs.FieldTypes
import BigQuerySql.Proofs.SubmittedJobs
import Mathlib.Data.List.Nodup

namespace BigQuerySql

theorem FieldSchema.names_of_describes {fields : List FieldSchema} {columns : List FieldType}
    (h : List.Forall₂ Describes fields columns) : columns.map Field.name = fields.map FieldSchema.name := by
  induction h with
  | nil => rfl
  | cons hcolumn _ ih => rw [List.map_cons, List.map_cons, hcolumn.name_eq, ih]

namespace TableMetadata

variable {m : TableMetadata} {configured : Option String}

def shownName (m : TableMetadata) (configured : Option String) (name : String) : String :=
  if m.partitionColumn? = some nativePartitionColumn ∧ name = nativePartitionColumn then configured.getD name else name

def shown (m : TableMetadata) (configured : Option String) (column : FieldType) : FieldType :=
  ⟨m.shownName configured column.name, column.dtype, column.nullable⟩

theorem renamePartition_fields (schema : Schema) :
    (m.renamePartition configured schema).fields = schema.fields.map (m.shown configured) := by
  by_cases hnative : m.partitionColumn? = some nativePartitionColumn
  · cases configured with
    | none =>
      have hsame : m.shown none = id := funext fun column => by simp [shown, shownName]
      rw [hsame, List.map_id]
      simp [renamePartition, hnative]
    | some newName =>
      simp only [renamePartition, hnative, if_true]
      refine List.map_congr_left fun f _ => ?_
      by_cases hname : f.name = nativePartitionColumn <;> simp [shown, shownName, hnative, hname]
  · have hsame : m.shown configured = id := funext fun column => by simp [shown, shownName, hnative]
    rw [hsame, List.map_id]
    simp only [renamePartition]
    split
    next column newName hcolumn =>
      have hne : column ≠ nativePartitionColumn := fun h => hnative (h ▸ hcolumn)
      rw [if_neg hne]
    next => rfl

def unlistedColumn? (m : TableMetadata) : Option String :=
  m.partitionColumn?.filter fun column => column ∉ m.fields.map FieldSchema.name

theorem unlistedColumn_eq_some_iff {column : String} :
    m.unlistedColumn? = some column ↔
      m.partitionColumn? = some column ∧ column ∉ m.fields.map FieldSchema.name := by
  simp [unlistedColumn?, Option.filter_eq_some_iff]

def impliedColumns (m : TableMetadata) : List FieldType :=
  m.unlistedColumn?.toList.map fun column => ⟨column, .utcTimestamp, true⟩

theorem schema_eq {columns : List FieldType} (h : List.Forall₂ FieldSchema.Describes m.fields columns) :
    m.schema = .ok ⟨columns ++ m.impliedColumns⟩ := by
  have hany (column : String) : columns.any (·.name == column) = true ↔ column ∈ m.fields.map FieldSchema.name := by
    rw [← FieldSchema.names_of_describes h]
    simp
  simp only [schema, FieldSchema.dataTypes_ok_iff.mpr h, bind, Except.bind, impliedColumns]
  cases hcolumn : m.partitionColumn? with
  | none =>
    have hnone : m.unlistedColumn? = none := by simp [unlistedColumn?, hcolumn]
    rw [hnone]
    simp [pure, Except.pure]
  | some column =>
    by_cases hlisted : column ∈ m.fields.map FieldSchema.name
    · have hnone : m.unlistedColumn? = none := by
        simp [unlistedColumn?, hcolumn, Option.filter_some, -List.mem_map, hlisted]
      simp only [if_pos ((hany column).mpr hlisted), hnone]
      simp [pure, Except.pure]
    · have hsome : m.unlistedColumn? = some column := unlistedColumn_eq_some_iff.mpr ⟨hcolumn, hlisted⟩
      simp only [if_neg (mt (hany column).mp hlisted), hsome]
      rfl

def columnNames (m : TableMetadata) : List String :=
  m.fields.map FieldSchema.name ++ m.unlistedColumn?.toList

theorem nodup_columnNames (h : (m.fields.map FieldSchema.name).Nodup) : m.columnNames.Nodup := by
  cases hcolumn : m.unlistedColumn? with
  | none => simpa [columnNames, hcolumn] using h
  | some column =>
    obtain ⟨-, hunlisted⟩ := unlistedColumn_eq_some_iff.mp hcolumn
    rw [columnNames, hcolumn, Option.toList_some, ← List.concat_eq_append]
    exact h.concat hunlisted

theorem mem_columnNames_iff {name : String} :
    name ∈ m.columnNames ↔ name ∈ m.fields.map FieldSchema.name ∨ m.partitionColumn? = some name := by
  rw [columnNames, List.mem_append, Option.mem_toList, unlistedColumn_eq_some_iff]
  tauto

theorem names_renamePartition {columns : List FieldType} (h : List.Forall₂ FieldSchema.Describes m.fields columns) :
    (m.renamePartition configured ⟨columns ++ m.impliedColumns⟩).names =
      m.columnNames.map (m.shownName configured) := by
  have hnames : (columns ++ m.impliedColumns).map Field.name = m.columnNames := by
    simp [columnNames, impliedColumns, FieldSchema.names_of_describes h, Function.comp_def]
  rw [Schema.names, renamePartition_fields, ← hnames, List.map_map, List.map_map]
  rfl

theorem nodup_shownNames_iff (h : (m.fields.map FieldSchema.name).Nodup) :
    (m.columnNames.map (m.shownName configured)).Nodup ↔
      ∀ newName, configured = some newName → m.partitionColumn? = some nativePartitionColumn →
        newName ∈ m.fields.map FieldSchema.name → newName = nativePartitionColumn := by
  have hdistinct := nodup_columnNames h
  -- names change only where the table is partitioned on the native column and a name is configured
  by_cases hnative : m.partitionColumn? = some nativePartitionColumn
  · cases configured with
    | none =>
      have hsame : m.shownName none = id := funext fun name => by simp [shownName]
      simpa [hsame] using hdistinct
    | some newName =>
      have hrenamed : m.shownName (some newName) = fun name => if name = nativePartitionColumn then newName else name :=
        funext fun name => by simp [shownName, hnative]
      rw [hrenamed, nodup_map_renamed_iff hdistinct (mem_columnNames_iff.mpr (.inr hnative)), mem_columnNames_iff,
        hnative]
      simp [-List.mem_map, or_imp, eq_comm]
  · have hsame : m.shownName configured = id := funext fun name => by simp [shownName, hnative]
    simpa [hsame, hnative] using hdistinct

/-- The columns of a resolved table are the described ones in order, with the native partition column under its
configured name, and one for the partitions of a table that lists none. Their names are distinct just if the configured
name is not that of another column. -/
theorem resolved_columns_distinct_iff {m : TableMetadata} (hnames : (m.fields.map FieldSchema.name).Nodup)
    (htypes : ∀ f ∈ m.fields, ∃ t, f.dataType = .ok t) (configured : Option String) :
    ∃ resolved : Schema,
      (∀ (s : Session) (w : Warehouse) (name : String) (r : TableRef), s.config.partitionColumn = configured →
        s.tableRef name = .ok r → w.getTable r = .ok m → s.table w name = .ok (Expr.table r.display resolved)) ∧
      (resolved.names.Nodup ↔
        ∀ newName, configured = some newName → m.partitionColumn? = some nativePartitionColumn →
          newName ∈ m.fields.map FieldSchema.name → newName = nativePartitionColumn) ∧
      (∃ kept, resolved.fields = kept ++ m.impliedColumns.map (m.shown configured) ∧
        List.Forall₂ (fun f column => ∃ own, f.Describes own ∧ column = m.shown configured own) m.fields kept) ∧
      ∀ column, m.partitionColumn? = some column → m.shownName configured column ∈ resolved.names := by
  obtain ⟨columns, hcolumns⟩ := FieldSchema.exists_dataTypes_iff.mpr htypes
  have hdescribed := FieldSchema.dataTypes_ok_iff.mp hcolumns
  refine ⟨m.renamePartition configured ⟨columns ++ m.impliedColumns⟩, ?_, ?_,
    ⟨columns.map (m.shown configured), ?_, ?_⟩, ?_⟩
  · rintro s w name r rfl hr hm
    simp [Session.table, hr, hm, schema_eq hdescribed, bind, Except.bind, Except.mapError, pure, Except.pure]
  · rw [names_renamePartition hdescribed, nodup_shownNames_iff hnames]
  · rw [renamePartition_fields, List.map_append]
  · rw [List.forall₂_map_right_iff]
    exact hdescribed.imp fun f own hown => ⟨own, hown, rfl⟩
  · intro column hcolumn
    rw [names_renamePartition hdescribed]
    exact List.mem_map_of_mem (mem_columnNames_iff.mpr (.inr hcolumn))

def loaded (fields : List FieldSchema) : TableMetadata :=
  ⟨⟨"data-proj", "analytics", "visits"⟩, fields, some ⟨some "DAY", none⟩⟩

def visits : TableMetadata :=
  loaded [⟨"user", "INTEGER", .required, []⟩, ⟨"pages", "RECORD", .repeated, [⟨"path", "STRING", .nullable, []⟩]⟩]

def reader : Session :=
  ⟨⟨"billing-proj", some "data-proj.analytics", none, some defaultPartitionColumn, .declared⟩,
    "data-proj", "billing-proj", some "analytics"⟩

theorem visits_columns_distinct :
    (visits.fields.map FieldSchema.name).Nodup ∧ (∀ f ∈ visits.fields, ∃ t, f.dataType = .ok t) ∧
      ∃ resolved, reader.table (Warehouse.empty.addTable visits) "visits" =
          .ok (Expr.table "data-proj.analytics.visits" resolved) ∧
        resolved.names.Nodup ∧ defaultPartitionColumn ∈ resolved.names := by
  have hnames : (visits.fields.map FieldSchema.name).Nodup := by decide
  have htypes : ∀ f ∈ visits.fields, ∃ t, f.dataType = .ok t := by
    simp only [visits, loaded, List.forall_mem_cons]
    exact ⟨⟨_, rfl⟩, ⟨_, rfl⟩, by simp⟩
  obtain ⟨resolved, htable, hdistinct, -, hpartition⟩ :=
    resolved_columns_distinct_iff hnames htypes (some defaultPartitionColumn)
  refine ⟨hnames, htypes, resolved, htable reader _ "visits" _ rfl rfl rfl, hdistinct.mpr ?_, hpartition _ rfl⟩
  intro newName hnew _ hlisted
  rw [← Option.some.inj hnew] at hlisted
  exact absurd hlisted (by decide)

theorem configured_name_taken :
    ∃ resolved, reader.table
          (Warehouse.empty.addTable (loaded [⟨"PARTITIONTIME", "TIMESTAMP", .nullable, []⟩])) "visits" =
        .ok (Expr.table "data-proj.analytics.visits" resolved) ∧
      resolved.names = ["PARTITIONTIME", "PARTITIONTIME"] :=
  ⟨_, rfl, rfl⟩

end TableMetadata

end BigQuerySql
