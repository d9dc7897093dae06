import BigQuerySql.Proofs.SubmittedJobs

namespace BigQuerySql

theorem Text.split_eq_three {s a b c : String} :
    split '.' s = [a, b, c] ↔
      s = a ++ "." ++ b ++ "." ++ c ∧ '.' ∉ a.toList ∧ '.' ∉ b.toList ∧ '.' ∉ c.toList := by
  simp [split_eq_iff, String.append_assoc]

namespace ClientConfig

section Parts

variable {c : ClientConfig} {project : String} {dataset : Option String}

theorem ReadsFrom.dataset_free {name : String} (h : c.ReadsFrom project (some name)) : '.' ∉ name.toList := by
  cases h with
  | plain _ _ hfree => exact hfree
  | qualified _ _ hname => exact hname

theorem ReadsFrom.project_ne_empty_iff (h : c.ReadsFrom project dataset) (hproject : c.project ≠ "") :
    project ≠ "" ↔ ∀ name, c.dataset ≠ some ("." ++ name) := by
  constructor
  · intro hne name hname
    have hqualified : c.dataset = some ("" ++ "." ++ name) := by simpa using hname
    exact hne (h.eq_of_qualified hqualified).1
  · intro hne
    cases h with
    | unset => exact hproject
    | plain => exact hproject
    | qualified h =>
      rintro rfl
      exact hne _ (by simpa using h)

theorem ReadsFrom.dataset_ne_empty_iff {name : String} (h : c.ReadsFrom project (some name)) :
    name ≠ "" ↔ ∀ other, c.dataset ≠ some (other ++ ".") := by
  constructor
  · intro hne other hother
    have hqualified : c.dataset = some (other ++ "." ++ "") := by simpa using hother
    exact hne (Option.some.inj (h.eq_of_qualified hqualified).2.1)
  · rintro hne rfl
    cases h with
    | plain _ hname => exact hname rfl
    | qualified h => exact hne _ (by simpa using h)

theorem ReadsFrom.project_free_iff (h : c.ReadsFrom project dataset) :
    '.' ∉ project.toList ↔
      ('.' ∈ c.project.toList → ∃ other name, c.dataset = some (other ++ "." ++ name)) := by
  constructor
  · intro hfree hdot
    cases h with
    | unset => exact absurd hdot hfree
    | plain => exact absurd hdot hfree
    | qualified h => exact ⟨_, _, h⟩
  · intro hqualified hdot
    have hproject : '.' ∈ c.project.toList := by
      cases h with
      | unset => exact hdot
      | plain => exact hdot
      | qualified _ hfree => exact absurd hdot hfree
    obtain ⟨other, name, hname⟩ := hqualified hproject
    exact (h.eq_of_qualified hname).2.2 hdot

end Parts

end ClientConfig

namespace Session

variable {s : Session} {name : String} {r : TableRef}

inductive Resolves (s : Session) (r : TableRef) : String → Prop where
  | table (hproject : r.project = s.location.dataProject) (hdataset : s.location.dataset = some r.dataset)
      (ht : '.' ∉ r.table.toList) : Resolves s r r.table
  | inDataset (hproject : r.project = s.location.dataProject) (hd : '.' ∉ r.dataset.toList)
      (ht : '.' ∉ r.table.toList) : Resolves s r (r.dataset ++ "." ++ r.table)
  | inProject (hp : '.' ∉ r.project.toList) (hd : '.' ∉ r.dataset.toList) (ht : '.' ∉ r.table.toList) :
      Resolves s r r.display

theorem tableRef_ok_iff_resolves : s.tableRef name = .ok r ↔ s.Resolves r name := by
  constructor
  · intro h
    rw [tableRef] at h
    split at h
    next table hsplit =>
      obtain ⟨rfl, ht⟩ := Text.split_eq_one.mp hsplit
      cases hdataset : s.location.dataset with
      | none => simp [hdataset] at h
      | some dataset =>
        obtain rfl : _ = r := by simpa [hdataset] using h
        exact .table rfl hdataset ht
    next dataset table hsplit =>
      obtain ⟨rfl, hd, ht⟩ := Text.split_eq_two.mp hsplit
      obtain rfl := Except.ok.inj h
      exact .inDataset rfl hd ht
    next project dataset table hsplit =>
      obtain ⟨rfl, hp, hd, ht⟩ := Text.split_eq_three.mp hsplit
      obtain rfl := Except.ok.inj h
      exact .inProject hp hd ht
    next => cases h
  · obtain ⟨project, dataset, table⟩ := r
    intro h
    cases h with
    | table hproject hdataset ht =>
      rw [tableRef_free ht, hdataset, ← hproject]
    | inDataset hproject hd ht =>
      rw [tableRef, Text.split_eq_two.mpr ⟨rfl, hd, ht⟩, ← hproject]
    | inProject hp hd ht =>
      rw [TableRef.display, tableRef, Text.split_eq_three.mpr ⟨rfl, hp, hd, ht⟩]

theorem tableRef_display_iff :
    s.tableRef r.display = .ok r ↔ '.' ∉ r.project.toList ∧ '.' ∉ r.dataset.toList ∧ '.' ∉ r.table.toList := by
  rw [tableRef_ok_iff_resolves]
  refine ⟨fun h => ?_, fun h => .inProject h.1 h.2.1 h.2.2⟩
  generalize hname : r.display = name at h
  -- the shorter forms of a name have fewer characters than the full name
  have hlength := congrArg String.length hname
  rw [TableRef.display] at hlength
  cases h with
  | table => simp at hlength
  | inDataset => simp at hlength
  | inProject hp hd ht => exact ⟨hp, hd, ht⟩

/-- References have no empty part just if neither the name has one nor, where they fill it in, the settings do, and
they are found again under their full names by every session just if a project that the settings fill in has no point
in it. -/
theorem table_references_canonical_iff {config : ClientConfig} {s : Session} (hs : connect config = .ok s)
    {name : String} {r : TableRef} (h : s.tableRef name = .ok r) :
    ((r.project ≠ "" ∧ r.dataset ≠ "" ∧ r.table ≠ "") ↔
      ((Text.split '.' name).length < 3 → ∀ dataset, config.dataset ≠ some ("." ++ dataset)) ∧
      ((Text.split '.' name).length = 1 → ∀ project, config.dataset ≠ some (project ++ ".")) ∧
      ∀ part ∈ Text.split '.' name, part ≠ "") ∧
    ∀ other : Session, other.tableRef r.display = .ok r ↔
      ((Text.split '.' name).length < 3 → '.' ∈ config.project.toList →
        ∃ project dataset, config.dataset = some (project ++ "." ++ dataset)) := by
  obtain ⟨hproject, -, -, hreads⟩ := connect_ok_iff.mp hs
  simp only [tableRef_display_iff]
  cases tableRef_ok_iff_resolves.mp h with
  | table hr hdataset ht =>
    rw [hdataset, ← hr] at hreads
    have hparts : Text.split '.' r.table = [r.table] := Text.split_eq_one.mpr ⟨rfl, ht⟩
    simp [hparts, ht, hreads.dataset_free, hreads.project_free_iff, hreads.project_ne_empty_iff hproject,
      hreads.dataset_ne_empty_iff]
  | inDataset hr hd ht =>
    rw [← hr] at hreads
    have hparts : Text.split '.' (r.dataset ++ "." ++ r.table) = [r.dataset, r.table] :=
      Text.split_eq_two.mpr ⟨rfl, hd, ht⟩
    simp [hparts, ht, hd, hreads.project_free_iff, hreads.project_ne_empty_iff hproject]
  | inProject hp hd ht =>
    have hparts : Text.split '.' r.display = [r.project, r.dataset, r.table] :=
      Text.split_eq_three.mpr ⟨rfl, hp, hd, ht⟩
    simp [hparts, hp, hd, ht]

theorem qualified_dataset_canonical :
    ∃ s, connect (settings "example.com:lab" ("lab-data" ++ "." ++ "runs")) = .ok s ∧
      s.tableRef "events" = .ok ⟨"lab-data", "runs", "events"⟩ ∧
      ("lab-data" ≠ "" ∧ "runs" ≠ "" ∧ "events" ≠ "") ∧
      ∀ other : Session, other.tableRef "lab-data.runs.events" = .ok ⟨"lab-data", "runs", "events"⟩ := by
  have hs : connect (settings "example.com:lab" ("lab-data" ++ "." ++ "runs")) =
      .ok (settled "example.com:lab" "lab-data" "runs") :=
    connect_settled (by decide) (by decide) (by decide)
  have hr : (settled "example.com:lab" "lab-data" "runs").tableRef "events" = .ok ⟨"lab-data", "runs", "events"⟩ :=
    (tableRef_ok_iff (by decide)).mpr ⟨rfl, rfl⟩
  obtain ⟨hparts, hfound⟩ := table_references_canonical_iff hs hr
  have hreads := (connect_ok_iff.mp hs).2.2.2
  refine ⟨_, hs, hr, hparts.mpr ⟨fun _ => ?_, fun _ => ?_, by decide⟩, fun other => (hfound other).mpr ?_⟩
  · exact (hreads.project_ne_empty_iff (by decide)).mp (by decide)
  · exact hreads.dataset_ne_empty_iff.mp (by decide)
  · exact fun _ _ => ⟨"lab-data", "runs", rfl⟩

theorem pointed_project_not_found_again :
    ∃ s, connect (settings "example.com:lab" "runs") = .ok s ∧
      s.tableRef "events" = .ok ⟨"example.com:lab", "runs", "events"⟩ ∧
      TableRef.display ⟨"example.com:lab", "runs", "events"⟩ = "example.com:lab.runs.events" ∧
      s.tableRef "example.com:lab.runs.events" = .error (.connection (.tableName "example.com:lab.runs.events")) :=
  ⟨_, rfl, rfl, rfl, rfl⟩

theorem empty_parts_resolved :
    ∃ s, connect (settings "lab" ".") = .ok s ∧ s.tableRef "" = .ok ⟨"", "", ""⟩ :=
  ⟨_, rfl, rfl⟩

end Session

end BigQuerySql
