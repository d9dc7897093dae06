import BigQuerySql.Proofs.Rendering
import BigQuerySql.Warehouse.Session

namespace BigQuerySql

namespace Text

variable {sep : Char}

theorem splitAt_free {part : List Char} (h : sep ∉ part) : splitAt sep part = [part] := by
  induction part with
  | nil => rfl
  | cons c rest ih =>
    obtain ⟨hc, hrest⟩ : sep ≠ c ∧ sep ∉ rest := by simpa using h
    rw [splitAt, if_neg hc.symm, ih hrest]

theorem splitAt_append {part : List Char} (h : sep ∉ part) (rest : List Char) :
    splitAt sep (part ++ sep :: rest) = part :: splitAt sep rest := by
  induction part with
  | nil => simp [splitAt]
  | cons c part ih =>
    obtain ⟨hc, hpart⟩ : sep ≠ c ∧ sep ∉ part := by simpa using h
    rw [List.cons_append, splitAt, if_neg hc.symm, ih hpart]

theorem splitAt_intercalate {parts : List (List Char)} (hne : parts ≠ []) (h : ∀ part ∈ parts, sep ∉ part) :
    splitAt sep ([sep].intercalate parts) = parts := by
  induction parts with
  | nil => exact absurd rfl hne
  | cons part rest ih =>
    rw [List.forall_mem_cons] at h
    cases rest with
    | nil => simpa [List.intercalate] using splitAt_free h.1
    | cons next rest =>
      have hjoin : [sep].intercalate (part :: next :: rest) = part ++ sep :: [sep].intercalate (next :: rest) := by
        simp [List.intercalate]
      rw [hjoin, splitAt_append h.1, ih (by simp) h.2]

theorem splitAt_joins (cs : List Char) :
    splitAt sep cs ≠ [] ∧ cs = [sep].intercalate (splitAt sep cs) ∧ ∀ part ∈ splitAt sep cs, sep ∉ part := by
  induction cs with
  | nil => simp [splitAt]
  | cons c cs ih =>
    obtain ⟨hne, hjoin, hfree⟩ := ih
    obtain ⟨part, parts, hparts⟩ := List.exists_cons_of_ne_nil hne
    rw [hparts] at hjoin hfree
    rw [List.forall_mem_cons] at hfree
    by_cases hc : c = sep
    · rw [splitAt, if_pos hc, hparts]
      refine ⟨by simp, ?_, by simpa using hfree⟩
      rw [hjoin, hc]
      simp [List.intercalate]
    · rw [splitAt, if_neg hc, hparts]
      refine ⟨by simp, ?_, by simpa [Ne.symm hc] using hfree⟩
      rw [hjoin]
      cases parts <;> simp [List.intercalate]

theorem split_eq_iff {s : String} {parts : List String} :
    split sep s = parts ↔
      parts ≠ [] ∧ s = (String.singleton sep).intercalate parts ∧ ∀ part ∈ parts, sep ∉ part.toList := by
  constructor
  · rintro rfl
    obtain ⟨hne, hjoin, hfree⟩ := @splitAt_joins sep s.toList
    refine ⟨by simpa [split] using hne, ?_, by simpa [split] using hfree⟩
    rw [← String.toList_inj, String.toList_intercalate, split]
    simpa [Function.comp_def] using hjoin
  · rintro ⟨hne, rfl, hfree⟩
    rw [split, String.toList_intercalate, String.toList_singleton, splitAt_intercalate]
    · simp [Function.comp_def]
    · simpa using hne
    · simpa using hfree

theorem split_eq_one {s a : String} : split sep s = [a] ↔ s = a ∧ sep ∉ a.toList := by
  simp [split_eq_iff]

theorem split_eq_two {s a b : String} :
    split '.' s = [a, b] ↔ s = a ++ "." ++ b ∧ '.' ∉ a.toList ∧ '.' ∉ b.toList := by
  simp [split_eq_iff]

end Text

inductive ClientConfig.ReadsFrom (c : ClientConfig) : String → Option String → Prop where
  | unset (h : c.dataset.getD "" = "") : ReadsFrom c c.project none
  | plain {name : String} (h : c.dataset = some name) (hname : name ≠ "") (hfree : '.' ∉ name.toList) :
      ReadsFrom c c.project (some name)
  | qualified {project name : String} (h : c.dataset = some (project ++ "." ++ name)) (hproject : '.' ∉ project.toList)
      (hname : '.' ∉ name.toList) : ReadsFrom c project (some name)

theorem ClientConfig.dataset_of_getD {c : ClientConfig} {name : String} (h : c.dataset.getD "" = name)
    (hname : name ≠ "") : c.dataset = some name := by
  cases hd : c.dataset with
  | none => exact absurd (by simpa [hd] using h) (Ne.symm hname)
  | some dataset => simpa [hd] using h

namespace Location

theorem ofNames_ok_iff {c : ClientConfig} {l : Location} :
    ofNames c.project (c.dataset.getD "") = .ok l ↔
      l.billingProject = c.project ∧ c.ReadsFrom l.dataProject l.dataset := by
  constructor
  · intro h
    rw [ofNames] at h
    split at h
    next name hsplit =>
      obtain ⟨hname, hfree⟩ := Text.split_eq_one.mp hsplit
      obtain rfl := Except.ok.inj h
      by_cases hempty : name = ""
      · subst hempty
        exact ⟨rfl, .unset hname⟩
      · have hplain := ClientConfig.ReadsFrom.plain (c.dataset_of_getD hname hempty) hempty hfree
        simpa [String.isEmpty_iff, hempty] using hplain
    next project name hsplit =>
      obtain ⟨hname, hproject, hfree⟩ := Text.split_eq_two.mp hsplit
      obtain rfl := Except.ok.inj h
      exact ⟨rfl, .qualified (c.dataset_of_getD hname (by simp)) hproject hfree⟩
    next => cases h
  · obtain ⟨dataProject, billingProject, dataset⟩ := l
    rintro ⟨rfl, hreads⟩
    rw [ofNames]
    cases hreads with
    | unset h =>
      rw [h]
      rfl
    | plain h hname hfree =>
      rw [h, Option.getD_some, Text.split_eq_one.mpr ⟨rfl, hfree⟩]
      simp [String.isEmpty_iff, hname]
    | qualified h hproject hname => rw [h, Option.getD_some, Text.split_eq_two.mpr ⟨rfl, hproject, hname⟩]

end Location

theorem ClientConfig.ReadsFrom.eq_of_qualified {c : ClientConfig} {project other name : String}
    {dataset : Option String} (h : c.ReadsFrom project dataset)
    (hqualified : c.dataset = some (other ++ "." ++ name)) :
    project = other ∧ dataset = some name ∧ '.' ∉ project.toList := by
  have hdot : ".".toList = ['.'] := rfl
  cases h with
  | unset h => simp [hqualified] at h
  | plain h _ hfree =>
    obtain rfl : _ = other ++ "." ++ name := by simpa [h] using hqualified
    simp [hdot] at hfree
  | @qualified project own h hproject hname =>
    have htext : project ++ "." ++ own = other ++ "." ++ name := by simpa [h] using hqualified
    obtain ⟨hother, hown⟩ : project.toList = other.toList ∧ own.toList = name.toList := by
      simpa [hdot, List.append_cons_inj_of_notMem hproject hname] using congrArg String.toList htext
    exact ⟨String.toList_inj.mp hother, congrArg some (String.toList_inj.mp hown), hproject⟩

theorem ClientConfig.ReadsFrom.qualified_iff {config : ClientConfig} {project : String} {dataset : Option String}
    (h : config.ReadsFrom project dataset) :
    (dataset.isSome → project = config.project) ↔
      ∀ other name, config.dataset = some (other ++ "." ++ name) → other = config.project := by
  constructor
  · intro hown other name hqualified
    obtain ⟨rfl, rfl, -⟩ := h.eq_of_qualified hqualified
    exact hown rfl
  · intro hown hsome
    cases h with
    | unset => cases hsome
    | plain => rfl
    | qualified h => exact hown _ _ h

namespace Session

theorem connect_ok_iff {config : ClientConfig} {s : Session} :
    connect config = .ok s ↔ config.project ≠ "" ∧ s.config = config ∧ s.location.billingProject = config.project ∧
      config.ReadsFrom s.location.dataProject s.location.dataset := by
  rw [← Location.ofNames_ok_iff]
  obtain ⟨config', l⟩ := s
  by_cases hproject : config.project = ""
  · simp [connect, hproject, throw, throwThe, MonadExceptOf.throw, bind, Except.bind]
  · have hconnect : connect config =
        Location.ofNames config.project (config.dataset.getD "") >>= fun l => .ok ⟨config, l⟩ := by
      simp [connect, String.isEmpty_iff, hproject, pure, Except.pure]
    rw [hconnect, except_bind_ok]
    simp [hproject, and_comm, eq_comm]

variable {s : Session}

theorem tableRef_free {t : String} (ht : '.' ∉ t.toList) :
    s.tableRef t = match s.location.dataset with
      | some dataset => .ok ⟨s.location.dataProject, dataset, t⟩
      | none => .error (.connection (.noDataset t)) := by
  have hsplit : Text.split '.' t = [t] := Text.split_eq_one.mpr ⟨rfl, ht⟩
  cases hdataset : s.location.dataset <;> simp [tableRef, hsplit, hdataset]

theorem tableRef_ok_iff {t project dataset : String} (ht : '.' ∉ t.toList) :
    s.tableRef t = .ok ⟨project, dataset, t⟩ ↔
      s.location.dataProject = project ∧ s.location.dataset = some dataset := by
  rw [tableRef_free ht]
  cases s.location.dataset <;> simp

theorem tableRef_error_iff {t : String} (ht : '.' ∉ t.toList) :
    (∃ error, s.tableRef t = .error error) ↔ s.location.dataset = none := by
  rw [tableRef_free ht]
  cases s.location.dataset <;> simp

end Session

end BigQuerySql
