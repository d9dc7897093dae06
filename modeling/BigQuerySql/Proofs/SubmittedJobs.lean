import BigQuerySql.Proofs.Connections
import BigQuerySql.Proofs.FailingNodes

namespace BigQuerySql

namespace QueryJob

def requestedDefault (job : QueryJob) : Option (Option Json) :=
  job.request.obj?.bind fun members => Json.member? members "defaultDataset"

def DefaultsTo (job : QueryJob) (project dataset : String) : Prop :=
  job.requestedDefault = some (some (.obj [("datasetId", .str dataset), ("projectId", .str project)]))

theorem requestedDefault_eq (job : QueryJob) :
    job.requestedDefault =
      some (job.dataset.map fun d => .obj [("datasetId", .str d), ("projectId", .str job.billingProject)]) := by
  cases h : job.dataset <;> simp [requestedDefault, request, defaultDataset?, h, Json.obj?, Json.member?]

theorem defaultsTo_iff {job : QueryJob} {project dataset : String} :
    job.DefaultsTo project dataset ↔ job.billingProject = project ∧ job.dataset = some dataset := by
  simp [DefaultsTo, requestedDefault_eq, and_comm]

theorem no_default_iff {job : QueryJob} : job.requestedDefault = some none ↔ job.dataset = none := by
  simp [requestedDefault_eq]

end QueryJob

namespace Session

section Execute

variable {s : Session} {w : Warehouse} {jobId : String} {e : Expr} {params : Params}

theorem compile_ok_iff {q : CompiledQuery} :
    s.compile e params = .ok q ↔ (Compiler.bigQuery s.config.naming).compile e params = .ok q := by
  rw [compile]
  cases (Compiler.bigQuery s.config.naming).compile e params <;> simp [Except.mapError]

theorem execute_refused {error : ClientError} (h : s.compile e params = .error error) :
    s.execute w jobId e params = (.error error, w) := by
  simp [execute, h]

theorem execute_submits {q : CompiledQuery} (h : s.compile e params = .ok q) :
    s.execute w jobId e params =
      (match w.results.lookup q.sql with
        | some result => .ok ⟨jobId, result⟩
        | none => .error (.noResult q.sql),
       ⟨w.tables, w.results, w.jobs ++ [s.job jobId q]⟩) := by
  have hsql : (s.job jobId q).sql = q.sql := rfl
  simp only [execute, h, Warehouse.submit, hsql]
  cases w.results.lookup q.sql <;> rfl

theorem job_of_execute {job : QueryJob} (h : (s.execute w jobId e params).2.jobs = w.jobs ++ [job]) :
    ∃ q, s.compile e params = .ok q ∧ job = s.job jobId q := by
  cases hq : s.compile e params with
  | error error => simp [execute_refused hq] at h
  | ok q => exact ⟨q, rfl, by simpa [execute_submits hq, eq_comm] using h⟩

theorem cursor_of_execute {cursor : Cursor} :
    (s.execute w jobId e params).1 = .ok cursor ↔ cursor.jobId = jobId ∧
      ∃ q, s.compile e params = .ok q ∧ w.results.lookup q.sql = some cursor.result := by
  cases hq : s.compile e params with
  | error error => simp [execute_refused hq]
  | ok q =>
    rw [execute_submits hq]
    obtain ⟨ownId, result⟩ := cursor
    cases hresult : w.results.lookup q.sql with
    | none => simp [hresult]
    | some found => simp [hresult, eq_comm]

end Execute

/-- The request for a job and the look-up of tables agree on unqualified names just if the dataset is not qualified with
another project than the one that is billed. They always agree on the dataset and on whether there is one. -/
theorem unqualified_names_resolve_alike_iff {config : ClientConfig} {s : Session} (hs : connect config = .ok s)
    {w : Warehouse} {jobId : String} {e : Expr} {params : Params} {job : QueryJob}
    (hjob : (s.execute w jobId e params).2.jobs = w.jobs ++ [job]) {t : String} (ht : '.' ∉ t.toList) :
    ((∀ project dataset, job.DefaultsTo project dataset ↔ s.tableRef t = .ok ⟨project, dataset, t⟩) ↔
      ∀ project name, config.dataset = some (project ++ "." ++ name) → project = config.project) ∧
    (job.requestedDefault = some none ↔ ∃ error, s.tableRef t = .error error) ∧
    ∀ project dataset, job.DefaultsTo project dataset ↔
      project = config.project ∧ ∃ other, s.tableRef t = .ok ⟨other, dataset, t⟩ := by
  obtain ⟨-, -, hbilled, hreads⟩ := connect_ok_iff.mp hs
  obtain ⟨q, -, rfl⟩ := job_of_execute hjob
  have hdefault (project dataset : String) : (s.job jobId q).DefaultsTo project dataset ↔
      config.project = project ∧ s.location.dataset = some dataset := by
    rw [QueryJob.defaultsTo_iff, ← hbilled]
    rfl
  refine ⟨?_, ?_, fun project dataset => ?_⟩
  · rw [← hreads.qualified_iff]
    simp only [hdefault, tableRef_ok_iff ht]
    constructor
    · intro h hsome
      obtain ⟨dataset, hdataset⟩ := Option.isSome_iff_exists.mp hsome
      exact ((h config.project dataset).mp ⟨rfl, hdataset⟩).1
    · intro hown project dataset
      refine and_congr_left fun hdataset => ?_
      rw [hown (by simp [hdataset])]
  · rw [QueryJob.no_default_iff, tableRef_error_iff ht]
    rfl
  · simp [hdefault, tableRef_ok_iff ht, eq_comm]

def settings (project dataset : String) : ClientConfig :=
  ⟨project, some dataset, none, none, .generated⟩

def settled (project dataProject dataset : String) : Session :=
  ⟨settings project (dataProject ++ "." ++ dataset), dataProject, project, some dataset⟩

theorem connect_settled {project dataProject dataset : String} (hproject : project ≠ "")
    (hdata : '.' ∉ dataProject.toList) (hdataset : '.' ∉ dataset.toList) :
    connect (settings project (dataProject ++ "." ++ dataset)) = .ok (settled project dataProject dataset) :=
  connect_ok_iff.mpr ⟨hproject, rfl, rfl, .qualified rfl hdata hdataset⟩

def constant (i : Int64) : Expr := .literal (.int i) .int64

theorem compile_constant {i : Int64} {sql : String}
    (h : ((Compiler.ordered .generated).compile (constant i) []).toOption.map CompiledQuery.sql = some sql) :
    ∃ q, (Compiler.bigQuery .generated).compile (constant i) [] = .ok q ∧ q.sql = sql := by
  refine Compiler.compile_of_run ?_
  rw [Compiler.compile_ordered]
  exact h

theorem execute_constant (project dataProject dataset : String) :
    ∃ job, ((settled project dataProject dataset).execute .empty "job" (constant 1) []).2.jobs =
      Warehouse.empty.jobs ++ [job] := by
  obtain ⟨q, hq, -⟩ := @compile_constant 1 "SELECT 1 AS \x60tmp\x60" (by decide +kernel)
  have hcompiles : (settled project dataProject dataset).compile (constant 1) [] = .ok q := by
    rw [compile_ok_iff]
    exact hq
  exact ⟨_, by rw [execute_submits hcompiles]⟩

theorem own_project_resolves_alike :
    ∃ s job, connect (settings "lab" ("lab" ++ "." ++ "runs")) = .ok s ∧
      (s.execute .empty "job" (constant 1) []).2.jobs = Warehouse.empty.jobs ++ [job] ∧
      ∀ project dataset, job.DefaultsTo project dataset ↔ s.tableRef "events" = .ok ⟨project, dataset, "events"⟩ := by
  have hs : connect (settings "lab" ("lab" ++ "." ++ "runs")) = .ok (settled "lab" "lab" "runs") :=
    connect_settled (by decide) (by decide) (by decide)
  obtain ⟨job, hjob⟩ := execute_constant "lab" "lab" "runs"
  refine ⟨_, job, hs, hjob, (unqualified_names_resolve_alike_iff hs hjob (by decide)).1.mpr ?_⟩
  exact (ClientConfig.ReadsFrom.qualified (by rfl) (by decide) (by decide)).qualified_iff.mp fun _ => rfl

theorem other_project_resolves_elsewhere :
    ∃ s job, connect (settings "billing-proj" ("data-proj" ++ "." ++ "analytics")) = .ok s ∧
      (s.execute .empty "job" (constant 1) []).2.jobs = Warehouse.empty.jobs ++ [job] ∧
      job.DefaultsTo "billing-proj" "analytics" ∧
      s.tableRef "events" = .ok ⟨"data-proj", "analytics", "events"⟩ := by
  have hs : connect (settings "billing-proj" ("data-proj" ++ "." ++ "analytics")) =
      .ok (settled "billing-proj" "data-proj" "analytics") :=
    connect_settled (by decide) (by decide) (by decide)
  obtain ⟨job, hjob⟩ := execute_constant "billing-proj" "data-proj" "analytics"
  obtain ⟨q, -, rfl⟩ := job_of_execute hjob
  exact ⟨_, _, hs, hjob, QueryJob.defaultsTo_iff.mpr ⟨rfl, rfl⟩, (tableRef_ok_iff (by decide)).mpr ⟨rfl, rfl⟩⟩

end Session

inductive Call where
  | execute (jobId : String) (e : Expr) (params : Params)
  | compile (e : Expr) (params : Params)
  | table (name : String)
  | tableRef (name : String)

inductive Reply where
  | cursor (answer : Except ClientError Cursor)
  | query (answer : Except ClientError CompiledQuery)
  | scan (answer : Except ClientError Expr)
  | reference (answer : Except ClientError TableRef)

namespace ClientConfig

def expectedJob? (c : ClientConfig) (dataset : Option String) : Call → Option QueryJob
  | .execute jobId e params =>
    match (Compiler.bigQuery c.naming).compile e params with
    | .ok q => some ⟨jobId, c.project, dataset, q.sql, q.parameters, c.userAgent⟩
    | .error _ => none
  | _ => none

variable {c : ClientConfig} {dataset : Option String} {jobId : String} {e : Expr} {params : Params}

theorem expectedJob_ok {q : CompiledQuery} (h : (Compiler.bigQuery c.naming).compile e params = .ok q) :
    c.expectedJob? dataset (.execute jobId e params) =
      some ⟨jobId, c.project, dataset, q.sql, q.parameters, c.userAgent⟩ := by
  simp [expectedJob?, h]

theorem expectedJob_error {error : SqlError} (h : (Compiler.bigQuery c.naming).compile e params = .error error) :
    c.expectedJob? dataset (.execute jobId e params) = none := by
  simp [expectedJob?, h]

end ClientConfig

namespace Session

def reply (s : Session) (w : Warehouse) : Call → Reply × Warehouse
  | .execute jobId e params =>
    let (answer, w) := s.execute w jobId e params
    (.cursor answer, w)
  | .compile e params => (.query (s.compile e params), w)
  | .table name => (.scan (s.table w name), w)
  | .tableRef name => (.reference (s.tableRef name), w)

def run (s : Session) (w : Warehouse) : List Call → List Reply × Warehouse
  | [] => ([], w)
  | call :: rest =>
    let (answer, w) := s.reply w call
    let (answers, w) := s.run w rest
    (answer :: answers, w)

section Run

variable {config : ClientConfig} {s : Session}

theorem reply_warehouse (hs : connect config = .ok s) (w : Warehouse) (call : Call) :
    (s.reply w call).2 =
      ⟨w.tables, w.results, w.jobs ++ (config.expectedJob? s.location.dataset call).toList⟩ := by
  obtain ⟨-, rfl, hbilled, -⟩ := connect_ok_iff.mp hs
  cases call with
  | execute jobId e params =>
    cases hq : (Compiler.bigQuery s.config.naming).compile e params with
    | error error =>
      have hrefused : s.compile e params = .error (.sql error) := by simp [compile, hq, Except.mapError]
      simp [reply, execute_refused hrefused, ClientConfig.expectedJob_error hq]
    | ok q => simp [reply, execute_submits (compile_ok_iff.mpr hq), ClientConfig.expectedJob_ok hq, job, hbilled]
  | compile e params => simp [reply, ClientConfig.expectedJob?]
  | table name => simp [reply, ClientConfig.expectedJob?]
  | tableRef name => simp [reply, ClientConfig.expectedJob?]

theorem reply_answer (w : Warehouse) (jobs : List QueryJob) (call : Call) :
    (s.reply ⟨w.tables, w.results, jobs⟩ call).1 = (s.reply w call).1 := by
  cases call with
  | execute jobId e params =>
    cases hq : s.compile e params with
    | error error => simp [reply, execute_refused hq]
    | ok q => simp [reply, execute_submits hq]
  | compile e params => rfl
  | table name => rfl
  | tableRef name => rfl

theorem run_warehouse (hs : connect config = .ok s) (w : Warehouse) (calls : List Call) :
    (s.run w calls).2 =
      ⟨w.tables, w.results, w.jobs ++ calls.filterMap (config.expectedJob? s.location.dataset)⟩ := by
  induction calls generalizing w with
  | nil => simp [run]
  | cons call rest ih =>
    simp only [run, ih, reply_warehouse hs]
    cases hjob : config.expectedJob? s.location.dataset call <;> simp [hjob]

theorem run_answers (hs : connect config = .ok s) (w : Warehouse) (calls : List Call) :
    (s.run w calls).1 = calls.map fun call => (s.reply w call).1 := by
  induction calls generalizing w with
  | nil => rfl
  | cons call rest ih =>
    simp only [run, ih, reply_warehouse hs, reply_answer, List.map_cons]

end Run

/-- After any run of calls the log holds, in order, one job for each query that compiles, whatever became of it, and
a query is answered with a cursor just if it compiles and there is a result for its statement. -/
theorem run_logs_compiled_queries {config : ClientConfig} {s : Session} (hs : connect config = .ok s) (w : Warehouse)
    (calls : List Call) :
    (∃ project dataset, config.ReadsFrom project dataset ∧
      (s.run w calls).2 =
        ⟨w.tables, w.results, w.jobs ++ calls.filterMap (config.expectedJob? dataset)⟩) ∧
    (s.run w calls).1.length = calls.length ∧
    ∀ (i : Nat) (jobId : String) (e : Expr) (params : Params), calls[i]? = some (.execute jobId e params) →
      ∃ answer : Except ClientError Cursor, (s.run w calls).1[i]? = some (.cursor answer) ∧
        ∀ cursor, answer = .ok cursor ↔ cursor.jobId = jobId ∧
          ∃ q, (Compiler.bigQuery config.naming).compile e params = .ok q ∧
            w.results.lookup q.sql = some cursor.result := by
  obtain ⟨-, rfl, -, hreads⟩ := connect_ok_iff.mp hs
  refine ⟨⟨_, _, hreads, run_warehouse hs w calls⟩, by simp [run_answers hs], ?_⟩
  intro i jobId e params hcall
  refine ⟨(s.execute w jobId e params).1, ?_, fun cursor => ?_⟩
  · rw [run_answers hs, List.getElem?_map, hcall]
    rfl
  · simp only [cursor_of_execute, compile_ok_iff]

def stocked : Warehouse :=
  Warehouse.empty.addResult "SELECT 1 AS \x60tmp\x60" ⟨["tmp"], [[.int 1]], 1⟩

def calls : List Call :=
  [.tableRef "events", .execute "a" (constant 1) [], .execute "b" Compiler.initials [], .compile (constant 2) [],
    .execute "c" (constant 2) []]

theorem calls_logged :
    ∃ s, connect (settings "billing-proj" ("data-proj" ++ "." ++ "analytics")) = .ok s ∧
      ((s.run stocked calls).2.jobs.map fun job => (job.id, job.billingProject, job.sql)) =
        [("a", "billing-proj", "SELECT 1 AS \x60tmp\x60"), ("c", "billing-proj", "SELECT 2 AS \x60tmp\x60")] ∧
      (s.run stocked calls).1[1]? = some (.cursor (.ok ⟨"a", ["tmp"], [[.int 1]], 1⟩)) ∧
      ∀ cursor, (s.run stocked calls).1[4]? ≠ some (.cursor (.ok cursor)) := by
  have hs : connect (settings "billing-proj" ("data-proj" ++ "." ++ "analytics")) =
      .ok (settled "billing-proj" "data-proj" "analytics") :=
    connect_settled (by decide) (by decide) (by decide)
  obtain ⟨q, hq, hsql⟩ := @compile_constant 1 "SELECT 1 AS \x60tmp\x60" (by decide +kernel)
  obtain ⟨r, hr, hsql'⟩ := @compile_constant 2 "SELECT 2 AS \x60tmp\x60" (by decide +kernel)
  have hfails : (Compiler.bigQuery .generated).compile Compiler.initials [] =
      .error (.notImplemented (.kind (.call .capitalize))) :=
    Compiler.compile_of_failsWith (by decide +kernel)
  have hnaming : (settings "billing-proj" ("data-proj" ++ "." ++ "analytics")).naming = .generated := rfl
  rw [← hnaming] at hq hr hfails
  obtain ⟨⟨project, dataset, -, hrun⟩, -, hcursor⟩ := run_logs_compiled_queries hs stocked calls
  refine ⟨_, hs, ?_, ?_, fun cursor hlast => ?_⟩
  · -- evaluating the calls by simplification makes the kernel compile them again
    rw [hrun, calls, List.filterMap_cons_none rfl, List.filterMap_cons_some (ClientConfig.expectedJob_ok hq),
      List.filterMap_cons_none (ClientConfig.expectedJob_error hfails), List.filterMap_cons_none rfl,
      List.filterMap_cons_some (ClientConfig.expectedJob_ok hr), hsql, hsql']
    rfl
  · obtain ⟨answer, hanswer, hok⟩ := hcursor 1 "a" (constant 1) [] rfl
    have hresult : stocked.results.lookup q.sql = some ⟨["tmp"], [[.int 1]], 1⟩ := by rw [hsql]; rfl
    rw [hanswer, (hok ⟨"a", ["tmp"], [[.int 1]], 1⟩).mpr ⟨rfl, q, hq, hresult⟩]
  · obtain ⟨answer, hanswer, hok⟩ := hcursor 4 "c" (constant 2) [] rfl
    obtain rfl : answer = .ok cursor := by simpa [hanswer] using hlast
    obtain ⟨-, other, hother, hresult⟩ := (hok cursor).mp rfl
    obtain rfl : other = r := Except.ok.inj (hother.symm.trans hr)
    rw [hsql'] at hresult
    simp [stocked, Warehouse.addResult, Warehouse.empty, List.lookup_cons] at hresult

end Session

end BigQuerySql
