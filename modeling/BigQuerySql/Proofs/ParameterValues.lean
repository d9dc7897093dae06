import BigQuerySql.Proofs.RecordedParameters

namespace BigQuerySql

theorem Expr.mem_scalarParameters_of_mentions {e : Expr} {name : String}
    (h : Mentions .declared e (.parameter name)) : name ∈ e.scalarParameters.map Prod.fst := by
  rw [mem_scalarParameters]
  induction e using Expr.induction_on with
  | step e ih =>
    cases h with
    | own h =>
      refine ⟨e, by simp [nodes_eq e], ?_⟩
      rw [ownNames] at h
      split at h <;> simp_all
    | operand hx h =>
      obtain ⟨y, hy, hop⟩ := ih _ hx h
      rw [nodes_eq]
      exact ⟨y, List.mem_cons_of_mem _ (List.mem_flatMap.mpr ⟨_, hx, hy⟩), hop⟩

namespace Compiler

variable {c : Compiler} {p q : Params}

theorem placeholder_congr {name : String} (h : (p.lookup name).isSome = (q.lookup name).isSome) (dtype : DataType) :
    (c.target p).placeholder name dtype = (c.target q).placeholder name dtype := by
  funext ctx
  simp only [target]
  cases hp : p.lookup name <;> cases hq : q.lookup name <;> simp [hp, hq] at h ⊢

theorem takeStep_supplied {write other : Expr → Render String} {s : Step}
    (hwrite : ∀ x, s.expr? = some x → write x = other x)
    (hname : ∀ name dtype, s = .parameter name dtype → (p.lookup name).isSome = (q.lookup name).isSome) :
    (c.target p).takeStep write s = (c.target q).takeStep other s := by
  rw [(c.target p).takeStep_congr hwrite]
  cases s with
  | parameter name dtype => exact placeholder_congr (hname name dtype rfl) dtype
  | _ => rfl

theorem renderWithin_supplied (n : Nat) {e : Expr}
    (h : ∀ name, Mentions .declared e (.parameter name) → (p.lookup name).isSome = (q.lookup name).isSome) :
    (c.target p).renderWithin n e = (c.target q).renderWithin n e := by
  induction n generalizing e with
  | zero => rfl
  | succ n ih =>
    have hformatters : (c.target p).formatters = (c.target q).formatters := rfl
    simp only [Target.renderWithin, hformatters]
    cases (c.target q).formatters.get? e.kind with
    | none => rfl
    | some f =>
      have hsteps : (f.layout e).steps.mapM ((c.target p).takeStep ((c.target p).renderWithin n)) =
          (f.layout e).steps.mapM ((c.target q).takeStep ((c.target q).renderWithin n)) := by
        refine mapM_congr fun s hs => takeStep_supplied (fun x hx => ih fun name hname => h name ?_) ?_
        · exact mentions_of_layout (List.mem_filterMap.mpr ⟨s, hs, hx⟩) hname
        · rintro name dtype rfl
          exact h name (.own (by simp [Expr.ownNames, f.op_of_parameter hs]))
      simp only [hsteps]

theorem bindAll_congr {ctx : Context} (h : ∀ slot ∈ ctx.slots, p.lookup slot.declared = q.lookup slot.declared) :
    ctx.bindAll p = ctx.bindAll q :=
  mapM_congr fun slot hslot => by rw [h slot hslot]

section Compile

variable {e : Expr}

theorem mem_scalarParameters_of_lower {name : String} (h : Mentions .declared (e.lower c.rules) (.parameter name)) :
    name ∈ e.scalarParameters.map Prod.fst :=
  Expr.mem_scalarParameters_of_mentions (mentions_lowerWithin h)

theorem render_supplied
    (h : ∀ name ∈ e.scalarParameters.map Prod.fst, (p.lookup name).isSome = (q.lookup name).isSome) :
    (c.target p).render (e.lower c.rules) = (c.target q).render (e.lower c.rules) :=
  renderWithin_supplied _ fun name hname => h name (mem_scalarParameters_of_lower hname)

theorem bindAll_supplied {body : String} {ctx : Context}
    (hrun : (c.target p).render (e.lower c.rules) .start = .ok (body, ctx))
    (h : ∀ name ∈ e.scalarParameters.map Prod.fst, p.lookup name = q.lookup name) :
    ctx.bindAll p = ctx.bindAll q := by
  obtain ⟨written, hwritten, hctx⟩ := recorded_of_render hrun
  refine bindAll_congr fun slot hslot => ?_
  obtain ⟨w, hw, hdeclared⟩ := List.mem_map.mp (Context.declared_of_entries hctx.firsts hslot)
  rw [← hdeclared]
  exact h w.1 (mem_scalarParameters_of_lower (hwritten w hw))

end Compile

/-- Compiling reads only the values of the parameters that the expression names, and the text depends only on which of
them there are. -/
theorem values_leave_sql_unchanged (c : Compiler) (e : Expr) (p q : Params) :
    ((∀ name ∈ e.scalarParameters.map Prod.fst, p.lookup name = q.lookup name) → c.compile e p = c.compile e q) ∧
    ((∀ name ∈ e.scalarParameters.map Prod.fst, (p.lookup name).isSome = (q.lookup name).isSome) →
      ∀ a b, c.compile e p = .ok a → c.compile e q = .ok b →
        a.sql = b.sql ∧ a.parameters.map QueryParameter.name = b.parameters.map QueryParameter.name) := by
  constructor
  · intro h
    have hrender : (c.target p).render (e.lower c.rules) = (c.target q).render (e.lower c.rules) :=
      render_supplied fun name hname => by rw [h name hname]
    simp only [compile, StateT.run, ← hrender]
    cases hrun : (c.target p).render (e.lower c.rules) .start with
    | error error => rfl
    | ok run =>
      obtain ⟨body, ctx⟩ := run
      have hbind : ctx.bindAll p = ctx.bindAll q := bindAll_supplied hrun h
      simp only [bind, Except.bind, hbind]
  · intro h a b ha hb
    obtain ⟨body, ctx, hrun, hbind, hsql⟩ := compile_ok_iff.mp ha
    obtain ⟨body', ctx', hrun', hbind', hsql'⟩ := compile_ok_iff.mp hb
    rw [render_supplied h, hrun'] at hrun
    obtain ⟨rfl, rfl⟩ : body' = body ∧ ctx' = ctx := by simpa using hrun
    rw [hsql, hsql', names_of_bindAll hbind, names_of_bindAll hbind']
    exact ⟨rfl, rfl⟩

theorem twiceWritten_unchanged :
    (bigQuery .generated).compile twiceWritten [("b", .int 2), ("c", .null), ("a", .int 1)] =
      (bigQuery .generated).compile twiceWritten twiceWrittenParams ∧
    ∃ a b, (bigQuery .generated).compile twiceWritten twiceWrittenParams = .ok a ∧
      (bigQuery .generated).compile twiceWritten [("b", .int 7), ("a", .int 5)] = .ok b ∧ a.sql = b.sql ∧
      a.parameters.map QueryParameter.name = b.parameters.map QueryParameter.name := by
  have hcompiles (params : Params) (h : params = twiceWrittenParams ∨ params = [("b", .int 7), ("a", .int 5)]) :
      ∃ q, (bigQuery .generated).compile twiceWritten params = .ok q ∧ q.parameters.length = 2 := by
    refine compile_of_run ?_
    rw [compile_ordered]
    rcases h with rfl | rfl <;> decide +kernel
  obtain ⟨a, ha, -⟩ := hcompiles _ (.inl rfl)
  obtain ⟨b, hb, -⟩ := hcompiles _ (.inr rfl)
  have hnames : twiceWritten.scalarParameters.map Prod.fst = ["b", "a"] := by decide
  refine ⟨(values_leave_sql_unchanged _ _ _ _).1 ?_, a, b, ha, hb,
    (values_leave_sql_unchanged _ _ _ _).2 ?_ a b ha hb⟩
  all_goals
    rw [hnames]
    intro name hname
    obtain rfl | rfl : name = "b" ∨ name = "a" := by simpa using hname
    · rfl
    · rfl

end Compiler

end BigQuerySql
