import BigQuerySql.Proofs.ContentErrors
import BigQuerySql.Proofs.WrittenParameters

/-!
What a run has recorded of its parameters, at every moment. A plain run that fails returns no context; a watched one
keeps its context and its past, and ends as the plain one does.
-/

namespace BigQuerySql

namespace Expr

theorem firstByKey_append {γ : Type} (entries : List (String × γ)) (e : String × γ) :
    firstByKey (entries ++ [e]) =
      if e.1 ∈ (firstByKey entries).map Prod.fst then firstByKey entries else firstByKey entries ++ [e] := by
  have hstep (kept : List (String × γ)) : (if kept.any (·.1 == e.1) then kept else e :: kept).reverse =
      if e.1 ∈ kept.reverse.map Prod.fst then kept.reverse else kept.reverse ++ [e] := by
    have hany : kept.any (·.1 == e.1) = true ↔ e.1 ∈ kept.reverse.map Prod.fst := by simp
    by_cases hkey : e.1 ∈ kept.reverse.map Prod.fst
    · rw [if_pos (hany.mpr hkey), if_pos hkey]
    · rw [if_neg (mt hany.mp hkey), if_neg hkey, List.reverse_cons]
  rw [firstByKey, List.foldl_append]
  exact hstep _

theorem nodup_keys_firstByKey {γ : Type} (entries : List (String × γ)) :
    ((firstByKey entries).map Prod.fst).Nodup := by
  induction entries using List.reverseRecOn with
  | nil => exact List.nodup_nil
  | append_singleton entries e ih =>
    rw [firstByKey_append]
    split
    next => exact ih
    next hkey =>
      rw [List.map_append, List.nodup_append]
      refine ⟨ih, by simp, ?_⟩
      rintro key hfirst _ hlast rfl
      obtain rfl : key = e.1 := by simpa using hlast
      exact hkey hfirst

end Expr

structure Moment where
  -- the parameter that has just been written, and the context after it
  written : String × DataType
  ctx : Context

namespace Context

variable {naming : ParamNaming}

def placeAll (ctx : Context) (naming : ParamNaming) (written : List (String × DataType)) : Context :=
  written.foldl (fun ctx w => (ctx.place naming w.1 w.2).2) ctx

theorem placeAll_append (ctx : Context) (first second : List (String × DataType)) :
    ctx.placeAll naming (first ++ second) = (ctx.placeAll naming first).placeAll naming second :=
  List.foldl_append

theorem slots_place (ctx : Context) (name : String) (dtype : DataType) :
    ctx.slots <+: (ctx.place naming name dtype).2.slots := by
  cases hfind : ctx.find? name with
  | some slot => simp [place_again hfind]
  | none => cases naming <;> simp [place, hfind]

theorem entries_placeAll (written : List (String × DataType)) :
    (start.placeAll naming written).entries = Expr.firstByKey written := by
  induction written using List.reverseRecOn with
  | nil => rfl
  | append_singleton written w ih =>
    have hplace : start.placeAll naming (written ++ [w]) = ((start.placeAll naming written).place naming w.1 w.2).2 :=
      placeAll_append _ _ _
    rw [hplace, entries_place, ih, Expr.firstByKey_append]

theorem declared_of_entries {ctx : Context} {written : List (String × DataType)}
    (h : ctx.entries = Expr.firstByKey written) {slot : Slot} (hslot : slot ∈ ctx.slots) :
    slot.declared ∈ written.map Prod.fst := by
  rw [← Expr.mem_keys_firstByKey, ← h, keys_entries]
  exact List.mem_map_of_mem hslot

def history (ctx : Context) (naming : ParamNaming) : List (String × DataType) → List Moment
  | [] => []
  | w :: rest => ⟨w, (ctx.place naming w.1 w.2).2⟩ :: (ctx.place naming w.1 w.2).2.history naming rest

theorem history_append (ctx : Context) (first second : List (String × DataType)) :
    ctx.history naming (first ++ second) =
      ctx.history naming first ++ (ctx.placeAll naming first).history naming second := by
  induction first generalizing ctx with
  | nil => rfl
  | cons w rest ih => exact congrArg _ (ih _)

theorem history_split {ctx : Context} {written : List (String × DataType)} {before after : List Moment} {m : Moment}
    (h : ctx.history naming written = before ++ m :: after) :
    ((before ++ [m]).map Moment.written) <+: written ∧
      m.ctx = ctx.placeAll naming ((before ++ [m]).map Moment.written) := by
  induction written generalizing ctx before with
  | nil => simp [history] at h
  | cons w rest ih =>
    cases before with
    | nil =>
      obtain ⟨rfl, -⟩ := List.cons.inj h
      exact ⟨List.prefix_append [w] rest, rfl⟩
    | cons first before =>
      obtain ⟨rfl, hrest⟩ := List.cons.inj h
      obtain ⟨hearlier, hctx⟩ := ih hrest
      exact ⟨List.cons_prefix_cons.mpr ⟨rfl, hearlier⟩, hctx⟩

theorem slots_history (ctx : Context) (written : List (String × DataType)) :
    (∀ m ∈ ctx.history naming written, ctx.slots <+: m.ctx.slots) ∧
      (ctx.history naming written).Pairwise fun m later => m.ctx.slots <+: later.ctx.slots := by
  induction written generalizing ctx with
  | nil => exact ⟨by simp [history], .nil⟩
  | cons w rest ih =>
    obtain ⟨hrest, hpairs⟩ := ih (ctx.place naming w.1 w.2).2
    have hplace : ctx.slots <+: (ctx.place naming w.1 w.2).2.slots := ctx.slots_place w.1 w.2
    exact ⟨List.forall_mem_cons.mpr ⟨hplace, fun m hm => hplace.trans (hrest m hm)⟩, .cons hrest hpairs⟩

theorem placeAll_eq_last (ctx : Context) (written : List (String × DataType)) :
    ctx.placeAll naming written = ((ctx.history naming written).getLast?.map Moment.ctx).getD ctx := by
  cases written using List.reverseRecOn with
  | nil => rfl
  | append_singleton written w =>
    rw [history_append, placeAll_append]
    simp [history, placeAll]

structure Recorded (naming : ParamNaming) (params : Params) (written : List (String × DataType)) (ctx : Context) :
    Prop where
  firsts : ctx.entries = Expr.firstByKey written
  distinct : (ctx.slots.map Slot.placeholder).Nodup
  supplied : ∀ slot ∈ ctx.slots, (params.lookup slot.declared).isSome
  named : naming = .declared → ctx.slots.map Slot.placeholder = ctx.slots.map Slot.declared
  numbered : naming = .generated → ctx.generated = ctx.slots.length ∧
    ctx.slots.map Slot.placeholder = (List.range ctx.slots.length).map generatedName

end Context

namespace Compiler

variable {c : Compiler} {params : Params}

theorem placeholder_supplied {name : String} {v : Value} (hv : params.lookup name = some v) (dtype : DataType)
    (ctx : Context) :
    (c.target params).placeholder name dtype ctx =
      .ok ("@" ++ (ctx.place c.naming name dtype).1, (ctx.place c.naming name dtype).2) := by
  simp only [target, hv]

theorem reached_placeAll {written : List (String × DataType)} (h : ∀ w ∈ written, (params.lookup w.1).isSome) :
    (c.target params).Reached (Context.start.placeAll c.naming written) := by
  induction written using List.reverseRecOn with
  | nil => exact .start
  | append_singleton written w ih =>
    obtain ⟨v, hv⟩ := Option.isSome_iff_exists.mp (h w (by simp))
    rw [Context.placeAll_append]
    refine .place (ih fun other hother => h other ?_) (placeholder_supplied hv w.2 _)
    exact List.mem_append_left _ hother

theorem withNaming_naming (c : Compiler) : c.withNaming c.naming = c := rfl

theorem recorded_placeAll {written : List (String × DataType)} (h : ∀ w ∈ written, (params.lookup w.1).isSome) :
    (Context.start.placeAll c.naming written).Recorded c.naming params written := by
  have hreached : (c.target params).Reached (Context.start.placeAll c.naming written) := reached_placeAll h
  have hfirsts : (Context.start.placeAll c.naming written).entries = Expr.firstByKey written :=
    Context.entries_placeAll written
  generalize Context.start.placeAll c.naming written = ctx at hreached hfirsts
  have hnamed (hc : c.naming = .declared) : ctx.slots.map Slot.placeholder = ctx.slots.map Slot.declared := by
    have hplaces := reached_places hreached
    rw [hc] at hplaces
    exact List.map_congr_left hplaces
  have hnumbered (hc : c.naming = .generated) : ctx.generated = ctx.slots.length ∧
      ctx.slots.map Slot.placeholder = (List.range ctx.slots.length).map generatedName := by
    rw [← withNaming_naming c, hc] at hreached
    obtain ⟨hcount, hplaceholders, -⟩ := generated_reached c hreached
    exact ⟨hcount, hplaceholders⟩
  refine ⟨hfirsts, ?_, ?_, hnamed, hnumbered⟩
  -- declared placeholders differ since the names do, generated ones by their numbers
  · cases hc : c.naming with
    | declared =>
      rw [hnamed hc, ← ctx.keys_entries, hfirsts]
      exact Expr.nodup_keys_firstByKey written
    | generated =>
      rw [(hnumbered hc).2]
      exact List.nodup_range.map generatedName_injective
  · intro slot hslot
    obtain ⟨w, hw, hdeclared⟩ := List.mem_map.mp (Context.declared_of_entries hfirsts hslot)
    rw [← hdeclared]
    exact h w hw

end Compiler

abbrev Watched := ExceptT SqlError (StateM (Context × List Moment))

namespace Target

def watchPlaceholder (t : Target) (name : String) (dtype : DataType) : Watched String :=
  fun (ctx, past) =>
    match t.placeholder name dtype ctx with
    | .ok (text, last) => (.ok text, last, past ++ [⟨(name, dtype), last⟩])
    | .error error => (.error error, ctx, past)

def watchStep (t : Target) (watch : Expr → Watched String) : Step → Watched String
  | .operand e => watch e
  | .nested e => do
    let text ← watch e
    return if e.needsParens then "(" ++ text ++ ")" else text
  | .parameter name dtype => t.watchPlaceholder name dtype
  | .table name => return t.tableName name
  | .fail error => throw error

def watchWithin (t : Target) : Nat → Expr → Watched String
  | 0, e => throw (t.missing e.kind)
  | n + 1, e =>
    match t.formatters.get? e.kind with
    | none => throw (t.missing e.kind)
    | some formatter => do
      let layout := formatter.layout e
      let texts ← layout.steps.mapM (t.watchStep (t.watchWithin n))
      return layout.fill texts

def watch (t : Target) (e : Expr) : Except SqlError String × Context × List Moment :=
  t.watchWithin e.weight e (.start, [])

end Target

/-- A watched run that ends as the plain one does, and whose context and past go on by the parameters that it writes,
all of which meet the condition. -/
def Watches (naming : ParamNaming) (P : String → Prop) {α : Type} (x : Render α) (y : Watched α) : Prop :=
  ∀ ctx past, ∃ result added, (∀ w ∈ added, P w.1) ∧
    x ctx = result.map (fun a => (a, ctx.placeAll naming added)) ∧
    y (ctx, past) = (result, ctx.placeAll naming added, past ++ ctx.history naming added)

section Watches

variable {naming : ParamNaming} {P Q : String → Prop} {α β : Type}

theorem watches_pure (a : α) : Watches naming P (pure a) (pure a) := by
  intro ctx past
  refine ⟨.ok a, [], by simp, rfl, ?_⟩
  rw [Context.history, List.append_nil]
  rfl

theorem watches_throw (error : SqlError) : Watches naming P (throw error : Render α) (throw error) := by
  intro ctx past
  refine ⟨.error error, [], by simp, rfl, ?_⟩
  rw [Context.history, List.append_nil]
  rfl

theorem watches_bind {x : Render α} {y : Watched α} {f : α → Render β} {g : α → Watched β}
    (h : Watches naming P x y) (hfg : ∀ a, Watches naming P (f a) (g a)) : Watches naming P (x >>= f) (y >>= g) := by
  intro ctx past
  obtain ⟨result, added, hadded, hx, hy⟩ := h ctx past
  cases result with
  | error error =>
    refine ⟨.error error, added, hadded, ?_, ?_⟩
    · simp [bind, StateT.bind, Except.bind, hx, Except.map]
    · simp only [bind, ExceptT.bind, ExceptT.mk, StateT.bind, ExceptT.bindCont, hy]
      rfl
  | ok a =>
    obtain ⟨last, more, hmore, hf, hg⟩ := hfg a (ctx.placeAll naming added) (past ++ ctx.history naming added)
    refine ⟨last, added ++ more, ?_, ?_, ?_⟩
    · intro w hw
      rcases List.mem_append.mp hw with hw | hw
      · exact hadded w hw
      · exact hmore w hw
    · rw [Context.placeAll_append, ← hf]
      simp [bind, StateT.bind, Except.bind, hx, Except.map]
    · rw [Context.placeAll_append, Context.history_append, ← List.append_assoc, ← hg]
      simp [bind, ExceptT.bind, ExceptT.mk, StateT.bind, ExceptT.bindCont, hy]

theorem Watches.mono {x : Render α} {y : Watched α} (h : Watches naming P x y) (hPQ : ∀ name, P name → Q name) :
    Watches naming Q x y := by
  intro ctx past
  obtain ⟨result, added, hadded, hx, hy⟩ := h ctx past
  exact ⟨result, added, fun w hw => hPQ _ (hadded w hw), hx, hy⟩

end Watches

namespace Compiler

variable {c : Compiler} {params : Params} {P : String → Prop}

theorem watches_placeholder {name : String} (hname : (params.lookup name).isSome → P name) (dtype : DataType) :
    Watches c.naming P ((c.target params).placeholder name dtype) ((c.target params).watchPlaceholder name dtype) := by
  intro ctx past
  cases hv : params.lookup name with
  | none =>
    have hrun : (c.target params).placeholder name dtype ctx = .error (.missingParameter name) := by
      simp only [target, hv]
    refine ⟨.error (.missingParameter name), [], by simp, hrun, ?_⟩
    simp only [Target.watchPlaceholder, hrun, Context.history, List.append_nil]
    rfl
  | some v =>
    have hrun := placeholder_supplied (c := c) hv dtype ctx
    refine ⟨.ok ("@" ++ (ctx.place c.naming name dtype).1), [(name, dtype)], ?_, hrun, ?_⟩
    · intro w hw
      obtain rfl := List.mem_singleton.mp hw
      exact hname (by rw [hv]; rfl)
    · simp only [Target.watchPlaceholder, hrun]
      rfl

theorem watches_takeStep {write : Expr → Render String} {watch : Expr → Watched String} {s : Step}
    (hwrite : ∀ x, s.expr? = some x → Watches c.naming P (write x) (watch x))
    (hname : ∀ name dtype, s = .parameter name dtype → (params.lookup name).isSome → P name) :
    Watches c.naming P ((c.target params).takeStep write s) ((c.target params).watchStep watch s) := by
  cases s with
  | operand x => exact hwrite x rfl
  | nested x => exact watches_bind (hwrite x rfl) fun text => watches_pure _
  | parameter name dtype => exact watches_placeholder (hname name dtype rfl) dtype
  | table name => exact watches_pure _
  | fail error => exact watches_throw error

theorem watches_mapM {write : Expr → Render String} {watch : Expr → Watched String} {steps : List Step}
    (hwrite : ∀ x ∈ steps.filterMap Step.expr?, Watches c.naming P (write x) (watch x))
    (hname : ∀ name dtype, .parameter name dtype ∈ steps → (params.lookup name).isSome → P name) :
    Watches c.naming P (steps.mapM ((c.target params).takeStep write))
      (steps.mapM ((c.target params).watchStep watch)) := by
  induction steps with
  | nil => exact watches_pure []
  | cons s rest ih =>
    rw [List.mapM_cons, List.mapM_cons]
    have hstep : Watches c.naming P ((c.target params).takeStep write s) ((c.target params).watchStep watch s) := by
      refine watches_takeStep (fun x hx => hwrite x ?_) fun name dtype hs => hname name dtype (by simp [hs])
      exact List.mem_filterMap.mpr ⟨s, by simp, hx⟩
    have hrest := ih
      (fun x hx => by
        obtain ⟨r, hr, hx⟩ := List.mem_filterMap.mp hx
        exact hwrite x (List.mem_filterMap.mpr ⟨r, by simp [hr], hx⟩))
      fun name dtype hmem => hname name dtype (by simp [hmem])
    exact watches_bind hstep fun text => watches_bind hrest fun texts => watches_pure _

end Compiler

namespace Layout

variable {name : String} {dtype : DataType}

@[simp] theorem parameter_apply (function : String) (args : List Expr) :
    .parameter name dtype ∉ (apply function args).steps := by
  simp [apply]

end Layout

namespace Formatter

variable {name : String} {dtype : DataType} {e : Expr}

theorem parameter_regex {before middle after : String} {arg pattern : Expr} {others : List Expr} :
    .parameter name dtype ∉ (regexLayout before middle after arg pattern others).steps := by
  simp only [regexLayout]
  cases Sql.rawPattern? pattern <;> simp

theorem op_of_parameter (f : Formatter) (h : .parameter name dtype ∈ (f.layout e).steps) :
    e.op = .scalarParameter name := by
  have hlayout := f.outcome e
  generalize f.layout e = l at hlayout h
  -- one formatter alone writes a parameter, and it looks at the operation first
  cases hlayout with
  | parameter hop =>
    obtain ⟨rfl, -⟩ : name = _ ∧ dtype = e.dtype := by simpa using h
    exact hop
  | regex => exact absurd h parameter_regex
  | _ => simp [Layout.constant] at h

end Formatter

namespace Compiler

variable (c : Compiler) (params : Params)

theorem watches_renderWithin (n : Nat) (e : Expr) :
    Watches c.naming (fun name => (params.lookup name).isSome ∧ Mentions .declared e (.parameter name))
      ((c.target params).renderWithin n e) ((c.target params).watchWithin n e) := by
  induction n generalizing e with
  | zero => exact watches_throw _
  | succ n ih =>
    simp only [Target.renderWithin, Target.watchWithin]
    cases (c.target params).formatters.get? e.kind with
    | none => exact watches_throw _
    | some f =>
      refine watches_bind (watches_mapM (fun x hx => (ih x).mono ?_) ?_) fun texts => watches_pure _
      · rintro name ⟨hvalue, hmentions⟩
        exact ⟨hvalue, mentions_of_layout hx hmentions⟩
      · intro name dtype hmem hvalue
        have hop := f.op_of_parameter hmem
        exact ⟨hvalue, .own (by simp [Expr.ownNames, hop])⟩

theorem watches_render (e : Expr) :
    ∃ result written, (∀ w ∈ written, (params.lookup w.1).isSome ∧ Mentions .declared e (.parameter w.1)) ∧
      (c.target params).render e .start = result.map (fun text => (text, Context.start.placeAll c.naming written)) ∧
      (c.target params).watch e =
        (result, Context.start.placeAll c.naming written, Context.start.history c.naming written) :=
  watches_renderWithin c params e.weight e .start []

variable {c params}

theorem recorded_of_render {e : Expr} {body : String} {ctx : Context}
    (h : (c.target params).render e .start = .ok (body, ctx)) :
    ∃ written, (∀ w ∈ written, Mentions .declared e (.parameter w.1)) ∧ ctx.Recorded c.naming params written := by
  obtain ⟨result, written, hwritten, hrender, -⟩ := watches_render c params e
  rw [hrender] at h
  cases result with
  | error error => cases h
  | ok text =>
    obtain ⟨-, rfl⟩ : text = body ∧ Context.start.placeAll c.naming written = ctx := by simpa [Except.map] using h
    exact ⟨written, fun w hw => (hwritten w hw).2, recorded_placeAll fun w hw => (hwritten w hw).1⟩

variable (c params)

/-- At every moment of a run, whether it fails or not, each name that has been written has one entry, with a placeholder
of its own and the type that it was first written with, and no entry changes later. The parameters of a statement have
different names, and none of them is without a value. -/
theorem parameters_recorded_once (e : Expr) :
    (∃ result ctx moments,
      (c.target params).watch e = (result, ctx, moments) ∧
      (c.target params).render e .start = result.map (fun text => (text, ctx)) ∧
      ctx = (moments.getLast?.map Moment.ctx).getD .start ∧
      (∀ before m after, moments = before ++ m :: after →
        m.ctx.Recorded c.naming params ((before ++ [m]).map Moment.written)) ∧
      moments.Pairwise fun m later => m.ctx.slots <+: later.ctx.slots) ∧
    (∀ body ctx, (c.target params).render e .start = .ok (body, ctx) →
      ∀ name, ctx.bindAll params ≠ .error (.missingParameter name)) ∧
    ∀ q, c.compile e params = .ok q →
      (q.parameters.map QueryParameter.name).Nodup ∧
        (c.naming = .generated →
          q.parameters.map QueryParameter.name = (List.range q.parameters.length).map generatedName) := by
  refine ⟨?_, ?_, ?_⟩
  · obtain ⟨result, written, hwritten, hrender, hwatch⟩ := watches_render c params e
    refine ⟨_, _, _, hwatch, hrender, Context.placeAll_eq_last _ written, ?_, (Context.slots_history _ written).2⟩
    intro before m after hmoments
    obtain ⟨hearlier, hctx⟩ := Context.history_split hmoments
    rw [hctx]
    exact recorded_placeAll fun w hw => (hwritten w (hearlier.mem hw)).1
  · intro body ctx h name hmissing
    obtain ⟨written, -, hctx⟩ := recorded_of_render h
    have hcontent := Context.bindAll_failsOnContent hctx.supplied _ hmissing
    simp [SqlError.blamesNode] at hcontent
  · intro q h
    obtain ⟨body, ctx, hbody, hbind, -⟩ := compile_ok_iff.mp h
    obtain ⟨written, -, hctx⟩ := recorded_of_render hbody
    have hnames : q.parameters.map QueryParameter.name = ctx.slots.map Slot.placeholder := names_of_bindAll hbind
    have hlength : q.parameters.length = ctx.slots.length := by simpa using congrArg List.length hnames
    rw [hnames, hlength]
    exact ⟨hctx.distinct, fun hgenerated => (hctx.numbered hgenerated).2⟩

theorem twiceWritten_recorded :
    ∃ q body before m, (bigQuery .generated).compile twiceWritten twiceWrittenParams = .ok q ∧
      ((bigQuery .generated).target twiceWrittenParams).watch (twiceWritten.lower (bigQuery .generated).rules) =
        (.ok body, m.ctx, before ++ [m]) ∧
      m.ctx.Recorded .generated twiceWrittenParams ((before ++ [m]).map Moment.written) ∧
      m.ctx.bindAll twiceWrittenParams = .ok q.parameters ∧
      q.parameters.map QueryParameter.name = ["param_0", "param_1"] := by
  obtain ⟨q, hq, hlength⟩ : ∃ q, (bigQuery .generated).compile twiceWritten twiceWrittenParams = .ok q ∧
      q.parameters.length = 2 := by
    refine compile_of_run ?_
    rw [compile_ordered]
    decide +kernel
  obtain ⟨body, ctx, hbody, hbind, -⟩ := compile_ok_iff.mp hq
  obtain ⟨⟨result, last, moments, hwatch, hrender, hlast, hrecorded, -⟩, -, -⟩ :=
    parameters_recorded_once (bigQuery .generated) twiceWrittenParams (twiceWritten.lower (bigQuery .generated).rules)
  obtain ⟨-, -, hreturned⟩ := parameters_recorded_once (bigQuery .generated) twiceWrittenParams twiceWritten
  have hnames := (hreturned q hq).2 rfl
  rw [hlength] at hnames
  rw [hbody] at hrender
  cases result with
  | error error => cases hrender
  | ok text =>
    obtain ⟨rfl, rfl⟩ : body = text ∧ ctx = last := by simpa [Except.map] using hrender
    obtain rfl | ⟨before, m, rfl⟩ := moments.eq_nil_or_concat'
    · subst hlast
      have hnone : [] = q.parameters := Except.ok.inj hbind
      simp [← hnone] at hlength
    · obtain rfl : ctx = m.ctx := by simpa using hlast
      exact ⟨q, body, before, m, hq, hwatch, hrecorded before m [] rfl, hbind, hnames⟩

end Compiler

end BigQuerySql
