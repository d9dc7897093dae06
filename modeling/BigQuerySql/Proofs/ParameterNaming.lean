import BigQuerySql.Proofs.Binding
import BigQuerySql.Proofs.Renaming
import Mathlib.Data.List.Nodup

namespace BigQuerySql

namespace SqlError

/-- Errors of one kind: equal ones, and those about a field that a struct parameter lacks, whatever the parameter is
called. -/
inductive Alike : SqlError → SqlError → Prop where
  | same (error : SqlError) : Alike error error
  | noField (a b field : String) : Alike (.parameterBinding (.noField a field)) (.parameterBinding (.noField b field))

end SqlError

inductive Agree {α β : Type} (R : α → β → Prop) : Except SqlError α → Except SqlError β → Prop where
  | ok {x : α} {y : β} (h : R x y) : Agree R (.ok x) (.ok y)
  | error {e f : SqlError} (h : e.Alike f) : Agree R (.error e) (.error f)

section Agree

variable {α β γ δ : Type} {R : α → β → Prop} {S : γ → δ → Prop}

theorem agree_refl (x : Except SqlError α) : Agree Eq x x := by
  cases x with
  | error e => exact .error (.same e)
  | ok a => exact .ok rfl

theorem Agree.mono {R' : α → β → Prop} {x : Except SqlError α} {y : Except SqlError β} (h : Agree R x y)
    (hR : ∀ a b, R a b → R' a b) : Agree R' x y := by
  cases h with
  | ok h => exact .ok (hR _ _ h)
  | error h => exact .error h

theorem agree_bind {x : Except SqlError α} {y : Except SqlError β} {f : α → Except SqlError γ}
    {g : β → Except SqlError δ} (h : Agree R x y) (hfg : ∀ a b, R a b → Agree S (f a) (g b)) :
    Agree S (x >>= f) (y >>= g) := by
  cases h with
  | ok h => exact hfg _ _ h
  | error h => exact .error h

end Agree

namespace QueryParameter

variable (a b : String)

def Renamed (p q : QueryParameter) : Prop :=
  ∃ typeName value, p = .scalar a typeName value ∧ q = .scalar b typeName value

theorem bindScalar_agree (dtype : DataType) (v : Value) :
    Agree (Renamed a b) (bindScalar a dtype v) (bindScalar b dtype v) := by
  have hok (typeName : String) (value : Value) :
      Agree (Renamed a b) (.ok (.scalar a typeName value)) (.ok (.scalar b typeName value)) :=
    .ok ⟨typeName, value, rfl, rfl⟩
  have herror (error : SqlError) : Agree (Renamed a b) (.error error) (.error error) := .error (.same error)
  unfold bindScalar
  (repeat' split) <;> first | exact hok _ _ | exact herror _

theorem bindMembers_agree (fields : List FieldType) (members : List (String × Value)) :
    Agree Eq (bindMembers a fields members) (bindMembers b fields members) := by
  induction members with
  | nil => exact .ok rfl
  | cons m rest ih =>
    obtain ⟨member, v⟩ := m
    rw [bindMembers, bindMembers]
    cases fields.find? fun f => f.name == member with
    | none => exact .error (.noField a b member)
    | some field =>
      refine agree_bind (agree_refl _) fun p q hpq => agree_bind ih fun ps qs hps => ?_
      rw [hpq, hps]
      exact .ok rfl

theorem bindItems_agree {element : DataType} (ha : ∀ t, element ≠ .array t) (hs : ∀ fields, element ≠ .struct fields)
    (items : List Value) : Agree Eq (bindItems a element items) (bindItems b element items) := by
  induction items with
  | nil => exact .ok rfl
  | cons v rest ih =>
    cases v with
    | null =>
      rw [bindItems, bindItems]
      refine agree_bind ih fun vs ws h => ?_
      rw [h]
      exact .ok rfl
    | _ =>
      rw [bindItems, bindItems, bind_single ha hs, bind_single ha hs]
      · refine agree_bind (bindScalar_agree a b element _) ?_
        rintro p q ⟨typeName, value, rfl, rfl⟩
        refine agree_bind ih fun vs ws h => ?_
        rw [h]
        exact .ok rfl
      · simp
      · simp

theorem bind_agree (dtype : DataType) (v : Value) :
    Agree (fun _ _ => True) (bind a dtype v) (bind b dtype v) := by
  have hscalar (dtype : DataType) (v : Value) :
      Agree (fun _ _ => True) (bindScalar a dtype v) (bindScalar b dtype v) :=
    (bindScalar_agree a b dtype v).mono fun _ _ _ => trivial
  cases dtype with
  | struct fields =>
    cases v with
    | struct members =>
      rw [bind, bind]
      exact agree_bind (bindMembers_agree a b fields members) fun _ _ _ => .ok trivial
    | array items =>
      rw [bind, bind] <;> first | exact hscalar _ _ | simp
    | _ =>
      rw [bind_plain rfl, bind_plain rfl]
      exact hscalar _ _
  | array element =>
    cases v with
    | struct members => rw [bind, bind] <;> first | exact hscalar _ _ | simp
    | array items =>
      cases element with
      | struct fields =>
        rw [bind, bind]
        exact agree_bind (agree_refl _) fun _ _ _ => .ok trivial
      | array element =>
        rw [bind, bind]
        exact .error (.same _)
      | _ =>
        rw [bind, bind]
        · refine agree_bind (bindItems_agree a b (by simp) (by simp) items) fun _ _ _ => ?_
          exact agree_bind (agree_refl _) fun _ _ _ => .ok trivial
        all_goals simp
    | _ =>
      rw [bind_plain rfl, bind_plain rfl]
      exact hscalar _ _
  | _ =>
    rw [bind_single (by simp) (by simp), bind_single (by simp) (by simp)]
    exact hscalar _ _

end QueryParameter

namespace Context

def entries (ctx : Context) : List (String × DataType) :=
  ctx.slots.map fun slot => (slot.declared, slot.dtype)

theorem find_eq_none {ctx : Context} {name : String} :
    ctx.find? name = none ↔ name ∉ ctx.slots.map Slot.declared := by
  simp [find?]

theorem keys_entries (ctx : Context) : ctx.entries.map Prod.fst = ctx.slots.map Slot.declared := by
  simp [entries, Function.comp_def]

theorem entries_place (ctx : Context) (naming : ParamNaming) (name : String) (dtype : DataType) :
    (ctx.place naming name dtype).2.entries =
      if name ∈ ctx.entries.map Prod.fst then ctx.entries else ctx.entries ++ [(name, dtype)] := by
  rw [keys_entries]
  cases hfind : ctx.find? name with
  | none =>
    rw [if_neg (find_eq_none.mp hfind)]
    cases naming <;> simp [place, hfind, entries]
  | some slot =>
    have hmem : name ∈ ctx.slots.map Slot.declared := by
      by_contra hmem
      simp [find_eq_none.mpr hmem] at hfind
    rw [if_pos hmem]
    simp [place, hfind]

theorem declared_place (ctx : Context) (naming : ParamNaming) (name : String) (dtype : DataType) :
    (ctx.place naming name dtype).2.slots.map Slot.declared =
      if name ∈ ctx.slots.map Slot.declared then ctx.slots.map Slot.declared
      else ctx.slots.map Slot.declared ++ [name] := by
  rw [← keys_entries, entries_place, ← keys_entries]
  split
  · rfl
  · rw [List.map_append, List.map_singleton]

end Context

def SameEntries {α : Type} (x y : α × Context) : Prop :=
  x.2.entries = y.2.entries

namespace Compiler

def withNaming (c : Compiler) (naming : ParamNaming) : Compiler :=
  ⟨c.formatters, c.rules, naming⟩

variable (c : Compiler) (a b : ParamNaming) (params : Params)

theorem takeStep_agree {write other : Expr → Render String}
    (h : ∀ x ctx ctx', ctx.entries = ctx'.entries → Agree SameEntries (write x ctx) (other x ctx')) (s : Step)
    {ctx ctx' : Context} (hctx : ctx.entries = ctx'.entries) :
    Agree SameEntries (((c.withNaming a).target params).takeStep write s ctx)
      (((c.withNaming b).target params).takeStep other s ctx') := by
  cases s with
  | operand x => exact h x ctx ctx' hctx
  | nested x => exact agree_bind (h x ctx ctx' hctx) fun _ _ hlast => .ok hlast
  | parameter name dtype =>
    simp only [Target.takeStep, target]
    cases params.lookup name with
    | none => exact .error (.same _)
    | some v =>
      refine .ok ?_
      rw [SameEntries, Context.entries_place, Context.entries_place, hctx]
  | table name => exact .ok hctx
  | fail error => exact .error (.same error)

theorem mapM_agree {write other : Expr → Render String}
    (h : ∀ x ctx ctx', ctx.entries = ctx'.entries → Agree SameEntries (write x ctx) (other x ctx'))
    (steps : List Step) {ctx ctx' : Context} (hctx : ctx.entries = ctx'.entries) :
    Agree SameEntries (steps.mapM (((c.withNaming a).target params).takeStep write) ctx)
      (steps.mapM (((c.withNaming b).target params).takeStep other) ctx') := by
  induction steps generalizing ctx ctx' with
  | nil => exact .ok hctx
  | cons s rest ih =>
    rw [List.mapM_cons, List.mapM_cons]
    refine agree_bind (takeStep_agree c a b params h s hctx) fun x y hxy => ?_
    exact agree_bind (ih hxy) fun _ _ hlast => .ok hlast

theorem renderWithin_agree (n : Nat) (e : Expr) {ctx ctx' : Context} (hctx : ctx.entries = ctx'.entries) :
    Agree SameEntries (((c.withNaming a).target params).renderWithin n e ctx)
      (((c.withNaming b).target params).renderWithin n e ctx') := by
  induction n generalizing e ctx ctx' with
  | zero => exact .error (.same _)
  | succ n ih =>
    simp only [Target.renderWithin]
    have hsame : ((c.withNaming a).target params).formatters = ((c.withNaming b).target params).formatters := rfl
    rw [hsame]
    -- The steps are the same, so that the runs can differ only in the contexts that they leave.
    cases ((c.withNaming b).target params).formatters.get? e.kind with
    | none => exact .error (.same _)
    | some f =>
      exact agree_bind (mapM_agree c a b params (fun x _ _ h => ih x h) _ hctx) fun _ _ hlast => .ok hlast

theorem bindAll_agree {ctx ctx' : Context} (hctx : ctx.entries = ctx'.entries) :
    Agree (fun _ _ => True) (ctx.bindAll params) (ctx'.bindAll params) := by
  obtain ⟨slots, n⟩ := ctx
  obtain ⟨slots', n'⟩ := ctx'
  simp only [Context.entries] at hctx
  simp only [Context.bindAll]
  induction slots generalizing slots' with
  | nil =>
    obtain rfl : slots' = [] := by simpa using hctx.symm
    exact .ok trivial
  | cons slot rest ih =>
    cases slots' with
    | nil => simp at hctx
    | cons slot' rest' =>
      obtain ⟨⟨hdeclared, hdtype⟩, hrest⟩ : (slot.declared = slot'.declared ∧ slot.dtype = slot'.dtype) ∧
          rest.map (fun slot => (slot.declared, slot.dtype)) = rest'.map fun slot => (slot.declared, slot.dtype) := by
        simpa using hctx
      rw [List.mapM_cons, List.mapM_cons, hdeclared, hdtype]
      refine agree_bind (R := fun _ _ => True) ?_ fun _ _ _ => agree_bind (ih rest' hrest) fun _ _ _ => .ok trivial
      cases params.lookup slot'.declared with
      | none => exact .error (.same _)
      | some v => exact QueryParameter.bind_agree _ _ slot'.dtype v

theorem compile_agree (e : Expr) :
    Agree (fun _ _ => True) ((c.withNaming a).compile e params) ((c.withNaming b).compile e params) := by
  refine agree_bind (renderWithin_agree c a b params _ _ rfl) fun x y hxy => ?_
  exact agree_bind (bindAll_agree params hxy) fun _ _ _ => .ok trivial

end Compiler

def generatedName (i : Nat) : String :=
  "param_" ++ toString i

theorem generatedName_injective : Function.Injective generatedName := by
  intro i j h
  have hdigits : Nat.toDigits 10 i = Nat.toDigits 10 j := by
    simpa [generatedName, Nat.toString_eq_repr, Nat.repr_eq_ofList_toDigits] using congrArg String.toList h
  have hvalue := congrArg (fun digits => Nat.ofDigitChars 10 digits 0) hdigits
  simpa [Nat.ofDigitChars_toDigits] using hvalue

namespace Context

theorem place_again {ctx : Context} {naming : ParamNaming} {name : String} {dtype : DataType} {slot : Slot}
    (h : ctx.find? name = some slot) : ctx.place naming name dtype = (slot.placeholder, ctx) := by
  simp only [place, h]

theorem place_first {ctx : Context} {name : String} {dtype : DataType} (h : ctx.find? name = none) :
    ctx.place .generated name dtype = (generatedName ctx.generated,
      ⟨ctx.slots ++ [⟨name, generatedName ctx.generated, dtype⟩], ctx.generated + 1⟩) := by
  simp only [place, h, generatedName]

def numbered (ctx : Context) : Context :=
  ⟨ctx.slots.map fun slot => ⟨slot.placeholder, slot.placeholder, slot.dtype⟩, 0⟩

theorem declared_numbered (ctx : Context) :
    ctx.numbered.slots.map Slot.declared = ctx.slots.map Slot.placeholder := by
  simp [numbered, Function.comp_def]

theorem place_numbered (ctx : Context) (name : String) (dtype : DataType) :
    ctx.numbered.place .declared name dtype =
      (name, if name ∈ ctx.slots.map Slot.placeholder then ctx.numbered
        else ⟨ctx.numbered.slots ++ [⟨name, name, dtype⟩], 0⟩) := by
  cases hfind : ctx.numbered.find? name with
  | none =>
    have hmem := find_eq_none.mp hfind
    rw [declared_numbered] at hmem
    simp only [place, hfind, if_neg hmem]
    rfl
  | some slot =>
    obtain ⟨given, hgiven, rfl⟩ := List.mem_map.mp (List.mem_of_find?_eq_some hfind)
    obtain rfl : given.placeholder = name := by simpa using List.find?_some hfind
    have hmem : given.placeholder ∈ ctx.slots.map Slot.placeholder := List.mem_map_of_mem hgiven
    simp only [place, hfind, if_pos hmem]

/-- The renaming and the values suit the parameters written so far: each is renamed to its placeholder, no two share
one, and each placeholder has a value. -/
structure Suits (r : String → String) (params : Params) (ctx : Context) : Prop where
  renames : ∀ slot ∈ ctx.slots, r slot.declared = slot.placeholder
  distinct : (ctx.slots.map Slot.placeholder).Nodup
  supplied : ∀ slot ∈ ctx.slots, (params.lookup slot.placeholder).isSome

theorem Suits.before {r : String → String} {params : Params} {ctx last : Context} (h : Suits r params last)
    (hle : ctx.slots <+: last.slots) : Suits r params ctx where
  renames := fun slot hslot => h.renames slot (hle.mem hslot)
  distinct := h.distinct.sublist (hle.sublist.map _)
  supplied := fun slot hslot => h.supplied slot (hle.mem hslot)

end Context

/-- A run that only adds parameters, and that another run repeats under the names of the placeholders if the renaming
suits where it ends. -/
def Mirrors (r : String → String) (params : Params) {α : Type} (x y : Render α) : Prop :=
  ∀ ctx a last, x ctx = .ok (a, last) →
    ctx.slots <+: last.slots ∧ (last.Suits r params → y ctx.numbered = .ok (a, last.numbered))

section Mirrors

variable {r : String → String} {params : Params} {α β : Type}

theorem mirrors_pure (a : α) : Mirrors r params (pure a) (pure a) := by
  intro ctx b last h
  obtain ⟨rfl, rfl⟩ := render_pure_ok.mp h
  exact ⟨List.prefix_rfl, fun _ => rfl⟩

theorem mirrors_throw (error : SqlError) : Mirrors r params (throw error : Render α) (throw error) :=
  fun _ _ _ h => absurd h Target.throw_ne_ok

theorem mirrors_bind {x y : Render α} {f g : α → Render β} (h : Mirrors r params x y)
    (hfg : ∀ a, Mirrors r params (f a) (g a)) : Mirrors r params (x >>= f) (y >>= g) := by
  intro ctx b last hrun
  obtain ⟨a, mid, hx, hf⟩ := render_bind_ok.mp hrun
  obtain ⟨hmid, hy⟩ := h ctx a mid hx
  obtain ⟨hlast, hg⟩ := hfg a mid b last hf
  refine ⟨hmid.trans hlast, fun hsuits => ?_⟩
  exact render_bind_ok.mpr ⟨a, mid.numbered, hy (hsuits.before hlast), hg hsuits⟩

end Mirrors

namespace Compiler

variable (c : Compiler) {r : String → String} {params numbered : Params}

theorem placeholder_mirrors (name : String) (dtype : DataType) :
    Mirrors r numbered (((c.withNaming .generated).target params).placeholder name dtype)
      (((c.withNaming .declared).target numbered).placeholder (r name) dtype) := by
  intro ctx w last h
  obtain ⟨rfl, rfl⟩ := placeholder_ok h
  have hnaming : (c.withNaming .generated).naming = .generated := rfl
  have hdeclared {p : String} (hp : (numbered.lookup p).isSome) :
      ((c.withNaming .declared).target numbered).placeholder p dtype ctx.numbered =
        .ok ("@" ++ p, (ctx.numbered.place .declared p dtype).2) := by
    obtain ⟨v, hv⟩ := Option.isSome_iff_exists.mp hp
    simp only [target, hv, withNaming, Context.place_numbered]
  rw [hnaming]
  cases hfind : ctx.find? name with
  | some slot =>
    have hslot : slot ∈ ctx.slots := List.mem_of_find?_eq_some hfind
    obtain rfl : slot.declared = name := by simpa using List.find?_some hfind
    rw [Context.place_again hfind]
    refine ⟨List.prefix_rfl, fun hsuits => ?_⟩
    rw [hsuits.renames slot hslot, hdeclared (hsuits.supplied slot hslot), Context.place_numbered,
      if_pos (List.mem_map_of_mem hslot)]
  | none =>
    rw [Context.place_first hfind]
    refine ⟨List.prefix_append _ _, fun hsuits => ?_⟩
    have hslot : (⟨name, generatedName ctx.generated, dtype⟩ : Slot) ∈
        ctx.slots ++ [⟨name, generatedName ctx.generated, dtype⟩] := by simp
    have hnew : generatedName ctx.generated ∉ ctx.slots.map Slot.placeholder := by
      have hdistinct := hsuits.distinct
      rw [List.map_append, List.nodup_append] at hdistinct
      exact fun hmem => hdistinct.2.2 _ hmem _ (by simp) rfl
    rw [hsuits.renames _ hslot, hdeclared (hsuits.supplied _ hslot), Context.place_numbered, if_neg hnew]
    simp [Context.numbered]

theorem takeStep_mirrors {write other : Expr → Render String}
    (h : ∀ x, Mirrors r numbered (write x) (other (x.rename r))) (s : Step) :
    Mirrors r numbered (((c.withNaming .generated).target params).takeStep write s)
      (((c.withNaming .declared).target numbered).takeStep other (s.rename r)) := by
  cases s with
  | operand x => exact h x
  | nested x =>
    simp only [Target.takeStep, Step.rename, Expr.needsParens_rename]
    exact mirrors_bind (h x) fun text => mirrors_pure _
  | parameter name dtype => exact placeholder_mirrors c name dtype
  | table name => exact mirrors_pure _
  | fail error => exact mirrors_throw error

theorem mapM_mirrors {write other : Expr → Render String}
    (h : ∀ x, Mirrors r numbered (write x) (other (x.rename r))) (steps : List Step) :
    Mirrors r numbered (steps.mapM (((c.withNaming .generated).target params).takeStep write))
      ((steps.map (Step.rename r)).mapM (((c.withNaming .declared).target numbered).takeStep other)) := by
  induction steps with
  | nil => exact mirrors_pure []
  | cons s rest ih =>
    rw [List.map_cons, List.mapM_cons, List.mapM_cons]
    exact mirrors_bind (takeStep_mirrors c h s) fun text => mirrors_bind ih fun texts => mirrors_pure _

theorem renderWithin_mirrors (n : Nat) (e : Expr) :
    Mirrors r numbered (((c.withNaming .generated).target params).renderWithin n e)
      (((c.withNaming .declared).target numbered).renderWithin n (e.rename r)) := by
  induction n generalizing e with
  | zero =>
    simp only [Target.renderWithin, Expr.kind_rename]
    exact mirrors_throw _
  | succ n ih =>
    -- Renaming keeps the kind and so the formatter, and the renamed layout has the same pieces.
    simp only [Target.renderWithin, Expr.kind_rename, Formatter.layout_rename]
    have hsame : ((c.withNaming .generated).target params).formatters =
        ((c.withNaming .declared).target numbered).formatters := rfl
    rw [hsame]
    cases ((c.withNaming .declared).target numbered).formatters.get? e.kind with
    | none => exact mirrors_throw _
    | some f => exact mirrors_bind (mapM_mirrors c ih (f.layout e).steps) fun texts => mirrors_pure _

theorem generated_reached {ctx : Context} (h : ((c.withNaming .generated).target params).Reached ctx) :
    ctx.generated = ctx.slots.length ∧
      ctx.slots.map Slot.placeholder = (List.range ctx.slots.length).map generatedName ∧
      (ctx.slots.map Slot.declared).Nodup := by
  induction h with
  | start => simp [Context.start]
  | @place ctx last name w dtype _ hp ih =>
    obtain ⟨-, rfl⟩ := placeholder_ok hp
    obtain ⟨hcount, hplaceholders, hdistinct⟩ := ih
    have hnaming : (c.withNaming .generated).naming = .generated := rfl
    rw [hnaming]
    cases hfind : ctx.find? name with
    | some slot =>
      rw [Context.place_again hfind]
      exact ⟨hcount, hplaceholders, hdistinct⟩
    | none =>
      rw [Context.place_first hfind]
      refine ⟨by simp [hcount], by simp [List.range_succ, hplaceholders, hcount], ?_⟩
      have hnew := Context.find_eq_none.mp hfind
      rw [List.map_append, List.nodup_append]
      refine ⟨hdistinct, by simp, ?_⟩
      rintro x hx y hy rfl
      obtain rfl : x = name := by simpa using hy
      exact hnew hx

end Compiler

def numbering (names : List String) (name : String) : String :=
  if name ∈ names then generatedName (names.idxOf name) else name

def numberedParams (names : List String) (params : Params) : Params :=
  names.mapIdx fun i name => (generatedName i, (params.lookup name).getD .null)

theorem numbering_get {names : List String} (hdistinct : names.Nodup) {i : Nat} (hi : i < names.length) :
    numbering names names[i] = generatedName i := by
  rw [numbering, if_pos (List.getElem_mem hi), hdistinct.idxOf_getElem]

theorem lookup_mapIdx {key : Nat → String} (hkey : Function.Injective key) (f : String → Value) {names : List String}
    {i : Nat} (hi : i < names.length) :
    (names.mapIdx fun i name => (key i, f name)).lookup (key i) = some (f names[i]) := by
  induction names generalizing key i with
  | nil => simp at hi
  | cons name rest ih =>
    rw [List.mapIdx_cons]
    cases i with
    | zero => simp
    | succ i =>
      have hne : (key (i + 1) == key 0) = false := by
        simpa using fun h => Nat.succ_ne_zero i (hkey h)
      rw [List.lookup_cons, hne]
      exact ih (fun a b h => Nat.succ_injective (hkey h)) (by simpa using hi)

namespace Compiler

variable {c : Compiler} {params : Params} {ctx : Context}

theorem bindAll_ok {ps : List QueryParameter} (h : ctx.bindAll params = .ok ps) :
    List.Forall₂ (fun slot p => ∃ v, params.lookup slot.declared = some v ∧
      QueryParameter.bind slot.placeholder slot.dtype v = .ok p) ctx.slots ps := by
  refine (mapM_ok.mp h).imp fun slot p hp => ?_
  cases hv : params.lookup slot.declared with
  | none => simp [hv] at hp
  | some v => exact ⟨v, rfl, by simpa [hv] using hp⟩

theorem names_of_bindAll {ps : List QueryParameter} (h : ctx.bindAll params = .ok ps) :
    ps.map QueryParameter.name = ctx.slots.map Slot.placeholder := by
  have hbound := bindAll_ok h
  clear h
  generalize ctx.slots = slots at hbound
  induction hbound with
  | nil => rfl
  | cons hp _ ih =>
    obtain ⟨v, -, hp⟩ := hp
    rw [List.map_cons, List.map_cons, QueryParameter.bind_name hp, ih]

variable {ps : List QueryParameter}

theorem placeholder_get (h : ((c.withNaming .generated).target params).Reached ctx) {i : Nat}
    (hi : i < ctx.slots.length) : ctx.slots[i].placeholder = generatedName i := by
  have hplaceholders := congrArg (fun names => names[i]?) (generated_reached c h).2.1
  simpa [hi] using hplaceholders

theorem lookup_numbered (h : ((c.withNaming .generated).target params).Reached ctx)
    (hbind : ctx.bindAll params = .ok ps) {slot : Slot} (hslot : slot ∈ ctx.slots) :
    (params.lookup slot.declared).isSome ∧
      (numberedParams (ctx.slots.map Slot.declared) params).lookup slot.placeholder = params.lookup slot.declared := by
  obtain ⟨p, v, hv, -⟩ := forall₂_exists (bindAll_ok hbind) slot hslot
  obtain ⟨i, hi, rfl⟩ := List.getElem_of_mem hslot
  have hi' : i < (ctx.slots.map Slot.declared).length := by simpa using hi
  have hlookup := lookup_mapIdx generatedName_injective (fun name => (params.lookup name).getD .null) hi'
  refine ⟨by simp [hv], ?_⟩
  rw [placeholder_get h hi, numberedParams, hlookup]
  simp [hv]

theorem numbering_suits (h : ((c.withNaming .generated).target params).Reached ctx)
    (hbind : ctx.bindAll params = .ok ps) :
    ctx.Suits (numbering (ctx.slots.map Slot.declared)) (numberedParams (ctx.slots.map Slot.declared) params) where
  renames := by
    intro slot hslot
    obtain ⟨i, hi, rfl⟩ := List.getElem_of_mem hslot
    have hnumber := numbering_get (generated_reached c h).2.2 (i := i) (by simpa using hi)
    rw [placeholder_get h hi, ← hnumber, List.getElem_map]
  distinct := by
    rw [(generated_reached c h).2.1]
    exact List.nodup_range.map generatedName_injective
  supplied := by
    intro slot hslot
    obtain ⟨hvalue, hlookup⟩ := lookup_numbered h hbind hslot
    rw [hlookup]
    exact hvalue

theorem bindAll_numbered (h : ((c.withNaming .generated).target params).Reached ctx)
    (hbind : ctx.bindAll params = .ok ps) :
    ctx.numbered.bindAll (numberedParams (ctx.slots.map Slot.declared) params) = .ok ps := by
  rw [← hbind, Context.bindAll, Context.numbered, List.mapM_map]
  refine mapM_congr fun slot hslot => ?_
  obtain ⟨hvalue, hlookup⟩ := lookup_numbered h hbind hslot
  obtain ⟨v, hv⟩ := Option.isSome_iff_exists.mp hvalue
  simp only [Function.comp_apply, hlookup, hv]

theorem statement_rename (r : String → String) (e : Expr) (body : String) :
    statement (e.rename r) body = statement e body := by
  rw [statement, statement, Expr.isTable_rename, Expr.label_rename, Expr.referencedTables_rename]

theorem compile_ok_iff {c : Compiler} {e : Expr} {q : CompiledQuery} :
    c.compile e params = .ok q ↔
      ∃ body ctx, (c.target params).render (e.lower c.rules) .start = .ok (body, ctx) ∧
        ctx.bindAll params = .ok q.parameters ∧ q.sql = statement (e.lower c.rules) body := by
  constructor
  · intro h
    obtain ⟨⟨body, ctx⟩, hrun, h⟩ := except_bind_ok.mp h
    obtain ⟨parameters, hbind, h⟩ := except_bind_ok.mp h
    obtain rfl : CompiledQuery.mk (statement (e.lower c.rules) body) parameters = q := by
      simpa [pure, Except.pure] using h
    exact ⟨body, ctx, hrun, hbind, rfl⟩
  · rintro ⟨body, ctx, hrun, hbind, hsql⟩
    refine except_bind_ok.mpr ⟨(body, ctx), hrun, except_bind_ok.mpr ⟨q.parameters, hbind, ?_⟩⟩
    rw [← hsql]
    rfl

theorem names_of_declared {c : Compiler} (hc : c.naming = .declared) {e : Expr} {body : String} {ctx : Context}
    (hrun : (c.target params).render e .start = .ok (body, ctx)) (hbind : ctx.bindAll params = .ok ps) :
    ps.map QueryParameter.name = ctx.slots.map Slot.declared := by
  have hplaces := reached_places (Target.reached_renderWithin .start hrun)
  rw [hc] at hplaces
  rw [names_of_bindAll hbind]
  exact List.map_congr_left hplaces

theorem names_eq {e : Expr} {body body' : String} {ctx ctx' : Context}
    (hrun : ((c.withNaming .declared).target params).render e .start = .ok (body, ctx))
    (hrun' : ((c.withNaming .generated).target params).render e .start = .ok (body', ctx'))
    (hbind : ctx.bindAll params = .ok ps) : ps.map QueryParameter.name = ctx'.slots.map Slot.declared := by
  have hagree : Agree SameEntries (((c.withNaming .declared).target params).render e .start)
      (((c.withNaming .generated).target params).render e .start) := renderWithin_agree c _ _ params _ e rfl
  rw [hrun, hrun'] at hagree
  cases hagree with
  | ok hentries =>
    have hnames := congrArg (List.map Prod.fst) hentries
    simp only [Context.entries, List.map_map] at hnames
    rw [names_of_declared rfl hrun hbind]
    exact hnames

/-- Compiling with made up names fails just if compiling with declared names does, with an error of the same kind. What
it gives is what compiling with declared names gives once the parameters are renamed by their places. -/
theorem generated_names_number_declared (c : Compiler) (e : Expr) (params : Params) :
    (∀ error, (c.withNaming .declared).compile e params = .error error →
      ∃ other, (c.withNaming .generated).compile e params = .error other ∧ error.Alike other) ∧
    ∀ d, (c.withNaming .declared).compile e params = .ok d →
      ∃ g, (c.withNaming .generated).compile e params = .ok g ∧
        (c.withNaming .declared).compile (e.rename (numbering (d.parameters.map QueryParameter.name)))
          (numberedParams (d.parameters.map QueryParameter.name) params) = .ok g := by
  have hagree := compile_agree c .declared .generated params e
  constructor
  · intro error herror
    rw [herror] at hagree
    generalize (c.withNaming .generated).compile e params = result at hagree
    cases hagree with
    | error h => exact ⟨_, rfl, h⟩
  · intro d hd
    rw [hd] at hagree
    cases hg : (c.withNaming .generated).compile e params with
    | error error =>
      rw [hg] at hagree
      cases hagree
    | ok g =>
      obtain ⟨body, ctx, hrun, hbind, -⟩ := compile_ok_iff.mp hd
      obtain ⟨body', ctx', hrun', hbind', hsql⟩ := compile_ok_iff.mp hg
      have hreached := Target.reached_renderWithin .start hrun'
      rw [names_eq hrun hrun' hbind]
      have hmirrors := (renderWithin_mirrors c _ _ .start body' ctx' hrun').2 (numbering_suits hreached hbind')
      refine ⟨g, rfl, compile_ok_iff.mpr ⟨body', ctx'.numbered, ?_, bindAll_numbered hreached hbind', ?_⟩⟩
      · rw [Expr.lower_rename, Target.render, Expr.weight_rename]
        exact hmirrors
      · rw [Expr.lower_rename, statement_rename]
        exact hsql

def twiceWritten : Expr :=
  ((Expr.param "b" .int64).binary .add (.param "a" .int64)).binary .multiply (.param "b" .int64)

def twiceWrittenParams : Params :=
  [("a", .int 1), ("b", .int 2)]

theorem twiceWritten_numbered :
    ∃ g, (bigQuery .generated).compile twiceWritten twiceWrittenParams = .ok g ∧
      g.sql = "SELECT (@param_0 + @param_1) * @param_0 AS \x60tmp\x60" ∧
      (bigQuery .declared).compile (twiceWritten.rename (numbering ["b", "a"]))
        (numberedParams ["b", "a"] twiceWrittenParams) = .ok g := by
  obtain ⟨d, hd, hnames⟩ : ∃ d, (bigQuery .declared).compile twiceWritten twiceWrittenParams = .ok d ∧
      d.parameters.map QueryParameter.name = ["b", "a"] := by
    refine compile_of_run ?_
    rw [compile_ordered]
    decide +kernel
  obtain ⟨q, hq, hsql⟩ : ∃ q, (bigQuery .generated).compile twiceWritten twiceWrittenParams = .ok q ∧
      q.sql = "SELECT (@param_0 + @param_1) * @param_0 AS \x60tmp\x60" := by
    refine compile_of_run ?_
    rw [compile_ordered]
    decide +kernel
  have hnumbered := generated_names_number_declared (bigQuery .declared) twiceWritten twiceWrittenParams
  obtain ⟨g, hg, hrenamed⟩ := hnumbered.2 d hd
  obtain rfl : g = q := by simpa using hg.symm.trans hq
  rw [hnames] at hrenamed
  exact ⟨g, hg, hsql, hrenamed⟩

end Compiler

end BigQuerySql
