import BigQuerySql.Proofs.ParameterNaming

namespace BigQuerySql

namespace Op

variable {α β : Type}

def ownParameters : Op α → List String
  | .scalarParameter name => [name]
  | _ => []

def kept : Op α → List α
  | .call (.geo .simplify) [geography, tolerance, _] => [geography, tolerance]
  | .reduction _ [] _ => []
  | op => op.operands

theorem ownParameters_map (f : α → β) (op : Op α) : (op.map f).ownParameters = op.ownParameters := by
  cases op <;> rfl

theorem kept_eq {op : Op α} (hsimplify : op.kind ≠ .call (.geo .simplify)) (hagg : ∀ func, op.kind ≠ .reduction func) :
    op.kept = op.operands := by
  cases op with
  | call func args =>
    cases func with
    | geo g =>
      cases g with
      | simplify => exact absurd rfl hsimplify
      | _ => rfl
    | _ => rfl
  | reduction func args filter => exact absurd rfl (hagg func)
  | _ => rfl

theorem kept_map (f : α → β) (op : Op α) : (op.map f).kept = op.kept.map f := by
  by_cases hsimplify : op.kind = .call (.geo .simplify)
  · cases op with
    | call func args =>
      obtain rfl : func = .geo .simplify := by simpa [kind] using hsimplify
      rcases args with _ | ⟨a, _ | ⟨b, _ | ⟨c, _ | ⟨d, rest⟩⟩⟩⟩ <;> simp [map, kept, operands]
    | _ => simp [kind] at hsimplify
  · by_cases hagg : ∃ func, op.kind = .reduction func
    · cases op with
      | reduction func args filter => cases args <;> simp [map, kept, operands, Option.toList_map]
      | _ => simp [kind] at hagg
    · rw [kept_eq (by rwa [kind_map]) (by simpa [kind_map] using hagg), kept_eq hsimplify (by simpa using hagg),
        operands_map]

theorem mem_operands_of_kept {op : Op α} {x : α} (h : x ∈ op.kept) : x ∈ op.operands := by
  unfold kept at h
  split at h
  · simp [operands] at h ⊢
    tauto
  · simp at h
  · exact h

end Op

namespace Expr

def keptParameters : Expr → List String :=
  fold fun op _ _ => op.ownParameters ++ op.kept.flatten

theorem mem_keptParameters_mk {op : Op Expr} {dtype : DataType} {label : Option String} {name : String} :
    name ∈ keptParameters ⟨op, dtype, label⟩ ↔ name ∈ op.ownParameters ∨ ∃ x ∈ op.kept, name ∈ x.keptParameters := by
  rw [keptParameters, fold_mk, Op.ownParameters_map, Op.kept_map]
  simp [List.mem_flatten]

theorem mem_keptParameters {e : Expr} {name : String} :
    name ∈ e.keptParameters ↔ name ∈ e.op.ownParameters ∨ ∃ x ∈ e.op.kept, name ∈ x.keptParameters := by
  cases e with
  | mk op dtype label => exact mem_keptParameters_mk

theorem mem_keptParameters_filtered {arg : Expr} {filter : Option Expr} {name : String} :
    name ∈ (arg.filtered filter).keptParameters ↔
      name ∈ arg.keptParameters ∨ ∃ cond ∈ filter, name ∈ cond.keptParameters := by
  cases filter with
  | none => simp [filtered]
  | some cond =>
    simp [filtered, ifElse, null, literal, ofOp, mem_keptParameters_mk, Op.ownParameters, Op.kept, Op.operands, or_comm]

end Expr

theorem Sql.mem_keptParameters_flatten {kind : SetOpKind} {e : Expr} {name : String} :
    ∀ {parts : List Expr} {words : List String}, flattenSetOp kind e = .ok (parts, words) →
      (name ∈ e.keptParameters ↔ ∃ x ∈ parts, name ∈ x.keptParameters) := by
  induction e using Expr.induction_on with
  | step e ih =>
    intro parts words h
    rcases flatten_cases h with ⟨-, rfl, rfl⟩ |
      ⟨left, right, distinct, dtype, label, lp, lw, word, rp, rw, rfl, hl, -, hr, rfl, rfl⟩
    · simp
    · have hleft := ih left (by simp [Expr.operands, Op.operands]) hl
      have hright := ih right (by simp [Expr.operands, Op.operands]) hr
      simp [Expr.mem_keptParameters_mk, Op.ownParameters, Op.kept, Op.operands, hleft, hright, or_and_right,
        exists_or]

namespace Step

@[simp] def parameters : Step → List String
  | .operand e => e.keptParameters
  | .nested e => e.keptParameters
  | .parameter name _ => [name]
  | _ => []

end Step

namespace Layout

def Records (l : Layout) (names : String → Prop) : Prop :=
  (∃ error, .fail error ∈ l.steps) ∨ ∀ name, (∃ s ∈ l.steps, name ∈ s.parameters) ↔ names name

variable {names : String → Prop}

theorem records_apply {function : String} {args : List Expr}
    (h : ∀ name, (∃ x ∈ args, name ∈ x.keptParameters) ↔ names name) : (apply function args).Records names := by
  refine .inr fun name => ?_
  rw [← h]
  simp [apply]

end Layout

namespace Formatter

open Sql

def suits : Kind × Formatter → Bool
  | (.scalarParameter, .parameter) => true
  | (.scalarParameter, _) => false
  | (.call (.geo .simplify), .simplify) => true
  | (.call (.geo .simplify), _) => false
  | (.reduction _, .reduction _) => true
  | (.reduction _, .countDistinct) => true
  | (.reduction _, .singleReduction _ _) => true
  | (.reduction _, _) => false
  | (_, .simplify) => false
  | _ => true

theorem bigQuery_suits {k : Kind} {f : Formatter} (h : bigQuery.get? k = some f) : suits (k, f) :=
  bigQuery_all (by decide) (by decide) h

theorem keptParameters_literal {e : Expr} {v : Value} (h : e.op = .literal v) (name : String) :
    name ∉ e.keptParameters := by
  rw [Expr.mem_keptParameters, h]
  simp [Op.ownParameters, Op.kept, Op.operands]

theorem records_regex {before middle after : String} {arg pattern : Expr} {others : List Expr} :
    (regexLayout before middle after arg pattern others).Records fun name =>
      ∃ x ∈ arg :: pattern :: others, name ∈ x.keptParameters := by
  simp only [regexLayout]
  cases hraw : rawPattern? pattern with
  | some raw =>
    -- A pattern that is written as a raw string is a constant.
    obtain ⟨s, hop, -⟩ := op_of_rawPattern hraw
    exact .inr fun name => by simp [keptParameters_literal hop]
  | none => exact .inr fun name => by simp [or_left_comm]

def isTransparent : Kind → Bool
  | .scalarParameter => false
  | .call (.geo .simplify) => false
  | .reduction _ => false
  | _ => true

theorem mem_keptParameters_transparent {e : Expr} (h : isTransparent e.kind) {name : String} :
    name ∈ e.keptParameters ↔ ∃ x ∈ e.operands, name ∈ x.keptParameters := by
  have hkept : e.op.kept = e.operands := by
    refine Op.kept_eq (fun hk => ?_) fun func hk => ?_
    · simp [Expr.kind, hk, isTransparent] at h
    · simp [Expr.kind, hk, isTransparent] at h
  have hown : e.op.ownParameters = [] := by
    cases hop : e.op <;> simp [Expr.kind, hop, Op.kind, isTransparent] at h <;> rfl
  rw [Expr.mem_keptParameters, hkept, hown]
  simp

theorem records_transparent {f : Formatter} {e : Expr} (h : isTransparent e.kind) (hf : f ≠ .simplify) :
    (f.layout e).Records fun name => ∃ x ∈ e.operands, name ∈ x.keptParameters := by
  have hlayout := f.outcome e
  generalize f.layout e = l at hlayout
  cases hlayout with
  | fails hargs error => exact .inl ⟨error, by simp⟩
  | simplify => exact absurd rfl hf
  | parameter hop | reduction hop | countDistinct hop | singleReduction hop =>
    simp [Expr.kind, Op.kind, hop, isTransparent] at h
  | regex ho =>
    rw [ho]
    exact records_regex
  | setOp hop hflat =>
    refine .inr fun name => ?_
    have hparts : name ∈ e.keptParameters ↔ _ := mem_keptParameters_flatten hflat
    rw [Expr.mem_keptParameters, hop] at hparts
    simpa [Op.ownParameters, Op.kept, Expr.operands, hop] using hparts.symm
  | function => exact Layout.records_apply fun name => Iff.rfl
  | template => exact .inr fun name => by simp
  | arbitrary hop =>
    exact Layout.records_apply fun name => by simp [Expr.mem_keptParameters_filtered, Expr.operands, Op.operands, hop]
  | sampleCovariance hop | populationCovariance hop =>
    refine Layout.records_apply fun name => ?_
    simp [Expr.mem_keptParameters_filtered, Expr.operands, Op.operands, hop]
    tauto
  | ln ho | log ho | genericLn ho => exact Layout.records_apply fun name => by simp [ho]
  -- the base of a logarithm, a needle and a separator may change places with what stands before them
  | baseFirstLog ho => exact Layout.records_apply fun name => by simp [ho, or_comm]
  | findInSet ho | stringJoin ho => exact .inr fun name => by simp [ho, or_comm, or_left_comm]
  | intervalArithmetic hop | hash hop | hashBytes hop | stringToTimestamp hop =>
    exact Layout.records_apply fun name => by simp [Expr.operands, Op.operands, hop, or_left_comm]
  | cast ho | leading ho | trailing ho | between ho | like ho | genericSubstringFrom ho | genericSubstring ho
  | substringFrom ho | substring ho | floor ho => exact .inr fun name => by simp [ho]
  | genericLiteral hop | literal hop | column hop | tableScan hop | genericCast hop | conditional hop | infixed hop
  | genericSetOp hop | truncate hop | timestampFromUnix hop | stringFind hop | strftime hop | structField hop =>
    exact .inr fun name => by simp [Expr.operands, Op.operands, Layout.constant, hop, or_comm]

theorem ne_simplify {k : Kind} {f : Formatter} (h : isTransparent k) (hsuits : suits (k, f)) : f ≠ .simplify := by
  rintro rfl
  unfold suits at hsuits
  split at hsuits <;> simp_all [isTransparent]

theorem records_simplify (args : List Expr) (dtype : DataType) (label : Option String) :
    (Formatter.simplify.layout ⟨.call (.geo .simplify) args, dtype, label⟩).Records fun name =>
      name ∈ Expr.keptParameters ⟨.call (.geo .simplify) args, dtype, label⟩ := by
  have hlayout := Formatter.simplify.outcome ⟨.call (.geo .simplify) args, dtype, label⟩
  generalize Formatter.simplify.layout ⟨.call (.geo .simplify) args, dtype, label⟩ = l at hlayout
  cases hlayout with
  | simplify ho =>
    cases ho
    exact Layout.records_apply fun name => by simp [Expr.mem_keptParameters_mk, Op.ownParameters, Op.kept]
  | fails hargs error => exact .inl ⟨error, by simp⟩

theorem mem_keptParameters_reduction {func : Agg} {args : List Expr} {filter : Option Expr} {dtype : DataType}
    {label : Option String} {name : String} :
    name ∈ Expr.keptParameters ⟨.reduction func args filter, dtype, label⟩ ↔
      ∃ x ∈ args.map (·.filtered filter), name ∈ x.keptParameters := by
  cases args with
  | nil => simp [Expr.mem_keptParameters_mk, Op.ownParameters, Op.kept]
  | cons arg rest =>
    have hkept : (Op.reduction func (arg :: rest) filter).kept = (arg :: rest) ++ filter.toList := rfl
    simp only [Expr.mem_keptParameters_mk, Op.ownParameters, hkept, List.mem_map, exists_exists_and_eq_and,
      Expr.mem_keptParameters_filtered]
    constructor
    · rintro (hname | ⟨x, hx, hname⟩)
      · simp at hname
      · rcases List.mem_append.mp hx with hx | hx
        · exact ⟨x, hx, .inl hname⟩
        · exact ⟨arg, by simp, .inr ⟨x, Option.mem_toList.mp hx, hname⟩⟩
    · rintro ⟨x, hx, hname | ⟨cond, hcond, hname⟩⟩
      · exact .inr ⟨x, List.mem_append_left _ hx, hname⟩
      · exact .inr ⟨cond, List.mem_append_right _ (Option.mem_toList.mpr hcond), hname⟩

theorem records_reduction {f : Formatter} {func : Agg} (hsuits : suits (.reduction func, f)) (args : List Expr)
    (filter : Option Expr) (dtype : DataType) (label : Option String) :
    (f.layout ⟨.reduction func args filter, dtype, label⟩).Records fun name =>
      name ∈ Expr.keptParameters ⟨.reduction func args filter, dtype, label⟩ := by
  simp only [mem_keptParameters_reduction]
  have hlayout := f.outcome ⟨.reduction func args filter, dtype, label⟩
  generalize f.layout ⟨.reduction func args filter, dtype, label⟩ = l at hlayout
  cases hlayout with
  | reduction hop =>
    cases hop
    exact Layout.records_apply fun name => Iff.rfl
  | countDistinct hop | singleReduction hop =>
    cases hop
    exact .inr fun name => by simp
  | fails hargs error => exact .inl ⟨error, by simp⟩
  | _ => cases hsuits

theorem records_bigQuery {f : Formatter} {e : Expr} (hf : bigQuery.get? e.kind = some f) :
    (f.layout e).Records fun name => name ∈ e.keptParameters := by
  have hsuits := bigQuery_suits hf
  cases h : isTransparent e.kind with
  | true =>
    simp only [mem_keptParameters_transparent h]
    exact records_transparent h (ne_simplify h hsuits)
  | false =>
    obtain ⟨op, dtype, label⟩ := e
    cases op with
    | scalarParameter name =>
      cases f with
      | parameter =>
        exact .inr fun name => by simp [layout, Expr.mem_keptParameters_mk, Op.ownParameters, Op.kept, Op.operands, eq_comm]
      | _ => cases hsuits
    | reduction func args filter => exact records_reduction hsuits args filter dtype label
    | call func args =>
      obtain rfl : func = .geo .simplify := by
        by_contra hfunc
        have hkind : isTransparent (.call func) = true := by
          unfold isTransparent
          split <;> simp_all
        simp [Expr.kind, Op.kind, hkind] at h
      cases f with
      | simplify => exact records_simplify args dtype label
      | _ => cases hsuits
    | _ => cases h

end Formatter

namespace Compiler

variable {naming : ParamNaming} {params : Params} {ctx last : Context}

theorem mem_declared_place (ctx : Context) (naming : ParamNaming) (name : String) (dtype : DataType) (other : String) :
    other ∈ (ctx.place naming name dtype).2.slots.map Slot.declared ↔
      other ∈ ctx.slots.map Slot.declared ∨ other = name := by
  rw [ctx.declared_place]
  split
  next hmem => exact ⟨.inl, fun h => h.elim id fun h => h ▸ hmem⟩
  next => simp

theorem recorded_takeStep {write : Expr → Render String}
    (h : ∀ x ctx w last, write x ctx = .ok (w, last) → ∀ name,
      name ∈ last.slots.map Slot.declared ↔ name ∈ ctx.slots.map Slot.declared ∨ name ∈ x.keptParameters)
    {s : Step} {w : String} (hrun : ((bigQuery naming).target params).takeStep write s ctx = .ok (w, last))
    (name : String) :
    name ∈ last.slots.map Slot.declared ↔ name ∈ ctx.slots.map Slot.declared ∨ name ∈ s.parameters := by
  cases s with
  | operand x => exact h x ctx w last hrun name
  | nested x =>
    obtain ⟨v, mid, hv, hw⟩ := render_bind_ok.mp hrun
    obtain ⟨-, rfl⟩ := render_pure_ok.mp hw
    exact h x ctx v mid hv name
  | parameter declared dtype =>
    obtain ⟨-, rfl⟩ := placeholder_ok hrun
    rw [mem_declared_place]
    simp
  | table table =>
    obtain ⟨-, rfl⟩ := render_pure_ok.mp hrun
    simp
  | fail error => exact absurd hrun Target.throw_ne_ok

theorem recorded_mapM {write : Expr → Render String}
    (h : ∀ x ctx w last, write x ctx = .ok (w, last) → ∀ name,
      name ∈ last.slots.map Slot.declared ↔ name ∈ ctx.slots.map Slot.declared ∨ name ∈ x.keptParameters)
    {steps : List Step} {texts : List String}
    (hrun : steps.mapM (((bigQuery naming).target params).takeStep write) ctx = .ok (texts, last)) (name : String) :
    name ∈ last.slots.map Slot.declared ↔
      name ∈ ctx.slots.map Slot.declared ∨ ∃ s ∈ steps, name ∈ s.parameters := by
  induction steps generalizing ctx texts with
  | nil =>
    obtain ⟨-, rfl⟩ := render_pure_ok.mp hrun
    simp
  | cons s rest ih =>
    rw [List.mapM_cons] at hrun
    obtain ⟨w, mid, hw, hrun⟩ := render_bind_ok.mp hrun
    obtain ⟨ws, fin, hws, hrun⟩ := render_bind_ok.mp hrun
    obtain ⟨-, rfl⟩ := render_pure_ok.mp hrun
    rw [ih hws, recorded_takeStep h hw, List.exists_mem_cons_iff, or_assoc]

theorem not_fail_of_mapM {t : Target} {write : Expr → Render String} {steps : List Step} {texts : List String}
    (hrun : steps.mapM (t.takeStep write) ctx = .ok (texts, last)) (error : SqlError) : .fail error ∉ steps := by
  induction steps generalizing ctx texts with
  | nil => simp
  | cons s rest ih =>
    rw [List.mapM_cons] at hrun
    obtain ⟨w, mid, hw, hrun⟩ := render_bind_ok.mp hrun
    obtain ⟨ws, fin, hws, hrun⟩ := render_bind_ok.mp hrun
    obtain ⟨-, rfl⟩ := render_pure_ok.mp hrun
    rintro (_ | ⟨_, hmem⟩)
    · exact absurd hw Target.throw_ne_ok
    · exact ih hws hmem

theorem recorded_renderWithin {n : Nat} {e : Expr} {w : String}
    (hrun : ((bigQuery naming).target params).renderWithin n e ctx = .ok (w, last)) (name : String) :
    name ∈ last.slots.map Slot.declared ↔ name ∈ ctx.slots.map Slot.declared ∨ name ∈ e.keptParameters := by
  induction n generalizing e ctx w last name with
  | zero => exact absurd hrun Target.throw_ne_ok
  | succ n ih =>
    simp only [Target.renderWithin] at hrun
    cases hf : ((bigQuery naming).target params).formatters.get? e.kind with
    | none =>
      simp only [hf] at hrun
      exact absurd hrun Target.throw_ne_ok
    | some f =>
      simp only [hf] at hrun
      obtain ⟨texts, mid, htexts, hrun⟩ := render_bind_ok.mp hrun
      obtain ⟨-, rfl⟩ := render_pure_ok.mp hrun
      -- A layout with a failing step has not been run through; of any other it is known what its steps record.
      rw [recorded_mapM (fun x ctx w last hx => ih hx) htexts]
      rcases Formatter.records_bigQuery hf with ⟨error, herror⟩ | hrecords
      · exact absurd herror (not_fail_of_mapM htexts error)
      · rw [hrecords]

end Compiler

namespace Expr

theorem mem_keptParameters_replaces {e node : Expr} (h : Replaces e node) {name : String} :
    name ∈ node.keptParameters ↔ name ∈ e.keptParameters := by
  cases h with
  | same => exact Iff.rfl
  | identicalTo left right dtype label =>
    simp [and, isNull, equals, call, binary, ofOp, mem_keptParameters_mk, Op.ownParameters, Op.kept, Op.operands]
  | floorDivide left right dtype label =>
    simp [divide, binary, ofOp, mem_keptParameters_mk, Op.ownParameters, Op.kept, Op.operands]
  | log2 arg dtype label =>
    simp [literal, ofOp, mem_keptParameters_mk, Op.ownParameters, Op.kept, Op.operands]
  | dayOfWeekName arg dtype label =>
    simp [literal, ofOp, mem_keptParameters_mk, Op.ownParameters, Op.kept, Op.operands]
  | booleanAsInteger hfunc arg filter dtype label =>
    simp [cast, ofOp, mem_keptParameters_mk, Op.ownParameters, Op.kept, Op.operands]

theorem mem_keptParameters_lower {e : Expr} {name : String} :
    name ∈ (e.lower Rule.bigQuery).keptParameters ↔ name ∈ e.keptParameters := by
  induction e using Expr.lower_induct with
  | step e ih =>
    rw [← mem_keptParameters_replaces (replaces_bigQuery e), lower_eq]
    generalize e.replaced Rule.bigQuery = node at ih
    rw [mapOperands, mem_keptParameters_mk, mem_keptParameters, Op.ownParameters_map, Op.kept_map]
    simp only [List.mem_map, exists_exists_and_eq_and]
    refine or_congr_right (exists_congr fun x => and_congr_right fun hx => ?_)
    exact ih x (Op.mem_operands_of_kept hx)

theorem mem_keys_firstByKey {γ : Type} {entries : List (String × γ)} {k : String} :
    k ∈ (firstByKey entries).map Prod.fst ↔ k ∈ entries.map Prod.fst := by
  have hkept : ∀ kept : List (String × γ), k ∈ (entries.foldl
      (fun kept e => if kept.any (·.1 == e.1) then kept else e :: kept) kept).map Prod.fst ↔
        k ∈ kept.map Prod.fst ∨ k ∈ entries.map Prod.fst := by
    induction entries with
    | nil => simp
    | cons e rest ih =>
      intro kept
      rw [List.foldl_cons, ih]
      split
      next hany =>
        have hkey : e.1 ∈ kept.map Prod.fst := by
          obtain ⟨other, hother, heq⟩ := List.any_eq_true.mp hany
          exact List.mem_map.mpr ⟨other, hother, by simpa using heq⟩
        rw [List.map_cons, List.mem_cons]
        constructor
        · rintro (h | h)
          · exact .inl h
          · exact .inr (.inr h)
        · rintro (h | rfl | h)
          · exact .inl h
          · exact .inl hkey
          · exact .inr h
      next => simp only [List.map_cons, List.mem_cons, or_left_comm, or_assoc]
  simpa [firstByKey] using hkept []

theorem mem_scalarParameters {e : Expr} {name : String} :
    name ∈ e.scalarParameters.map Prod.fst ↔ ∃ x ∈ e.nodes, x.op = .scalarParameter name := by
  rw [scalarParameters, mem_keys_firstByKey, List.mem_map]
  constructor
  · rintro ⟨p, hp, rfl⟩
    obtain ⟨x, hx, hparameter⟩ := List.mem_filterMap.mp hp
    split at hparameter
    next name hop =>
      obtain rfl : (name, x.dtype) = p := by simpa using hparameter
      exact ⟨x, hx, hop⟩
    next => simp at hparameter
  · rintro ⟨x, hx, hop⟩
    exact ⟨(name, x.dtype), List.mem_filterMap.mpr ⟨x, hx, by simp [hop]⟩, rfl⟩

theorem mem_scalarParameters_of_kept {e : Expr} {name : String} (h : name ∈ e.keptParameters) :
    name ∈ e.scalarParameters.map Prod.fst := by
  rw [mem_scalarParameters]
  induction e using Expr.induction_on with
  | step e ih =>
    rw [nodes_eq]
    rcases mem_keptParameters.mp h with hown | ⟨x, hx, hname⟩
    · refine ⟨e, by simp, ?_⟩
      cases hop : e.op <;> simp [hop, Op.ownParameters] at hown
      rw [hown]
    · have hoperand : x ∈ e.operands := Op.mem_operands_of_kept hx
      obtain ⟨y, hy, hop⟩ := ih x hoperand hname
      exact ⟨y, List.mem_cons_of_mem _ (List.mem_flatMap.mpr ⟨x, hoperand, hy⟩), hop⟩

end Expr

namespace Compiler

/-- The returned parameters are the kept ones. They are those of the expression just if each of these is kept somewhere. -/
theorem returned_parameters_eq_iff {e : Expr} {params : Params} {q : CompiledQuery}
    (h : (bigQuery .declared).compile e params = .ok q) :
    (∀ name, name ∈ q.parameters.map QueryParameter.name ↔ name ∈ e.keptParameters) ∧
      ((∀ name, name ∈ q.parameters.map QueryParameter.name ↔ name ∈ e.scalarParameters.map Prod.fst) ↔
        ∀ name ∈ e.scalarParameters.map Prod.fst, name ∈ e.keptParameters) := by
  obtain ⟨body, ctx, hrun, hbind, -⟩ := compile_ok_iff.mp h
  have hreturned (name : String) : name ∈ q.parameters.map QueryParameter.name ↔ name ∈ e.keptParameters := by
    rw [names_of_declared rfl hrun hbind, recorded_renderWithin hrun]
    exact ⟨fun h => Expr.mem_keptParameters_lower.mp (h.resolve_left (by simp [Context.start])),
      fun h => .inr (Expr.mem_keptParameters_lower.mpr h)⟩
  refine ⟨hreturned, fun hall name hname => ?_, fun hkept name => ?_⟩
  · exact (hreturned name).mp ((hall name).mpr hname)
  · rw [hreturned]
    exact ⟨Expr.mem_scalarParameters_of_kept, hkept name⟩

def filteredSum : Expr :=
  .reduction .sum [.param "a" .int64] (some ((Expr.param "a" .int64).binary .less (.param "b" .int64))) .int64

theorem filteredSum_returned :
    ∃ q, (bigQuery .declared).compile filteredSum [("a", .int 1), ("b", .int 2)] = .ok q ∧
      ∀ name, name ∈ q.parameters.map QueryParameter.name ↔ name ∈ filteredSum.scalarParameters.map Prod.fst := by
  obtain ⟨q, hq, -⟩ : ∃ q, (bigQuery .declared).compile filteredSum [("a", .int 1), ("b", .int 2)] = .ok q ∧
      q.sql = "SELECT sum(CASE WHEN @a < @b THEN @a ELSE NULL END) AS \x60tmp\x60" := by
    refine compile_of_run ?_
    rw [compile_ordered]
    decide +kernel
  exact ⟨q, hq, (returned_parameters_eq_iff hq).2.mpr (by decide)⟩

def filteredCount : Expr :=
  .reduction .count [] (some ((Expr.param "a" .int64).binary .less (.column "x" none .int64))) .int64

theorem filteredCount_leaves_out_filter :
    (∃ q, (bigQuery .declared).compile filteredCount [("a", .int 1)] = .ok q ∧
      (q.sql, q.parameters.map QueryParameter.name) = ("SELECT count() AS \x60tmp\x60", [])) ∧
    filteredCount.scalarParameters.map Prod.fst = ["a"] := by
  refine ⟨compile_of_run ?_, by decide⟩
  rw [compile_ordered]
  decide +kernel

def simplified : Expr :=
  .call (.geo .simplify) [.column "g" none .geography, .param "t" .int64, .param "p" .bool] .geography

theorem simplified_leaves_out_choice :
    (∃ q, (bigQuery .declared).compile simplified [("t", .int 1), ("p", .bool true)] = .ok q ∧
      (q.sql, q.parameters.map QueryParameter.name) =
        ("SELECT ST_SIMPLIFY(\x60g\x60, @t) AS \x60tmp\x60", ["t"])) ∧
    simplified.scalarParameters.map Prod.fst = ["t", "p"] := by
  refine ⟨compile_of_run ?_, by decide⟩
  rw [compile_ordered]
  decide +kernel

end Compiler

end BigQuerySql
