import BigQuerySql.Proofs.ParameterOrder
import BigQuerySql.Proofs.Precedence

namespace BigQuerySql

open Lexis

namespace Layout

@[simp] theorem free_nil : Free [] := by simp [Free]

@[simp] theorem free_text_cons {s : String} {ps : List Piece} : Free (.text s :: ps) ↔ '@' ∉ s.toList ∧ Free ps := by
  simp [Free, or_imp, forall_and]

@[simp] theorem free_part_cons {i : Nat} {ps : List Piece} : Free (.part i :: ps) ↔ Free ps := by
  simp [Free]

@[simp] theorem free_append {ps qs : List Piece} : Free (ps ++ qs) ↔ Free ps ∧ Free qs := by
  simp [Free, or_imp, forall_and]

theorem free_parts (first n : Nat) : Free (parts ", " first n) := by
  intro s hs
  obtain rfl := text_mem_parts hs
  decide

theorem free_apply {function : String} (h : '@' ∉ function.toList) (args : List Expr) :
    Free (apply function args).pieces := by
  simp [apply, free_parts, h]

end Layout

namespace Formatter

open Sql

def givenTexts : Formatter → List String
  | .function name _ => [name]
  | .template _ pieces => pieces.filterMap fun | .text s => some s | .part _ => none
  | .leading words => [words]
  | .trailing words => [words]
  | .truncate name _ => [name]
  | .intervalArithmetic name _ => [name]
  | .regex before middle after _ => [before, middle, after]
  | .reduction name => [name]
  | .singleReduction before after => [before, after]
  | _ => []

theorem bigQuery_givenTexts {k : Kind} {f : Formatter} (h : bigQuery.get? k = some f) :
    ∀ s ∈ f.givenTexts, '@' ∉ s.toList := by
  have hgiven : f.givenTexts.all fun s => !s.toList.contains '@' :=
    bigQuery_all (p := fun entry => entry.2.givenTexts.all fun s => !s.toList.contains '@') (by decide +kernel)
      (by decide +kernel) h
  simpa using hgiven

theorem free_chainPieces {kind : SetOpKind} {parts : List Expr} {words : List String}
    (hw : ∀ word ∈ words, ∃ distinct, setKeyword kind distinct = .ok word) (i : Nat) :
    Layout.Free (chainPieces i parts words) := by
  have hpart (i : Nat) (e : Expr) : Layout.Free (chainPart i e) := by
    unfold chainPart
    split <;> simp
  induction parts generalizing i words with
  | nil => exact Layout.free_nil
  | cons e rest ih =>
    rw [chainPieces.eq_def, Layout.free_append]
    refine ⟨hpart i e, ?_⟩
    split
    next => exact Layout.free_nil
    next word words _ _ =>
      rw [List.forall_mem_cons] at hw
      obtain ⟨distinct, hword⟩ := hw.1
      rw [Layout.free_text_cons]
      refine ⟨?_, ih hw.2 (i + 1)⟩
      cases kind <;> cases distinct <;> cases hword <;> decide
    next => exact ih (by simp) (i + 1)

theorem free_binary (op : BinaryOp) : Layout.Free (binaryPieces op) := by
  cases op <;> simp [binaryPieces]

theorem free_rawPattern {pattern : Expr} {raw : String} (h : rawPattern? pattern = some raw) (hp : pattern.SignFree) :
    '@' ∉ raw.toList := by
  obtain ⟨s, hop, hraw⟩ := op_of_rawPattern h
  exact free_rawString hraw ((Expr.signFree_iff.mp hp).1 s (by simp [Expr.ownTexts, hop, Value.texts]))

theorem free_regex {before middle after : String} {arg pattern : Expr} {others : List Expr} (hb : '@' ∉ before.toList)
    (hm : '@' ∉ middle.toList) (ha : '@' ∉ after.toList) (hp : pattern.SignFree) :
    Layout.Free (regexLayout before middle after arg pattern others).pieces := by
  simp only [regexLayout]
  cases hraw : rawPattern? pattern with
  | some raw =>
    have htext := free_rawPattern hraw hp
    cases others <;> simp [hb, hm, ha, htext]
  | none => cases others <;> simp [hb, hm, ha]

theorem free_format {e : Expr} {pieces : List Piece} (h : formatPieces e.dtype = .ok pieces) (he : e.SignFree) :
    Layout.Free pieces := by
  have hzone : ∀ s ∈ e.dtype.zone?.toList, '@' ∉ s.toList :=
    fun s hs => (Expr.signFree_iff.mp he).1 s (by simp [Expr.ownTexts, Option.mem_toList.mp hs])
  cases hd : e.dtype with
  | timestamp zone =>
    rw [hd] at h hzone
    cases h
    have hliteral : '@' ∉ (stringLiteral (zone.getD "UTC")).toList := by
      cases zone with
      | none => exact free_stringLiteral (by decide)
      | some zone => exact free_stringLiteral (hzone zone (by simp [DataType.zone?]))
    simpa using hliteral
  | _ =>
    rw [hd] at h
    cases h <;> simp

theorem free_layout {f : Formatter} {e : Expr} (hown : f.ownKind? = none) (hf : ∀ s ∈ f.givenTexts, '@' ∉ s.toList)
    (hfits : fits (e.kind, f)) (he : e.SignFree) : Layout.Free (f.layout e).pieces := by
  have hlayout := f.outcome e
  generalize f.layout e = l at hlayout
  have hoperand {x : Expr} (hx : x ∈ e.operands) : x.SignFree := (Expr.signFree_iff.mp he).2 x hx
  cases hlayout with
  | fails => exact Layout.free_nil
  | literal | column | parameter | tableScan | cast | floor | structField => cases hown
  | genericLiteral | genericCast | genericSetOp | genericLn | baseFirstLog | genericSubstringFrom | genericSubstring
  | findInSet => cases hfits
  | setOp hop hflat => exact free_chainPieces (flatten_words hflat) 0
  | template => exact fun s hs => hf s (List.mem_filterMap.mpr ⟨.text s, hs, rfl⟩)
  | function | intervalArithmetic | reduction => exact Layout.free_apply (hf _ (by simp [givenTexts])) _
  | infixed => exact free_binary _
  | regex ho =>
    refine free_regex (hf _ ?_) (hf _ ?_) (hf _ ?_) (hoperand (by simp [ho])) <;> simp [givenTexts]
  | strftime hop hp => exact free_format hp (hoperand (by simp [Expr.operands, Op.operands, hop]))
  | @timestampFromUnix arg unit pieces hop hp => cases unit <;> cases hp <;> simp
  | @truncate name units kind arg unit =>
    have hname : '@' ∉ name.toList := hf name (by simp [givenTexts])
    cases unit <;> simp [hname, IntervalUnit.sqlName]
  | hash hop hhow =>
    subst hhow
    exact Layout.free_apply (by decide) _
  | @hashBytes arg how hop hhow =>
    have hdigests : ∀ name ∈ ["md5", "sha1", "sha256", "sha512"], '@' ∉ name.toList := by decide
    exact Layout.free_apply (hdigests how hhow) _
  | ln | log | stringToTimestamp | simplify | arbitrary | sampleCovariance | populationCovariance =>
    exact Layout.free_apply (by decide) _
  | _ => simp_all [givenTexts, Layout.free_parts]

theorem ownKind_eq_none {k : Kind} {f : Formatter} (h : bigQuery.get? k = some f) (hk : ownKinds.contains k = false) :
    f.ownKind? = none := by
  have hkeeps := bigQuery_keepsOwnKind h
  cases hown : f.ownKind? with
  | none => rfl
  | some other =>
    obtain rfl : k = other := by simpa [keepsOwnKind, hown] using hkeeps
    cases f <;> simp [ownKind?] at hown <;> subst hown <;> simp [ownKinds] at hk

end Formatter

namespace Lexis

theorem placeholders_around {before w after : String} (hb : '@' ∉ before.toList) (ha : '@' ∉ after.toList)
    (he : Escapes Sql.isNameChar after.toList) :
    placeholders (before ++ w ++ after).toList = placeholders w.toList := by
  rw [String.toList_append, String.toList_append, List.append_assoc, placeholders_free hb, placeholders_append he,
    placeholders_eq_nil ha, List.append_nil]

theorem escapes_append {r : String} (h : r.toList.head?.any fun c => !Sql.isNameChar c) (s : String) :
    Escapes Sql.isNameChar (r ++ s).toList := by
  rw [String.toList_append]
  cases hr : r.toList with
  | nil => simp [hr] at h
  | cons c cs => simpa [hr, Escapes] using h

end Lexis

def Shows (e : Expr) (w : String) : Prop :=
  SameFirsts (placeholders w.toList) e.shownParameters

section Shows

variable {t : Target} {e : Expr} {w : String}

theorem shows_free (h : '@' ∉ w.toList) (he : e.shownParameters = []) : Shows e w := by
  rw [Shows, placeholders_eq_nil h, he]
  exact .refl _

theorem shows_around {x : Expr} {before after : String} (h : Shows x w) (hb : '@' ∉ before.toList)
    (ha : '@' ∉ after.toList) (hescapes : Escapes Sql.isNameChar after.toList)
    (he : e.shownParameters = x.shownParameters) : Shows e (before ++ w ++ after) := by
  rw [Shows, placeholders_around hb ha hescapes, he]
  exact h

theorem shows_takes {s : Step} (hs : s.expr?.isSome) (h : t.Takes Shows s w) :
    SameFirsts (placeholders w.toList) (s.parametersIn false) := by
  cases s with
  | operand x => exact h
  | nested x =>
    obtain ⟨v, hv, rfl⟩ := h
    split
    · exact shows_around hv (by decide) (by decide) (by simp [Escapes]; decide) rfl
    · exact hv
  | _ => cases hs

theorem shows_shaped {k : Kind} {l : Layout} {texts : List String} (hl : Shaped k l) (hfree : Layout.Free l.pieces)
    (h : List.Forall₂ (t.Takes Shows) l.steps texts) :
    SameFirsts (placeholders (l.fill texts).toList) (l.shownIn false) := by
  rw [Layout.fill, placeholders_pieces hfree hl.joined.2]
  refine SameFirsts.flatMap fun i hi => ?_
  have hlt : i < l.steps.length := by
    obtain ⟨p, hp, hpart⟩ := List.mem_filterMap.mp hi
    cases p with
    | text s => cases hpart
    | part j =>
      cases hpart
      exact (hl.covers i).mp hp
  have hstep : l.steps[i]? = some l.steps[i] := List.getElem?_eq_getElem hlt
  rw [hstep]
  exact shows_takes (hl.operands _ (List.getElem_mem hlt)) (forall₂_getD h hstep)

theorem shown_single (arg : Expr) (op : Op Expr) {dtype : DataType} {label : Option String}
    (hown : op.ownParameters = []) (harranged : op.arranged false = [arg]) :
    Expr.shownParameters ⟨op, dtype, label⟩ = arg.shownParameters := by
  rw [Expr.shownParameters, Expr.parametersIn_mk, hown, harranged]
  simp

theorem shows_own (h : OwnText .declared Shows e w) (he : e.SignFree)
    (hname : ∀ name, e.op = .scalarParameter name → ∀ c ∈ name.toList, Sql.isNameChar c) : Shows e w := by
  have hown := (Expr.signFree_iff.mp he).1
  have htype {name : String} (h : e.dtype.sqlName = .ok name) : '@' ∉ (name ++ ")").toList :=
    free_append (DataType.free_sqlName h fun s hs => hown s (by simp [Expr.ownTexts, hs])) (by decide)
  cases h with
  | @literal v dtype label w h =>
    refine shows_free (Value.free_literal h fun s hs => hown s ?_) rfl
    simp [Expr.ownTexts, hs]
  | @column name table dtype label => exact shows_free (free_backtick (hown name (by simp [Expr.ownTexts]))) rfl
  | @parameter name placeholder dtype label h =>
    obtain rfl : placeholder = name := h
    rw [Shows, placeholders_name (hname placeholder rfl)]
    exact .refl _
  | @scan name schema dtype label =>
    exact shows_free (free_append (by decide) (free_identifier (hown name (by simp [Expr.ownTexts])))) rfl
  | @structField arg field dtype label w h =>
    have hfield : '@' ∉ (Sql.backtick field).toList := free_backtick (hown field (by simp [Expr.ownTexts]))
    have htext : w ++ ("." ++ Sql.backtick field) = "" ++ w ++ ("." ++ Sql.backtick field) := by simp
    rw [htext]
    exact shows_around h (by decide) (free_append (by decide) hfield) (escapes_append (by decide) _)
      (shown_single arg (.structField arg field) rfl rfl)
  | @unixMicros arg dtype label w hint h =>
    exact shows_around h (by decide) (by decide) (escapes_append (r := ")") (by decide) "")
      (shown_single arg (.cast arg) rfl rfl)
  | @cast arg dtype label name w hsql h =>
    have htext : "CAST(" ++ (w ++ (" AS " ++ name)) ++ ")" = "CAST(" ++ w ++ (" AS " ++ (name ++ ")")) := by
      simp only [String.append_assoc]
    rw [htext]
    exact shows_around h (by decide) (free_append (by decide) (htype hsql)) (escapes_append (by decide) _)
      (shown_single arg (.cast arg) rfl rfl)
  | @floor arg dtype label name w hsql h =>
    have htext : "CAST(FLOOR(" ++ (w ++ (") AS " ++ name)) ++ ")" =
        "CAST(FLOOR(" ++ w ++ (") AS " ++ (name ++ ")")) := by
      simp only [String.append_assoc]
    rw [htext]
    exact shows_around h (by decide) (free_append (by decide) (htype hsql)) (escapes_append (by decide) _)
      (shown_single arg (.call .floor [arg]) rfl rfl)

end Shows

namespace Compiler

variable {params : Params}

theorem supplied_of_takes {c : Compiler} {P : Expr → String → Prop} {name w : String} {dtype : DataType}
    (h : (c.target params).Takes P (.parameter name dtype) w) : (params.lookup name).isSome := by
  obtain ⟨ctx, last, -, hp⟩ := h
  simp only [target] at hp
  split at hp
  next => cases hp
  next v hv => rw [hv, Option.isSome_some]

theorem supplied_parameter {c : Compiler} {P : Expr → String → Prop} {e : Expr} {f : Formatter} {texts : List String}
    {name : String} (hf : Formatter.bigQuery.get? e.kind = some f)
    (ht : List.Forall₂ ((c.target params).Takes P) (f.layout e).steps texts) (hop : e.op = .scalarParameter name) :
    (params.lookup name).isSome := by
  have hsuits := Formatter.bigQuery_suits hf
  have hkind : e.kind = .scalarParameter := by rw [Expr.kind, hop, Op.kind]
  rw [hkind] at hsuits
  cases f with
  | parameter =>
    simp only [Formatter.layout, hop] at ht
    obtain ⟨w, -, hw⟩ := forall₂_single ht
    exact supplied_of_takes hw
  | _ => cases hsuits

theorem shows_of_writes (hnames : ∀ name, (params.lookup name).isSome → ∀ c ∈ name.toList, Sql.isNameChar c) {e : Expr}
    {w : String} (h : ((bigQuery .declared).target params).Writes e w) (he : e.SignFree) : Shows e w := by
  refine Target.writes_induct (P := fun e w => e.SignFree → Shows e w) ?_ h he
  intro e f texts hf ht he
  have htakes : List.Forall₂ (((bigQuery .declared).target params).Takes Shows) (f.layout e).steps texts :=
    Target.forall₂_takes_mono (fun x hx v hv => hv.2 (Expr.signFree_layout he hx)) ht
  rcases written_cases hf htakes with ⟨hkind, hshaped⟩ | ⟨-, hown⟩
  -- the parts of a shaped text stand apart, so that no name runs into what follows it
  · have hfree : Layout.Free (f.layout e).pieces :=
      Formatter.free_layout (Formatter.ownKind_eq_none hf hkind) (Formatter.bigQuery_givenTexts hf)
        (Formatter.bigQuery_fits hf) he
    rcases Formatter.bigQuery_keepsOrders hf with ⟨error, hfail⟩ | ⟨-, hshown⟩
    · exact absurd hfail (Target.not_takes_fail htakes)
    · exact (shows_shaped hshaped hfree htakes).trans hshown
  · exact shows_own hown he fun name hop => hnames name (supplied_parameter hf htakes hop)

theorem placeholders_statement {e : Expr} (he : e.SignFree) (body : String) :
    placeholders (statement e body).toList = placeholders body.toList := by
  have hlabel : '@' ∉ (Sql.backtick (e.label.getD defaultAlias)).toList := by
    refine free_backtick ?_
    cases hlabel : e.label with
    | none => decide
    | some label => exact (Expr.signFree_iff.mp he).1 label (by simp [Expr.ownTexts, hlabel])
  have htable {table : String} (h : table ∈ e.referencedTables) : '@' ∉ (Sql.identifier table).toList := by
    obtain ⟨x, hx, name, hop⟩ := Expr.column_of_referencedTables h
    refine free_identifier (he table (List.mem_flatMap.mpr ⟨x, hx, ?_⟩))
    simp [Expr.ownTexts, hop]
  have haround {rest : String} (h : '@' ∉ rest.toList) :
      placeholders ("SELECT " ++ body ++ " AS " ++ Sql.backtick (e.label.getD defaultAlias) ++ rest).toList =
        placeholders body.toList := by
    have hselect : '@' ∉ "SELECT ".toList := by decide
    have hafter : '@' ∉ (" AS " ++ (Sql.backtick (e.label.getD defaultAlias) ++ rest)).toList :=
      free_append (by decide) (free_append hlabel h)
    rw [← placeholders_around (w := body) hselect hafter (escapes_append (by decide) _)]
    simp only [String.append_assoc]
  rw [statement]
  split
  · rfl
  · split
    next table h => exact haround (free_append (by decide) (htable (h ▸ List.mem_singleton_self table)))
    next => exact haround (by decide)

theorem isNameChar_numbered {names : List String} {name : String}
    (h : ((numberedParams names params).lookup name).isSome) : ∀ c ∈ name.toList, Sql.isNameChar c := by
  obtain ⟨entry, hentry, hkey⟩ := List.lookup_isSome_iff.mp h
  obtain ⟨i, hi, rfl⟩ := List.mem_mapIdx.mp hentry
  obtain rfl : name = generatedName i := by simpa using hkey
  exact isNameChar_of_isParameterName (isParameterName_generated i)

theorem numbering_injOn {names : List String} {x y : String} (hx : x ∈ names) (hy : y ∈ names)
    (h : numbering names x = numbering names y) : x = y := by
  rw [numbering, numbering, if_pos hx, if_pos hy] at h
  exact (List.idxOf_inj hx).mp (generatedName_injective h)

theorem declared_of_run {e : Expr} {body : String} {ctx : Context}
    (hrun : ((bigQuery .generated).target params).render (e.lower Rule.bigQuery) .start = .ok (body, ctx)) :
    ctx.slots.map Slot.declared = e.takenParameters.eraseDups := by
  have hdistinct := (generated_reached (bigQuery .generated) (Target.reached_renderWithin .start hrun)).2.2
  have htaken : SameFirsts (ctx.slots.map Slot.declared) e.takenParameters :=
    (taken_renderWithin hrun).trans (Expr.parametersIn_lower e)
  rw [← htaken, eraseDups_of_nodup hdistinct]

theorem placeholders_body {e : Expr} {body : String} {ctx : Context} {ps : List QueryParameter} (he : e.SignFree)
    (hrun : ((bigQuery .generated).target params).render (e.lower Rule.bigQuery) .start = .ok (body, ctx))
    (hbind : ctx.bindAll params = .ok ps) :
    (placeholders body.toList).eraseDups =
      e.shownParameters.eraseDups.map (numbering (ctx.slots.map Slot.declared)) := by
  have hreached : (((bigQuery .generated).withNaming .generated).target params).Reached ctx :=
    Target.reached_renderWithin .start hrun
  have hsuits := numbering_suits hreached hbind
  -- the run with declared names that leaves the same text
  have hmirrors := (renderWithin_mirrors (bigQuery .generated) _ _ .start body ctx hrun).2 hsuits
  have hwrites : ((bigQuery .declared).target (numberedParams (ctx.slots.map Slot.declared) params)).Writes
      ((e.lower Rule.bigQuery).rename (numbering (ctx.slots.map Slot.declared))) body := by
    refine ⟨.start, ctx.numbered, .start, ?_⟩
    rw [Target.render, Expr.weight_rename]
    exact hmirrors
  have hshows :=
    shows_of_writes (fun name => isNameChar_numbered) hwrites (Expr.signFree_rename (Expr.signFree_lower he))
  rw [Shows, Expr.shownParameters, Expr.parametersIn_rename] at hshows
  have hmem {x : String} (hx : x ∈ (e.lower Rule.bigQuery).parametersIn false) : x ∈ ctx.slots.map Slot.declared := by
    rw [declared_of_run hrun, List.mem_eraseDups]
    exact (Expr.parametersIn_lower e).mem_iff.mp (Expr.mem_parametersIn.mp hx)
  rw [hshows, eraseDups_map fun x hx y hy => numbering_injOn (hmem hx) (hmem hy), Expr.parametersIn_lower e]
  rfl

theorem names_of_run {ctx : Context} {ps : List QueryParameter}
    (hreached : (((bigQuery .generated).withNaming .generated).target params).Reached ctx)
    (hbind : ctx.bindAll params = .ok ps) :
    ps.map QueryParameter.name = (ctx.slots.map Slot.declared).map (numbering (ctx.slots.map Slot.declared)) := by
  rw [names_of_bindAll hbind, List.map_map]
  exact List.map_congr_left fun slot hslot => ((numbering_suits hreached hbind).renames slot hslot).symm

/-- The returned parameters are numbered in order. The placeholders of the statement show these numbers in the order in
which the expression shows its parameters, so that they go up from the first just if the parameters are taken in the
order in which they are shown, as they are where no pattern and what it is looked for in both have some. -/
theorem placeholders_in_order_iff {e : Expr} {q : CompiledQuery}
    (hq : (bigQuery .generated).compile e params = .ok q) (he : e.SignFree) :
    q.parameters.map QueryParameter.name = (List.range q.parameters.length).map generatedName ∧
    (placeholders q.sql.toList).eraseDups = e.shownParameters.eraseDups.map (numbering e.takenParameters.eraseDups) ∧
    ((placeholders q.sql.toList).eraseDups = q.parameters.map QueryParameter.name ↔
      e.shownParameters.eraseDups = e.takenParameters.eraseDups) ∧
    (e.OneSided → (placeholders q.sql.toList).eraseDups = q.parameters.map QueryParameter.name) := by
  obtain ⟨body, ctx, hrun, hbind, hsql⟩ := compile_ok_iff.mp hq
  have hreached : (((bigQuery .generated).withNaming .generated).target params).Reached ctx :=
    Target.reached_renderWithin .start hrun
  have hnames := names_of_run hreached hbind
  have hshown := placeholders_body he hrun hbind
  have hstatement : placeholders q.sql.toList = placeholders body.toList := by
    rw [hsql]
    exact placeholders_statement (Expr.signFree_lower he) body
  rw [declared_of_run hrun] at hnames hshown
  have hiff : (placeholders q.sql.toList).eraseDups = q.parameters.map QueryParameter.name ↔
      e.shownParameters.eraseDups = e.takenParameters.eraseDups := by
    rw [hstatement, hshown, hnames]
    refine ⟨fun h => map_cancel (fun x hx y hy => numbering_injOn ?_ hy) h, fun h => by rw [h]⟩
    exact List.mem_eraseDups.mpr (Expr.mem_parametersIn.mp (List.mem_eraseDups.mp hx))
  refine ⟨?_, hstatement ▸ hshown, hiff, fun h => hiff.mpr (by rw [Expr.taken_oneSided h])⟩
  rw [names_of_bindAll hbind, (generated_reached _ hreached).2.1]
  have hcount : q.parameters.length = ctx.slots.length := by
    simpa using congrArg List.length (names_of_bindAll hbind)
  rw [hcount]

def matchedSum : Expr :=
  .reduction .sum [.param "a" .int64]
    (some (.call .regexSearch [.column "x" none .string, .param "p" .string] .bool)) .int64

theorem matchedSum_in_order :
    matchedSum.SignFree ∧ ∃ q, (bigQuery .generated).compile matchedSum [("a", .int 1), ("p", .string "y")] = .ok q ∧
      q.sql = "SELECT sum(CASE WHEN REGEXP_CONTAINS(\x60x\x60, @param_0) THEN @param_1 ELSE NULL END) AS \x60tmp\x60" ∧
      (placeholders q.sql.toList).eraseDups = q.parameters.map QueryParameter.name := by
  have hfree : matchedSum.SignFree := by decide +kernel
  obtain ⟨q, hq, hsql⟩ : ∃ q, (bigQuery .generated).compile matchedSum [("a", .int 1), ("p", .string "y")] = .ok q ∧
      q.sql =
        "SELECT sum(CASE WHEN REGEXP_CONTAINS(\x60x\x60, @param_0) THEN @param_1 ELSE NULL END) AS \x60tmp\x60" := by
    refine compile_of_run ?_
    rw [compile_ordered]
    decide +kernel
  exact ⟨hfree, q, hq, hsql, (placeholders_in_order_iff hq hfree).2.2.1.mpr (by decide +kernel)⟩

def soughtPattern : Expr :=
  .call .regexSearch [.param "a" .string, .param "b" .string] .bool

theorem soughtPattern_out_of_order :
    soughtPattern.SignFree ∧
    ∃ q, (bigQuery .generated).compile soughtPattern [("a", .string "x"), ("b", .string "y")] = .ok q ∧
      (q.sql, placeholders q.sql.toList, q.parameters.map QueryParameter.name) =
        ("SELECT REGEXP_CONTAINS(@param_1, @param_0) AS \x60tmp\x60", ["param_1", "param_0"],
          ["param_0", "param_1"]) := by
  refine ⟨by decide +kernel, compile_of_run ?_⟩
  rw [compile_ordered]
  decide +kernel

end Compiler

end BigQuerySql
