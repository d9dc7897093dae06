import BigQuerySql.Proofs.LiteralTokens
import BigQuerySql.Proofs.Lowering
import BigQuerySql.Proofs.Masks

namespace BigQuerySql

namespace Value

theorem eq_of_listed {α β : Type} {f : α → Except SqlError String} {key : α → β} {xs ys : List α}
    {as bs : List String} {r s : List Char} (hkey : xs.map key = ys.map key)
    (ha : List.Forall₂ (fun x a => f x = .ok a) xs as) (hb : List.Forall₂ (fun x a => f x = .ok a) ys bs)
    (hitem : ∀ x ∈ xs, ∀ y a b r s, key x = key y → f x = .ok a → f y = .ok b →
      a.toList ++ r = b.toList ++ s → x = y)
    (htext : (String.intercalate ", " as).toList ++ r = (String.intercalate ", " bs).toList ++ s) : xs = ys := by
  induction ha generalizing ys bs with
  | nil => exact (List.map_eq_nil_iff.mp hkey.symm).symm
  | @cons x a xs as hx hxs ih =>
    cases hb with
    | nil => simp at hkey
    | @cons y b ys bs hy hys =>
      obtain ⟨hhead, htail⟩ := List.cons.inj hkey
      cases hxs with
      | nil =>
        cases hys with
        | nil =>
          have htext : a.toList ++ r = b.toList ++ s := by
            simpa [String.toList_intercalate, List.intercalate] using htext
          rw [hitem x (by simp) y a b r s hhead hx hy htext]
        | cons => simp at htail
      | cons hx' hxs =>
        cases hys with
        | nil => simp at htail
        | cons hy' hys =>
          simp only [intercalate_append, List.append_assoc] at htext
          -- the heads are the same, so that their texts are, and the rest begins at the same place
          obtain rfl := hitem x (by simp) y a b _ _ hhead hx hy htext
          obtain rfl : a = b := Except.ok.inj (hx.symm.trans hy)
          rw [ih htail (.cons hy' hys) (fun x hx => hitem x (.tail _ hx)) (by simpa using htext)]

theorem eq_of_cast_append {x y : Binary64} (hx : x.isFinite = false) (hy : y.isFinite = false) {t : DataType}
    {a b : String} {r s : List Char} (ha : (Value.float x).literal t = .ok a) (hb : (Value.float y).literal t = .ok b)
    (htext : a.toList ++ r = b.toList ++ s) : x = y := by
  have hcases {x : Binary64} (hx : x.isFinite = false) : x = .nan ∨ ∃ negative, x = .infinite negative := by
    cases x with
    | nan => exact .inl rfl
    | infinite negative => exact .inr ⟨negative, rfl⟩
    | finite => exact absurd hx (by simp [Binary64.isFinite])
  rw [literal_plain rfl] at ha hb
  rcases hcases hx with rfl | ⟨_ | _, rfl⟩ <;> rcases hcases hy with rfl | ⟨_ | _, rfl⟩ <;>
    simp only [plainLiteral, Except.ok.injEq] at ha hb <;> subst ha hb <;> first | rfl | simp [signText] at htext

theorem eq_of_literal_append {v : Value} : ∀ {w : Value} {t : DataType} {a b : String} {r s : List Char},
    v.masked = w.masked → v.literal t = .ok a → w.literal t = .ok b → a.toList ++ r = b.toList ++ s → v = w := by
  induction v using Value.induction_on with
  | plain v hv =>
    intro w t a b r s h ha hb htext
    by_cases hfloat : ∃ x, v = .float x
    · obtain ⟨x, rfl⟩ := hfloat
      obtain ⟨y, rfl, rfl | ⟨hx, hy⟩⟩ := float_of_masked h
      · rfl
      · rw [eq_of_cast_append hx hy ha hb htext]
    · exact eq_of_masked_leaf hv (fun x hx => hfloat ⟨x, hx⟩) h
  | array items ih =>
    intro w t a b r s h ha hb htext
    obtain ⟨others, rfl, hmasks⟩ := array_of_masked h
    obtain ⟨element, as, rfl, has, rfl⟩ := literal_array.mp ha
    obtain ⟨element', bs, hel, hbs, rfl⟩ := literal_array.mp hb
    obtain rfl : element = element' := DataType.array.inj hel
    rw [eq_of_listed hmasks has hbs fun v hv w a b r s => ih v hv]
    · simpa using htext
  | struct members ih =>
    intro w t a b r s h ha hb htext
    obtain ⟨others, rfl, hmasks⟩ := struct_of_masked h
    obtain ⟨fields, as, rfl, has, rfl⟩ := literal_struct.mp ha
    obtain ⟨fields', bs, hfields, hbs, rfl⟩ := literal_struct.mp hb
    obtain rfl : fields = fields' := DataType.struct.inj hfields
    refine congrArg _ (eq_of_listed hmasks has hbs (fun m hm k a b r s hmk ha hb htext => ?_) (by simpa using htext))
    obtain ⟨hname, hmask⟩ := Prod.mk.inj hmk
    obtain ⟨field, text, hfield, htext₁, rfl⟩ := memberLiteral_ok.mp ha
    obtain ⟨field', text', hfield', htext₂, rfl⟩ := memberLiteral_ok.mp hb
    obtain rfl : field = field' := by rw [← Option.some.injEq, ← hfield, hname, hfield']
    simp only [String.toList_append, List.append_assoc] at htext
    exact Prod.ext hname (ih m hm hmask htext₁ htext₂ htext)

end Value

theorem Target.render_literal {t : Target} (hget : t.formatters.get? .literal = some .literal) {e : Expr} {v : Value}
    (h : e.op = .literal v) (ctx : Context) : (t.render e).run ctx = (v.literal e.dtype).map fun body => (body, ctx) := by
  have hkind : e.kind = .literal := by
    rw [Expr.kind, h]
    rfl
  have hlayout : Formatter.literal.layout e = .ofExcept (v.literal e.dtype) := by
    simp only [Formatter.layout, Expr.literalValue?, h]
  rw [render_eq, hkind, hget]
  simp only [hlayout]
  cases v.literal e.dtype with
  | error error => rfl
  | ok body =>
    have hfill : (Layout.constant body).fill [] = body := by simp [Layout.constant, Layout.fill, Piece.fill]
    show Except.ok ((Layout.constant body).fill [], ctx) = .ok (body, ctx)
    rw [hfill]

namespace Compiler

def selection (e : Expr) (body : String) : String :=
  "SELECT " ++ body ++ " AS " ++ Sql.backtick (e.label.getD defaultAlias)

theorem statement_literal {e : Expr} {v : Value} (h : e.op = .literal v) (body : String) :
    statement e body = selection e body := by
  have htable : e.isTable = false := by rw [Expr.isTable, h]
  have hnodes : e.nodes = [e] := by rw [Expr.nodes_eq, Expr.operands, h, Op.operands, List.flatMap_nil]
  have htables : e.referencedTables = [] := by
    simp [Expr.referencedTables, hnodes, h, Expr.firstByKey]
  simp [statement, selection, htable, htables]

theorem compile_literal (naming : ParamNaming) (params : Params) {e : Expr} {v : Value} (h : e.op = .literal v) :
    (bigQuery naming).compile e params = (v.literal e.dtype).map fun body => ⟨selection e body, []⟩ := by
  have hlower : e.lower (bigQuery naming).rules = e := by
    obtain ⟨op, dtype, label⟩ := e
    subst h
    exact Expr.lower_kept rfl
  have hget : ((bigQuery naming).target params).formatters.get? .literal = some .literal := by
    rw [target, bigQuery, Formatter.get_lookupOrder]
    rfl
  rw [compile, hlower, Target.render_literal hget h, ← funext (statement_literal h)]
  cases v.literal e.dtype <;> rfl

theorem compile_literal_ok {naming : ParamNaming} {params : Params} {e : Expr} {v : Value} {q : CompiledQuery}
    (h : e.op = .literal v) (hq : (bigQuery naming).compile e params = .ok q) :
    ∃ body, v.literal e.dtype = .ok body ∧ q.sql = selection e body := by
  rw [compile_literal naming params h] at hq
  cases hbody : v.literal e.dtype with
  | error error => simp [hbody, Except.map] at hq
  | ok body =>
    rw [hbody] at hq
    exact ⟨body, rfl, by rw [← Except.ok.inj hq]⟩

end Compiler

namespace Expr

theorem eq_iff_identity (e₁ e₂ : Expr) :
    e₁ = e₂ ↔ e₁.identity = e₂.identity ∧ e₁.nonFinite = e₂.nonFinite := by
  constructor
  · rintro rfl
    exact ⟨rfl, rfl⟩
  · rintro ⟨hidentity, hdoubles⟩
    exact eq_of_masked (identity_eq_iff_masked.mp hidentity) hdoubles

theorem eq_of_compile_literal {e₁ e₂ : Expr} {v : Value} (hv : e₁.op = .literal v) (h : e₁.identity = e₂.identity)
    {naming : ParamNaming} {params : Params} {q : CompiledQuery}
    (h₁ : (Compiler.bigQuery naming).compile e₁ params = .ok q)
    (h₂ : (Compiler.bigQuery naming).compile e₂ params = .ok q) : e₁.nonFinite = e₂.nonFinite := by
  obtain ⟨w, hw, hmasks, hdtype, hlabel⟩ := literal_of_masked (identity_eq_iff_masked.mp h) hv
  obtain ⟨a, ha, hsql₁⟩ := Compiler.compile_literal_ok hv h₁
  obtain ⟨b, hb, hsql₂⟩ := Compiler.compile_literal_ok hw h₂
  have htext : a = b := by
    rw [hsql₁] at hsql₂
    simpa [Compiler.selection, hlabel, String.append_assoc] using hsql₂
  rw [← hdtype, ← htext] at hb
  rw [nonFinite_literal hv, nonFinite_literal hw, Value.eq_of_literal_append (r := []) (s := []) hmasks ha hb rfl]

/-- The identity of an expression tells it up to its doubles that are not finite. With the same such doubles
expressions of one identity are compiled alike; of constants these doubles are written out, so that constants of one
identity are compiled to one statement just if they have the same. -/
theorem identity_hides_nonFinite (e₁ e₂ : Expr) :
    (e₁.identity = e₂.identity ↔ e₁.masked = e₂.masked) ∧
      (e₁.identity = e₂.identity → e₁.nonFinite = e₂.nonFinite →
        ∀ naming params,
          (Compiler.bigQuery naming).compile e₁ params = (Compiler.bigQuery naming).compile e₂ params) ∧
      (e₁.identity = e₂.identity → ∀ v, e₁.op = .literal v → ∀ naming params q,
        (Compiler.bigQuery naming).compile e₁ params = .ok q →
          ((Compiler.bigQuery naming).compile e₂ params = .ok q ↔ e₁.nonFinite = e₂.nonFinite)) := by
  refine ⟨identity_eq_iff_masked, ?_, ?_⟩
  · intro hidentity hdoubles naming params
    rw [(eq_iff_identity e₁ e₂).mpr ⟨hidentity, hdoubles⟩]
  · intro hidentity v hv naming params q hq
    constructor
    · exact eq_of_compile_literal hv hidentity hq
    · intro hdoubles
      rw [← (eq_iff_identity e₁ e₂).mpr ⟨hidentity, hdoubles⟩]
      exact hq

theorem nan_infinity_share_identity :
    (literal (.float .nan) .float64).identity = (literal (.float (.infinite false)) .float64).identity ∧
      (Compiler.bigQuery .declared).compile (literal (.float .nan) .float64) [] =
        .ok ⟨"SELECT CAST('nan' AS FLOAT64) AS \x60tmp\x60", []⟩ ∧
      (Compiler.bigQuery .declared).compile (literal (.float (.infinite false)) .float64) [] =
        .ok ⟨"SELECT CAST('inf' AS FLOAT64) AS \x60tmp\x60", []⟩ := by
  refine ⟨identity_eq_iff_masked.mpr rfl, ?_, ?_⟩
  · rw [Compiler.compile_literal .declared [] rfl]
    cbv
  · rw [Compiler.compile_literal .declared [] rfl]
    cbv

end Expr

end BigQuerySql
