import BigQuerySql.Proofs.FirstAppearances
import BigQuerySql.Proofs.JsonNesting
import BigQuerySql.Proofs.Names
import BigQuerySql.Proofs.SetOperations

/-!
What the identity of a compiled query tells. The objects of the parameters follow the statement without a mark between
them. The statement of a value or of set operations over tables ends with no bracket that closes an object, and a text
of objects at the end of another one begins between two of them, so that the identity can be cut in one way only.
-/

namespace BigQuerySql

def EndsPlainly (text : String) : Prop :=
  ∃ c, text.toList.getLast? = some c ∧ Json.closesBracket c = false

theorem EndsPlainly.append (before : String) {text : String} (h : EndsPlainly text) :
    EndsPlainly (before ++ text) := by
  obtain ⟨c, hlast, hc⟩ := h
  exact ⟨c, by rw [String.toList_append, List.getLast?_append, hlast, Option.some_or], hc⟩

namespace Sql

theorem endsPlainly_backtick (name : String) : EndsPlainly (backtick name) :=
  ⟨'\x60', by rw [backtick, backtickChars, String.toList_ofList, ← List.cons_append, List.getLast?_concat], rfl⟩

theorem endsPlainly_identifier (name : String) : EndsPlainly (identifier name) := by
  rw [identifier]
  split
  next hbare =>
    have hne : name.toList ≠ [] := by
      rintro hnil
      simp [hnil, isBareName] at hbare
    have hname : isNameChar (name.toList.getLast hne) = true :=
      Lexis.isNameChar_of_isBareName hbare _ (List.getLast_mem hne)
    refine ⟨_, List.getLast?_eq_some_getLast hne, ?_⟩
    by_contra hclose
    simp only [Json.closesBracket, Bool.not_eq_false, Bool.or_eq_true, beq_iff_eq] at hclose
    rcases hclose with hclose | hclose <;> exact absurd (hclose ▸ hname) (by decide)
  next => exact endsPlainly_backtick name

theorem endsPlainly_chain {texts : List String} {parts : List Expr} (hne : parts ≠ []) {i : Nat} {words : List String}
    (h : ∀ j x, parts[j]? = some x → EndsPlainly (texts.getD (i + j) "")) :
    EndsPlainly (String.join ((chainPieces i parts words).map (Piece.fill texts))) := by
  induction parts generalizing i words with
  | nil => exact absurd rfl hne
  | cons e rest ih =>
    cases rest with
    | nil =>
      rw [chainPieces, List.append_nil, chainPart]
      split
      next =>
        have hclose : EndsPlainly ")" := ⟨')', rfl, rfl⟩
        simpa [Piece.fill] using (hclose.append (texts.getD i "")).append "("
      next => simpa [Piece.fill] using h 0 e rfl
    | cons f rest =>
      have hrest (words : List String) :
          EndsPlainly (String.join ((chainPieces (i + 1) (f :: rest) words).map (Piece.fill texts))) :=
        ih (by simp) fun j x hj => by simpa [Nat.add_assoc, Nat.add_comm 1] using h (j + 1) x (by simpa using hj)
      cases words with
      | nil =>
        have hpieces : chainPieces i (e :: f :: rest) [] = chainPart i e ++ chainPieces (i + 1) (f :: rest) [] := rfl
        rw [hpieces, List.map_append, String.join_append]
        exact (hrest []).append _
      | cons word words =>
        have hpieces : chainPieces i (e :: f :: rest) (word :: words) =
            chainPart i e ++ .text ("\n" ++ word ++ "\n") :: chainPieces (i + 1) (f :: rest) words := rfl
        rw [hpieces, List.map_append, String.join_append, List.map_cons, String.join_cons]
        exact ((hrest words).append _).append _

end Sql

namespace SetTree

theorem ofExpr_lower {e : Expr} : ∀ {t : SetTree}, ofExpr? e = some t → ofExpr? (e.lower Rule.bigQuery) = some t := by
  induction e using Expr.induction_on with
  | step e ih =>
    intro t ht
    obtain ⟨op, dtype, label⟩ := e
    rcases ofExpr_cases ht with ⟨name, schema, rfl, rfl⟩ | ⟨kind, left, right, distinct, l, r, rfl, hl, hr, rfl⟩
    · rw [Expr.lower_kept rfl]
      rfl
    · have hkept : Rule.replacing.lookup (.setOp kind) = none := by cases kind <;> rfl
      have hleft := ih left (by simp [Expr.operands, Op.operands]) hl
      have hright := ih right (by simp [Expr.operands, Op.operands]) hr
      rw [Expr.lower_kept (e := ⟨.setOp kind left right distinct, dtype, label⟩) hkept, Expr.mapOperands, Op.map,
        ofExpr_setOp, hleft, hright]
      rfl

theorem endsPlainly_of_writes {naming : ParamNaming} {params : Params} {e : Expr} {text : String}
    (h : ((Compiler.bigQuery naming).target params).Writes e text) : (ofExpr? e).isSome → EndsPlainly text := by
  refine Target.writes_induct (P := fun e text => (ofExpr? e).isSome → EndsPlainly text)
    (fun e f texts hf hs hsome => ?_) h
  have hs := Target.forall₂_takes_mono (fun x _ v hv => hv.2) hs
  obtain ⟨t, ht⟩ := Option.isSome_iff_exists.mp hsome
  rcases filled_cases ht hf hs with ⟨name, schema, -, -, hfill⟩ |
    ⟨kind, distinct, l, r, parts, words, -, hflat, hparts, hfill⟩
  · rw [hfill]
    exact (Sql.endsPlainly_identifier name).append _
  · have hne : parts ≠ [] := by
      rintro rfl
      simpa using Sql.flatten_length hflat
    rw [hfill]
    refine Sql.endsPlainly_chain hne fun j x hj => ?_
    obtain ⟨s, hs, -⟩ := flatten_trees hflat ht x (List.mem_of_getElem? hj)
    rw [Nat.zero_add]
    exact forall₂_getD hparts hj (by simp [hs])

end SetTree

def Expr.ValueOrSetTree (e : Expr) : Prop :=
  e.isTable = false ∨ (SetTree.ofExpr? e).isSome = true

namespace Compiler

theorem endsPlainly_statement {e : Expr} (h : e.isTable = false) (body : String) : EndsPlainly (statement e body) := by
  have hname := Sql.endsPlainly_backtick (e.label.getD defaultAlias)
  simp only [statement, h, Bool.false_eq_true, if_false]
  split
  next table _ => exact ((Sql.endsPlainly_identifier table).append _).append _
  next => simpa using hname.append _

theorem endsPlainly_compile {naming : ParamNaming} {e : Expr} (he : e.ValueOrSetTree) {params : Params}
    {q : CompiledQuery} (h : (bigQuery naming).compile e params = .ok q) : EndsPlainly q.sql := by
  obtain ⟨body, hbody, hsql⟩ := compile_ok h
  have hkept : (e.lower Rule.bigQuery).isTable = e.isTable := Expr.isTable_lowerWithin _ _ _
  rw [hsql]
  by_cases htable : e.isTable = true
  · have htree : (SetTree.ofExpr? e).isSome = true := he.resolve_left (by simp [htable])
    obtain ⟨t, ht⟩ := Option.isSome_iff_exists.mp htree
    have hends : EndsPlainly body :=
      SetTree.endsPlainly_of_writes hbody (Option.isSome_iff_exists.mpr ⟨t, SetTree.ofExpr_lower ht⟩)
    have hstatement : statement (e.lower Rule.bigQuery) body = body := by rw [statement, hkept, if_pos htable]
    exact hstatement.symm ▸ hends
  · exact endsPlainly_statement (hkept.trans (by simpa using htable)) body

end Compiler

namespace QueryParameter

open Json Json.Place

def wireChars (ps : List QueryParameter) : List Char :=
  ps.flatMap fun p => p.toWire.chars

theorem scan_wireChars (ps : List QueryParameter) : gap.scan (wireChars ps) = some gap := by
  induction ps with
  | nil => rfl
  | cons p ps ih =>
    rw [wireChars, List.flatMap_cons, scan_append, toWire, scan_obj, Option.bind_some]
    exact ih

theorem begins_wireChars {ps : List QueryParameter} (h : ps ≠ []) : Begins (wireChars ps) := by
  obtain ⟨p, ps, rfl⟩ := List.exists_cons_of_ne_nil h
  exact ⟨'n', _, rfl, rfl, rfl⟩

theorem escapes_wireChars (ps : List QueryParameter) : Escapes continuesNumber (wireChars ps) := by
  by_cases h : ps = []
  · simp [h, wireChars, Escapes]
  · obtain ⟨c, rest, hbegin, -⟩ := begins_wireChars h
    rw [hbegin]
    exact escapes_cons (by decide) _

theorem texts_of_wireChars {ps qs : List QueryParameter} (h : wireChars ps = wireChars qs) :
    ps.map (fun p => p.toWire.text) = qs.map fun p => p.toWire.text := by
  induction ps generalizing qs with
  | nil =>
    cases qs with
    | nil => rfl
    | cons q qs => exact absurd h (by simp [wireChars, toWire, chars])
  | cons p ps ih =>
    cases qs with
    | nil => exact absurd h (by simp [wireChars, toWire, chars])
    | cons q qs =>
      obtain ⟨hhead, htail⟩ := chars_append_inj (escapes_wireChars ps) (escapes_wireChars qs) h
      rw [List.map_cons, List.map_cons, ih htail, Json.text, Json.text, hhead]

theorem nil_of_append_wireChars {s t : String} (ht : EndsPlainly t) {ps qs : List QueryParameter} {u : List Char}
    (hu : t.toList = s.toList ++ u) (h : wireChars ps = u ++ wireChars qs) : u = [] := by
  rcases List.eq_nil_or_concat' u with rfl | ⟨before, c, rfl⟩
  · rfl
  -- what lies between the two beginnings runs from a gap to a gap, so that it ends with a closing bracket
  have hscan : gap.scan ((before ++ [c]) ++ wireChars qs) = some gap := h ▸ scan_wireChars ps
  have hgap : gap.scan (before ++ [c]) = some gap := by
    by_cases hqs : qs = []
    · simpa [hqs, wireChars] using hscan
    · exact scan_gap_of_append hscan (scan_wireChars qs) (begins_wireChars hqs)
  obtain ⟨d, hlast, hd⟩ := ht
  obtain rfl : c = d := by simpa [hu] using hlast
  exact absurd (closesBracket_of_scan_gap hgap) (by simp [hd])

end QueryParameter

theorem toList_loop (bytes : ByteArray) (i : Nat) (done : List UInt8) :
    ByteArray.toList.loop bytes i done = done.reverse ++ bytes.data.toList.drop i := by
  fun_induction ByteArray.toList.loop bytes i done with
  | case1 i done h ih =>
    have hi : i < bytes.data.toList.length := by simpa using h
    have hget : bytes.get! i = bytes.data.toList[i] := by simp [ByteArray.get!, h]
    rw [ih, List.drop_eq_getElem_cons hi]
    simp [hget]
  | case2 i done h => rw [List.drop_eq_nil_of_le (by simpa using h), List.append_nil]

theorem toList_toUTF8_inj {s t : String} : s.toUTF8.toList = t.toUTF8.toList ↔ s = t := by
  constructor
  · intro h
    have hdata : s.toUTF8.data.toList = t.toUTF8.data.toList := by
      simpa [ByteArray.toList, toList_loop] using h
    exact String.toByteArray_inj.mp (ByteArray.ext (Array.toList_inj.mp hdata))
  · rintro rfl
    rfl

namespace CompiledQuery

theorem toList_identity (q : CompiledQuery) :
    q.identity.toList = q.sql.toList ++ QueryParameter.wireChars q.parameters := by
  simp [identity, String.toList_join, QueryParameter.wireChars, List.flatMap_map, Json.text]

theorem eq_of_identity {q₁ q₂ : CompiledQuery} (h₁ : EndsPlainly q₁.sql) (h₂ : EndsPlainly q₂.sql)
    (h : q₁.identity = q₂.identity) :
    q₁.sql = q₂.sql ∧ q₁.parameters.map (fun p => p.toWire.text) = q₂.parameters.map fun p => p.toWire.text := by
  have htext := congrArg String.toList h
  rw [toList_identity, toList_identity] at htext
  suffices hsql : q₁.sql.toList = q₂.sql.toList by
    rw [hsql] at htext
    exact ⟨String.toList_inj.mp hsql, QueryParameter.texts_of_wireChars (List.append_cancel_left htext)⟩
  rcases List.append_eq_append_iff.mp htext with ⟨u, hsql, hwire⟩ | ⟨u, hsql, hwire⟩
  · obtain rfl := QueryParameter.nil_of_append_wireChars h₂ hsql hwire
    simpa using hsql.symm
  · obtain rfl := QueryParameter.nil_of_append_wireChars h₁ hsql hwire
    simpa using hsql

theorem parts_of_run {naming : ParamNaming} {e : Expr} {params : Params} {sql : String} {texts : List String}
    (h : ((Compiler.ordered naming).compile e params).toOption.map
      (fun q => (q.sql, q.parameters.map fun p => p.toWire.text)) = some (sql, texts)) :
    ∃ q, (Compiler.bigQuery naming).compile e params = .ok q ∧
      q.sql = sql ∧ (q.parameters.map fun p => p.toWire.text) = texts := by
  obtain ⟨q, hq, hparts⟩ : ∃ q, (Compiler.bigQuery naming).compile e params = .ok q ∧
      (q.sql, q.parameters.map fun p => p.toWire.text) = (sql, texts) := by
    refine Compiler.compile_of_run ?_
    rw [Compiler.compile_ordered]
    exact h
  exact ⟨q, hq, Prod.mk.inj hparts⟩

/-- The bytes that are digested for the fingerprints of two compiled queries are the same just if the statements are
and the texts of the parameters are, one by one, where each query is of a value or of set operations over tables. -/
theorem digested_bytes_eq_iff {naming₁ naming₂ : ParamNaming} {e₁ e₂ : Expr} (he₁ : e₁.ValueOrSetTree)
    (he₂ : e₂.ValueOrSetTree) {params₁ params₂ : Params} {q₁ q₂ : CompiledQuery}
    (h₁ : (Compiler.bigQuery naming₁).compile e₁ params₁ = .ok q₁)
    (h₂ : (Compiler.bigQuery naming₂).compile e₂ params₂ = .ok q₂) :
    q₁.identity.toUTF8.toList = q₂.identity.toUTF8.toList ↔
      q₁.sql = q₂.sql ∧ q₁.parameters.map (fun p => p.toWire.text) = q₂.parameters.map fun p => p.toWire.text := by
  rw [toList_toUTF8_inj]
  constructor
  · exact eq_of_identity (Compiler.endsPlainly_compile he₁ h₁) (Compiler.endsPlainly_compile he₂ h₂)
  · rintro ⟨hsql, htexts⟩
    rw [identity, identity, hsql, htexts]

theorem numbered_parameter_bytes :
    ∃ q₁ q₂ q₃,
      (Compiler.bigQuery .declared).compile (.param "param_0" .string)
        [("param_0", .string "\"\x7d\x7d\x7b")] = .ok q₁ ∧
      (Compiler.bigQuery .generated).compile (.param "x" .string) [("x", .string "\"\x7d\x7d\x7b")] = .ok q₂ ∧
      (Compiler.bigQuery .generated).compile (.param "x" .string) [("x", .string "\"\x7d\x7d")] = .ok q₃ ∧
      q₁.identity.toUTF8.toList = q₂.identity.toUTF8.toList ∧
      q₂.identity.toUTF8.toList ≠ q₃.identity.toUTF8.toList := by
  have hvalue (name : String) : (Expr.param name .string).ValueOrSetTree := .inl rfl
  let sql := "SELECT @param_0 AS \x60tmp\x60"
  let text (value : String) :=
    "\x7b\"name\":\"param_0\",\"parameterType\":\x7b\"type\":\"STRING\"\x7d,\"parameterValue\":\x7b\"value\":\"" ++
      value ++ "\"\x7d\x7d"
  obtain ⟨q₁, h₁, hsql₁, htexts₁⟩ := @parts_of_run .declared (.param "param_0" .string)
    [("param_0", .string "\"\x7d\x7d\x7b")] sql [text "\\\"\x7d\x7d\x7b"] (by decide +kernel)
  obtain ⟨q₂, h₂, hsql₂, htexts₂⟩ := @parts_of_run .generated (.param "x" .string)
    [("x", .string "\"\x7d\x7d\x7b")] sql [text "\\\"\x7d\x7d\x7b"] (by decide +kernel)
  obtain ⟨q₃, h₃, hsql₃, htexts₃⟩ := @parts_of_run .generated (.param "x" .string)
    [("x", .string "\"\x7d\x7d")] sql [text "\\\"\x7d\x7d"] (by decide +kernel)
  refine ⟨q₁, q₂, q₃, h₁, h₂, h₃, (digested_bytes_eq_iff (hvalue _) (hvalue _) h₁ h₂).mpr ?_, fun hbytes => ?_⟩
  · exact ⟨hsql₁.trans hsql₂.symm, htexts₁.trans htexts₂.symm⟩
  · have htexts := ((digested_bytes_eq_iff (hvalue _) (hvalue _) h₂ h₃).mp hbytes).2
    rw [htexts₂, htexts₃] at htexts
    exact absurd htexts (by decide)

end CompiledQuery

end BigQuerySql
