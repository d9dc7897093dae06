import BigQuerySql.Proofs.Digits
import BigQuerySql.Proofs.Renaming

namespace BigQuerySql

namespace Lexis

def placeholders : List Char → List String
  | [] => []
  | c :: cs =>
    if c = '@' then String.ofList (cs.takeWhile Sql.isNameChar) :: placeholders cs else placeholders cs

theorem placeholders_free {cs : List Char} (h : '@' ∉ cs) (rest : List Char) :
    placeholders (cs ++ rest) = placeholders rest := by
  induction cs with
  | nil => rfl
  | cons c cs ih =>
    rw [List.mem_cons, not_or] at h
    rw [List.cons_append, placeholders, if_neg fun heq => h.1 heq.symm, ih h.2]

theorem placeholders_eq_nil {cs : List Char} (h : '@' ∉ cs) : placeholders cs = [] := by
  simpa [placeholders] using placeholders_free h []

theorem placeholders_append {rest : List Char} (h : Escapes Sql.isNameChar rest) (cs : List Char) :
    placeholders (cs ++ rest) = placeholders cs ++ placeholders rest := by
  induction cs with
  | nil => rfl
  | cons c cs ih =>
    rw [List.cons_append, placeholders, placeholders, takeWhile_append_left h, ih]
    split <;> rfl

theorem placeholders_name {name : String} (h : ∀ c ∈ name.toList, Sql.isNameChar c = true) :
    placeholders ("@" ++ name).toList = [name] := by
  have hsign : '@' ∉ name.toList := fun hmem => absurd (h '@' hmem) (by decide)
  have htake : (name.toList ++ []).takeWhile Sql.isNameChar = name.toList ++ [].takeWhile Sql.isNameChar :=
    List.takeWhile_append_of_pos h
  rw [List.takeWhile_nil, List.append_nil] at htake
  have htext : ("@" ++ name).toList = '@' :: name.toList := by simp
  rw [htext, placeholders, if_pos rfl, htake, placeholders_eq_nil hsign, String.ofList_toList]

theorem escapes_of_opens {cs : List Char} (h : opens cs) (rest : List Char) : Escapes Sql.isNameChar (cs ++ rest) := by
  cases cs with
  | nil => simp [opens] at h
  | cons c cs =>
    have hc : Sql.isNameChar c = false := by
      simp only [opens, breaks, Bool.and_eq_true, Bool.not_eq_true'] at h
      exact h.1.1.1
    simpa [Escapes] using hc

end Lexis

open Lexis

def Piece.part? : Piece → Option Nat
  | .text _ => none
  | .part i => some i

def Layout.Free (pieces : List Piece) : Prop :=
  ∀ s, .text s ∈ pieces → '@' ∉ s.toList

theorem placeholders_pieces {pieces : List Piece} {texts : List String} (hfree : Layout.Free pieces)
    (hmeets : pieces.IsChain fun p q => meets p q) :
    placeholders (String.join (pieces.map (·.fill texts))).toList =
      (pieces.filterMap Piece.part?).flatMap fun i => placeholders (texts.getD i "").toList := by
  induction pieces with
  | nil => rfl
  | cons p rest ih =>
    have hrest := ih (fun s hs => hfree s (List.mem_cons_of_mem _ hs)) hmeets.tail
    have hjoin : (String.join ((p :: rest).map (·.fill texts))).toList =
        (p.fill texts).toList ++ (String.join (rest.map (·.fill texts))).toList := by
      simp
    rw [hjoin]
    cases p with
    | text s =>
      rw [List.filterMap_cons_none rfl, ← hrest]
      exact placeholders_free (hfree s List.mem_cons_self) _
    | part i =>
      have hpart : (Piece.part i).part? = some i := rfl
      rw [List.filterMap_cons_some hpart, List.flatMap_cons, ← hrest]
      refine placeholders_append ?_ _
      -- what stands behind a part is a text that opens, or nothing
      cases rest with
      | nil => simp [Escapes]
      | cons q rest =>
        cases q with
        | part j => simp [List.isChain_cons_cons, meets] at hmeets
        | text r =>
          have hopens : opens r.toList := by simpa [meets] using (List.isChain_cons_cons.mp hmeets).1
          simpa [Piece.fill] using escapes_of_opens hopens (String.join (rest.map (·.fill texts))).toList

section Free

theorem free_append {s r : String} (hs : '@' ∉ s.toList) (hr : '@' ∉ r.toList) : '@' ∉ (s ++ r).toList := by
  rw [String.toList_append, List.mem_append, not_or]
  exact ⟨hs, hr⟩

theorem free_calm {cs : List Char} (h : cs.all calm) : '@' ∉ cs :=
  fun hmem => absurd (List.all_eq_true.mp h _ hmem) (by decide)

theorem free_stringChars {cs : List Char} (h : '@' ∉ cs) : '@' ∉ Sql.stringChars cs := by
  intro hmem
  obtain hmem : '@' ∈ cs.flatMap Sql.stringChar := by simpa [Sql.stringChars] using hmem
  obtain ⟨c, hc, hchar⟩ := List.mem_flatMap.mp hmem
  unfold Sql.stringChar at hchar
  split at hchar
  case h_5 =>
    obtain rfl := List.mem_singleton.mp hchar
    exact h hc
  all_goals simp at hchar

theorem free_stringLiteral {s : String} (h : '@' ∉ s.toList) : '@' ∉ (Sql.stringLiteral s).toList := by
  rw [Sql.stringLiteral, String.toList_ofList]
  exact free_stringChars h

theorem free_backtick {s : String} (h : '@' ∉ s.toList) : '@' ∉ (Sql.backtick s).toList := by
  rw [Sql.backtick, String.toList_ofList]
  intro hmem
  obtain ⟨c, hc, hchar⟩ : ∃ c ∈ s.toList, '@' ∈ if c = '\x60' then ['\\', '\x60'] else [c] := by
    simpa [Sql.backtickChars] using hmem
  split at hchar
  · simp at hchar
  · obtain rfl := List.mem_singleton.mp hchar
    exact h hc

theorem free_identifier {s : String} (h : '@' ∉ s.toList) : '@' ∉ (Sql.identifier s).toList := by
  unfold Sql.identifier
  split
  · exact h
  · exact free_backtick h

theorem free_rawString {s raw : String} (hraw : Sql.rawString? s = some raw) (h : '@' ∉ s.toList) :
    '@' ∉ raw.toList := by
  simp only [Sql.rawString?] at hraw
  split at hraw
  next => cases hraw
  next =>
    obtain rfl : "r'" ++ s ++ "'" = raw := by simpa using hraw
    exact free_append (free_append (by decide) h) (by decide)

theorem free_intercalate {texts : List String} (h : ∀ w ∈ texts, '@' ∉ w.toList) :
    '@' ∉ (String.intercalate ", " texts).toList := by
  match texts with
  | [] => simp
  | [w] => simpa using h w
  | w :: w' :: rest =>
    rw [List.forall_mem_cons] at h
    rw [intercalate_append, List.mem_append, List.mem_append, not_or, not_or]
    exact ⟨h.1, by decide, free_intercalate h.2⟩

theorem free_leaf {cs : List Char} (h : Leaf cs) : '@' ∉ cs := by
  cases h with
  | plain h => exact free_calm h
  | quoted hb _ hc ha _ =>
    simp only [List.mem_append, not_or]
    exact ⟨free_calm hb, free_stringChars (free_calm hc), free_calm ha⟩

end Free

namespace Value

mutual

def texts : Value → List String
  | .string s => [s]
  | .decimal d => [d]
  | .array items => itemTexts items
  | .struct members => memberTexts members
  | _ => []

def itemTexts : List Value → List String
  | [] => []
  | v :: rest => v.texts ++ itemTexts rest

def memberTexts : List (String × Value) → List String
  | [] => []
  | (name, v) :: rest => name :: v.texts ++ memberTexts rest

end

theorem itemTexts_eq (items : List Value) : itemTexts items = items.flatMap texts := by
  induction items with
  | nil => rfl
  | cons v rest ih => simp [itemTexts, ih]

theorem memberTexts_eq (members : List (String × Value)) :
    memberTexts members = members.flatMap fun m => m.1 :: m.2.texts := by
  induction members with
  | nil => rfl
  | cons m rest ih => simp [memberTexts, ih]

theorem free_plainLiteral {v : Value} {t : DataType} {a : String} (h : v.plainLiteral t = .ok a)
    (hv : ∀ s ∈ v.texts, '@' ∉ s.toList) : '@' ∉ a.toList := by
  cases v with
  | string s =>
    have hs : '@' ∉ s.toList := hv s (by simp [texts])
    rcases plainLiteral_string h with ⟨-, rfl⟩ | ⟨word, content, hword, hcalm, rfl⟩
    · exact free_stringLiteral hs
    · rw [(temporalWord_frames hword).1.split hcalm]
      exact free_leaf ((temporalWord_frames hword).1.split hcalm ▸ (temporalWord_frames hword).1.leaf hcalm)
  | decimal d =>
    have hd : '@' ∉ d.toList := hv d (by simp [texts])
    rcases plainLiteral_decimal h with ⟨-, rfl⟩ | ⟨word, -, -, hword, rfl⟩
    · exact hd
    · refine free_append (free_append ?_ (by decide)) (free_stringLiteral hd)
      rcases hword with rfl | rfl <;> decide
  | _ => exact free_leaf (leaf_plain (by simp) (by simp) h)

theorem free_literal {v : Value} : ∀ {t : DataType} {a : String}, v.literal t = .ok a →
    (∀ s ∈ v.texts, '@' ∉ s.toList) → '@' ∉ a.toList := by
  induction v using Value.induction_on with
  | plain v hplain =>
    intro t a h hv
    rw [literal_plain hplain] at h
    exact free_plainLiteral h hv
  | array items ih =>
    intro t a h hv
    obtain ⟨element, texts, -, htexts, rfl⟩ := literal_array.mp h
    rw [Value.texts, itemTexts_eq] at hv
    refine free_append (free_append (by decide) (free_intercalate fun w hw => ?_)) (by decide)
    obtain ⟨x, hx, hliteral⟩ := forall₂_mem htexts.flip hw
    exact ih x hx hliteral fun s hs => hv s (List.mem_flatMap.mpr ⟨x, hx, hs⟩)
  | struct members ih =>
    intro t a h hv
    obtain ⟨fields, texts, -, htexts, rfl⟩ := literal_struct.mp h
    rw [Value.texts, memberTexts_eq] at hv
    refine free_append (free_append (by decide) (free_intercalate fun w hw => ?_)) (by decide)
    obtain ⟨m, hm, hliteral⟩ := forall₂_mem htexts.flip hw
    obtain ⟨field, text, -, htext, rfl⟩ := memberLiteral_ok.mp hliteral
    have hmember : ∀ s ∈ m.1 :: m.2.texts, '@' ∉ s.toList := fun s hs => hv s (List.mem_flatMap.mpr ⟨m, hm, hs⟩)
    rw [List.forall_mem_cons] at hmember
    exact free_append (ih m hm htext hmember.2) (free_append (by decide) (free_backtick hmember.1))

end Value

namespace DataType

theorem free_sqlName {t : DataType} : ∀ {a : String}, t.sqlName = .ok a → (∀ s ∈ t.fieldNames, '@' ∉ s.toList) →
    '@' ∉ a.toList := by
  induction t using DataType.induction_on with
  | plain t ht =>
    intro a h _
    cases t with
    | decimal precision scale =>
      simp only [sqlName] at h
      split at h
      · cases h
        decide
      · split at h <;> cases h
        decide
    | timestamp zone => cases zone <;> cases h <;> decide
    | array element => cases ht
    | struct fields => cases ht
    | _ => cases h <;> decide
  | array element ih =>
    intro a h hnames
    obtain ⟨w, hw, rfl⟩ := sqlName_array h
    exact free_append (free_append (by decide) (ih hw (by simpa [fieldNames] using hnames))) (by decide)
  | struct fields ih =>
    intro a h hnames
    obtain ⟨texts, htexts, rfl⟩ := sqlName_struct h
    rw [fieldNames, namesOfFields_eq] at hnames
    refine free_append (free_append (by decide) (free_intercalate fun w hw => ?_)) (by decide)
    obtain ⟨f, hf, hfield⟩ := forall₂_mem htexts.flip hw
    obtain ⟨text, htext, rfl⟩ := sqlField_ok.mp hfield
    have hown : ∀ s ∈ f.name :: f.dtype.fieldNames, '@' ∉ s.toList :=
      fun s hs => hnames s (List.mem_flatMap.mpr ⟨f, hf, hs⟩)
    rw [List.forall_mem_cons] at hown
    exact free_append (free_identifier hown.1) (free_append (by decide) (ih f hf htext hown.2))

end DataType

def DataType.zone? : DataType → Option String
  | .timestamp zone => zone
  | _ => none

namespace Expr

def ownTexts (e : Expr) : List String :=
  e.label.toList ++ e.dtype.zone?.toList ++ e.dtype.fieldNames ++
    match e.op with
    | .literal v => v.texts
    | .column name table => name :: table.toList
    | .tableScan name _ => [name]
    | .structField _ field => [field]
    | _ => []

def texts (e : Expr) : List String :=
  e.nodes.flatMap ownTexts

def SignFree (e : Expr) : Prop :=
  ∀ s ∈ e.texts, '@' ∉ s.toList

instance (e : Expr) : Decidable e.SignFree :=
  inferInstanceAs (Decidable (∀ s ∈ e.texts, '@' ∉ s.toList))

theorem signFree_iff {e : Expr} :
    e.SignFree ↔ (∀ s ∈ e.ownTexts, '@' ∉ s.toList) ∧ ∀ x ∈ e.operands, x.SignFree := by
  simp only [SignFree, texts, List.mem_flatMap]
  rw [nodes_eq]
  constructor
  · intro h
    refine ⟨fun s hs => h s ⟨e, List.mem_cons_self, hs⟩, ?_⟩
    rintro x hx s ⟨y, hy, hs⟩
    exact h s ⟨y, List.mem_cons_of_mem _ (List.mem_flatMap.mpr ⟨x, hx, hy⟩), hs⟩
  · rintro ⟨hown, hoperands⟩ s ⟨y, hy, hs⟩
    rcases List.mem_cons.mp hy with rfl | hy
    · exact hown s hs
    · obtain ⟨x, hx, hy⟩ := List.mem_flatMap.mp hy
      exact hoperands x hx s ⟨y, hy, hs⟩

theorem ownTexts_rename (r : String → String) (e : Expr) : (e.rename r).ownTexts = e.ownTexts := by
  obtain ⟨op, dtype, label⟩ := e
  rw [rename_mk]
  cases op <;> rfl

theorem signFree_rename {r : String → String} {e : Expr} (h : e.SignFree) : (e.rename r).SignFree := by
  intro s hs
  rw [texts, nodes_rename, List.flatMap_map] at hs
  obtain ⟨x, hx, hs⟩ := List.mem_flatMap.mp hs
  rw [ownTexts_rename] at hs
  exact h s (List.mem_flatMap.mpr ⟨x, hx, hs⟩)

theorem signFree_filtered {arg : Expr} {filter : Option Expr} (harg : arg.SignFree)
    (hfilter : ∀ c ∈ filter, c.SignFree) : (arg.filtered filter).SignFree := by
  cases filter with
  | none => exact harg
  | some cond =>
    have hdtype : ∀ s ∈ arg.dtype.zone?.toList ++ arg.dtype.fieldNames, '@' ∉ s.toList := by
      intro s hs
      refine (signFree_iff.mp harg).1 s ?_
      simp only [ownTexts, List.mem_append] at hs ⊢
      tauto
    have hnull : (null arg.dtype).SignFree := by
      refine signFree_iff.mpr ⟨?_, by simp [null, literal, ofOp, operands, Op.operands]⟩
      simpa [null, literal, ofOp, ownTexts, Value.texts] using hdtype
    refine signFree_iff.mpr ⟨by simpa [filtered, ifElse, ofOp, ownTexts] using hdtype, ?_⟩
    simpa [filtered, ifElse, ofOp, operands, Op.operands] using ⟨hfilter cond rfl, harg, hnull⟩

theorem signFree_flatten {kind : SetOpKind} {e : Expr} : ∀ {parts : List Expr} {words : List String},
    Sql.flattenSetOp kind e = .ok (parts, words) → e.SignFree → ∀ x ∈ parts, x.SignFree := by
  induction e using Expr.induction_on with
  | step e ih =>
    intro parts words h he x hx
    rcases Sql.flatten_cases h with ⟨-, rfl, rfl⟩ |
      ⟨left, right, distinct, dtype, label, lp, lw, word, rp, rw, rfl, hl, -, hr, rfl, rfl⟩
    · obtain rfl : x = e := by simpa using hx
      exact he
    · have hleft : left ∈ [left, right] := by simp
      have hright : right ∈ [left, right] := by simp
      have hoperands := (signFree_iff.mp he).2
      rcases List.mem_append.mp hx with hx | hx
      · exact ih left hleft hl (hoperands left hleft) x hx
      · exact ih right hright hr (hoperands right hright) x hx

theorem signFree_layout {f : Formatter} {e x : Expr} (he : e.SignFree) (hx : x ∈ (f.layout e).operands) :
    x.SignFree := by
  have hoperands := (signFree_iff.mp he).2
  rcases f.layout_operand_cases hx with hx | ⟨arg, filter, rfl, harg, hfilter, -⟩ |
    ⟨kind, parts, words, -, hflat, hx⟩
  · exact hoperands x hx
  · exact signFree_filtered (hoperands arg harg) fun c hc => hoperands c (hfilter c hc)
  · exact signFree_flatten hflat he x hx

theorem signFree_mk {op : Op Expr} {dtype : DataType} {label : Option String} :
    SignFree ⟨op, dtype, label⟩ ↔
      (∀ s ∈ ownTexts ⟨op, dtype, label⟩, '@' ∉ s.toList) ∧ ∀ x ∈ op.operands, x.SignFree :=
  signFree_iff

theorem signFree_replaces {e node : Expr} (h : Replaces e node) (he : e.SignFree) : node.SignFree := by
  cases h with
  | same => exact he
  | identicalTo left right dtype label =>
    simp only [signFree_mk, ownTexts, Op.operands] at he
    simp_all [isNull, and, equals, binary, call, ofOp, signFree_mk, ownTexts, Op.operands, DataType.zone?,
      DataType.fieldNames, binaryType, BinaryOp.isComparison, BinaryOp.isLogical]
  | floorDivide left right dtype label =>
    simp only [signFree_mk, ownTexts, Op.operands] at he
    simp_all [divide, binary, ofOp, signFree_mk, ownTexts, Op.operands, DataType.zone?, DataType.fieldNames,
      binaryType, BinaryOp.isComparison, BinaryOp.isLogical]
  | log2 arg dtype label =>
    simp only [signFree_mk, ownTexts, Op.operands] at he
    simp_all [literal, ofOp, signFree_mk, ownTexts, Op.operands, DataType.zone?, DataType.fieldNames, Value.texts]
  | dayOfWeekName arg dtype label =>
    simp only [signFree_mk, ownTexts, Op.operands] at he
    simp_all [literal, ofOp, signFree_mk, ownTexts, Op.operands, DataType.zone?, DataType.fieldNames, Value.texts]
  | booleanAsInteger hfunc arg filter dtype label =>
    simp only [signFree_mk, ownTexts, Op.operands] at he
    simp_all [cast, ofOp, signFree_mk, ownTexts, Op.operands, DataType.zone?, DataType.fieldNames]

theorem signFree_lower {e : Expr} (he : e.SignFree) : (e.lower Rule.bigQuery).SignFree := by
  induction e using Expr.lower_induct with
  | step e ih =>
    have hnode : (e.replaced Rule.bigQuery).SignFree := signFree_replaces (replaces_bigQuery e) he
    rw [lower_eq]
    generalize e.replaced Rule.bigQuery = node at ih hnode
    obtain ⟨op, dtype, label⟩ := node
    obtain ⟨hown, hoperands⟩ := signFree_mk.mp hnode
    have hsame : ownTexts ⟨op.map (lower Rule.bigQuery), dtype, label⟩ = ownTexts ⟨op, dtype, label⟩ := by
      cases op <;> rfl
    refine signFree_mk.mpr ⟨by rwa [hsame], fun x hx => ?_⟩
    obtain ⟨y, hy, rfl⟩ := List.mem_map.mp (Op.operands_map _ op ▸ hx)
    exact ih y hy (hoperands y hy)

end Expr

end BigQuerySql
