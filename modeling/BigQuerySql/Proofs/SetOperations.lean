import BigQuerySql.Proofs.Shapes
import Mathlib.Data.Multiset.Dedup
import Mathlib.Data.Multiset.Replicate

namespace BigQuerySql

open Lexis

inductive SetTree where
  | table (name : String)
  | node (kind : SetOpKind) (distinct : Bool) (left right : SetTree)
deriving DecidableEq, Repr

namespace SetTree

def ofExpr? : Expr → Option SetTree :=
  Expr.fold fun op _ _ =>
    match op with
    | .tableScan name _ => some (.table name)
    | .setOp kind left right distinct => do return .node kind distinct (← left) (← right)
    | _ => none

def tables : SetTree → List String
  | .table name => [name]
  | .node _ _ left right => left.tables ++ right.tables

theorem ofExpr_table {e : Expr} {name : String} {schema : Schema} (h : e.op = .tableScan name schema) :
    ofExpr? e = some (.table name) := by
  obtain ⟨op, dtype, label⟩ := e
  subst h
  rfl

theorem ofExpr_setOp (kind : SetOpKind) (left right : Expr) (distinct : Bool) (dtype : DataType)
    (label : Option String) :
    ofExpr? ⟨.setOp kind left right distinct, dtype, label⟩ = (do
      return .node kind distinct (← ofExpr? left) (← ofExpr? right)) := by
  simp only [ofExpr?, Expr.fold_mk, Op.map]

theorem ofExpr_cases {e : Expr} {t : SetTree} (h : ofExpr? e = some t) :
    (∃ name schema, e.op = .tableScan name schema ∧ t = .table name) ∨
    ∃ kind left right distinct l r, e.op = .setOp kind left right distinct ∧
      ofExpr? left = some l ∧ ofExpr? right = some r ∧ t = .node kind distinct l r := by
  obtain ⟨op, dtype, label⟩ := e
  cases op with
  | tableScan name schema =>
    exact .inl ⟨name, schema, rfl, by simpa [ofExpr?, Expr.fold_mk, Op.map] using h.symm⟩
  | setOp kind left right distinct =>
    rw [ofExpr_setOp] at h
    cases hl : ofExpr? left with
    | none => simp [hl] at h
    | some l =>
      cases hr : ofExpr? right with
      | none => simp [hl, hr] at h
      | some r =>
        exact .inr ⟨kind, left, right, distinct, l, r, rfl, hl, hr, by simpa [hl, hr] using h.symm⟩
  | _ => simp [ofExpr?, Expr.fold_mk, Op.map] at h

variable {R : Type} [DecidableEq R]

def combine : SetOpKind → Bool → Multiset R → Multiset R → Multiset R
  | .union, false, a, b => a + b
  | .union, true, a, b => (a + b).dedup
  | .intersection, _, a, b => a.dedup.filter (· ∈ b)
  | .difference, _, a, b => a.dedup.filter (· ∉ b)

def rows (bag : String → Multiset R) : SetTree → Multiset R
  | .table name => bag name
  | .node kind distinct left right => combine kind distinct (left.rows bag) (right.rows bag)

abbrev Pending (R : Type) := Multiset R × SetOpKind × Bool

def resume : Option (Pending R) → Multiset R → Multiset R
  | none, b => b
  | some (a, kind, distinct), b => combine kind distinct a b

/-- The rows of a tree when its text continues a chain of one kind: operations of that kind are taken from
left to right, whatever side of the tree they stand on. -/
def chained (bag : String → Multiset R) (kind : SetOpKind) : Option (Pending R) → SetTree → Multiset R
  | pending, .table name => resume pending (bag name)
  | pending, .node k distinct left right =>
    if k = kind then chained bag kind (some (chained bag kind pending left, kind, distinct)) right
    else resume pending (chained bag k (some (chained bag k none left, k, distinct)) right)

def written (bag : String → Multiset R) : SetTree → Multiset R
  | .table name => bag name
  | .node kind distinct left right =>
    chained bag kind (some (chained bag kind none left, kind, distinct)) right

def HasKind (kind : SetOpKind) : SetTree → Prop
  | .table _ => False
  | .node k _ _ _ => k = kind

instance (kind : SetOpKind) : DecidablePred (HasKind kind)
  | .table _ => .isFalse id
  | .node k _ _ _ => inferInstanceAs (Decidable (k = kind))

theorem chained_other {kind : SetOpKind} {t : SetTree} (h : ¬HasKind kind t) (bag : String → Multiset R)
    (pending : Option (Pending R)) : chained bag kind pending t = resume pending (t.written bag) := by
  cases t with
  | table name => rfl
  | node k distinct left right =>
    have hk : k ≠ kind := h
    simp only [chained, if_neg hk, written]

theorem chained_none (bag : String → Multiset R) (kind : SetOpKind) (t : SetTree) :
    chained bag kind none t = t.written bag := by
  cases t with
  | table name => rfl
  | node k distinct left right =>
    by_cases hk : k = kind
    · subst hk
      simp [chained, written]
    · exact chained_other (t := .node k distinct left right) hk bag none

theorem chained_same (bag : String → Multiset R) (kind : SetOpKind) (pending : Option (Pending R))
    (distinct : Bool) (left right : SetTree) :
    chained bag kind pending (.node kind distinct left right) =
      chained bag kind (some (chained bag kind pending left, kind, distinct)) right := by
  simp only [chained, if_true]

theorem written_node (bag : String → Multiset R) (kind : SetOpKind) (distinct : Bool)
    (left right : SetTree) :
    (node kind distinct left right).written bag =
      chained bag kind (some (left.written bag, kind, distinct)) right := by
  rw [written, chained_none]

/-- Where the evaluation of a text stands: before an operand or after one, inside brackets whose left sides
wait on a stack. -/
inductive State (R : Type) where
  | operand (pending : Option (Pending R)) (stack : List (Option (Pending R)))
  | value (rows : Multiset R) (stack : List (Option (Pending R)))

def setWords? (first second : List Char) : Option (SetOpKind × Bool) :=
  if first = "UNION".toList ∧ second = "ALL".toList then some (.union, false)
  else if first = "UNION".toList ∧ second = "DISTINCT".toList then some (.union, true)
  else if first = "INTERSECT".toList ∧ second = "DISTINCT".toList then some (.intersection, true)
  else if first = "EXCEPT".toList ∧ second = "DISTINCT".toList then some (.difference, true)
  else none

def evaluateFrom (bag : String → Multiset R) : State R → List Token → Option (Multiset R)
  | .value rows [], [] => some rows
  | .value rows (pending :: stack), .symbol ')' :: rest =>
    evaluateFrom bag (.value (resume pending rows) stack) rest
  | .value rows stack, .word first :: .word second :: rest =>
    match setWords? first second with
    | some (kind, distinct) => evaluateFrom bag (.operand (some (rows, kind, distinct)) stack) rest
    | none => none
  | .operand pending stack, .symbol '(' :: rest => evaluateFrom bag (.operand none (pending :: stack)) rest
  | .operand pending stack, .word first :: .symbol '*' :: .word second :: token :: rest =>
    if first = "SELECT".toList ∧ second = "FROM".toList then
      match token.spelling? with
      | some name => evaluateFrom bag (.value (resume pending (bag (String.ofList name))) stack) rest
      | none => none
    else none
  | _, _ => none

def evaluate (bag : String → Multiset R) (text : String) : Option (Multiset R) :=
  (tokens? text.toList).bind (evaluateFrom bag (.operand none []))

/-- The tokens of an operand: a table by itself, a chain only where nothing waits before it. -/
def Evaluates (bag : String → Multiset R) (t : SetTree) (ts : List Token) : Prop :=
  ∀ pending stack rest, ((∃ name, t = .table name) ∨ pending = none) →
    evaluateFrom bag (.operand pending stack) (ts ++ rest) =
      evaluateFrom bag (.value (resume pending (t.written bag)) stack) rest

def separator (word : String) : Piece := .text ("\n" ++ word ++ "\n")

theorem chainPieces_append (i : Nat) (word : String) {rp : List Expr} (hr : rp ≠ []) (rw : List String) :
    ∀ {lp : List Expr} {lw : List String}, lp.length = lw.length + 1 →
      Sql.chainPieces i (lp ++ rp) (lw ++ word :: rw) =
        Sql.chainPieces i lp lw ++ separator word :: Sql.chainPieces (i + lp.length) rp rw := by
  intro lp lw h
  induction lp generalizing i lw with
  | nil => simp at h
  | cons x lp ih =>
    obtain ⟨y, rp, rfl⟩ := List.exists_cons_of_ne_nil hr
    cases lw with
    | nil =>
      obtain rfl : lp = [] := by simpa using h
      simp [Sql.chainPieces, separator]
    | cons w lw =>
      obtain ⟨z, lp, rfl⟩ := List.exists_cons_of_ne_nil (l := lp) (by rintro rfl; simp at h)
      have hlen : (z :: lp).length = lw.length + 1 := by simpa using h
      have := ih (i + 1) hlen
      simp only [List.cons_append, Sql.chainPieces] at this ⊢
      rw [this]
      simp [Nat.add_assoc, Nat.add_comm 1]

theorem separator_tokens {kind : SetOpKind} {distinct : Bool} {word : String}
    (h : Sql.setKeyword kind distinct = .ok word) :
    ∃ first second, tokens? ("\n" ++ word ++ "\n").toList = some [.word first, .word second] ∧
      setWords? first second = some (kind, distinct) := by
  cases kind <;> cases distinct <;> simp only [Sql.setKeyword, Except.ok.injEq, reduceCtorEq] at h <;>
    subst h
  · exact ⟨"UNION".toList, "ALL".toList, by decide, by decide⟩
  · exact ⟨"UNION".toList, "DISTINCT".toList, by decide, by decide⟩
  · exact ⟨"INTERSECT".toList, "DISTINCT".toList, by decide, by decide⟩
  · exact ⟨"EXCEPT".toList, "DISTINCT".toList, by decide, by decide⟩

theorem evaluateFrom_open (bag : String → Multiset R) (pending : Option (Pending R))
    (stack : List (Option (Pending R))) (rest : List Token) :
    evaluateFrom bag (.operand pending stack) (.symbol '(' :: rest) =
      evaluateFrom bag (.operand none (pending :: stack)) rest := rfl

theorem evaluateFrom_close (bag : String → Multiset R) (rows : Multiset R) (pending : Option (Pending R))
    (stack : List (Option (Pending R))) (rest : List Token) :
    evaluateFrom bag (.value rows (pending :: stack)) (.symbol ')' :: rest) =
      evaluateFrom bag (.value (resume pending rows) stack) rest := by
  simp [evaluateFrom]

theorem evaluateFrom_words (bag : String → Multiset R) (rows : Multiset R)
    (stack : List (Option (Pending R))) {first second : List Char} {kind : SetOpKind} {distinct : Bool}
    (h : setWords? first second = some (kind, distinct)) (rest : List Token) :
    evaluateFrom bag (.value rows stack) (.word first :: .word second :: rest) =
      evaluateFrom bag (.operand (some (rows, kind, distinct)) stack) rest := by
  simp [evaluateFrom, h]

theorem evaluate_chain {bag : String → Multiset R} {kind : SetOpKind} {e : Expr} :
    ∀ {t : SetTree} {parts : List Expr} {words : List String},
      Sql.flattenSetOp kind e = .ok (parts, words) → ofExpr? e = some t →
      ∀ (spelled : Nat → List Token) (i : Nat),
        (∀ j x s, parts[j]? = some x → ofExpr? x = some s → Evaluates bag s (spelled (i + j))) →
        ∀ pending stack rest,
          evaluateFrom bag (.operand pending stack)
              ((Sql.chainPieces i parts words).flatMap (spell spelled) ++ rest) =
            evaluateFrom bag (.value (chained bag kind pending t) stack) rest := by
  induction e using Expr.induction_on with
  | step e ih =>
    intro t parts words h ht spelled i hparts pending stack rest
    rcases Sql.flatten_cases h with ⟨hk, rfl, rfl⟩ |
      ⟨left, right, distinct, dtype, label, lp, lw, word, rp, rw, rfl, hl, hw, hr, rfl, rfl⟩
    · have he : Evaluates bag t (spelled i) := hparts 0 e t rfl ht
      rcases ofExpr_cases ht with ⟨name, schema, hop, rfl⟩ |
        ⟨k, left, right, distinct, l, r, hop, -, -, rfl⟩
      · simpa [Sql.chainPieces, Sql.chainPart, Sql.isSetOp, hop, spell, written, chained] using
          he pending stack rest (.inl ⟨name, rfl⟩)
      · have hopen : tokens? "(".toList = some [.symbol '('] := by decide
        have hclose : tokens? ")".toList = some [.symbol ')'] := by decide
        have hne : k ≠ kind := by rintro rfl; exact hk (by simp [Expr.kind, Op.kind, hop])
        have hpieces : (Sql.chainPieces i [e] []).flatMap (spell spelled) ++ rest =
            .symbol '(' :: (spelled i ++ .symbol ')' :: rest) := by
          simp only [Sql.chainPieces, Sql.chainPart, Sql.isSetOp, hop, if_true, List.append_nil,
            List.flatMap_cons, List.flatMap_nil, spell, hopen, hclose, Option.getD_some,
            List.cons_append, List.nil_append, List.append_assoc]
        rw [hpieces, evaluateFrom_open, he none _ _ (.inr rfl), resume, evaluateFrom_close,
          chained_other (t := .node k distinct l r) hne]
    · rw [ofExpr_setOp] at ht
      obtain ⟨l, hlt, r, hrt, rfl⟩ : ∃ l, ofExpr? left = some l ∧ ∃ r, ofExpr? right = some r ∧
          SetTree.node kind distinct l r = t := by
        cases hlt : ofExpr? left with
        | none => simp [hlt] at ht
        | some l =>
          cases hrt : ofExpr? right with
          | none => simp [hlt, hrt] at ht
          | some r => exact ⟨l, rfl, r, rfl, by simpa [hlt, hrt] using ht⟩
      obtain ⟨first, second, htok, hwords⟩ := separator_tokens hw
      have hrp : rp ≠ [] := by
        rintro rfl
        simpa using Sql.flatten_length hr
      rw [chainPieces_append i word hrp rw (Sql.flatten_length hl), List.flatMap_append, List.flatMap_cons,
        List.append_assoc, ih left (by simp [Expr.operands, Op.operands]) hl hlt spelled i,
        separator, spell, htok, Option.getD_some, List.append_assoc, List.cons_append,
        List.cons_append, List.nil_append, evaluateFrom_words bag _ _ hwords,
        ih right (by simp [Expr.operands, Op.operands]) hr hrt spelled (i + lp.length)]
      · simp [chained]
      · intro j x s hj hs
        have hj' : (lp ++ rp)[lp.length + j]? = some x := by
          rw [List.getElem?_append_right (by omega)]
          simpa using hj
        simpa [Nat.add_assoc] using hparts (lp.length + j) x s hj' hs
      · intro j x s hj hs
        have hlt : j < lp.length := (List.getElem?_eq_some_iff.mp hj).1
        exact hparts j x s (by simpa [List.getElem?_append_left hlt] using hj) hs

theorem flatten_trees {kind : SetOpKind} {e : Expr} :
    ∀ {t : SetTree} {parts : List Expr} {words : List String},
      Sql.flattenSetOp kind e = .ok (parts, words) → ofExpr? e = some t →
      ∀ x ∈ parts, ∃ s, ofExpr? x = some s ∧ s.tables ⊆ t.tables := by
  induction e using Expr.induction_on with
  | step e ih =>
    intro t parts words h ht x hx
    rcases Sql.flatten_cases h with ⟨-, rfl, rfl⟩ |
      ⟨left, right, distinct, dtype, label, lp, lw, word, rp, rw, rfl, hl, -, hr, rfl, rfl⟩
    · obtain rfl : x = e := by simpa using hx
      exact ⟨t, ht, List.Subset.refl _⟩
    · obtain ⟨name, schema, hop, -⟩ | ⟨k, left', right', d, l, r, hop, hlt, hrt, rfl⟩ := ofExpr_cases ht
      · simp at hop
      obtain ⟨rfl, rfl, rfl, rfl⟩ : kind = k ∧ left = left' ∧ right = right' ∧ distinct = d := by
        simpa using hop
      rcases List.mem_append.mp hx with hx | hx
      · obtain ⟨s, hs, hsub⟩ := ih left (by simp [Expr.operands, Op.operands]) hl hlt x hx
        exact ⟨s, hs, fun n hn => List.mem_append_left _ (hsub hn)⟩
      · obtain ⟨s, hs, hsub⟩ := ih right (by simp [Expr.operands, Op.operands]) hr hrt x hx
        exact ⟨s, hs, fun n hn => List.mem_append_right _ (hsub hn)⟩

theorem evaluateFrom_table (bag : String → Multiset R) (pending : Option (Pending R))
    (stack : List (Option (Pending R))) {token : Token} {name : List Char}
    (h : token.spelling? = some name) (rest : List Token) :
    evaluateFrom bag (.operand pending stack)
        (.word "SELECT".toList :: .symbol '*' :: .word "FROM".toList :: token :: rest) =
      evaluateFrom bag (.value (resume pending (bag (String.ofList name))) stack) rest := by
  simp [evaluateFrom, h]

theorem tokens_tableScan {name : String} (h : '\\' ∉ name.toList) :
    tokens? ("SELECT *\nFROM " ++ Sql.identifier name).toList =
      some [.word "SELECT".toList, .symbol '*', .word "FROM".toList, identifierToken name] := by
  have hhead : tokens? "SELECT *\nFROM ".toList =
      some [.word "SELECT".toList, .symbol '*', .word "FROM".toList] := by decide
  have hblank : endsBlank "SELECT *\nFROM ".toList := by decide
  rw [String.toList_append, tokens_append hhead (.inl hblank),
    tokens_identifier (closes_of_not_mem h)]
  rfl

def Evaluable (bag : String → Multiset R) (e : Expr) (text : String) : Prop :=
  ∀ t, ofExpr? e = some t → (∀ name ∈ t.tables, '\\' ∉ name.toList) →
    ∃ ts, tokens? text.toList = some ts ∧ Evaluates bag t ts

theorem filled_cases {naming : ParamNaming} {params : Params} {P : Expr → String → Prop} {e : Expr} {t : SetTree}
    {f : Formatter} {texts : List String} (ht : ofExpr? e = some t) (hf : Formatter.bigQuery.get? e.kind = some f)
    (h : List.Forall₂ (((Compiler.bigQuery naming).target params).Takes P) (f.layout e).steps texts) :
    (∃ name schema, e.op = .tableScan name schema ∧ t = .table name ∧
      (f.layout e).fill texts = "SELECT *\nFROM " ++ Sql.identifier name) ∨
    ∃ kind distinct l r parts words, t = .node kind distinct l r ∧ Sql.flattenSetOp kind e = .ok (parts, words) ∧
      List.Forall₂ P parts texts ∧
      (f.layout e).fill texts = String.join ((Sql.chainPieces 0 parts words).map (·.fill texts)) := by
  rcases ofExpr_cases ht with ⟨name, schema, hop, rfl⟩ | ⟨kind, left, right, distinct, l, r, hop, -, -, rfl⟩
  · obtain rfl := Formatter.bigQuery_tableScan (by simpa [Expr.kind, Op.kind, hop] using hf)
    simp only [Formatter.layout, hop] at h ⊢
    obtain ⟨w, ws, hw, hws, rfl⟩ := List.forall₂_cons_left_iff.mp h
    obtain rfl := List.forall₂_nil_left_iff.mp hws
    obtain rfl : w = Sql.identifier name := hw
    exact .inl ⟨name, schema, rfl, rfl, by simp [Layout.fill, Piece.fill, String.join]⟩
  · have hset : Formatter.bigQuery.get? (.setOp kind) = some f := by
      simpa [Expr.kind, Op.kind, hop] using hf
    obtain rfl := Formatter.bigQuery_setOp hset
    have hlayout := Formatter.setOp.outcome e
    generalize Formatter.setOp.layout e = written at hlayout h ⊢
    cases hlayout with
    | @setOp k _ _ _ parts words hk hflat =>
      obtain rfl : kind = k := by
        rw [hop] at hk
        cases hk
        rfl
      have hparts : List.Forall₂ P parts texts := (List.forall₂_map_left_iff (f := Step.operand)).mp h
      exact .inr ⟨kind, distinct, l, r, parts, words, rfl, hflat, hparts, rfl⟩
    | fails => exact absurd h Target.not_takes_failing

theorem evaluable_table (bag : String → Multiset R) {e : Expr} {name : String} {schema : Schema}
    (hop : e.op = .tableScan name schema) : Evaluable bag e ("SELECT *\nFROM " ++ Sql.identifier name) := by
  intro t ht hnames
  obtain rfl : SetTree.table name = t := by simpa [ofExpr_table hop] using ht
  have hplain : '\\' ∉ name.toList := hnames name (by simp [tables])
  refine ⟨_, tokens_tableScan hplain, ?_⟩
  intro pending stack rest _
  rw [List.cons_append, List.cons_append, List.cons_append, List.cons_append, List.nil_append,
    evaluateFrom_table bag pending stack (spelling_identifierToken hplain), String.ofList_toList]
  rfl

theorem evaluable_chain (bag : String → Multiset R) {e : Expr} {kind : SetOpKind} {distinct : Bool} {l r : SetTree}
    (ht : ofExpr? e = some (.node kind distinct l r)) {parts : List Expr} {words texts : List String}
    (hf : Sql.flattenSetOp kind e = .ok (parts, words)) (h : List.Forall₂ (Evaluable bag) parts texts) :
    Evaluable bag e (String.join ((Sql.chainPieces 0 parts words).map (·.fill texts))) := by
  intro t ht' hnames
  obtain rfl : SetTree.node kind distinct l r = t := Option.some.inj (ht.symm.trans ht')
  have hpart : ∀ j x, parts[j]? = some x → ∃ s, ofExpr? x = some s ∧
      ∃ ts, tokens? (texts.getD j "").toList = some ts ∧ Evaluates bag s ts := by
    intro j x hj
    obtain ⟨s, hs, hsub⟩ := flatten_trees hf ht x (List.mem_of_getElem? hj)
    have hev : Evaluable bag x (texts.getD j "") := forall₂_getD h hj
    exact ⟨s, hs, hev s hs fun name hn => hnames name (hsub hn)⟩
  refine ⟨_, tokens_pieces (Sql.joined_chainPieces 0 (Sql.flatten_length hf) (Sql.flatten_words hf)) ?_, ?_⟩
  · intro j hj
    obtain ⟨-, hlt⟩ := Sql.lt_of_part_mem hj
    obtain ⟨s, -, ts, hts, -⟩ := hpart j _ (List.getElem?_eq_getElem (by omega))
    simp only [hts, Option.isSome_some]
  · rintro pending stack rest (⟨name, hname⟩ | rfl)
    · simp at hname
    rw [evaluate_chain hf ht (partTokens texts) 0 ?_ none stack rest, chained_none]
    · rfl
    intro j x s hj hs
    obtain ⟨s', hs', ts, hts, hev⟩ := hpart j x hj
    obtain rfl : s' = s := by simpa [hs'] using hs
    simpa only [partTokens, Nat.zero_add, hts, Option.getD_some] using hev

theorem evaluable_of_writes {naming : ParamNaming} {params : Params} (bag : String → Multiset R)
    {e : Expr} {text : String} (h : ((Compiler.bigQuery naming).target params).Writes e text) :
    Evaluable bag e text := by
  refine Target.writes_induct (fun e f texts hf hs => ?_) h
  have hs : List.Forall₂ (((Compiler.bigQuery naming).target params).Takes (Evaluable bag))
      (f.layout e).steps texts := Target.forall₂_takes_mono (fun x _ v hv => hv.2) hs
  intro t ht
  rcases filled_cases ht hf hs with ⟨name, schema, hop, rfl, hfill⟩ |
    ⟨kind, distinct, l, r, parts, words, rfl, hflat, hparts, hfill⟩
  · rw [hfill]
    exact evaluable_table bag hop _ ht
  · rw [hfill]
    exact evaluable_chain bag ht hflat hparts _ ht

def joins : SetOpKind → Prop → Prop → Prop
  | .union, p, q => p ∨ q
  | .intersection, p, q => p ∧ q
  | .difference, p, q => p ∧ ¬q

theorem mem_combine {kind : SetOpKind} {distinct : Bool} {a b : Multiset R} {x : R} :
    x ∈ combine kind distinct a b ↔ joins kind (x ∈ a) (x ∈ b) := by
  cases kind <;> cases distinct <;> simp [combine, joins]

theorem joins_assoc {kind : SetOpKind} (h : kind ≠ .difference) (p q r : Prop) :
    joins kind (joins kind p q) r ↔ joins kind p (joins kind q r) := by
  cases kind with
  | union => simp [joins, or_assoc]
  | intersection => simp [joins, and_assoc]
  | difference => exact absurd rfl h

theorem mem_chained {kind : SetOpKind} (h : kind ≠ .difference) {bag : String → Multiset R} {t : SetTree}
    {a : Multiset R} {distinct : Bool} {x : R} :
    x ∈ chained bag kind (some (a, kind, distinct)) t ↔ joins kind (x ∈ a) (x ∈ t.written bag) := by
  induction t generalizing a distinct with
  | table name => exact mem_combine
  | node k d left right ihl ihr =>
    by_cases hk : k = kind
    · subst hk
      rw [chained_same, written_node, ihr, ihl, ihr, joins_assoc h]
    · rw [chained_other (by exact hk)]
      exact mem_combine

theorem mem_written {kind : SetOpKind} {distinct : Bool} {left right : SetTree}
    (h : kind = .difference → ¬HasKind .difference right) {bag : String → Multiset R} {x : R} :
    x ∈ (node kind distinct left right).written bag ↔
      joins kind (x ∈ left.written bag) (x ∈ right.written bag) := by
  rw [written_node]
  by_cases hk : kind = .difference
  · subst hk
    rw [chained_other (h rfl), resume, mem_combine]
  · exact mem_chained hk

/-- Trees whose text gives the same rows, up to how often each occurs. -/
def KeepsRows : SetTree → Prop
  | .table _ => True
  | .node kind _ left right =>
    left.KeepsRows ∧ right.KeepsRows ∧ (kind = .difference → ¬HasKind .difference right)

instance decidableKeepsRows : DecidablePred KeepsRows
  | .table _ => .isTrue trivial
  | .node kind _ left right =>
    have := decidableKeepsRows left
    have := decidableKeepsRows right
    inferInstanceAs (Decidable (_ ∧ _ ∧ (kind = .difference → ¬HasKind .difference right)))

theorem mem_written_rows {t : SetTree} (h : t.KeepsRows) {bag : String → Multiset R} {x : R} :
    x ∈ t.written bag ↔ x ∈ t.rows bag := by
  induction t with
  | table name => rfl
  | node kind distinct left right ihl ihr =>
    obtain ⟨hl, hr, hd⟩ := h
    rw [mem_written hd, rows, mem_combine, ihl hl, ihr hr]

def unionFlags : SetTree → List Bool
  | .node .union distinct left right => left.unionFlags ++ distinct :: right.unionFlags
  | _ => []

theorem unionFlags_other {t : SetTree} (h : ¬HasKind .union t) : t.unionFlags = [] := by
  cases t with
  | table name => rfl
  | node kind distinct left right =>
    cases kind with
    | union => exact absurd rfl h
    | intersection => rfl
    | difference => rfl

theorem unionFlags_ne_nil {t : SetTree} (h : HasKind .union t) : t.unionFlags ≠ [] := by
  cases t with
  | table name => exact h.elim
  | node kind distinct left right =>
    obtain rfl : kind = .union := h
    simp [unionFlags]

/-- Trees whose text gives the same bag of rows. -/
def Faithful : SetTree → Prop
  | .node .union false left right => left.Faithful ∧ right.Faithful ∧ true ∉ right.unionFlags
  | .node .union true left right =>
    left.KeepsRows ∧ right.KeepsRows ∧ right.unionFlags.getLast? ≠ some false
  | t => t.KeepsRows

instance decidableFaithful : DecidablePred Faithful
  | .table _ => .isTrue trivial
  | .node .union false left right =>
    have := decidableFaithful left
    have := decidableFaithful right
    inferInstanceAs (Decidable (_ ∧ _ ∧ true ∉ right.unionFlags))
  | .node .union true left right =>
    inferInstanceAs (Decidable (left.KeepsRows ∧ right.KeepsRows ∧ right.unionFlags.getLast? ≠ some false))
  | .node .intersection distinct left right =>
    inferInstanceAs (Decidable (KeepsRows (.node .intersection distinct left right)))
  | .node .difference distinct left right =>
    inferInstanceAs (Decidable (KeepsRows (.node .difference distinct left right)))

theorem nodup_combine {kind : SetOpKind} {distinct : Bool} (h : kind = .union → distinct = true)
    (a b : Multiset R) : (combine kind distinct a b).Nodup := by
  cases kind with
  | union =>
    rw [h rfl]
    exact Multiset.nodup_dedup _
  | intersection => exact (Multiset.nodup_dedup a).filter _
  | difference => exact (Multiset.nodup_dedup a).filter _

theorem nodup_chained {kind : SetOpKind} {bag : String → Multiset R} {t : SetTree} {a : Multiset R}
    {distinct : Bool} (h : kind = .union → (distinct :: t.unionFlags).getLast? = some true) :
    (chained bag kind (some (a, kind, distinct)) t).Nodup := by
  induction t generalizing a distinct with
  | table name => exact nodup_combine (fun hk => by simpa [unionFlags] using h hk) a _
  | node k d left right ihl ihr =>
    by_cases hk : k = kind
    · subst hk
      rw [chained_same]
      refine ihr fun hk => ?_
      subst hk
      have hlast : ((distinct :: left.unionFlags) ++ d :: right.unionFlags).getLast? = some true := h rfl
      rwa [List.getLast?_append_of_ne_nil _ (by simp)] at hlast
    · rw [chained_other (by exact hk)]
      refine nodup_combine (fun hu => ?_) a _
      subst hu
      have hflags : (node k d left right).unionFlags = [] := unionFlags_other hk
      simpa [hflags] using h rfl

theorem chained_unionAll {bag : String → Multiset R} {t : SetTree} (h : true ∉ t.unionFlags)
    (a : Multiset R) : chained bag .union (some (a, .union, false)) t = a + t.written bag := by
  induction t generalizing a with
  | table name => rfl
  | node k d left right ihl ihr =>
    by_cases hk : k = .union
    · subst hk
      obtain ⟨hl, rfl, hr⟩ : true ∉ left.unionFlags ∧ d = false ∧ true ∉ right.unionFlags := by
        simpa [unionFlags] using h
      rw [chained_same, written_node, ihr hr, ihl hl, ihr hr, Multiset.add_assoc]
    · rw [chained_other (by exact hk)]
      rfl

theorem written_eq_rows {t : SetTree} (h : t.Faithful) (bag : String → Multiset R) :
    t.written bag = t.rows bag := by
  induction t with
  | table name => rfl
  | node kind distinct left right ihl ihr =>
    have hmem (hk : (node kind distinct left right).KeepsRows)
        (hw : ((node kind distinct left right).written bag).Nodup)
        (hd : kind = .union → distinct = true) :
        (node kind distinct left right).written bag = (node kind distinct left right).rows bag :=
      (Multiset.Nodup.ext hw (nodup_combine hd _ _)).mpr fun x => mem_written_rows hk
    cases kind with
    | union =>
      cases distinct with
      | false =>
        obtain ⟨hl, hr, hflags⟩ := h
        rw [written_node, chained_unionAll hflags, ihl hl, ihr hr]
        rfl
      | true =>
        obtain ⟨hl, hr, hlast⟩ := h
        refine hmem ⟨hl, hr, by simp⟩ ?_ fun _ => rfl
        rw [written_node]
        refine nodup_chained fun _ => ?_
        rw [List.getLast?_cons]
        cases hflags : right.unionFlags.getLast? with
        | none => rfl
        | some flag =>
          cases flag with
          | false => exact absurd hflags hlast
          | true => rfl
    | intersection =>
      refine hmem h ?_ (by simp)
      rw [written_node]
      exact nodup_chained (by simp)
    | difference =>
      refine hmem h ?_ (by simp)
      rw [written_node]
      exact nodup_chained (by simp)

theorem rows_congr {bag other : String → Multiset R} {t : SetTree}
    (h : ∀ name ∈ t.tables, bag name = other name) : t.rows bag = t.rows other := by
  induction t with
  | table name => exact h name (by simp [tables])
  | node kind distinct left right ihl ihr =>
    rw [rows, rows, ihl fun n hn => h n (by simp [tables, hn]),
      ihr fun n hn => h n (by simp [tables, hn])]

theorem chained_congr {bag other : String → Multiset R} {t : SetTree}
    (h : ∀ name ∈ t.tables, bag name = other name) (kind : SetOpKind) (pending : Option (Pending R)) :
    chained bag kind pending t = chained other kind pending t := by
  induction t generalizing kind pending with
  | table name => rw [chained, chained, h name (by simp [tables])]
  | node k distinct left right ihl ihr =>
    have hl := ihl fun n hn => h n (by simp [tables, hn])
    have hr := ihr fun n hn => h n (by simp [tables, hn])
    simp only [chained, hl, hr]

theorem written_congr {bag other : String → Multiset R} {t : SetTree}
    (h : ∀ name ∈ t.tables, bag name = other name) : t.written bag = t.written other := by
  rw [← chained_none bag .union, ← chained_none other .union, chained_congr h]

def Vacant (bag : String → Multiset R) (t : SetTree) : Prop :=
  ∀ name ∈ t.tables, bag name = 0

omit [DecidableEq R] in
theorem Vacant.sides {bag : String → Multiset R} {kind : SetOpKind} {distinct : Bool}
    {left right : SetTree} (h : Vacant bag (.node kind distinct left right)) :
    Vacant bag left ∧ Vacant bag right :=
  ⟨fun n hn => h n (by simp [tables, hn]), fun n hn => h n (by simp [tables, hn])⟩

theorem joins_false_false (kind : SetOpKind) : ¬joins kind False False := by
  cases kind <;> simp [joins]

theorem joins_false_twice (kind : SetOpKind) (p : Prop) :
    joins kind (joins kind p False) False ↔ joins kind p False := by
  cases kind <;> simp [joins]

theorem not_mem_rows_vacant {bag : String → Multiset R} {t : SetTree} (h : Vacant bag t) (x : R) :
    x ∉ t.rows bag := by
  induction t with
  | table name => simp [rows, h name (by simp [tables])]
  | node kind distinct left right ihl ihr =>
    rw [rows, mem_combine, iff_false_intro (ihl h.sides.1), iff_false_intro (ihr h.sides.2)]
    exact joins_false_false kind

/-- Empty tables neither add rows to a chain nor take any away, except that nothing is left of an
intersection. -/
theorem mem_chained_vacant {bag : String → Multiset R} {t : SetTree} (h : Vacant bag t) (x : R) :
    (x ∉ t.written bag) ∧ ∀ kind a distinct,
      x ∈ chained bag kind (some (a, kind, distinct)) t ↔ joins kind (x ∈ a) False := by
  induction t with
  | table name =>
    have h0 : bag name = 0 := h name (by simp [tables])
    refine ⟨by simp [written, h0], fun kind a distinct => ?_⟩
    rw [chained, resume, mem_combine, h0]
    simp
  | node k d left right ihl ihr =>
    obtain ⟨hl, hlc⟩ := ihl h.sides.1
    obtain ⟨hr, hrc⟩ := ihr h.sides.2
    have hw : x ∉ (node k d left right).written bag := by
      rw [written_node, hrc, iff_false_intro hl]
      exact joins_false_false k
    refine ⟨hw, fun kind a distinct => ?_⟩
    by_cases hk : k = kind
    · subst hk
      rw [chained_same, hrc, hlc, joins_false_twice]
    · rw [chained_other (by exact hk), resume, mem_combine, iff_false_intro hw]

theorem rows_vacant {bag : String → Multiset R} {t : SetTree} (h : Vacant bag t) : t.rows bag = 0 :=
  Multiset.eq_zero_of_forall_notMem fun x => not_mem_rows_vacant h x

theorem written_vacant {bag : String → Multiset R} {t : SetTree} (h : Vacant bag t) :
    t.written bag = 0 :=
  Multiset.eq_zero_of_forall_notMem fun x => (mem_chained_vacant h x).1

def Within (bag : String → Multiset R) (t : SetTree) : Prop :=
  ∀ name, name ∉ t.tables → bag name = 0

def Apart (left right : SetTree) : Prop :=
  ∀ name ∈ left.tables, name ∉ right.tables

theorem apart_of_nodup {kind : SetOpKind} {distinct : Bool} {left right : SetTree}
    (h : (node kind distinct left right).tables.Nodup) :
    left.tables.Nodup ∧ right.tables.Nodup ∧ Apart left right := by
  obtain ⟨hl, hr, hd⟩ := List.nodup_append.mp h
  exact ⟨hl, hr, fun n hn hn' => hd n hn n hn' rfl⟩

def glue (a b : String → Multiset R) (name : String) : Multiset R :=
  a name + b name

section Glue

variable {a b : String → Multiset R} {left right : SetTree}

omit [DecidableEq R] in
theorem glue_left (hb : Within b right) (hd : Apart left right) :
    ∀ name ∈ left.tables, glue a b name = a name := by
  intro name hn
  simp [glue, hb name (hd name hn)]

omit [DecidableEq R] in
theorem glue_right (ha : Within a left) (hd : Apart left right) :
    ∀ name ∈ right.tables, glue a b name = b name := by
  intro name hn
  simp [glue, ha name fun hl => hd name hl hn]

omit [DecidableEq R] in
theorem within_glue {kind : SetOpKind} {distinct : Bool} (ha : Within a left) (hb : Within b right) :
    Within (glue a b) (.node kind distinct left right) := by
  intro name hn
  obtain ⟨hl, hr⟩ : name ∉ left.tables ∧ name ∉ right.tables := by simpa [tables] using hn
  simp [glue, ha name hl, hb name hr]

omit [DecidableEq R] in
theorem within_zero (t : SetTree) : Within (fun _ => (0 : Multiset R)) t := fun _ _ => rfl

omit [DecidableEq R] in
theorem vacant_zero (t : SetTree) : Vacant (fun _ => (0 : Multiset R)) t := fun _ _ => rfl

variable (kind : SetOpKind) (distinct : Bool)

theorem rows_glue (ha : Within a left) (hb : Within b right) (hd : Apart left right) :
    (node kind distinct left right).rows (glue a b) =
      combine kind distinct (left.rows a) (right.rows b) := by
  rw [rows, rows_congr (glue_left hb hd), rows_congr (glue_right ha hd)]

theorem written_glue (ha : Within a left) (hb : Within b right) (hd : Apart left right) :
    (node kind distinct left right).written (glue a b) =
      chained b kind (some (left.written a, kind, distinct)) right := by
  rw [written_node, written_congr (glue_left hb hd), chained_congr (glue_right ha hd)]

theorem chained_glue (ha : Within a left) (hb : Within b right) (hd : Apart left right)
    (pending : Option (Pending R)) :
    chained (glue a b) kind pending (.node kind distinct left right) =
      chained b kind (some (chained a kind pending left, kind, distinct)) right := by
  rw [chained_same, chained_congr (glue_left hb hd), chained_congr (glue_right ha hd)]

theorem mem_written_glue (hform : kind = .difference → ¬HasKind .difference right)
    (ha : Within a left) (hb : Within b right) (hd : Apart left right) {x : R} :
    x ∈ (node kind distinct left right).written (glue a b) ↔
      joins kind (x ∈ left.written a) (x ∈ right.written b) := by
  rw [mem_written hform, written_congr (glue_left hb hd), written_congr (glue_right ha hd)]

end Glue

theorem exists_row {t : SetTree} (h : t.tables.Nodup) (x : R) :
    ∃ bag, Within bag t ∧ x ∈ t.rows bag ∧ x ∈ t.written bag := by
  induction t with
  | table name =>
    refine ⟨fun n => if n = name then {x} else 0, ?_, by simp [rows], by simp [written]⟩
    intro n hn
    have hne : n ≠ name := by simpa [tables] using hn
    simp [hne]
  | node kind distinct left right ihl ihr =>
    obtain ⟨hl, hr, hd⟩ := apart_of_nodup h
    obtain ⟨a, ha, har, haw⟩ := ihl hl
    cases kind with
    | difference =>
      have hz := within_zero (R := R) right
      refine ⟨glue a fun _ => 0, within_glue ha hz, ?_, ?_⟩
      · rw [rows_glue _ _ ha hz hd, mem_combine]
        exact ⟨har, not_mem_rows_vacant (vacant_zero right) x⟩
      · rw [written_glue _ _ ha hz hd, (mem_chained_vacant (vacant_zero right) x).2]
        exact ⟨haw, id⟩
    | _ =>
      obtain ⟨b, hb, hbr, hbw⟩ := ihr hr
      refine ⟨glue a b, within_glue ha hb, ?_, ?_⟩
      · rw [rows_glue _ _ ha hb hd, mem_combine]
        simp [joins, har, hbr]
      · rw [mem_written_glue _ _ (by simp) ha hb hd]
        simp [joins, haw, hbw]

theorem mem_of_mem_chained_difference {bag : String → Multiset R} {t : SetTree} {a : Multiset R}
    {distinct : Bool} {x : R} (h : x ∈ chained bag .difference (some (a, .difference, distinct)) t) :
    x ∈ a := by
  induction t generalizing a distinct with
  | table name =>
    rw [chained, resume, mem_combine] at h
    exact h.1
  | node k d left right ihl ihr =>
    by_cases hk : k = .difference
    · subst hk
      rw [chained_same] at h
      exact ihl (ihr h)
    · rw [chained_other (by exact hk), resume, mem_combine] at h
      exact h.1

theorem not_mem_chained_difference {bag : String → Multiset R} {t : SetTree} {a : Multiset R}
    {distinct : Bool} {x : R} (h : x ∈ t.written bag) :
    x ∉ chained bag .difference (some (a, .difference, distinct)) t := by
  induction t generalizing a distinct with
  | table name =>
    rw [chained, resume, mem_combine]
    exact fun hx => hx.2 h
  | node k d left right ihl ihr =>
    by_cases hk : k = .difference
    · subst hk
      rw [written_node] at h
      rw [chained_same]
      intro hx
      exact ihl (mem_of_mem_chained_difference h) (mem_of_mem_chained_difference hx)
    · rw [chained_other (by exact hk), resume, mem_combine]
      exact fun hx => hx.2 h

theorem exists_row_changed {t : SetTree} (h : t.tables.Nodup) (hk : ¬t.KeepsRows) (x : R) :
    ∃ bag, Within bag t ∧ ¬(x ∈ t.rows bag ↔ x ∈ t.written bag) := by
  induction t with
  | table name => exact absurd trivial hk
  | node kind distinct left right ihl ihr =>
    obtain ⟨hl, hr, hd⟩ := apart_of_nodup h
    have hzl := within_zero (R := R) left
    have hzr := within_zero (R := R) right
    by_cases hleft : left.KeepsRows
    · obtain ⟨a, ha, har, haw⟩ := exists_row hl x
      by_cases hkind : kind = .difference ∧ HasKind .difference right
      · -- a row of the left side and of the innermost right one is kept by the tree, not by the text
        obtain ⟨rfl, hright⟩ := hkind
        cases right with
        | table name => exact hright.elim
        | node k d mid last =>
          obtain rfl : k = .difference := hright
          obtain ⟨-, hlast, hd'⟩ := apart_of_nodup hr
          have hz := within_zero (R := R) mid
          obtain ⟨b, hb, -, hbw⟩ := exists_row hlast x
          have hwithin : Within (glue (fun _ => 0) b) (.node .difference d mid last) := within_glue hz hb
          refine ⟨glue a (glue (fun _ => 0) b), within_glue ha hwithin, ?_⟩
          rw [rows_glue _ _ ha hwithin hd, written_glue _ _ ha hwithin hd, mem_combine,
            rows_glue _ _ hz hb hd', mem_combine, chained_same, chained_congr (glue_right hz hd')]
          have h0 := not_mem_rows_vacant (vacant_zero mid) x
          have h1 (c : Multiset R) : x ∉ chained b .difference (some (c, .difference, d)) last :=
            not_mem_chained_difference hbw
          simp [joins, har, h0, h1]
      · have hform : kind = .difference → ¬HasKind .difference right := fun h h' => hkind ⟨h, h'⟩
        have hright : ¬right.KeepsRows := fun hright => hk ⟨hleft, hright, hform⟩
        obtain ⟨b, hb, hbx⟩ := ihr hr hright
        cases kind with
        | union =>
          refine ⟨glue (fun _ => 0) b, within_glue hzl hb, ?_⟩
          rw [rows_glue _ _ hzl hb hd, mem_combine, mem_written_glue _ _ hform hzl hb hd]
          have h0 := not_mem_rows_vacant (vacant_zero left) x
          have h1 := (mem_chained_vacant (vacant_zero left) x).1
          simpa [joins, h0, h1] using hbx
        | _ =>
          refine ⟨glue a b, within_glue ha hb, ?_⟩
          rw [rows_glue _ _ ha hb hd, mem_combine, mem_written_glue _ _ hform ha hb hd]
          simpa [joins, har, haw, not_iff_not] using hbx
    · obtain ⟨a, ha, hax⟩ := ihl hl hleft
      cases kind with
      | intersection =>
        obtain ⟨b, hb, hbr, hbw⟩ := exists_row hr x
        refine ⟨glue a b, within_glue ha hb, ?_⟩
        rw [rows_glue _ _ ha hb hd, mem_combine, mem_written_glue _ _ (by simp) ha hb hd]
        simpa [joins, hbr, hbw] using hax
      | _ =>
        refine ⟨glue a fun _ => 0, within_glue ha hzr, ?_⟩
        rw [rows_glue _ _ ha hzr hd, mem_combine, written_glue _ _ ha hzr hd,
          (mem_chained_vacant (vacant_zero right) x).2]
        have h0 := not_mem_rows_vacant (vacant_zero right) x
        simpa [joins, h0] using hax

theorem count_union_le (distinct : Bool) (a b : Multiset R) (x : R) :
    (combine .union distinct a b).count x ≤ a.count x + b.count x := by
  cases distinct with
  | false => simp [combine]
  | true => simpa [combine] using Multiset.count_le_of_le x (Multiset.dedup_le (a + b))

theorem count_unionDistinct_le (a b : Multiset R) (x : R) : (combine .union true a b).count x ≤ 1 :=
  Multiset.nodup_iff_count_le_one.mp (nodup_combine (fun _ => rfl) a b) x

theorem count_chained_vacant {bag : String → Multiset R} {t : SetTree} (h : Vacant bag t) (a : Multiset R)
    (distinct : Bool) (x : R) :
    (chained bag .union (some (a, .union, distinct)) t).count x ≤ a.count x := by
  induction t generalizing a distinct with
  | table name =>
    have := count_union_le distinct a (bag name) x
    simpa [chained, resume, h name (by simp [tables])] using this
  | node k d left right ihl ihr =>
    by_cases hk : k = .union
    · subst hk
      rw [chained_same]
      exact (ihr h.sides.2 _ _).trans (ihl h.sides.1 _ _)
    · rw [chained_other (by exact hk), resume]
      have h0 := Multiset.count_eq_zero.mpr (mem_chained_vacant h x).1
      have := count_union_le distinct a ((node k d left right).written bag) x
      omega

theorem count_chained_distinct {bag : String → Multiset R} {t : SetTree} (h : Vacant bag t)
    (a : Multiset R) {distinct : Bool} (hf : true ∈ distinct :: t.unionFlags) (x : R) :
    (chained bag .union (some (a, .union, distinct)) t).count x ≤ 1 := by
  induction t generalizing a distinct with
  | table name =>
    obtain rfl : true = distinct := by simpa [unionFlags] using hf
    exact count_unionDistinct_le a _ x
  | node k d left right ihl ihr =>
    by_cases hk : k = .union
    · subst hk
      rw [chained_same]
      have hsplit : true ∈ distinct :: left.unionFlags ∨ true ∈ d :: right.unionFlags :=
        List.mem_append.mp hf
      rcases hsplit with hleft | hright
      · exact (count_chained_vacant h.sides.2 _ _ x).trans (ihl h.sides.1 _ hleft)
      · exact ihr h.sides.2 _ hright
    · have hflags : (node k d left right).unionFlags = [] := unionFlags_other hk
      obtain rfl : true = distinct := by simpa [hflags] using hf
      rw [chained_other (by exact hk)]
      exact count_unionDistinct_le a _ x

theorem exists_collapsed {t : SetTree} (h : t.tables.Nodup) (hf : true ∈ t.unionFlags) (x : R) :
    ∃ bag, Within bag t ∧ x ∈ t.rows bag ∧
      ∀ a distinct, (chained bag .union (some (a, .union, distinct)) t).count x ≤ 1 := by
  induction t with
  | table name => simp [unionFlags] at hf
  | node k d left right ihl ihr =>
    by_cases hk : k = .union
    · subst hk
      obtain ⟨hl, hr, hd⟩ := apart_of_nodup h
      have hz := within_zero (R := R) right
      by_cases hleft : true ∈ left.unionFlags
      · obtain ⟨a, ha, har, hac⟩ := ihl hl hleft
        refine ⟨glue a fun _ => 0, within_glue ha hz, ?_, fun b distinct => ?_⟩
        · rw [rows_glue _ _ ha hz hd, mem_combine]
          exact .inl har
        · rw [chained_glue _ _ ha hz hd]
          exact (count_chained_vacant (vacant_zero right) _ _ x).trans (hac b distinct)
      · have hright : true ∈ d :: right.unionFlags := (List.mem_append.mp hf).resolve_left hleft
        obtain ⟨a, ha, har, -⟩ := exists_row hl x
        refine ⟨glue a fun _ => 0, within_glue ha hz, ?_, fun b distinct => ?_⟩
        · rw [rows_glue _ _ ha hz hd, mem_combine]
          exact .inl har
        · rw [chained_glue _ _ ha hz hd]
          exact count_chained_distinct (vacant_zero right) _ hright x
    · have hflags : (node k d left right).unionFlags = [] := unionFlags_other hk
      simp [hflags] at hf

theorem exists_repeated {t : SetTree} (h : t.tables.Nodup) (hf : t.unionFlags.getLast? = some false)
    (x : R) :
    ∃ bag, Within bag t ∧
      ∀ a distinct, x ∈ a → 2 ≤ (chained bag .union (some (a, .union, distinct)) t).count x := by
  induction t with
  | table name => simp [unionFlags] at hf
  | node k d left right ihl ihr =>
    by_cases hk : k = .union
    · subst hk
      obtain ⟨hl, hr, hd⟩ := apart_of_nodup h
      have hz := within_zero (R := R) left
      have hmem (a : Multiset R) (distinct : Bool) (hx : x ∈ a) :
          x ∈ chained (fun _ => 0) .union (some (a, .union, distinct)) left :=
        (mem_chained (by simp)).mpr (.inl hx)
      have hlast : (d :: right.unionFlags).getLast? = some false := by
        rwa [unionFlags, List.getLast?_append_of_ne_nil _ (by simp)] at hf
      by_cases hright : HasKind .union right
      · have hflags : right.unionFlags.getLast? = some false := by
          rwa [List.getLast?_cons, List.getLast?_eq_some_getLast (unionFlags_ne_nil hright),
            Option.getD_some, ← List.getLast?_eq_some_getLast] at hlast
        obtain ⟨b, hb, hbc⟩ := ihr hr hflags
        refine ⟨glue (fun _ => 0) b, within_glue hz hb, fun a distinct hx => ?_⟩
        rw [chained_glue _ _ hz hb hd]
        exact hbc _ _ (hmem a distinct hx)
      · obtain rfl : d = false := by simpa [unionFlags_other hright] using hlast
        obtain ⟨b, hb, -, hbw⟩ := exists_row hr x
        refine ⟨glue (fun _ => 0) b, within_glue hz hb, fun a distinct hx => ?_⟩
        rw [chained_glue _ _ hz hb hd, chained_other hright, resume, combine, Multiset.count_add]
        have h1 := Multiset.count_pos.mpr (hmem a distinct hx)
        have h2 := Multiset.count_pos.mpr hbw
        omega
    · have hflags : (node k d left right).unionFlags = [] := unionFlags_other hk
      simp [hflags] at hf

theorem exists_bag_changed {t : SetTree} (h : t.tables.Nodup) (hf : ¬t.Faithful) (x : R) :
    ∃ bag : String → Multiset R, Within bag t ∧ t.written bag ≠ t.rows bag := by
  induction t with
  | table name => exact absurd trivial hf
  | node kind distinct left right ihl ihr =>
    have hrow (hk : ¬(node kind distinct left right).KeepsRows) :
        ∃ bag : String → Multiset R, Within bag (.node kind distinct left right) ∧
          (node kind distinct left right).written bag ≠ (node kind distinct left right).rows bag := by
      obtain ⟨bag, hbag, hx⟩ := exists_row_changed h hk x
      exact ⟨bag, hbag, fun heq => hx (by rw [heq])⟩
    cases kind with
    | union =>
      obtain ⟨hl, hr, hd⟩ := apart_of_nodup h
      cases distinct with
      | true =>
        by_cases hk : left.KeepsRows ∧ right.KeepsRows
        · have hlast : right.unionFlags.getLast? = some false := by
            by_contra hlast
            exact hf ⟨hk.1, hk.2, hlast⟩
          obtain ⟨a, ha, -, haw⟩ := exists_row hl x
          obtain ⟨b, hb, hbc⟩ := exists_repeated hr hlast x
          refine ⟨glue a b, within_glue ha hb, fun heq => ?_⟩
          have htwo := hbc (left.written a) true haw
          have hone := count_unionDistinct_le (left.rows a) (right.rows b) x
          rw [written_glue _ _ ha hb hd, rows_glue _ _ ha hb hd] at heq
          rw [heq] at htwo
          omega
        · exact hrow fun hkeep => hk ⟨hkeep.1, hkeep.2.1⟩
      | false =>
        by_cases hflags : true ∈ right.unionFlags
        · obtain ⟨a, ha, har, -⟩ := exists_row hl x
          obtain ⟨b, hb, hbr, hbc⟩ := exists_collapsed hr hflags x
          refine ⟨glue a b, within_glue ha hb, fun heq => ?_⟩
          have hone := hbc (left.written a) false
          rw [written_glue _ _ ha hb hd, rows_glue _ _ ha hb hd] at heq
          rw [heq, combine, Multiset.count_add] at hone
          have h1 := Multiset.count_pos.mpr har
          have h2 := Multiset.count_pos.mpr hbr
          omega
        · by_cases hleft : left.Faithful
          · have hright : ¬right.Faithful := fun hright => hf ⟨hleft, hright, hflags⟩
            obtain ⟨b, hb, hne⟩ := ihr hr hright
            have hz := within_zero (R := R) left
            refine ⟨glue (fun _ => 0) b, within_glue hz hb, fun heq => hne ?_⟩
            rw [written_glue _ _ hz hb hd, chained_unionAll hflags, rows_glue _ _ hz hb hd, combine,
              written_vacant (vacant_zero left), rows_vacant (vacant_zero left)] at heq
            simpa using heq
          · obtain ⟨a, ha, hne⟩ := ihl hl hleft
            have hz := within_zero (R := R) right
            refine ⟨glue a fun _ => 0, within_glue ha hz, fun heq => hne ?_⟩
            rw [written_glue _ _ ha hz hd, chained_unionAll hflags, rows_glue _ _ ha hz hd, combine,
              written_vacant (vacant_zero right), rows_vacant (vacant_zero right)] at heq
            simpa using heq
    | intersection => exact hrow hf
    | difference => exact hrow hf

theorem evaluate_eq_written {naming : ParamNaming} {params : Params} {e : Expr} {t : SetTree}
    {text : String} (ht : ofExpr? e = some t)
    (hw : ((Compiler.bigQuery naming).target params).Writes e text)
    (hn : ∀ name ∈ t.tables, '\\' ∉ name.toList) (bag : String → Multiset R) :
    evaluate bag text = some (t.written bag) := by
  obtain ⟨ts, hts, heval⟩ := evaluable_of_writes bag hw t ht hn
  have hrun := heval none [] [] (.inr rfl)
  rw [List.append_nil] at hrun
  rw [evaluate, hts, Option.bind_some, hrun]
  rfl

theorem set_operations_evaluate_to_rows_iff [Inhabited R] {naming : ParamNaming} {params : Params}
    {e : Expr} {t : SetTree} {text : String} (ht : ofExpr? e = some t)
    (hw : ((Compiler.bigQuery naming).target params).Writes e text)
    (hn : ∀ name ∈ t.tables, '\\' ∉ name.toList) :
    (t.Faithful → ∀ bag : String → Multiset R, evaluate bag text = some (t.rows bag)) ∧
    (t.tables.Nodup → (∀ bag : String → Multiset R, evaluate bag text = some (t.rows bag)) →
      t.Faithful) := by
  refine ⟨fun hf bag => ?_, fun hd hall => ?_⟩
  · rw [evaluate_eq_written ht hw hn, written_eq_rows hf]
  · by_contra hf
    obtain ⟨bag, -, hne⟩ := exists_bag_changed hd hf (default : R)
    have heq := hall bag
    rw [evaluate_eq_written ht hw hn] at heq
    exact hne (Option.some.inj heq)

theorem left_nested_differences_evaluate_to_rows :
    let e := (((Expr.table "a" ⟨[]⟩).setOp .difference (.table "b\x60" ⟨[]⟩) true).setOp .difference
      ((Expr.table "c" ⟨[]⟩).union (.table "d" ⟨[]⟩) false) true)
    let t := node .difference true (.node .difference true (.table "a") (.table "b\x60"))
      (.node .union false (.table "c") (.table "d"))
    let text := "SELECT *\nFROM a\nEXCEPT DISTINCT\nSELECT *\nFROM \x60b\\\x60\x60\nEXCEPT DISTINCT\n" ++
      "(SELECT *\nFROM c\nUNION ALL\nSELECT *\nFROM d)"
    ((Compiler.bigQuery .declared).target []).Writes e text ∧ ofExpr? e = some t ∧ t.Faithful ∧
      t.tables.Nodup ∧ evaluate (fun name => {name}) text = some (t.rows fun name => {name}) := by
  intro e t text
  have hw : ((Compiler.bigQuery .declared).target []).Writes e text := by
    apply Target.writes_of_run
    rw [Compiler.render_ordered]
    decide +kernel
  have ht : ofExpr? e = some t := by decide
  have hn : ∀ name ∈ t.tables, '\\' ∉ name.toList := by decide
  have hf : t.Faithful := by decide
  exact ⟨hw, ht, hf, by decide, (set_operations_evaluate_to_rows_iff ht hw hn).1 hf _⟩

theorem right_nested_difference_loses_rows :
    let e := (Expr.table "a" ⟨[]⟩).setOp .difference
      ((Expr.table "b" ⟨[]⟩).setOp .difference (.table "c" ⟨[]⟩) true) true
    let t := node .difference true (.table "a") (.node .difference true (.table "b") (.table "c"))
    let text := "SELECT *\nFROM a\nEXCEPT DISTINCT\nSELECT *\nFROM b\nEXCEPT DISTINCT\nSELECT *\nFROM c"
    let bag := fun name => if name = "b" then (0 : Multiset Unit) else {()}
    ((Compiler.bigQuery .declared).target []).Writes e text ∧ ofExpr? e = some t ∧
      t.rows bag = {()} ∧ evaluate bag text = some 0 := by
  intro e t text bag
  have hw : ((Compiler.bigQuery .declared).target []).Writes e text := by
    apply Target.writes_of_run
    rw [Compiler.render_ordered]
    decide +kernel
  exact ⟨hw, by decide, by decide +kernel, by decide +kernel⟩

end SetTree

end BigQuerySql
