import BigQuerySql.Proofs.Placeholders
import BigQuerySql.Proofs.WrittenParameters

namespace BigQuerySql

section Firsts

variable {α β : Type} [DecidableEq α] [DecidableEq β]

/-- The same things appear in the two lists, and first in the same order. -/
def SameFirsts (xs ys : List α) : Prop :=
  xs.eraseDups = ys.eraseDups

namespace SameFirsts

variable {xs ys zs xs' ys' : List α}

theorem refl (xs : List α) : SameFirsts xs xs := rfl

theorem symm (h : SameFirsts xs ys) : SameFirsts ys xs := Eq.symm h

theorem trans (h : SameFirsts xs ys) (h' : SameFirsts ys zs) : SameFirsts xs zs := Eq.trans h h'

theorem mem_iff (h : SameFirsts xs ys) {x : α} : x ∈ xs ↔ x ∈ ys := by
  rw [← List.mem_eraseDups, h, List.mem_eraseDups]

theorem append (hx : SameFirsts xs xs') (hy : SameFirsts ys ys') : SameFirsts (xs ++ ys) (xs' ++ ys') := by
  have hcontains : (fun y => !xs.contains y) = fun y => !xs'.contains y := by
    funext y
    rw [Bool.eq_iff_iff]
    simp [hx.mem_iff]
  rw [SameFirsts, eraseDups_append, eraseDups_append, hcontains, hx, hy]

theorem absorb (h : ∀ y ∈ ys, y ∈ xs) : SameFirsts (xs ++ ys) xs := by
  have hnone : (ys.eraseDups.filter fun y => !xs.contains y) = [] := by
    refine List.filter_eq_nil_iff.mpr fun y hy => ?_
    simpa using h y (List.mem_eraseDups.mp hy)
  rw [SameFirsts, eraseDups_append, hnone, List.append_nil]

theorem flatMap {γ : Type} {items : List γ} {f g : γ → List α} (h : ∀ x ∈ items, SameFirsts (f x) (g x)) :
    SameFirsts (items.flatMap f) (items.flatMap g) := by
  induction items with
  | nil => exact refl []
  | cons x rest ih =>
    rw [List.forall_mem_cons] at h
    exact h.1.append (ih h.2)

theorem flatMap_eraseDups (f : β → List α) (items : List β) :
    SameFirsts (items.eraseDups.flatMap f) (items.flatMap f) := by
  induction items using List.reverseRecOn with
  | nil => exact refl []
  | append_singleton items x ih =>
    rw [eraseDups_concat, List.flatMap_append]
    split
    next hx =>
      refine ih.trans (absorb fun y hy => ?_).symm
      exact List.mem_flatMap.mpr ⟨x, hx, by simpa using hy⟩
    next =>
      rw [List.flatMap_append]
      exact ih.append (refl _)

theorem flatMap_front {γ : Type} (front : List α) (f : γ → List α) (x : γ) (items : List γ) :
    SameFirsts ((x :: items).flatMap fun y => front ++ f y) (front ++ (x :: items).flatMap f) := by
  induction items using List.reverseRecOn with
  | nil => simp [SameFirsts]
  | append_singleton items y ih =>
    have hagain : SameFirsts ((front ++ (x :: items).flatMap f) ++ front) (front ++ (x :: items).flatMap f) :=
      absorb fun z hz => List.mem_append_left _ hz
    have hlast := (ih.append (refl front)).trans hagain |>.append (refl (f y))
    simpa [List.flatMap_append] using hlast

end SameFirsts

end Firsts

namespace Func

variable {α β : Type}

def isRegex : Func → Bool
  | .regexSearch => true
  | .regexExtract => true
  | .regexReplace => true
  | _ => false

def arranged (patternFirst : Bool) (func : Func) (args : List α) : List α :=
  match func with
  | .stringJoin => args.tail ++ args.head?.toList
  | .geo .simplify => args.take 2
  | func => if patternFirst && func.isRegex then (args.take 2).reverse ++ args.drop 2 else args

theorem arranged_map (b : Bool) (f : α → β) (func : Func) (args : List α) :
    func.arranged b (args.map f) = (func.arranged b args).map f := by
  unfold arranged
  split
  · cases args <;> simp
  · simp [List.map_take]
  · split <;> simp [List.map_take, List.map_drop]

theorem mem_of_arranged {b : Bool} {func : Func} {args : List α} {x : α} (h : x ∈ func.arranged b args) : x ∈ args := by
  unfold arranged at h
  split at h
  · cases args with
    | nil => simp at h
    | cons separator values => simpa [or_comm] using h
  · exact List.mem_of_mem_take h
  · split at h
    · rcases List.mem_append.mp h with h | h
      · exact List.mem_of_mem_take (List.mem_reverse.mp h)
      · exact List.mem_of_mem_drop h
    · exact h

theorem mem_arranged {b c : Bool} {func : Func} {args : List α} {x : α} :
    x ∈ func.arranged b args ↔ x ∈ func.arranged c args := by
  unfold arranged
  split
  · exact Iff.rfl
  · exact Iff.rfl
  · have hreversed : x ∈ (args.take 2).reverse ++ args.drop 2 ↔ x ∈ args := by
      rw [List.mem_append, List.mem_reverse, ← List.mem_append, List.take_append_drop]
    (repeat' split) <;> simp only [hreversed]

end Func

namespace Op

variable {α β : Type}

/-- The operands that the text of a node is made of, in order: a filter stands before what it filters, a format before
what it formats. -/
def arranged (patternFirst : Bool) : Op α → List α
  | .call func args => func.arranged patternFirst args
  | .reduction _ args filter => if args.isEmpty then [] else filter.toList ++ args
  | .covariance left right _ filter => filter.toList ++ [left, right]
  | .arbitrary arg _ filter => filter.toList ++ [arg]
  | .strftime arg format => [format, arg]
  | .stringToTimestamp arg format timezone => format :: arg :: timezone.toList
  | op => op.operands

theorem arranged_map (b : Bool) (f : α → β) (op : Op α) : (op.map f).arranged b = (op.arranged b).map f := by
  cases op with
  | call func args => exact func.arranged_map b f args
  | reduction func args filter => cases args <;> simp [map, arranged, Option.toList_map]
  | _ => simp [map, arranged, operands, Option.toList_map]

theorem mem_of_arranged {b : Bool} {op : Op α} {x : α} (h : x ∈ op.arranged b) : x ∈ op.operands := by
  cases op with
  | call func args => exact Func.mem_of_arranged h
  | reduction func args filter =>
    simp only [arranged] at h
    split at h
    · cases h
    · simpa [operands, or_comm] using h
  | covariance left right how filter => simpa [arranged, operands, or_comm, or_assoc, or_left_comm] using h
  | arbitrary arg how filter => simpa [arranged, operands, or_comm] using h
  | strftime arg format => simpa [arranged, operands, or_comm] using h
  | stringToTimestamp arg format timezone => simpa [arranged, operands, or_left_comm] using h
  | _ => exact h

theorem arranged_cases (op : Op α) :
    op.arranged true = op.arranged false ∨
      ∃ func arg pattern others, op = .call func (arg :: pattern :: others) ∧ func.isRegex := by
  cases op with
  | call func args =>
    cases hfunc : func.isRegex with
    | false =>
      refine .inl ?_
      simp only [arranged, Func.arranged]
      split
      · rfl
      · rfl
      · simp [hfunc]
    | true =>
      rcases args with _ | ⟨arg, _ | ⟨pattern, others⟩⟩
      · exact .inl (by cases func <;> first | rfl | cases hfunc)
      · exact .inl (by cases func <;> first | rfl | cases hfunc)
      · exact .inr ⟨func, arg, pattern, others, rfl, hfunc⟩
  | _ => exact .inl rfl

theorem mem_arranged {b c : Bool} {op : Op α} {x : α} : x ∈ op.arranged b ↔ x ∈ op.arranged c := by
  cases op with
  | call func args => exact Func.mem_arranged
  | _ => exact Iff.rfl

end Op

namespace Expr

def parametersIn (patternFirst : Bool) : Expr → List String :=
  fold fun op _ _ => op.ownParameters ++ (op.arranged patternFirst).flatten

def shownParameters : Expr → List String := parametersIn false

/-- The parameters in the order in which they are written: patterns come before what they are looked for in. -/
def takenParameters : Expr → List String := parametersIn true

variable {b : Bool}

theorem parametersIn_mk (op : Op Expr) (dtype : DataType) (label : Option String) :
    parametersIn b ⟨op, dtype, label⟩ = op.ownParameters ++ (op.arranged b).flatMap (parametersIn b) := by
  rw [parametersIn, fold_mk, Op.ownParameters_map, Op.arranged_map, List.flatMap_def]

theorem parametersIn_eq (e : Expr) :
    e.parametersIn b = e.op.ownParameters ++ (e.op.arranged b).flatMap (parametersIn b) := by
  cases e with
  | mk op dtype label => exact parametersIn_mk op dtype label

theorem parametersIn_rename (r : String → String) (e : Expr) :
    (e.rename r).parametersIn b = (e.parametersIn b).map r := by
  induction e using Expr.induction_on with
  | step e ih =>
    rw [parametersIn_eq, parametersIn_eq e, op_rename, List.map_append, List.map_flatMap]
    have hown : ((e.op.map (rename r)).renamed r).ownParameters = e.op.ownParameters.map r := by
      cases e.op <;> rfl
    have harranged : ((e.op.map (rename r)).renamed r).arranged b = (e.op.arranged b).map (rename r) := by
      rw [← Op.arranged_map]
      cases e.op <;> rfl
    rw [hown, harranged, List.flatMap_map]
    congr 1
    exact List.flatMap_congr fun x hx => ih x (Op.mem_of_arranged hx)

theorem parametersIn_replaces {e node : Expr} (h : Replaces e node) :
    SameFirsts (node.parametersIn b) (e.parametersIn b) := by
  cases h with
  | same => exact .refl _
  | identicalTo left right dtype label =>
    have htwice : parametersIn b ⟨.binary .or (left.isNull.and right.isNull) (left.equals right), .bool, label⟩ =
        (left.parametersIn b ++ right.parametersIn b) ++ (left.parametersIn b ++ right.parametersIn b) := by
      simp [isNull, and, equals, call, binary, ofOp, parametersIn_mk, Op.ownParameters, Op.arranged, Op.operands,
        Func.arranged, Func.isRegex]
    have honce : parametersIn b ⟨.binary .identicalTo left right, dtype, label⟩ =
        left.parametersIn b ++ right.parametersIn b := by
      simp [parametersIn_mk, Op.ownParameters, Op.arranged, Op.operands]
    -- both sides are written twice, the second time without a new parameter
    rw [htwice, honce]
    exact .absorb fun _ h => h
  | floorDivide left right dtype label =>
    simp [SameFirsts, divide, binary, ofOp, parametersIn_mk, Op.ownParameters, Op.arranged, Op.operands, Func.arranged,
      Func.isRegex]
  | log2 arg dtype label =>
    simp [SameFirsts, literal, ofOp, parametersIn_mk, Op.ownParameters, Op.arranged, Op.operands, Func.arranged,
      Func.isRegex]
  | dayOfWeekName arg dtype label =>
    simp [SameFirsts, literal, ofOp, parametersIn_mk, Op.ownParameters, Op.arranged, Op.operands, Func.arranged,
      Func.isRegex]
  | booleanAsInteger hfunc arg filter dtype label =>
    simp [SameFirsts, cast, ofOp, parametersIn_mk, Op.ownParameters, Op.arranged, Op.operands]

theorem parametersIn_lower (e : Expr) : SameFirsts ((e.lower Rule.bigQuery).parametersIn b) (e.parametersIn b) := by
  induction e using Expr.lower_induct with
  | step e ih =>
    refine SameFirsts.trans ?_ (parametersIn_replaces (replaces_bigQuery e))
    rw [lower_eq]
    generalize e.replaced Rule.bigQuery = node at ih
    rw [mapOperands, parametersIn_mk, parametersIn_eq node, Op.ownParameters_map, Op.arranged_map, List.flatMap_map]
    exact (SameFirsts.refl _).append (SameFirsts.flatMap fun x hx => ih x (Op.mem_of_arranged hx))

theorem mem_parametersIn {c : Bool} {e : Expr} {name : String} : name ∈ e.parametersIn b ↔ name ∈ e.parametersIn c := by
  induction e using Expr.induction_on with
  | step e ih =>
    rw [parametersIn_eq, parametersIn_eq e, List.mem_append, List.mem_append, List.mem_flatMap, List.mem_flatMap]
    refine or_congr_right (exists_congr fun x => ?_)
    rw [Op.mem_arranged]
    exact and_congr_right fun hx => ih x (Op.mem_of_arranged hx)

theorem parametersIn_regex {e : Expr} {func : Func} {arg pattern : Expr} {others : List Expr} (hfunc : func.isRegex)
    (hop : e.op = .call func (arg :: pattern :: others)) (b : Bool) :
    e.parametersIn b = (if b then pattern.parametersIn b ++ arg.parametersIn b
      else arg.parametersIn b ++ pattern.parametersIn b) ++ others.flatMap (parametersIn b) := by
  have harranged : func.arranged b (arg :: pattern :: others) =
      if b then pattern :: arg :: others else arg :: pattern :: others := by
    cases b <;> cases func <;> first | rfl | cases hfunc
  rw [parametersIn_eq, hop]
  simp only [Op.ownParameters, Op.arranged, harranged]
  cases b <;> simp

/-- At no regular expression do both the pattern and what it is looked for in have parameters. -/
def OneSided (e : Expr) : Prop :=
  ∀ x ∈ e.nodes, ∀ func arg pattern others, x.op = .call func (arg :: pattern :: others) → func.isRegex →
    arg.shownParameters = [] ∨ pattern.shownParameters = []

theorem taken_oneSided {e : Expr} (h : e.OneSided) : e.takenParameters = e.shownParameters := by
  induction e using Expr.induction_on with
  | step e ih =>
    have hoperand (x : Expr) (hx : x ∈ e.operands) : x.parametersIn true = x.parametersIn false := by
      refine ih x hx fun y hy => h y ?_
      rw [nodes_eq]
      exact List.mem_cons_of_mem _ (List.mem_flatMap.mpr ⟨x, hx, hy⟩)
    rw [takenParameters, shownParameters]
    rcases e.op.arranged_cases with hsame | ⟨func, arg, pattern, others, hop, hfunc⟩
    · rw [parametersIn_eq, parametersIn_eq e, hsame]
      congr 1
      exact List.flatMap_congr fun x hx => hoperand x (Op.mem_of_arranged hx)
    · have hoperands : e.operands = arg :: pattern :: others := by rw [operands, hop, Op.operands]
      have hothers : others.flatMap (parametersIn true) = others.flatMap (parametersIn false) :=
        List.flatMap_congr fun x hx => hoperand x (by simp [hoperands, hx])
      have hsided : arg.parametersIn false = [] ∨ pattern.parametersIn false = [] :=
        h e (nodes_eq e ▸ List.mem_cons_self) func arg pattern others hop hfunc
      rw [parametersIn_regex hfunc hop, parametersIn_regex hfunc hop, hoperand arg (by simp [hoperands]),
        hoperand pattern (by simp [hoperands]), hothers]
      rcases hsided with hnone | hnone <;> simp [hnone]

theorem parametersIn_literal {e : Expr} {v : Value} (h : e.op = .literal v) : e.parametersIn b = [] := by
  obtain ⟨op, dtype, label⟩ := e
  obtain rfl : op = .literal v := h
  simp [parametersIn_mk, Op.ownParameters, Op.arranged, Op.operands]

theorem parametersIn_filtered (filter : Option Expr) (arg : Expr) :
    (arg.filtered filter).parametersIn b = filter.toList.flatMap (parametersIn b) ++ arg.parametersIn b := by
  cases filter with
  | none => rfl
  | some cond =>
    simp [filtered, ifElse, null, literal, ofOp, parametersIn_mk, Op.ownParameters, Op.arranged, Op.operands]

end Expr

namespace Step

@[simp] def parametersIn (b : Bool) : Step → List String
  | .operand e => e.parametersIn b
  | .nested e => e.parametersIn b
  | .parameter name _ => [name]
  | _ => []

end Step

namespace Layout

variable {b : Bool}

def parametersIn (b : Bool) (l : Layout) : List String :=
  l.steps.flatMap (Step.parametersIn b)

def shownIn (b : Bool) (l : Layout) : List String :=
  (l.pieces.filterMap Piece.part?).flatMap fun i => (l.steps[i]?.map (Step.parametersIn b)).getD []

def inOrder (n : Nat) (pieces : List Piece) : Bool :=
  (pieces.filterMap Piece.part?).eraseDups == List.range n

theorem shown_inOrder {l : Layout} (h : inOrder l.steps.length l.pieces) :
    SameFirsts (l.shownIn b) (l.parametersIn b) := by
  refine (SameFirsts.flatMap_eraseDups _ _).symm.trans ?_
  rw [eq_of_beq h, flatMap_range]
  exact .refl _

theorem parts_parts (first n : Nat) : (parts ", " first n).filterMap Piece.part? = List.range' first n := by
  induction n generalizing first with
  | zero => rfl
  | succ n ih =>
    cases n with
    | zero => rfl
    | succ n => rw [parts_succ, List.range'_succ, ← ih (first + 1)]; rfl

theorem inOrder_of_parts {pieces : List Piece} {n : Nat} (h : pieces.filterMap Piece.part? = List.range n) :
    inOrder n pieces := by
  rw [inOrder, h, eraseDups_of_nodup List.nodup_range]
  exact beq_self_eq_true _

def Follows (e : Expr) (l : Layout) : Prop :=
  (∃ error, .fail error ∈ l.steps) ∨
    (∀ b, SameFirsts (l.parametersIn b) (e.parametersIn b)) ∧ inOrder l.steps.length l.pieces

variable {e : Expr}

theorem follows_apply {function : String} {args : List Expr}
    (h : ∀ b, SameFirsts (args.flatMap (Expr.parametersIn b)) (e.parametersIn b)) :
    Follows e (apply function args) := by
  refine .inr ⟨fun b => ?_, ?_⟩
  · simpa [parametersIn, apply, List.flatMap_map] using h b
  · refine inOrder_of_parts ?_
    simp only [apply, List.filterMap_cons, List.filterMap_append, Piece.part?, parts_parts, List.length_map]
    simp [List.range_eq_range']

/-- A layout that fails, or that keeps both orders: its steps take the parameters of a node in the one, and its pieces
show them in the other. -/
def Orders (e : Expr) (l : Layout) : Prop :=
  (∃ error, .fail error ∈ l.steps) ∨
    SameFirsts (l.parametersIn true) e.takenParameters ∧ SameFirsts (l.shownIn false) e.shownParameters

theorem orders_of_follows {l : Layout} (h : Follows e l) : Orders e l := by
  rcases h with hfail | ⟨hparameters, hpieces⟩
  · exact .inl hfail
  · exact .inr ⟨hparameters true, (shown_inOrder hpieces).trans (hparameters false)⟩

end Layout

namespace Formatter

open Sql

def isStraight : Kind → Bool
  | .scalarParameter => false
  | .call .stringJoin => false
  | .call (.geo .simplify) => false
  | .call func => !func.isRegex
  | .reduction _ => false
  | .covariance => false
  | .arbitrary => false
  | .strftime => false
  | .stringToTimestamp => false
  | _ => true

theorem parametersIn_straight {e : Expr} (h : isStraight e.kind) (b : Bool) :
    e.parametersIn b = e.operands.flatMap (Expr.parametersIn b) := by
  obtain ⟨op, dtype, label⟩ := e
  rw [Expr.parametersIn_mk]
  cases op with
  | call func args =>
    have harranged : func.arranged b args = args := by
      unfold Func.arranged
      split
      · cases h
      · cases h
      · simp_all [isStraight, Expr.kind, Op.kind]
    simp [Op.ownParameters, Op.arranged, harranged, Expr.operands, Op.operands]
  | scalarParameter name => cases h
  | reduction func args filter => cases h
  | covariance left right how filter => cases h
  | arbitrary arg how filter => cases h
  | strftime arg format => cases h
  | stringToTimestamp arg format timezone => cases h
  | _ => rfl

def ownOrder : Kind → Formatter → Bool
  | .scalarParameter, .parameter => true
  | .call .stringJoin, .stringJoin => true
  | .call (.geo .simplify), .simplify => true
  | .call func, .regex _ _ _ arity => func.isRegex && arity ≤ 3
  | .reduction _, .reduction _ => true
  | .reduction _, .countDistinct => true
  | .reduction _, .singleReduction _ _ => true
  | .covariance, .covariance => true
  | .arbitrary, .arbitrary => true
  | .strftime, .strftime => true
  | .stringToTimestamp, .stringToTimestamp => true
  | _, _ => false

def keepsOrder : Formatter → Bool
  | .template arity pieces => Layout.inOrder arity pieces
  | .stringJoin => false
  | .simplify => false
  | .regex _ _ _ _ => false
  | _ => true

theorem bigQuery_orders {k : Kind} {f : Formatter} (h : bigQuery.get? k = some f) :
    (if isStraight k then keepsOrder f else ownOrder k f) = true :=
  bigQuery_all (p := fun entry => if isStraight entry.1 then keepsOrder entry.2 else ownOrder entry.1 entry.2)
    (by decide +kernel) (by decide +kernel) h

variable {e : Expr} {b : Bool}

theorem follows_straight {steps : List Step} {pieces : List Piece} (h : isStraight e.kind)
    (hsteps : ∀ b, steps.flatMap (Step.parametersIn b) = e.operands.flatMap (Expr.parametersIn b))
    (hpieces : Layout.inOrder steps.length pieces) : Layout.Follows e ⟨steps, pieces⟩ := by
  refine .inr ⟨fun b => ?_, hpieces⟩
  rw [parametersIn_straight h, ← hsteps b]
  exact .refl _

theorem parametersIn_flatten {kind : SetOpKind} : ∀ {parts : List Expr} {words : List String},
    flattenSetOp kind e = .ok (parts, words) → parts.flatMap (Expr.parametersIn b) = e.parametersIn b := by
  induction e using Expr.induction_on with
  | step e ih =>
    intro parts words h
    rcases flatten_cases h with ⟨-, rfl, rfl⟩ |
      ⟨left, right, distinct, dtype, label, lp, lw, word, rp, rw, rfl, hl, -, hr, rfl, rfl⟩
    · simp
    · have hleft := ih left (by simp [Expr.operands, Op.operands]) hl
      have hright := ih right (by simp [Expr.operands, Op.operands]) hr
      simp [Expr.parametersIn_mk, Op.ownParameters, Op.arranged, Op.operands, hleft, hright]

theorem parts_chain (parts : List Expr) (i : Nat) (words : List String) :
    (chainPieces i parts words).filterMap Piece.part? = List.range' i parts.length := by
  have hpart (i : Nat) (e : Expr) : (chainPart i e).filterMap Piece.part? = [i] := by
    unfold chainPart
    split <;> rfl
  induction parts generalizing i words with
  | nil => rfl
  | cons e rest ih =>
    rw [List.length_cons, List.range'_succ]
    cases rest with
    | nil => simp [chainPieces, hpart]
    | cons f rest =>
      cases words with
      | nil => simp [chainPieces, hpart, ih (i + 1) []]
      | cons word words => simp [chainPieces, hpart, List.filterMap_cons, Piece.part?, ih (i + 1) words]

theorem inOrder_binary (op : BinaryOp) : Layout.inOrder 2 (binaryPieces op) := by
  cases op <;> decide

theorem layout_straight {f : Formatter} (h : isStraight e.kind) (hkeeps : keepsOrder f) (hfits : fits (e.kind, f)) :
    Layout.Follows e (f.layout e) := by
  have hlayout := f.outcome e
  generalize f.layout e = l at hlayout
  have happly {name : String} {args : List Expr} (ho : e.operands = args) : Layout.Follows e (.apply name args) := by
    refine Layout.follows_apply fun b => ?_
    rw [parametersIn_straight h, ho]
    exact .refl _
  cases hlayout with
  | fails hargs error => exact .inl ⟨error, by simp⟩
  | @setOp kind left right distinct parts words hop hflat =>
    refine .inr ⟨fun b => ?_, ?_⟩
    · rw [← parametersIn_flatten hflat, Layout.parametersIn, List.flatMap_map]
      exact .refl _
    · refine Layout.inOrder_of_parts ?_
      rw [parts_chain, List.length_map, List.range_eq_range']
  | function => exact happly rfl
  | template hlen =>
    exact follows_straight h (by simp [List.flatMap_map]) (by simpa [hlen, keepsOrder] using hkeeps)
  | @infixed op left right hop =>
    exact follows_straight h (by simp [Expr.operands, Op.operands, hop]) (inOrder_binary op)
  | cast ho hp =>
    refine follows_straight h (by simp [ho]) ?_
    rcases castPieces_ok hp with ⟨-, rfl⟩ | ⟨name, -, rfl⟩ <;> rfl
  | @timestampFromUnix arg unit pieces hop hp =>
    refine follows_straight h (by simp [Expr.operands, Op.operands, hop]) ?_
    cases unit <;> cases hp <;> rfl
  | stringJoin | simplify | regex => cases hkeeps
  | genericLiteral | genericCast | genericSetOp | genericLn | baseFirstLog | genericSubstringFrom | genericSubstring
  | findInSet => cases hfits
  | parameter hop | stringToTimestamp hop | strftime hop | reduction hop | countDistinct hop | singleReduction hop
  | arbitrary hop | sampleCovariance hop | populationCovariance hop =>
    -- these refuse every kind but their own, which are not straight
    simp [Expr.kind, Op.kind, hop, isStraight] at h
  | ln ho | log ho => exact happly ho
  | leading ho | trailing ho | between ho | like ho | substringFrom ho | substring ho | floor ho =>
    exact follows_straight h (by simp [ho]) rfl
  | intervalArithmetic hop | hash hop | hashBytes hop =>
    exact happly (by simp [Expr.operands, Op.operands, hop])
  | literal hop | column hop | tableScan hop | conditional hop | truncate hop | stringFind hop | structField hop =>
    exact follows_straight h (by simp [Expr.operands, Op.operands, hop]) rfl

theorem sameFirsts_filtered (b : Bool) (filter : Option Expr) (args : List Expr) :
    SameFirsts ((args.map (·.filtered filter)).flatMap (Expr.parametersIn b))
      ((if args.isEmpty then [] else filter.toList ++ args).flatMap (Expr.parametersIn b)) := by
  cases args with
  | nil => exact .refl _
  | cons arg rest =>
    simpa only [List.flatMap_map, Expr.parametersIn_filtered, List.isEmpty_cons, Bool.false_eq_true, if_false,
      List.flatMap_append] using SameFirsts.flatMap_front (filter.toList.flatMap (Expr.parametersIn b)) _ arg rest

theorem follows_masked {op : Op Expr} {dtype : DataType} {label : Option String} (args : List Expr)
    {filter : Option Expr} {function : String} (hown : op.ownParameters = [])
    (h : ∀ b, op.arranged b = if args.isEmpty then [] else filter.toList ++ args) :
    Layout.Follows ⟨op, dtype, label⟩ (.apply function (args.map (·.filtered filter))) := by
  refine Layout.follows_apply fun b => ?_
  rw [Expr.parametersIn_mk, hown, h b]
  exact sameFirsts_filtered b filter args

theorem follows_single {func : Agg} {arg : Expr} {filter : Option Expr} {before after : String} {dtype : DataType}
    {label : Option String} :
    Layout.Follows ⟨.reduction func [arg] filter, dtype, label⟩
      ⟨[.operand (arg.filtered filter)], [.text before, .part 0, .text after]⟩ := by
  refine .inr ⟨fun b => ?_, rfl⟩
  rw [Expr.parametersIn_mk]
  exact sameFirsts_filtered b filter [arg]

theorem inOrder_stringJoin (n : Nat) :
    Layout.inOrder (n + 1)
      (.text "ARRAY_TO_STRING([" :: (Layout.parts ", " 0 n ++ [Piece.text "], ", .part n, .text ")"])) := by
  refine Layout.inOrder_of_parts ?_
  simp [List.filterMap_cons, Piece.part?, Layout.parts_parts, List.range_succ, List.range_eq_range']

theorem orders_regex {func : Func} {before middle after : String} {arg pattern : Expr} {others : List Expr}
    (hfunc : func.isRegex) (hop : e.op = .call func (arg :: pattern :: others)) (hothers : others.length ≤ 1) :
    Layout.Orders e (regexLayout before middle after arg pattern others) := by
  simp only [regexLayout]
  cases hraw : rawPattern? pattern with
  | some raw =>
    -- a raw string is a constant, so that the two orders agree here
    obtain ⟨s, hliteral, -⟩ := op_of_rawPattern hraw
    have hnone (b : Bool) : pattern.parametersIn b = [] := Expr.parametersIn_literal hliteral
    refine Layout.orders_of_follows (.inr ⟨fun b => ?_, ?_⟩)
    · rw [Expr.parametersIn_regex hfunc hop, hnone b]
      simp [SameFirsts, Layout.parametersIn, List.flatMap_map]
    · rcases others with _ | ⟨other, _ | ⟨x, rest⟩⟩
      · rfl
      · rfl
      · simp at hothers
  | none =>
    -- the pattern is the first step, and the second part to be shown
    refine .inr ⟨?_, ?_⟩
    · rw [Expr.takenParameters, Expr.parametersIn_regex hfunc hop]
      simp [SameFirsts, Layout.parametersIn, List.flatMap_map]
    · rw [Expr.shownParameters, Expr.parametersIn_regex hfunc hop]
      rcases others with _ | ⟨other, _ | ⟨x, rest⟩⟩
      · simp [SameFirsts, Layout.shownIn, Piece.part?, List.filterMap_cons]
      · simp [SameFirsts, Layout.shownIn, Piece.part?, List.filterMap_cons]
      · simp at hothers

theorem ownOrder_call {f : Formatter} {func : Func} (h : ownOrder (.call func) f) :
    (func = .stringJoin ∧ f = .stringJoin) ∨ (func = .geo .simplify ∧ f = .simplify) ∨
      ∃ before middle after arity, func.isRegex ∧ arity ≤ 3 ∧ f = .regex before middle after arity := by
  unfold ownOrder at h
  split at h
  next hk => cases hk
  next hk => exact .inl ⟨by simpa using hk, rfl⟩
  next hk => exact .inr (.inl ⟨by simpa using hk, rfl⟩)
  next other before middle after arity hk =>
    obtain rfl : func = other := by simpa using hk
    obtain ⟨hfunc, harity⟩ : func.isRegex = true ∧ arity ≤ 3 := by simpa using h
    exact .inr (.inr ⟨before, middle, after, arity, hfunc, harity, rfl⟩)
  all_goals simp_all

theorem inOrder_format {dtype : DataType} {pieces : List Piece} (h : formatPieces dtype = .ok pieces) :
    Layout.inOrder 2 pieces := by
  cases dtype <;> cases h <;> rfl

theorem orders_call {f : Formatter} {func : Func} {args : List Expr} {dtype : DataType} {label : Option String}
    {l : Layout} (h : ownOrder (.call func) f) (hlayout : Outcome ⟨.call func args, dtype, label⟩ f l) :
    Layout.Orders ⟨.call func args, dtype, label⟩ l := by
  rcases ownOrder_call h with ⟨rfl, rfl⟩ | ⟨rfl, rfl⟩ | ⟨before, middle, after, arity, hfunc, harity, rfl⟩
  · cases hlayout with
    | @stringJoin separator values ho =>
      cases ho
      refine Layout.orders_of_follows (.inr ⟨fun b => ?_, by simpa using inOrder_stringJoin values.length⟩)
      simp [SameFirsts, Layout.parametersIn, Expr.parametersIn_mk, Op.ownParameters, Op.arranged, Func.arranged,
        List.flatMap_map]
    | fails hargs error => exact .inl ⟨error, by simp⟩
  · cases hlayout with
    | simplify ho =>
      cases ho
      refine Layout.orders_of_follows (Layout.follows_apply fun b => ?_)
      simp [SameFirsts, Expr.parametersIn_mk, Op.ownParameters, Op.arranged, Func.arranged]
    | fails hargs error => exact .inl ⟨error, by simp⟩
  · cases hlayout with
    | regex ho hlen =>
      cases ho
      exact orders_regex hfunc rfl (by omega)
    | fails hargs error => exact .inl ⟨error, by simp⟩

theorem layout_ownOrder {f : Formatter} (h : ownOrder e.kind f) : Layout.Orders e (f.layout e) := by
  have hlayout := f.outcome e
  generalize f.layout e = l at hlayout
  obtain ⟨op, dtype, label⟩ := e
  cases op with
  | call func args => exact orders_call h hlayout
  | scalarParameter name =>
    cases hlayout with
    | parameter hop =>
      cases hop
      exact Layout.orders_of_follows (.inr ⟨fun b => .refl _, rfl⟩)
    | fails hargs error => exact .inl ⟨error, by simp⟩
    | _ => cases h
  | reduction func args filter =>
    cases hlayout with
    | reduction hop =>
      cases hop
      exact Layout.orders_of_follows (follows_masked args rfl fun b => rfl)
    | countDistinct hop | singleReduction hop =>
      cases hop
      exact Layout.orders_of_follows follows_single
    | fails hargs error => exact .inl ⟨error, by simp⟩
    | _ => cases h
  | covariance left right how filter =>
    cases hlayout with
    | sampleCovariance hop | populationCovariance hop =>
      cases hop
      exact Layout.orders_of_follows (follows_masked [left, right] rfl fun b => rfl)
    | fails hargs error => exact .inl ⟨error, by simp⟩
    | _ => cases h
  | arbitrary arg how filter =>
    cases hlayout with
    | arbitrary hop =>
      cases hop
      exact Layout.orders_of_follows (follows_masked [arg] rfl fun b => rfl)
    | fails hargs error => exact .inl ⟨error, by simp⟩
    | _ => cases h
  | strftime arg format =>
    cases hlayout with
    | strftime hop hp =>
      cases hop
      exact Layout.orders_of_follows (.inr ⟨fun b => .refl _, inOrder_format hp⟩)
    | fails hargs error => exact .inl ⟨error, by simp⟩
    | _ => cases h
  | stringToTimestamp arg format timezone =>
    cases hlayout with
    | stringToTimestamp hop =>
      cases hop
      refine Layout.orders_of_follows (Layout.follows_apply fun b => ?_)
      rw [Expr.parametersIn_mk]
      exact .refl _
    | fails hargs error => exact .inl ⟨error, by simp⟩
    | _ => cases h
  | _ => cases h

theorem bigQuery_keepsOrders {f : Formatter} (h : bigQuery.get? e.kind = some f) : Layout.Orders e (f.layout e) := by
  have horders := bigQuery_orders h
  split at horders
  next hstraight => exact Layout.orders_of_follows (layout_straight hstraight horders (bigQuery_fits h))
  next => exact layout_ownOrder horders

end Formatter

namespace Compiler

variable {naming : ParamNaming} {params : Params} {ctx last : Context}

theorem taken_place (name : String) (dtype : DataType) :
    SameFirsts ((ctx.place naming name dtype).2.slots.map Slot.declared) (ctx.slots.map Slot.declared ++ [name]) := by
  rw [ctx.declared_place]
  split
  next hmem =>
    refine (SameFirsts.absorb fun other hother => ?_).symm
    obtain rfl := List.mem_singleton.mp hother
    exact hmem
  next => exact .refl _

theorem taken_takeStep {write : Expr → Render String}
    (h : ∀ x ctx w last, write x ctx = .ok (w, last) →
      SameFirsts (last.slots.map Slot.declared) (ctx.slots.map Slot.declared ++ x.takenParameters))
    {s : Step} {w : String} (hrun : ((bigQuery naming).target params).takeStep write s ctx = .ok (w, last)) :
    SameFirsts (last.slots.map Slot.declared) (ctx.slots.map Slot.declared ++ s.parametersIn true) := by
  cases s with
  | operand x => exact h x ctx w last hrun
  | nested x =>
    obtain ⟨v, mid, hv, hw⟩ := render_bind_ok.mp hrun
    obtain ⟨-, rfl⟩ := render_pure_ok.mp hw
    exact h x ctx v mid hv
  | parameter name dtype =>
    obtain ⟨-, rfl⟩ := placeholder_ok hrun
    exact taken_place name dtype
  | table name =>
    obtain ⟨-, rfl⟩ := render_pure_ok.mp hrun
    simp [SameFirsts]
  | fail error => exact absurd hrun Target.throw_ne_ok

theorem taken_mapM {write : Expr → Render String}
    (h : ∀ x ctx w last, write x ctx = .ok (w, last) →
      SameFirsts (last.slots.map Slot.declared) (ctx.slots.map Slot.declared ++ x.takenParameters))
    {steps : List Step} {texts : List String}
    (hrun : steps.mapM (((bigQuery naming).target params).takeStep write) ctx = .ok (texts, last)) :
    SameFirsts (last.slots.map Slot.declared)
      (ctx.slots.map Slot.declared ++ steps.flatMap (Step.parametersIn true)) := by
  induction steps generalizing ctx texts with
  | nil =>
    obtain ⟨-, rfl⟩ := render_pure_ok.mp hrun
    simp [SameFirsts]
  | cons s rest ih =>
    rw [List.mapM_cons] at hrun
    obtain ⟨w, mid, hw, hrun⟩ := render_bind_ok.mp hrun
    obtain ⟨ws, fin, hws, hrun⟩ := render_bind_ok.mp hrun
    obtain ⟨-, rfl⟩ := render_pure_ok.mp hrun
    rw [List.flatMap_cons, ← List.append_assoc]
    exact (ih hws).trans ((taken_takeStep h hw).append (.refl _))

theorem taken_renderWithin {n : Nat} {e : Expr} {w : String}
    (hrun : ((bigQuery naming).target params).renderWithin n e ctx = .ok (w, last)) :
    SameFirsts (last.slots.map Slot.declared) (ctx.slots.map Slot.declared ++ e.takenParameters) := by
  induction n generalizing e ctx w last with
  | zero => exact absurd hrun Target.throw_ne_ok
  | succ n ih =>
    simp only [Target.renderWithin] at hrun
    cases hf : ((bigQuery naming).target params).formatters.get? e.kind with
    | none =>
      simp only [hf] at hrun
      exact absurd hrun Target.throw_ne_ok
    | some f =>
      simp only [hf] at hrun
      obtain ⟨texts, mid, htexts, hrun⟩ := render_bind_ok.mp hrun
      obtain ⟨-, rfl⟩ := render_pure_ok.mp hrun
      -- a layout with a failing step has not been run through; any other takes the parameters in their order
      refine (taken_mapM (fun x ctx w last hx => ih hx) htexts).trans ((SameFirsts.refl _).append ?_)
      rcases Formatter.bigQuery_keepsOrders hf with ⟨error, herror⟩ | ⟨htaken, -⟩
      · exact absurd herror (not_fail_of_mapM htexts error)
      · exact htaken

end Compiler

end BigQuerySql
