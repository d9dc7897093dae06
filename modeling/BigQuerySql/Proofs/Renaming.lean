import BigQuerySql.Proofs.Lowering
import BigQuerySql.Proofs.Names

namespace BigQuerySql

variable (r : String → String)

namespace Op

def renamed {α : Type} : Op α → Op α
  | .scalarParameter name => .scalarParameter (r name)
  | op => op

variable {α : Type} (op : Op α)

@[simp] theorem kind_renamed : (op.renamed r).kind = op.kind := by
  cases op <;> rfl

@[simp] theorem operands_renamed : (op.renamed r).operands = op.operands := by
  cases op <;> rfl

@[simp] theorem ownWeight_renamed : (op.renamed r).ownWeight = op.ownWeight := by
  cases op <;> rfl

theorem map_renamed {β : Type} (f : α → β) : (op.renamed r).map f = (op.map f).renamed r := by
  cases op <;> rfl

end Op

namespace Expr

def rename : Expr → Expr :=
  fold fun op dtype label => ⟨op.renamed r, dtype, label⟩

theorem rename_mk (op : Op Expr) (dtype : DataType) (label : Option String) :
    rename r ⟨op, dtype, label⟩ = ⟨(op.map (rename r)).renamed r, dtype, label⟩ := by
  rw [rename, fold_mk]

theorem rename_eq (e : Expr) : e.rename r = ⟨(e.op.map (rename r)).renamed r, e.dtype, e.label⟩ := by
  cases e with
  | mk op dtype label => exact rename_mk r op dtype label

section Fields

variable (e : Expr)

@[simp] theorem op_rename : (e.rename r).op = (e.op.map (rename r)).renamed r := by
  rw [rename_eq]

@[simp] theorem dtype_rename : (e.rename r).dtype = e.dtype := by
  rw [rename_eq]

@[simp] theorem label_rename : (e.rename r).label = e.label := by
  rw [rename_eq]

@[simp] theorem kind_rename : (e.rename r).kind = e.kind := by
  simp [kind, Op.kind_map]

@[simp] theorem operands_rename : (e.rename r).operands = e.operands.map (rename r) := by
  simp [operands, Op.operands_map]

@[simp] theorem literalValue_rename : (e.rename r).literalValue? = e.literalValue? := by
  obtain ⟨op, dtype, label⟩ := e
  rw [rename_mk]
  cases op <;> rfl

@[simp] theorem needsParens_rename : (e.rename r).needsParens = e.needsParens := by
  obtain ⟨op, dtype, label⟩ := e
  rw [rename_mk]
  cases op with
  | call func args => cases func <;> rfl
  | _ => rfl

@[simp] theorem isTable_rename : (e.rename r).isTable = e.isTable := by
  obtain ⟨op, dtype, label⟩ := e
  rw [rename_mk]
  cases op <;> rfl

end Fields

theorem weight_rename (e : Expr) : (e.rename r).weight = e.weight := by
  induction e using Expr.induction_on with
  | step e ih =>
    have hown : (e.rename r).op.ownWeight = e.op.ownWeight := by
      rw [op_rename, Op.ownWeight_renamed]
      cases e.op <;> rfl
    have hmap : ((e.operands.map (rename r)).map weight) = e.operands.map weight := by
      rw [List.map_map]
      exact List.map_congr_left ih
    rw [weight_eq, weight_eq e, hown, operands_rename, hmap]

theorem height_rename (e : Expr) : (e.rename r).height = e.height := by
  induction e using Expr.induction_on with
  | step e ih =>
    have hmap : ((e.operands.map (rename r)).map height) = e.operands.map height := by
      rw [List.map_map]
      exact List.map_congr_left ih
    rw [height_eq, height_eq e, operands_rename, hmap]

theorem nodes_rename (e : Expr) : (e.rename r).nodes = e.nodes.map (rename r) := by
  induction e using Expr.induction_on with
  | step e ih =>
    rw [nodes_eq, nodes_eq e, operands_rename, List.map_cons, List.map_flatMap, List.flatMap_map]
    exact congrArg _ (List.flatMap_congr ih)

theorem referencedTables_rename (e : Expr) : (e.rename r).referencedTables = e.referencedTables := by
  rw [referencedTables, referencedTables, nodes_rename, List.filterMap_map]
  refine congrArg (fun entries => (firstByKey entries).map Prod.fst) (List.filterMap_congr fun x _ => ?_)
  obtain ⟨op, dtype, label⟩ := x
  rw [Function.comp_apply, rename_mk]
  cases op <;> rfl

theorem filtered_rename (arg : Expr) (filter : Option Expr) :
    (arg.filtered filter).rename r = (arg.rename r).filtered (filter.map (rename r)) := by
  cases filter with
  | none => rfl
  | some cond =>
    simp only [filtered, Option.map_some, ifElse, null, literal, ofOp, rename_mk, Op.map, Op.renamed, dtype_rename]

end Expr

theorem Rule.apply_rename (rule : Rule) (e : Expr) : rule.apply (e.rename r) = (rule.apply e).rename r := by
  cases rule with
  | keep => rfl
  | dayOfWeekName =>
    simp only [apply, Expr.operands_rename]
    rcases e.operands with _ | ⟨arg, _ | ⟨other, rest⟩⟩ <;> rfl
  | log2 =>
    simp only [apply, Expr.operands_rename]
    rcases e.operands with _ | ⟨arg, _ | ⟨other, rest⟩⟩ <;> rfl
  | reaggregate target negated =>
    obtain ⟨op, dtype, label⟩ := e
    cases op with
    | reduction func args filter => cases negated <;> rfl
    | _ => rfl
  | booleanAsInteger =>
    obtain ⟨op, dtype, label⟩ := e
    cases op with
    | reduction func args filter =>
      rcases args with _ | ⟨arg, _ | ⟨other, rest⟩⟩
      · rfl
      · cases hbool : arg.dtype.isBoolean <;>
          simp [apply, Expr.rename_mk, Op.map, Op.renamed, Expr.reduction, Expr.cast, Expr.ofOp, hbool]
      · rfl
    | _ => rfl
  | floorDivide =>
    obtain ⟨op, dtype, label⟩ := e
    cases op <;> rfl
  | identicalTo =>
    obtain ⟨op, dtype, label⟩ := e
    cases op <;> rfl

namespace Expr

theorem replaced_rename (rules : DispatchTable Rule) (e : Expr) :
    (e.rename r).replaced rules = (e.replaced rules).rename r := by
  rw [replaced, replaced, kind_rename, rename_mk]
  cases rules.get? e.kind with
  | none => simp
  | some rule => simp [Rule.apply_rename]

theorem mapOperands_rename {f : Expr → Expr} {e : Expr} (h : ∀ x ∈ e.operands, f (x.rename r) = (f x).rename r) :
    (e.rename r).mapOperands f = (e.mapOperands f).rename r := by
  rw [mapOperands, mapOperands, rename_mk, op_rename, dtype_rename, label_rename, Op.map_renamed, Op.map_map, Op.map_map]
  exact congrArg (fun op : Op Expr => Expr.mk (op.renamed r) e.dtype e.label) (Op.map_congr h)

theorem lowerWithin_rename (rules : DispatchTable Rule) (n : Nat) (e : Expr) :
    lowerWithin rules n (e.rename r) = (lowerWithin rules n e).rename r := by
  induction n generalizing e with
  | zero => rfl
  | succ n ih =>
    rw [lowerWithin, lowerWithin, replaced_rename]
    exact mapOperands_rename r fun x _ => ih x

theorem lower_rename (rules : DispatchTable Rule) (e : Expr) :
    (e.rename r).lower rules = (e.lower rules).rename r := by
  rw [lower, lower, loweringDepth, loweringDepth, height_rename, lowerWithin_rename]

end Expr

namespace Sql

theorem flatten_rename (kind : SetOpKind) (e : Expr) :
    flattenSetOp kind (e.rename r) =
      (flattenSetOp kind e).map fun chain => (chain.1.map (Expr.rename r), chain.2) := by
  induction e using Expr.induction_on with
  | step e ih =>
    by_cases hk : e.kind = .setOp kind
    · obtain ⟨op, dtype, label⟩ := e
      cases op with
      | setOp k left right distinct =>
        obtain rfl : k = kind := by simpa [Expr.kind, Op.kind] using hk
        have hleft := ih left (by simp [Expr.operands, Op.operands])
        have hright := ih right (by simp [Expr.operands, Op.operands])
        rw [Expr.rename_mk, Op.map, Op.renamed, flatten_same, flatten_same, hleft, hright]
        cases flattenSetOp k left with
        | error error => rfl
        | ok first =>
          cases setKeyword k distinct with
          | error error => rfl
          | ok word =>
            cases flattenSetOp k right with
            | error error => rfl
            | ok second => simp [Except.map, bind, Except.bind, pure, Except.pure]
        simp
      | _ => simp [Expr.kind, Op.kind] at hk
    · rw [flatten_other hk, flatten_other (by rwa [Expr.kind_rename])]
      rfl

theorem chainPieces_rename (parts : List Expr) (i : Nat) (words : List String) :
    chainPieces i (parts.map (Expr.rename r)) words = chainPieces i parts words := by
  induction parts generalizing i words with
  | nil => rfl
  | cons e rest ih =>
    have hpart : chainPart i (e.rename r) = chainPart i e := by
      obtain ⟨op, dtype, label⟩ := e
      rw [Expr.rename_mk]
      cases op <;> rfl
    cases rest with
    | nil => simp [chainPieces, hpart]
    | cons next rest =>
      cases words with
      | nil => simpa [chainPieces, hpart] using ih (i + 1) []
      | cons word words => simpa [chainPieces, hpart] using ih (i + 1) words

end Sql

namespace Step

@[simp] def rename : Step → Step
  | .operand e => .operand (e.rename r)
  | .nested e => .nested (e.rename r)
  | .parameter name dtype => .parameter (r name) dtype
  | s => s

end Step

namespace Layout

def rename (layout : Layout) : Layout :=
  ⟨layout.steps.map (Step.rename r), layout.pieces⟩

@[simp] theorem rename_mk (steps : List Step) (pieces : List Piece) :
    rename r ⟨steps, pieces⟩ = ⟨steps.map (Step.rename r), pieces⟩ := rfl

@[simp] theorem rename_failure (error : SqlError) : (failure error).rename r = failure error := rfl

@[simp] theorem rename_malformed (e : Expr) (what : String) : (malformed e what).rename r = malformed e what := rfl

@[simp] theorem malformed_rename (e : Expr) (what : String) : malformed (e.rename r) what = malformed e what := by
  rw [malformed, malformed, Expr.kind_rename]

@[simp] theorem rename_constant (s : String) : (constant s).rename r = constant s := rfl

@[simp] theorem rename_ofExcept (result : Except SqlError String) : (ofExcept result).rename r = ofExcept result := by
  cases result <;> rfl

@[simp] theorem rename_apply (function : String) (args : List Expr) :
    (apply function args).rename r = apply function (args.map (Expr.rename r)) := by
  simp [apply, Function.comp_def]

@[simp] theorem rename_checked (steps : List Step) (result : Except SqlError (List Piece)) :
    (checked steps result).rename r = checked (steps.map (Step.rename r)) result := by
  cases result <;> simp [checked]

end Layout

namespace Formatter

open Sql

theorem substring_rename (e : Expr) : substringLayout (e.rename r) = (substringLayout e).rename r := by
  simp only [substringLayout, Expr.operands_rename]
  rcases e.operands with _ | ⟨a, _ | ⟨b, _ | ⟨c, _ | ⟨d, rest⟩⟩⟩⟩ <;> simp

theorem regex_rename (before middle after : String) (arg pattern : Expr) (others : List Expr) :
    regexLayout before middle after (arg.rename r) (pattern.rename r) (others.map (Expr.rename r)) =
      (regexLayout before middle after arg pattern others).rename r := by
  have hraw : rawPattern? (pattern.rename r) = rawPattern? pattern := by
    rw [rawPattern?, rawPattern?, Expr.literalValue_rename]
  rw [regexLayout, regexLayout, hraw]
  cases rawPattern? pattern <;> simp [Function.comp_def]

theorem layout_rename (f : Formatter) (e : Expr) : f.layout (e.rename r) = (f.layout e).rename r := by
  cases f with
  | genericLiteral | literal =>
    simp only [layout, Expr.literalValue_rename, Expr.dtype_rename]
    cases e.literalValue? <;> simp
  | function name arity =>
    cases arity with
    | none => simp [layout]
    | some n =>
      simp only [layout, Expr.operands_rename, List.length_map, Expr.kind_rename]
      split <;> simp
  | template arity pieces =>
    simp only [layout, Layout.template, Expr.operands_rename, List.length_map, Expr.kind_rename]
    split <;> simp [Function.comp_def]
  | regex before middle after arity =>
    simp only [layout, Expr.operands_rename]
    rcases e.operands with _ | ⟨arg, _ | ⟨pattern, others⟩⟩
    · simp
    · simp
    · simp only [List.map_cons, List.length_map, Expr.kind_rename, List.length_cons]
      split <;> simp [regex_rename]
  | genericSubstring => exact substring_rename r e
  | substring =>
    simp only [layout, Expr.operands_rename]
    rcases e.operands with _ | ⟨a, _ | ⟨b, _ | ⟨c, _ | ⟨d, rest⟩⟩⟩⟩ <;>
      simp only [List.map_cons, List.map_nil, substring_rename]
    have hlength : isNegativeLength (c.rename r) = isNegativeLength c := by
      rw [isNegativeLength, isNegativeLength, Expr.literalValue_rename]
    rw [hlength]
    cases isNegativeLength c <;> rfl
  | cast | floor | leading words | trailing words | between | like | baseFirstLog | log | findInSet | stringJoin =>
    simp only [layout, Expr.operands_rename]
    rcases e.operands with _ | ⟨a, _ | ⟨b, _ | ⟨c, _ | ⟨d, rest⟩⟩⟩⟩ <;> simp [Function.comp_def]
  | simplify =>
    simp only [layout, Expr.operands_rename, Expr.kind_rename]
    rcases e.operands with _ | ⟨a, _ | ⟨b, _ | ⟨c, _ | ⟨d, rest⟩⟩⟩⟩ <;> simp only [List.map_cons, List.map_nil]
    · simp
    · simp
    · simp
    · have htrue : isTrueLiteral (c.rename r) = isTrueLiteral c := by
        rw [isTrueLiteral, isTrueLiteral, Expr.literalValue_rename]
      rw [htrue]
      cases isTrueLiteral c <;> simp
    · simp
  | setOp =>
    obtain ⟨op, dtype, label⟩ := e
    cases op with
    | setOp kind left right distinct =>
      simp only [layout, Expr.op_rename, Op.map, Op.renamed, flatten_rename]
      cases hchain : flattenSetOp kind ⟨.setOp kind left right distinct, dtype, label⟩ with
      | error error => rfl
      | ok chain =>
        obtain ⟨parts, words⟩ := chain
        simp [Except.map, Function.comp_def, chainPieces_rename]
    | _ => rfl
  | reduction | countDistinct | singleReduction =>
    obtain ⟨op, dtype, label⟩ := e
    cases op with
    | reduction func args filter =>
      rcases args with _ | ⟨arg, _ | ⟨other, rest⟩⟩ <;>
        simp [layout, Op.map, Op.renamed, Expr.filtered_rename, Function.comp_def]
    | _ => rfl
  | truncate | intervalArithmetic | timestampFromUnix | hash | hashBytes | strftime | arbitrary | covariance =>
    obtain ⟨op, dtype, label⟩ := e
    -- a node of any other kind is refused, with the same words
    cases op <;> try rfl
    simp only [layout, Expr.op_rename, Op.map, Op.renamed, Expr.dtype_rename, Expr.kind_rename]
    (repeat' split) <;> simp [Expr.filtered_rename]
  | stringToTimestamp =>
    obtain ⟨op, dtype, label⟩ := e
    cases op with
    | stringToTimestamp arg format timezone => cases timezone <;> rfl
    | _ => rfl
  | stringFind =>
    obtain ⟨op, dtype, label⟩ := e
    cases op with
    | stringFind arg substr start stop => cases start <;> cases stop <;> rfl
    | _ => rfl
  | _ =>
    obtain ⟨op, dtype, label⟩ := e
    cases op <;> rfl

end Formatter

end BigQuerySql
