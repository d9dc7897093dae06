import BigQuerySql.Proofs.NormalForms
import BigQuerySql.Proofs.ParameterValues
import BigQuerySql.Proofs.Precedence

namespace BigQuerySql

structure Arity where
  least : Nat
  most : Option Nat
deriving DecidableEq

namespace Arity

def exactly (n : Nat) : Arity := ⟨n, some n⟩

def atLeast (n : Nat) : Arity := ⟨n, none⟩

def allows (a : Arity) (n : Nat) : Bool :=
  a.least.ble n && a.most.all n.ble

@[simp] theorem allows_exactly {m n : Nat} : (exactly m).allows n = true ↔ n = m := by
  simp only [allows, exactly, Option.all_some, Bool.and_eq_true, Nat.ble_eq]
  omega

@[simp] theorem allows_atLeast {m n : Nat} : (atLeast m).allows n = true ↔ m ≤ n := by
  simp [allows, atLeast]

end Arity

def GeoFunc.arity : GeoFunc → Nat
  | .area | .asBinary | .asText | .centroid | .endPoint | .geometryType | .length | .nPoints | .perimeter => 1
  | .startPoint | .x | .xMax | .xMin | .y | .yMax | .yMin => 1
  | .dWithin | .simplify => 3
  | _ => 2

def Func.arity : Func → Arity
  | .timestampNow => .exactly 0
  | .coalesce | .greatest | .least | .round | .stringConcat | .arrayConcat => .atLeast 0
  | .stringJoin => .atLeast 1
  | .findInSet => .atLeast 2
  | .log => ⟨1, some 2⟩
  | .substring => ⟨2, some 3⟩
  | .ifNull | .nullIf | .dateDiff | .timestampDiff | .strRight | .stringSplit | .repeat => .exactly 2
  | .regexSearch | .stringSqlLike | .arrayIndex => .exactly 2
  | .between | .stringReplace | .regexExtract | .regexReplace | .translate => .exactly 3
  | .geo g => .exactly g.arity
  | _ => .exactly 1

def Agg.takesOne : Agg → Bool
  | .countDistinct | .approxMedian | .any | .all | .notAny | .notAll => true
  | _ => false

namespace Expr

inductive Misshapen (e : Expr) : Prop where
  | call {func : Func} {args : List Expr} (h : e.op = .call func args) (hargs : func.arity.allows args.length = false)
  | aggregate {func : Agg} {args : List Expr} {filter : Option Expr} (h : e.op = .reduction func args filter)
      (hfunc : func.takesOne = true) (hargs : args.length ≠ 1)
  | offset {op : IntervalOp} {arg offset : Expr} (h : e.op = .intervalArithmetic op arg offset)
      (hoffset : ∀ unit, offset.dtype ≠ .interval unit)

inductive Unavailable (e : Expr) : FeatureFault → Prop where
  | removed (h : e.kind ∈ Formatter.removedKinds) : Unavailable e (.kind e.kind)
  | dayName {args : List Expr} (h : e.op = .call .dayOfWeekName args) (hargs : args.length ≠ 1) :
      Unavailable e (.kind e.kind)
  | findStart {arg substr start : Expr} {stop : Option Expr} (h : e.op = .stringFind arg substr (some start) stop) :
      Unavailable e .findStart
  | findEnd {arg substr stop : Expr} (h : e.op = .stringFind arg substr none (some stop)) : Unavailable e .findEnd
  | unixUnit {arg : Expr} {unit : IntervalUnit} (h : e.op = .timestampFromUnix arg unit)
      (hunit : unit ∈ [.year, .quarter, .month, .week, .day, .hour, .minute]) : Unavailable e (.unixUnit unit)

end Expr

def wiringTexts : List String :=
  ["a literal", "a column", "a scalar parameter", "a table scan", "a cast", "a conditional", "a binary operation",
   "a set operation", "a truncation", "interval arithmetic", "a unix timestamp conversion", "a string find", "a hash",
   "a hashbytes", "a strftime", "a timestamp parse", "a struct field", "a reduction", "an arbitrary", "a covariance"]

def NodeFault.isWiring : NodeFault → Bool
  | .expected what => wiringTexts.contains what
  | _ => false

namespace Layout

variable {error : SqlError}

@[simp] theorem fail_failure (other : SqlError) : .fail error ∈ (failure other).steps ↔ error = other := by
  simp [failure]

@[simp] theorem fail_ofExcept (result : Except SqlError String) :
    .fail error ∈ (ofExcept result).steps ↔ result = .error error := by
  cases result <;> simp [ofExcept, constant, eq_comm]

@[simp] theorem fail_apply (function : String) (args : List Expr) : .fail error ∉ (apply function args).steps := by
  simp [apply]

@[simp] theorem fail_checked (steps : List Step) (result : Except SqlError (List Piece)) :
    .fail error ∈ (checked steps result).steps ↔ .fail error ∈ steps ∨ result = .error error := by
  cases result <;> simp [checked, eq_comm]

end Layout

namespace Formatter

open Sql

def arity? : Formatter → Option Arity
  | .cast => some (.exactly 1)
  | .function _ none => some (.atLeast 0)
  | .function _ (some n) => some (.exactly n)
  | .template n _ => some (.exactly n)
  | .leading _ => some (.exactly 1)
  | .trailing _ => some (.exactly 1)
  | .between => some (.exactly 3)
  | .like => some (.exactly 2)
  | .baseFirstLog => some ⟨1, some 2⟩
  | .log => some ⟨1, some 2⟩
  | .genericSubstring => some ⟨2, some 3⟩
  | .substring => some ⟨2, some 3⟩
  | .findInSet => some (.atLeast 2)
  | .floor => some (.exactly 1)
  | .regex _ _ _ n => if 2 ≤ n then some (.exactly n) else none
  | .stringJoin => some (.atLeast 1)
  | .simplify => some (.exactly 3)
  -- the others look at the operation itself
  | _ => none

def wired (k : Kind) (f : Formatter) : Bool :=
  match k with
  | .literal => (f matches .literal)
  | .column => (f matches .column)
  | .scalarParameter => (f matches .parameter)
  | .tableScan => (f matches .tableScan)
  | .setOp _ => (f matches .setOp)
  | .binary _ => (f matches .infixed) || f.arity? == some (.exactly 2)
  | .call func => f.arity? == some func.arity
  | .cast => f.arity? == some (.exactly 1)
  | .ifElse => (f matches .conditional)
  | .reduction func =>
    if func.takesOne then (f matches .countDistinct | .singleReduction _ _) else (f matches .reduction _)
  | .covariance => (f matches .covariance)
  | .arbitrary => (f matches .arbitrary)
  | .truncate _ => (f matches .truncate _ _)
  | .intervalArithmetic _ => (f matches .intervalArithmetic _ _)
  | .timestampFromUnix => (f matches .timestampFromUnix)
  | .stringFind => (f matches .stringFind)
  | .hash => (f matches .hash)
  | .hashBytes => (f matches .hashBytes)
  | .strftime => (f matches .strftime)
  | .stringToTimestamp => (f matches .stringToTimestamp)
  | .structField => (f matches .structField)

theorem bigQuery_wired {k : Kind} {f : Formatter} (h : bigQuery.get? k = some f) : wired k f :=
  bigQuery_all (p := fun entry => wired entry.1 entry.2) (by decide) (by decide) h

theorem mem_calls {func : Func} (h : func ≠ .dayOfWeekName) (hgeo : ∀ g, func ≠ .geo g) :
    func ∈ bigQueryCalls.map Prod.fst ∨ func ∈ genericCalls.map Prod.fst := by
  -- deciding the membership of all functions at once takes far longer than one by one
  cases func with
  | geo g => exact absurd rfl (hgeo g)
  | dayOfWeekName => exact absurd rfl h
  | _ => decide +kernel

theorem mem_geographyCalls (g : GeoFunc) : g ∈ geographyCalls.map Prod.fst := by
  cases g <;> decide +kernel

theorem mem_reductions (func : Agg) :
    func ∈ bigQueryReductions.map Prod.fst ∨ func ∈ genericReductions.map Prod.fst := by
  cases func <;> decide +kernel

theorem keys_bigQueryLayer : bigQueryLayer.map Prod.fst =
    bigQueryForms.map Prod.fst ++ SetOpKind.all.map .setOp ++ (bigQueryCalls.map Prod.fst).map .call ++
      (geographyCalls.map Prod.fst).map (fun g => .call (.geo g)) ++
      (bigQueryReductions.map Prod.fst).map .reduction := by
  simp only [bigQueryLayer, calls, reductions, List.map_append, List.map_map, Function.comp_def]

theorem keys_genericLayer : genericLayer.map Prod.fst =
    genericForms.map Prod.fst ++ BinaryOp.all.map .binary ++ SetOpKind.all.map .setOp ++
      (genericCalls.map Prod.fst).map .call ++ (genericReductions.map Prod.fst).map .reduction := by
  simp only [genericLayer, calls, reductions, List.map_append, List.map_map, Function.comp_def]

theorem mem_layers_of_forms {k : Kind} (h : k ∈ bigQueryForms.map Prod.fst ∨ k ∈ genericForms.map Prod.fst) :
    k ∈ bigQueryLayer.map Prod.fst ∨ k ∈ genericLayer.map Prod.fst := by
  simp only [keys_bigQueryLayer, keys_genericLayer, List.mem_append]
  rcases h with h | h <;> simp only [h, true_or, or_true]

theorem mem_layers {k : Kind} (h : k ≠ .call .dayOfWeekName) :
    k ∈ bigQueryLayer.map Prod.fst ∨ k ∈ genericLayer.map Prod.fst := by
  cases k with
  | setOp kind =>
    have hkind : kind ∈ SetOpKind.all := by cases kind <;> decide
    simp only [keys_bigQueryLayer, List.mem_append, List.mem_map_of_mem hkind, true_or, or_true]
  | binary op =>
    have hop : op ∈ BinaryOp.all := by cases op <;> decide
    simp only [keys_genericLayer, List.mem_append, List.mem_map_of_mem hop, true_or, or_true]
  | call func =>
    simp only [keys_bigQueryLayer, keys_genericLayer, List.mem_append]
    by_cases hgeo : ∃ g, func = .geo g
    · obtain ⟨g, rfl⟩ := hgeo
      have hg := List.mem_map_of_mem (f := fun g => Kind.call (.geo g)) (mem_geographyCalls g)
      simp only [hg, true_or, or_true]
    · have hfunc := mem_calls (fun hname => h (hname ▸ rfl)) fun g hg => hgeo ⟨g, hg⟩
      rcases hfunc with hfunc | hfunc <;> simp only [List.mem_map_of_mem hfunc, true_or, or_true]
  | reduction func =>
    simp only [keys_bigQueryLayer, keys_genericLayer, List.mem_append]
    rcases mem_reductions func with hfunc | hfunc <;> simp only [List.mem_map_of_mem hfunc, true_or, or_true]
  | truncate kind => exact mem_layers_of_forms (by cases kind <;> decide +kernel)
  | intervalArithmetic op => exact mem_layers_of_forms (by cases op <;> decide +kernel)
  | _ => exact mem_layers_of_forms (by decide +kernel)

theorem unregistered_cases {k : Kind} (h : bigQuery.get? k = none) : k ∈ removedKinds ∨ k = .call .dayOfWeekName := by
  by_cases hremoved : k ∈ removedKinds
  · exact .inl hremoved
  · rw [get_bigQuery, if_neg hremoved, Option.or_eq_none_iff] at h
    refine .inr (Decidable.byContradiction fun hk => ?_)
    rcases mem_layers hk with hmem | hmem
    · exact not_mem_of_lookup h.1 hmem
    · exact not_mem_of_lookup h.2 hmem

@[simp] theorem fail_regex {error : SqlError} {before middle after : String} {arg pattern : Expr} {others : List Expr} :
    .fail error ∉ (regexLayout before middle after arg pattern others).steps := by
  simp only [regexLayout]
  cases rawPattern? pattern <;> simp

theorem castPieces_failsOnContent (operand : Piece) (source target : DataType) :
    FailsOnContent (castPieces operand source target) := by
  unfold castPieces
  (repeat' split) <;>
    first
    | exact failsOnContent_ok _
    | exact failsOnContent_bind target.sqlName_failsOnContent fun _ => failsOnContent_ok _

/-- The layout of a node that is refused for its shape just if a condition does not hold. -/
inductive ShapedBy (P : Prop) (e : Expr) (l : Layout) : Prop where
  | accepted (h : P) (hl : ∀ error, .fail error ∈ l.steps → error.blamesNode = false)
  | refused {fault : NodeFault} (h : ¬P) (hfault : fault.isWiring = false)
      (hl : l = .failure (.malformedNode e.kind fault))

theorem shapedBy_ite {e : Expr} {l : Layout} {n : Nat}
    (h : ∀ error, .fail error ∈ l.steps → error.blamesNode = false) :
    ShapedBy ((Arity.exactly n).allows e.operands.length) e
      (if e.operands.length = n then l else .failure (.malformedNode e.kind (.argumentCount n e.operands.length))) := by
  split
  next hn => exact .accepted (Arity.allows_exactly.mpr hn) h
  next hn => exact .refused (mt Arity.allows_exactly.mp hn) rfl rfl

theorem shapedBy_arity {f : Formatter} {a : Arity} (ha : f.arity? = some a) (e : Expr) :
    ShapedBy (a.allows e.operands.length) e (f.layout e) := by
  cases f with
  | function name arity =>
    cases arity with
    | none =>
      obtain rfl : Arity.atLeast 0 = a := Option.some.inj ha
      exact .accepted (by simp) (by simp [layout])
    | some n =>
      obtain rfl : Arity.exactly n = a := Option.some.inj ha
      exact shapedBy_ite (by simp)
  | template n pieces =>
    obtain rfl : Arity.exactly n = a := Option.some.inj ha
    exact shapedBy_ite (by simp)
  | regex before middle after n =>
    change (if 2 ≤ n then some (.exactly n) else none) = some a at ha
    split at ha
    next hn =>
      obtain rfl : Arity.exactly n = a := Option.some.inj ha
      rcases hops : e.operands with _ | ⟨x, _ | ⟨y, others⟩⟩ <;> simp only [layout, hops]
      · exact .refused (by rw [Arity.allows_exactly, List.length_nil]; omega) rfl rfl
      · exact .refused (by rw [Arity.allows_exactly, List.length_singleton]; omega) rfl rfl
      · split
        next hlength => exact .accepted (by simp [hlength]) (by simp)
        next hlength => exact .refused (by simpa [hops] using hlength) rfl rfl
    next => cases ha
  | cast =>
    obtain rfl : Arity.exactly 1 = a := Option.some.inj ha
    rcases hops : e.operands with _ | ⟨x, _ | ⟨y, rest⟩⟩ <;> simp only [layout, hops]
    · exact .refused Bool.false_ne_true rfl rfl
    · refine .accepted rfl fun error h => ?_
      exact castPieces_failsOnContent _ _ _ error (by simpa using h)
    · exact .refused Bool.false_ne_true rfl rfl
  | floor =>
    obtain rfl : Arity.exactly 1 = a := Option.some.inj ha
    rcases hops : e.operands with _ | ⟨x, _ | ⟨y, rest⟩⟩ <;> simp only [layout, hops]
    · exact .refused Bool.false_ne_true rfl rfl
    · refine .accepted rfl fun error h => ?_
      have hname : FailsOnContent
          (do return [.text "CAST(FLOOR(", Piece.part 0, .text (") AS " ++ (← e.dtype.sqlName) ++ ")")]) :=
        failsOnContent_bind e.dtype.sqlName_failsOnContent fun _ => failsOnContent_ok _
      exact hname error (by simpa using h)
    · exact .refused Bool.false_ne_true rfl rfl
  | substring =>
    obtain rfl : ⟨2, some 3⟩ = a := Option.some.inj ha
    rcases hops : e.operands with _ | ⟨x, _ | ⟨y, _ | ⟨z, _ | ⟨w, rest⟩⟩⟩⟩ <;> simp only [layout, substringLayout, hops]
    · exact .refused Bool.false_ne_true (by decide) rfl
    · exact .refused Bool.false_ne_true (by decide) rfl
    · exact .accepted rfl (by simp)
    · refine .accepted rfl ?_
      split <;> simp [SqlError.blamesNode]
    · exact .refused Bool.false_ne_true (by decide) rfl
  | simplify =>
    obtain rfl : Arity.exactly 3 = a := Option.some.inj ha
    rcases hops : e.operands with _ | ⟨x, _ | ⟨y, _ | ⟨z, _ | ⟨w, rest⟩⟩⟩⟩ <;> simp only [layout, hops]
    case cons.cons.cons.nil =>
      refine .accepted rfl ?_
      split <;> simp [SqlError.blamesNode]
    all_goals exact .refused Bool.false_ne_true rfl rfl
  | _ =>
    cases ha <;> rcases hops : e.operands with _ | ⟨x, _ | ⟨y, _ | ⟨z, _ | ⟨w, rest⟩⟩⟩⟩ <;>
      simp only [layout, substringLayout, hops] <;>
      first
      | exact .accepted rfl (by simp)
      | exact .refused Bool.false_ne_true (by decide) rfl

end Formatter

namespace Sql

theorem setKeyword_failsOnContent (kind : SetOpKind) (distinct : Bool) : FailsOnContent (setKeyword kind distinct) := by
  cases kind <;> cases distinct <;> first | exact failsOnContent_ok _ | exact failsOnContent_error rfl

theorem flatten_failsOnContent (kind : SetOpKind) (e : Expr) : FailsOnContent (flattenSetOp kind e) := by
  induction e using Expr.induction_on with
  | step e ih =>
    by_cases hk : e.kind = .setOp kind
    · obtain ⟨op, dtype, label⟩ := e
      cases op with
      | setOp k left right distinct =>
        obtain rfl : k = kind := by simpa [Expr.kind, Op.kind] using hk
        rw [flatten_same]
        refine failsOnContent_bind (ih left (by simp [Expr.operands, Op.operands])) fun _ => ?_
        refine failsOnContent_bind (setKeyword_failsOnContent k distinct) fun _ => ?_
        exact failsOnContent_bind (ih right (by simp [Expr.operands, Op.operands])) fun _ => failsOnContent_ok _
      | _ => simp [Expr.kind, Op.kind] at hk
    · rw [flatten_other hk]
      exact failsOnContent_ok _

theorem formatPieces_failsOnContent (dtype : DataType) : FailsOnContent (formatPieces dtype) := by
  unfold formatPieces
  split <;> first | exact failsOnContent_ok _ | exact failsOnContent_error rfl

theorem unixPieces_error {unit : IntervalUnit} {error : SqlError} (h : unixPieces unit = .error error) :
    error = .notImplemented (.unixUnit unit) ∧ unit ∈ [.year, .quarter, .month, .week, .day, .hour, .minute] := by
  cases unit <;> simp [unixPieces] at h <;> simp [← h]

end Sql

/-- Why a node cannot be written, whatever becomes of its operands. -/
inductive Cause (params : Params) (e : Expr) : SqlError → Prop where
  | misshapen {fault : NodeFault} (h : e.Misshapen) (hfault : fault.isWiring = false) :
      Cause params e (.malformedNode e.kind fault)
  | unregistered (h : Formatter.bigQuery.get? e.kind = none) : Cause params e (.notImplemented (.kind e.kind))
  | unavailable {fault : FeatureFault} (h : e.Unavailable fault) : Cause params e (.notImplemented fault)
  | unsupplied {name : String} (h : e.op = .scalarParameter name) (hname : params.lookup name = none) :
      Cause params e (.missingParameter name)
  | content {error : SqlError} (h : error.blamesNode = false) : Cause params e error

namespace Formatter

open Sql

variable {params : Params} {e : Expr} {f : Formatter} {error : SqlError}

theorem cause_of_shaped {P : Prop} (hshaped : ShapedBy P e (f.layout e)) (hshape : ¬P → e.Misshapen)
    (h : .fail error ∈ (f.layout e).steps) : Cause params e error := by
  cases hshaped with
  | accepted hP hl => exact .content (hl error h)
  | refused hP hfault hl =>
    rw [hl, Layout.fail_failure] at h
    rw [h]
    exact .misshapen (hshape hP) hfault

theorem shapedBy_aggregate {func : Agg} {args : List Expr} {filter : Option Expr}
    (hop : e.op = .reduction func args filter) (hf : wired e.kind f) (hfunc : func.takesOne = true) :
    ShapedBy (args.length = 1) e (f.layout e) := by
  simp only [wired, Expr.kind, hop, Op.kind, hfunc, if_true] at hf
  split at hf
  rotate_right
  · cases hf
  all_goals
    rcases args with _ | ⟨arg, _ | ⟨other, rest⟩⟩ <;> simp only [layout, hop]
    · exact .refused (by simp) (by decide) rfl
    · exact .accepted rfl (by simp)
    · exact .refused (by simp) (by decide) rfl

theorem shapedBy_offset {op : IntervalOp} {arg offset : Expr} (hop : e.op = .intervalArithmetic op arg offset)
    (hf : wired e.kind f) : ShapedBy (∃ unit, offset.dtype = .interval unit) e (f.layout e) := by
  simp only [wired, Expr.kind, hop, Op.kind] at hf
  obtain ⟨name, units, rfl⟩ : ∃ name units, f = .intervalArithmetic name units := by split at hf <;> simp_all
  simp only [layout, hop]
  split
  next unit hunit =>
    refine .accepted ⟨unit, hunit⟩ ?_
    split <;> simp [SqlError.blamesNode]
  next hoffset => exact .refused (not_exists.mpr hoffset) rfl rfl

theorem cause_of_fail (hf : bigQuery.get? e.kind = some f) (h : .fail error ∈ (f.layout e).steps) :
    Cause params e error := by
  have hkind := bigQuery_wired hf
  obtain ⟨op, dtype, label⟩ := e
  have hwired := hkind
  -- the kind leaves a formatter or a family of them, and the wiring branch of its layout is closed by the operation
  cases op <;> simp only [wired, Expr.kind, Op.kind] at hwired
  case call func args =>
    refine cause_of_shaped (shapedBy_arity (by simpa using hwired) _) (fun hargs => .call rfl ?_) h
    exact Bool.eq_false_iff.mpr hargs
  case cast arg =>
    refine cause_of_shaped (shapedBy_arity (by simpa using hwired) _) (fun hargs => absurd ?_ hargs) h
    simp [Expr.operands, Op.operands]
  case binary op left right =>
    rw [Bool.or_eq_true] at hwired
    rcases hwired with hwired | hwired
    · obtain rfl : f = .infixed := by split at hwired <;> simp_all
      simp [layout] at h
    · refine cause_of_shaped (shapedBy_arity (by simpa using hwired) _) (fun hargs => absurd ?_ hargs) h
      simp [Expr.operands, Op.operands]
  case literal v =>
    obtain rfl : f = .literal := by split at hwired <;> simp_all
    exact .content (v.literal_failsOnContent dtype error (by simpa [layout, Expr.literalValue?] using h))
  case setOp kind left right distinct =>
    obtain rfl : f = .setOp := by split at hwired <;> simp_all
    simp only [layout] at h
    split at h
    · simp at h
    next other hflat =>
      obtain rfl : error = other := by simpa using h
      exact .content (flatten_failsOnContent _ _ error hflat)
  case reduction func args filter =>
    split at hwired
    next hfunc => exact cause_of_shaped (shapedBy_aggregate rfl hkind hfunc) (fun hargs => .aggregate rfl hfunc hargs) h
    next =>
      obtain ⟨name, rfl⟩ : ∃ name, f = .reduction name := by split at hwired <;> simp_all
      simp [layout] at h
  case intervalArithmetic op arg offset =>
    refine cause_of_shaped (shapedBy_offset rfl hkind) (fun hoffset => .offset rfl ?_) h
    exact fun unit hunit => hoffset ⟨unit, hunit⟩
  case timestampFromUnix arg unit =>
    obtain rfl : f = .timestampFromUnix := by split at hwired <;> simp_all
    obtain ⟨rfl, hunit⟩ := unixPieces_error (by simpa [layout] using h : unixPieces unit = .error error)
    exact .unavailable (.unixUnit rfl hunit)
  case stringFind arg substr start stop =>
    obtain rfl : f = .stringFind := by split at hwired <;> simp_all
    cases start with
    | some start =>
      obtain rfl : error = .notImplemented .findStart := by simpa [layout] using h
      exact .unavailable (.findStart rfl)
    | none =>
      cases stop with
      | some stop =>
        obtain rfl : error = .notImplemented .findEnd := by simpa [layout] using h
        exact .unavailable (.findEnd rfl)
      | none => simp [layout] at h
  case strftime arg format =>
    obtain rfl : f = .strftime := by split at hwired <;> simp_all
    exact .content (formatPieces_failsOnContent arg.dtype error (by simpa [layout] using h))
  all_goals
    split at hwired
    · simp only [layout] at h
      (repeat' split at h) <;> simp [Layout.constant] at h <;> exact .content (by rw [h]; rfl)
    · cases hwired

end Formatter

theorem render_bind_error {α β : Type} {x : Render α} {f : α → Render β} {ctx : Context} {error : SqlError}
    (h : (x >>= f) ctx = .error error) :
    x ctx = .error error ∨ ∃ a mid, x ctx = .ok (a, mid) ∧ f a mid = .error error := by
  cases hx : x ctx with
  | error other => exact .inl (by simpa [bind, StateT.bind, Except.bind, hx] using h)
  | ok p =>
    obtain ⟨a, mid⟩ := p
    exact .inr ⟨a, mid, rfl, by simpa [bind, StateT.bind, Except.bind, hx] using h⟩

namespace Target

variable {t : Target} {write : Expr → Render String} {ctx : Context} {error : SqlError}

theorem takeStep_error {s : Step} (h : t.takeStep write s ctx = .error error) :
    (∃ x, s.expr? = some x ∧ write x ctx = .error error) ∨
    (∃ name dtype, s = .parameter name dtype ∧ t.placeholder name dtype ctx = .error error) ∨ s = .fail error := by
  cases s with
  | operand x => exact .inl ⟨x, rfl, h⟩
  | nested x =>
    rcases render_bind_error h with h | ⟨text, mid, -, h⟩
    · exact .inl ⟨x, rfl, h⟩
    · cases h
  | parameter name dtype => exact .inr (.inl ⟨name, dtype, rfl, h⟩)
  | table name => cases h
  | fail other =>
    obtain rfl : other = error := Except.error.inj h
    exact .inr (.inr rfl)

theorem mapM_error {steps : List Step} (h : steps.mapM (t.takeStep write) ctx = .error error) :
    ∃ s ∈ steps, ∃ mid, t.takeStep write s mid = .error error := by
  induction steps generalizing ctx with
  | nil => cases h
  | cons s rest ih =>
    rw [List.mapM_cons] at h
    rcases render_bind_error h with h | ⟨text, mid, -, h⟩
    · exact ⟨s, by simp, ctx, h⟩
    · rcases render_bind_error h with h | ⟨texts, last, -, h⟩
      · obtain ⟨r, hr, hfail⟩ := ih h
        exact ⟨r, by simp [hr], hfail⟩
      · cases h

end Target

theorem Expr.IsFiller.kind {x : Expr} (h : x.IsFiller) : x.kind = .ifElse ∨ x.kind = .literal := by
  rcases h with ⟨cond, yes, no, hop⟩ | hop
  · exact .inl (by rw [Expr.kind, hop, Op.kind])
  · exact .inr (by rw [Expr.kind, hop, Op.kind])

theorem Cause.not_filler {params : Params} {x : Expr} {error : SqlError} (h : Cause params x error)
    (hnode : error.blamesNode) : ¬x.IsFiller := by
  intro hx
  have hother {op : Op Expr} (hop : x.op = op) : op.kind = .ifElse ∨ op.kind = .literal := hop ▸ hx.kind
  have hremoved (h : x.kind ∈ Formatter.removedKinds) : False := by
    rcases hx.kind with hk | hk <;> simp [hk, Formatter.removedKinds] at h
  cases h with
  | misshapen h hfault => cases h with
    | call hop _ => simpa [Op.kind] using hother hop
    | aggregate hop _ _ => simpa [Op.kind] using hother hop
    | offset hop _ => simpa [Op.kind] using hother hop
  | unregistered h =>
    rcases Formatter.unregistered_cases h with h | h
    · exact hremoved h
    · simpa [h] using hx.kind
  | unavailable h => cases h with
    | removed h => exact hremoved h
    | dayName hop _ => simpa [Op.kind] using hother hop
    | findStart hop => simpa [Op.kind] using hother hop
    | findEnd hop => simpa [Op.kind] using hother hop
    | unixUnit hop _ => simpa [Op.kind] using hother hop
  | unsupplied hop _ => simpa [Op.kind] using hother hop
  | content h => simp [h] at hnode

def Refused (x : Expr) : Prop :=
  ∀ f, Formatter.bigQuery.get? x.kind = some f → ∃ error, .fail error ∈ (f.layout x).steps

theorem Expr.Misshapen.refused {x : Expr} (h : x.Misshapen) : Refused x := by
  intro f hf
  have hwired := Formatter.bigQuery_wired hf
  have hrefused {P : Prop} (hshaped : Formatter.ShapedBy P x (f.layout x)) (hP : ¬P) :
      ∃ error, .fail error ∈ (f.layout x).steps := by
    cases hshaped with
    | accepted h _ => exact absurd h hP
    | refused _ _ hl => exact ⟨_, by rw [hl, Layout.fail_failure]⟩
  cases h with
  | @call func args hop hargs =>
    refine hrefused (Formatter.shapedBy_arity (a := func.arity) ?_ x) ?_
    · simpa [Formatter.wired, Expr.kind, hop, Op.kind] using hwired
    · simpa [Expr.operands, hop, Op.operands] using hargs
  | aggregate hop hfunc hargs => exact hrefused (Formatter.shapedBy_aggregate hop hwired hfunc) hargs
  | offset hop hoffset =>
    exact hrefused (Formatter.shapedBy_offset hop hwired) (not_exists.mpr hoffset)

theorem Expr.Unavailable.refused {x : Expr} {fault : FeatureFault} (h : x.Unavailable fault) : Refused x := by
  intro f hf
  have hwired := Formatter.bigQuery_wired hf
  cases h with
  | removed h =>
    rw [Formatter.get_bigQuery, if_pos h] at hf
    cases hf
  | dayName hop _ =>
    have hnone : Formatter.bigQuery.get? (.call .dayOfWeekName) = none := by
      rw [Formatter.get_lookupOrder]
      decide +kernel
    rw [Expr.kind, hop, Op.kind, hnone] at hf
    cases hf
  | findStart hop =>
    simp only [Formatter.wired, Expr.kind, hop, Op.kind] at hwired
    obtain rfl : f = .stringFind := by split at hwired <;> simp_all
    exact ⟨_, by simp only [Formatter.layout, hop, Layout.fail_failure]; rfl⟩
  | findEnd hop =>
    simp only [Formatter.wired, Expr.kind, hop, Op.kind] at hwired
    obtain rfl : f = .stringFind := by split at hwired <;> simp_all
    exact ⟨_, by simp only [Formatter.layout, hop, Layout.fail_failure]; rfl⟩
  | @unixUnit arg unit hop hunit =>
    simp only [Formatter.wired, Expr.kind, hop, Op.kind] at hwired
    obtain rfl : f = .timestampFromUnix := by split at hwired <;> simp_all
    refine ⟨.notImplemented (.unixUnit unit), ?_⟩
    simp only [Formatter.layout, hop, Layout.fail_checked]
    refine .inr ?_
    cases unit <;> simp [Sql.unixPieces] at hunit ⊢

namespace SqlError

-- errors that hold a type are left out, since equality of types is not decided
def isSame : SqlError → SqlError → Bool
  | .malformedNode kind (.argumentCount wanted found), .malformedNode kind' (.argumentCount wanted' found') =>
    kind == kind' && wanted == wanted' && found == found'
  | .notImplemented (.kind kind), .notImplemented (.kind kind') => kind == kind'
  | .missingParameter name, .missingParameter name' => name == name'
  | _, _ => false

theorem eq_of_isSame {error other : SqlError} (h : error.isSame other) : error = other := by
  unfold isSame at h
  split at h <;> simp_all

end SqlError

namespace Compiler

variable {naming : ParamNaming} {params : Params} {error : SqlError}

theorem placeholder_error {c : Compiler} {name : String} {dtype : DataType} {ctx : Context}
    (h : (c.target params).placeholder name dtype ctx = .error error) :
    error = .missingParameter name ∧ params.lookup name = none := by
  cases hv : params.lookup name with
  | none => simpa [target, hv, eq_comm] using h
  | some v => simp [placeholder_supplied hv] at h

theorem cause_of_renderWithin {n : Nat} {e : Expr} (hn : e.weight ≤ n) {ctx : Context}
    (h : ((bigQuery naming).target params).renderWithin n e ctx = .error error) :
    ∃ x, WrittenIn x e ∧ Cause params x error := by
  induction n generalizing e ctx with
  | zero =>
    have := e.weight_pos
    omega
  | succ n ih =>
    simp only [Target.renderWithin] at h
    cases hf : ((bigQuery naming).target params).formatters.get? e.kind with
    | none =>
      rw [hf] at h
      obtain rfl : .notImplemented (.kind e.kind) = error := Except.error.inj h
      exact ⟨e, .self e, .unregistered hf⟩
    | some f =>
      rw [hf] at h
      rcases render_bind_error h with h | ⟨texts, mid, -, h⟩
      · obtain ⟨s, hs, mid, hstep⟩ := Target.mapM_error h
        -- the cause lies in what the step writes, or it is the node's own
        rcases Target.takeStep_error hstep with ⟨x, hx, hwrite⟩ | ⟨name, dtype, rfl, hplace⟩ | rfl
        · have hmem : x ∈ (f.layout e).operands := List.mem_filterMap.mpr ⟨s, hs, hx⟩
          have hweight := f.weight_layout hmem
          obtain ⟨y, hy, hcause⟩ := ih (by omega) hwrite
          exact ⟨y, .operand hf hmem hy, hcause⟩
        · obtain ⟨rfl, hname⟩ := placeholder_error hplace
          exact ⟨e, .self e, .unsupplied (f.op_of_parameter hs) hname⟩
        · exact ⟨e, .self e, Formatter.cause_of_fail hf hs⟩
      · cases h

theorem error_of_compile {c : Compiler} {e : Expr} (h : c.compile e params = .error error) (hnode : error.blamesNode) :
    (c.target params).render (e.lower c.rules) .start = .error error := by
  cases hrun : (c.target params).render (e.lower c.rules) .start with
  | error other => simpa [compile, StateT.run, hrun, bind, Except.bind] using h
  | ok run =>
    obtain ⟨body, ctx⟩ := run
    obtain ⟨written, -, hctx⟩ := recorded_of_render hrun
    have hbind : ctx.bindAll params = .error error := by
      cases hbind : ctx.bindAll params with
      | error other => simpa [compile, StateT.run, hrun, hbind, bind, Except.bind] using h
      | ok bound => simp [compile, StateT.run, hrun, hbind, bind, Except.bind, pure, Except.pure] at h
    simp [Context.bindAll_failsOnContent hctx.supplied error hbind] at hnode

theorem cause_of_compile {e : Expr} (h : (bigQuery naming).compile e params = .error error) (hnode : error.blamesNode) :
    ∃ x ∈ (e.lower Rule.bigQuery).nodes, Cause params x error := by
  obtain ⟨x, hx, hcause⟩ := cause_of_renderWithin le_rfl (error_of_compile h hnode)
  -- nodes that are written without being nodes of the tree are those that stand for a condition of an aggregate
  rcases hx.mem_nodes with hx | hx
  · exact ⟨x, hx, hcause⟩
  · exact absurd hx (hcause.not_filler hnode)

theorem render_refused {x : Expr} (h : Refused x) (ctx : Context) :
    ∃ error, ((bigQuery naming).target params).render x ctx = .error error := by
  cases hrun : ((bigQuery naming).target params).render x ctx with
  | error error => exact ⟨error, rfl⟩
  | ok run =>
    obtain ⟨text, last⟩ := run
    rw [Target.render_eq] at hrun
    cases hf : ((bigQuery naming).target params).formatters.get? x.kind with
    | none =>
      rw [hf] at hrun
      cases hrun
    | some f =>
      rw [hf] at hrun
      obtain ⟨texts, mid, hsteps, -⟩ := render_bind_ok.mp hrun
      obtain ⟨error, herror⟩ := h f hf
      exact absurd herror (not_fail_of_mapM hsteps error)

theorem unavailable_of_unregistered {e x : Expr} (hx : x ∈ (e.lower Rule.bigQuery).nodes)
    (h : Formatter.bigQuery.get? x.kind = none) : x.Unavailable (.kind x.kind) := by
  rcases Formatter.unregistered_cases h with hkind | hkind
  · exact .removed hkind
  · have hnative := Expr.native_lower e x hx
    obtain ⟨op, dtype, label⟩ := x
    cases op <;> simp [Expr.kind, Op.kind] at hkind
    subst hkind
    refine .dayName rfl fun hargs => ?_
    obtain ⟨arg, rfl⟩ := List.length_eq_one_iff.mp hargs
    simp [Op.isForeign] at hnative

/-- Each error that blames a node has a node to blame. -/
theorem failures_have_causes (naming : ParamNaming) (e : Expr) (params : Params) :
    (∀ kind fault, (bigQuery naming).compile e params = .error (.malformedNode kind fault) →
      fault.isWiring = false ∧ ∃ x ∈ (e.lower Rule.bigQuery).nodes, x.kind = kind ∧ x.Misshapen) ∧
    (∀ fault, (bigQuery naming).compile e params = .error (.notImplemented fault) →
      ∃ x ∈ (e.lower Rule.bigQuery).nodes, x.Unavailable fault) ∧
    (∀ name, (bigQuery naming).compile e params = .error (.missingParameter name) →
      (∃ x ∈ e.nodes, x.op = .scalarParameter name) ∧ name ∉ params.map Prod.fst) ∧
    ∀ x, x.Misshapen ∨ (∃ fault, x.Unavailable fault) → ∀ ctx, ∃ error,
      ((bigQuery naming).target params).render x ctx = .error error := by
  refine ⟨?_, ?_, ?_, ?_⟩
  · intro kind fault h
    obtain ⟨x, hx, hcause⟩ := cause_of_compile h rfl
    cases hcause with
    | misshapen hshape hfault => exact ⟨hfault, x, hx, rfl, hshape⟩
    | content hnode => cases hnode
  · intro fault h
    obtain ⟨x, hx, hcause⟩ := cause_of_compile h rfl
    cases hcause with
    | unregistered hkind => exact ⟨x, hx, unavailable_of_unregistered hx hkind⟩
    | unavailable hfault => exact ⟨x, hx, hfault⟩
    | content hnode => cases hnode
  · intro name h
    obtain ⟨x, hx, hcause⟩ := cause_of_compile h rfl
    cases hcause with
    | unsupplied hop hname =>
      have hmentions : Mentions .declared (e.lower Rule.bigQuery) (.parameter name) :=
        mentions_of_node hx (.own (by simp [Expr.ownNames, hop]))
      refine ⟨Expr.mem_scalarParameters.mp (mem_scalarParameters_of_lower (c := bigQuery naming) hmentions), ?_⟩
      intro hkey
      obtain ⟨p, hp, rfl⟩ := List.mem_map.mp hkey
      simpa using List.lookup_eq_none_iff.mp hname p hp
    | content hnode => cases hnode
  · rintro x (h | ⟨fault, h⟩) ctx
    · exact render_refused h.refused ctx
    · exact render_refused h.refused ctx

def failsWith (c : Compiler) (e : Expr) (params : Params) (error : SqlError) : Bool :=
  match c.compile e params with
  | .ok _ => false
  | .error other => other.isSame error

theorem compile_of_failsWith {e : Expr} (h : (ordered naming).failsWith e params error) :
    (bigQuery naming).compile e params = .error error := by
  rw [compile_ordered]
  unfold failsWith at h
  split at h
  next => cases h
  next other hfails => rw [hfails, SqlError.eq_of_isSame h]

def shiftedSum (x : Expr) : Expr :=
  .reduction .sum [x.binary .add (.param "n" .int64)] none .int64

def lonelyDefault : Expr :=
  .call .ifNull [.column "x" none .int64] .int64

def initials : Expr :=
  .call .capitalize [.column "x" none .string] .string

theorem shiftedSums_blamed :
    ((bigQuery .declared).compile (shiftedSum lonelyDefault) [] =
        .error (.malformedNode (.call .ifNull) (.argumentCount 2 1)) ∧
      ∃ x ∈ ((shiftedSum lonelyDefault).lower Rule.bigQuery).nodes, x.kind = .call .ifNull ∧ x.Misshapen) ∧
    ((bigQuery .declared).compile (shiftedSum initials) [] = .error (.notImplemented (.kind (.call .capitalize))) ∧
      ∃ x ∈ ((shiftedSum initials).lower Rule.bigQuery).nodes, x.Unavailable (.kind (.call .capitalize))) ∧
    ((bigQuery .declared).compile (shiftedSum (.column "x" none .int64)) [] = .error (.missingParameter "n") ∧
      ∃ x ∈ (shiftedSum (.column "x" none .int64)).nodes, x.op = .scalarParameter "n") ∧
    lonelyDefault.Misshapen ∧
      ∃ error, ((bigQuery .declared).target []).render lonelyDefault .start = .error error := by
  have hdefault : (bigQuery .declared).compile (shiftedSum lonelyDefault) [] =
      .error (.malformedNode (.call .ifNull) (.argumentCount 2 1)) :=
    compile_of_failsWith (by decide +kernel)
  have hinitials : (bigQuery .declared).compile (shiftedSum initials) [] =
      .error (.notImplemented (.kind (.call .capitalize))) :=
    compile_of_failsWith (by decide +kernel)
  have hparameter : (bigQuery .declared).compile (shiftedSum (.column "x" none .int64)) [] =
      .error (.missingParameter "n") :=
    compile_of_failsWith (by decide +kernel)
  have hshape : lonelyDefault.Misshapen := .call rfl rfl
  refine ⟨⟨hdefault, ?_⟩, ⟨hinitials, ?_⟩, ⟨hparameter, ?_⟩, hshape, ?_⟩
  · exact ((failures_have_causes .declared _ []).1 _ _ hdefault).2
  · exact (failures_have_causes .declared _ []).2.1 _ hinitials
  · exact ((failures_have_causes .declared _ []).2.2.1 _ hparameter).1
  · exact (failures_have_causes .declared lonelyDefault []).2.2.2 _ (.inl hshape) .start

end Compiler

end BigQuerySql
