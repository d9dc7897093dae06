import BigQuerySql.Proofs.Shapes

namespace BigQuerySql

inductive Side where
  | left | right
deriving DecidableEq, Repr

/-- One way down goes to the left where it parts from another one. -/
def LeftOf (p q : List Side) : Prop :=
  ∃ place before after, p = place ++ .left :: before ∧ q = place ++ .right :: after

theorem leftOf_cons {side : Side} {p q : List Side} (h : LeftOf p q) : LeftOf (side :: p) (side :: q) := by
  obtain ⟨place, before, after, rfl, rfl⟩ := h
  exact ⟨side :: place, before, after, rfl, rfl⟩

namespace Expr

def operandOn? (kind : SetOpKind) (side : Side) (e : Expr) : Option Expr :=
  match e.op with
  | .setOp k left right _ =>
    if k = kind then
      match side with
      | .left => some left
      | .right => some right
    else none
  | _ => none

/-- What stands at the end of a way down through set operations of a kind. -/
def standing? (kind : SetOpKind) : Expr → List Side → Option Expr
  | e, [] => some e
  | e, side :: place => (e.operandOn? kind side).bind fun x => x.standing? kind place

def Wordless (kind : SetOpKind) (e : Expr) : Prop :=
  (kind = .intersection ∨ kind = .difference) ∧
    ∃ place left right dtype label, e.standing? kind place = some ⟨.setOp kind left right false, dtype, label⟩

section Standing

variable {kind : SetOpKind} {left right : Expr} {distinct : Bool} {dtype : DataType} {label : Option String}

theorem standing_left (place : List Side) :
    (Expr.mk (.setOp kind left right distinct) dtype label).standing? kind (.left :: place) =
      left.standing? kind place := by
  simp [standing?, operandOn?]

theorem standing_right (place : List Side) :
    (Expr.mk (.setOp kind left right distinct) dtype label).standing? kind (.right :: place) =
      right.standing? kind place := by
  simp [standing?, operandOn?]

theorem standing_other {e : Expr} (h : e.kind ≠ .setOp kind) (side : Side) (place : List Side) :
    e.standing? kind (side :: place) = none := by
  obtain ⟨op, dtype, label⟩ := e
  cases op with
  | setOp k left right distinct =>
    have hk : k ≠ kind := fun hk => h (by rw [← hk]; rfl)
    simp [standing?, operandOn?, hk]
  | _ => rfl

theorem not_wordless_other {e : Expr} (h : e.kind ≠ .setOp kind) : ¬e.Wordless kind := by
  rintro ⟨-, place, left, right, dtype, label, hstanding⟩
  cases place with
  | nil =>
    obtain rfl := Option.some.inj hstanding
    exact h rfl
  | cons side place => simp [standing_other h] at hstanding

theorem wordless_same :
    (Expr.mk (.setOp kind left right distinct) dtype label).Wordless kind ↔
      left.Wordless kind ∨ (kind = .intersection ∨ kind = .difference) ∧ distinct = false ∨ right.Wordless kind := by
  constructor
  · rintro ⟨hkind, place, l, r, t, n, hstanding⟩
    match place with
    | [] =>
      obtain ⟨⟨-, -, -, rfl⟩, -⟩ : (kind = kind ∧ left = l ∧ right = r ∧ distinct = false) ∧ dtype = t ∧ label = n := by
        simpa [standing?] using hstanding
      exact .inr (.inl ⟨hkind, rfl⟩)
    | .left :: place => exact .inl ⟨hkind, place, l, r, t, n, standing_left place ▸ hstanding⟩
    | .right :: place => exact .inr (.inr ⟨hkind, place, l, r, t, n, standing_right place ▸ hstanding⟩)
  · rintro (⟨hkind, place, l, r, t, n, h⟩ | ⟨hkind, rfl⟩ | ⟨hkind, place, l, r, t, n, h⟩)
    · exact ⟨hkind, .left :: place, l, r, t, n, (standing_left place).trans h⟩
    · exact ⟨hkind, [], left, right, dtype, label, rfl⟩
    · exact ⟨hkind, .right :: place, l, r, t, n, (standing_right place).trans h⟩

end Standing

end Expr

namespace Sql

theorem isOk_setKeyword (kind : SetOpKind) (distinct : Bool) :
    (setKeyword kind distinct).isOk = true ↔ ¬((kind = .intersection ∨ kind = .difference) ∧ distinct = false) := by
  cases kind <;> cases distinct <;> simp [setKeyword, Except.isOk, Except.toBool]

theorem isOk_flatten_same (kind : SetOpKind) (left right : Expr) (distinct : Bool) (dtype : DataType)
    (label : Option String) :
    (flattenSetOp kind ⟨.setOp kind left right distinct, dtype, label⟩).isOk =
      ((flattenSetOp kind left).isOk && (setKeyword kind distinct).isOk && (flattenSetOp kind right).isOk) := by
  rw [flatten_same]
  cases flattenSetOp kind left with
  | error error => rfl
  | ok chain =>
    cases setKeyword kind distinct with
    | error error => rfl
    | ok word =>
      cases flattenSetOp kind right with
      | error error => rfl
      | ok chain => rfl

theorem isOk_flatten_iff (kind : SetOpKind) (e : Expr) : (flattenSetOp kind e).isOk = true ↔ ¬e.Wordless kind := by
  induction e using Expr.induction_on with
  | step e ih =>
    by_cases hk : e.kind = .setOp kind
    · obtain ⟨op, dtype, label⟩ := e
      cases op with
      | setOp k left right distinct =>
        obtain rfl : k = kind := by simpa [Expr.kind, Op.kind] using hk
        have hleft := ih left List.mem_cons_self
        have hright := ih right (List.mem_cons_of_mem _ List.mem_cons_self)
        rw [isOk_flatten_same, Expr.wordless_same, Bool.and_eq_true, Bool.and_eq_true, hleft, hright, isOk_setKeyword,
          not_or, not_or, and_assoc]
      | _ => simp [Expr.kind, Op.kind] at hk
    · rw [flatten_other hk]
      exact iff_of_true rfl (Expr.not_wordless_other hk)

/-- The ways to two neighbours among the places part at an operation with a given word. -/
def JoinsAt (kind : SetOpKind) (e : Expr) (places : List (List Side)) (i : Nat) (word : String) : Prop :=
  ∃ place before after left right distinct dtype label,
    places[i]? = some (place ++ .left :: before) ∧ places[i + 1]? = some (place ++ .right :: after) ∧
      e.standing? kind place = some ⟨.setOp kind left right distinct, dtype, label⟩ ∧
      setKeyword kind distinct = .ok word

/-- What an expression is taken apart into, with the places of the parts: the ends of all ways down through operations
of the kind, from left to right. -/
structure Chained (kind : SetOpKind) (e : Expr) (places : List (List Side)) (parts : List Expr)
    (words : List String) : Prop where
  complete : ∀ place, place ∈ places ↔ ∃ x, e.standing? kind place = some x ∧ x.kind ≠ .setOp kind
  ordered : places.Pairwise LeftOf
  standing : places.map (e.standing? kind) = parts.map some
  length : parts.length = words.length + 1
  joined : ∀ i word, words[i]? = some word → JoinsAt kind e places i word

theorem Chained.length_places {kind : SetOpKind} {e : Expr} {places : List (List Side)} {parts : List Expr}
    {words : List String} (h : Chained kind e places parts words) : places.length = words.length + 1 := by
  have hlength := congrArg List.length h.standing
  rw [List.length_map, List.length_map] at hlength
  exact hlength.trans h.length

theorem chained_other {kind : SetOpKind} {e : Expr} (h : e.kind ≠ .setOp kind) : Chained kind e [[]] [e] [] where
  complete place := by
    cases place with
    | nil => simp [Expr.standing?, h]
    | cons side place => simp [Expr.standing_other h]
  ordered := List.pairwise_singleton ..
  standing := rfl
  length := rfl
  joined i word hword := by simp at hword

section Same

variable {kind : SetOpKind} {left right : Expr} {distinct : Bool} {dtype : DataType} {label : Option String}
  {places lplaces rplaces : List (List Side)} {i : Nat} {word : String}

theorem joinsAt_left (h : JoinsAt kind left lplaces i word) :
    JoinsAt kind ⟨.setOp kind left right distinct, dtype, label⟩ (lplaces.map (Side.left :: ·) ++ places) i word := by
  obtain ⟨place, before, after, l, r, d, t, n, hfirst, hsecond, hstanding, hword⟩ := h
  have hget {j : Nat} {p : List Side} (hp : lplaces[j]? = some p) :
      (lplaces.map (Side.left :: ·) ++ places)[j]? = some (.left :: p) := by
    obtain ⟨hj, -⟩ := List.getElem?_eq_some_iff.mp hp
    rw [List.getElem?_append_left (by simpa using hj), List.getElem?_map, hp]
    rfl
  exact ⟨.left :: place, before, after, l, r, d, t, n, hget hfirst, hget hsecond,
    (Expr.standing_left place).trans hstanding, hword⟩

theorem joinsAt_right (h : JoinsAt kind right rplaces i word) :
    JoinsAt kind ⟨.setOp kind left right distinct, dtype, label⟩ (places ++ rplaces.map (Side.right :: ·))
      (places.length + i) word := by
  obtain ⟨place, before, after, l, r, d, t, n, hfirst, hsecond, hstanding, hword⟩ := h
  have hget {j : Nat} {p : List Side} (hp : rplaces[j]? = some p) :
      (places ++ rplaces.map (Side.right :: ·))[places.length + j]? = some (.right :: p) := by
    rw [List.getElem?_append_right (Nat.le_add_right ..), Nat.add_sub_cancel_left, List.getElem?_map, hp]
    rfl
  exact ⟨.right :: place, before, after, l, r, d, t, n, hget hfirst, hget hsecond,
    (Expr.standing_right place).trans hstanding, hword⟩

theorem joinsAt_top (hword : setKeyword kind distinct = .ok word) (hleft : lplaces.length = i + 1)
    (hright : rplaces ≠ []) :
    JoinsAt kind ⟨.setOp kind left right distinct, dtype, label⟩
      (lplaces.map (Side.left :: ·) ++ rplaces.map (Side.right :: ·)) i word := by
  obtain ⟨before, hbefore⟩ : ∃ p, lplaces[i]? = some p := ⟨_, List.getElem?_eq_getElem (by omega)⟩
  obtain ⟨after, rest, rfl⟩ := List.exists_cons_of_ne_nil hright
  refine ⟨[], before, after, left, right, distinct, dtype, label, ?_, ?_, rfl, hword⟩
  · rw [List.getElem?_append_left (by rw [List.length_map]; omega), List.getElem?_map, hbefore]
    rfl
  · rw [List.getElem?_append_right (by rw [List.length_map, hleft]), List.length_map, hleft, Nat.sub_self]
    rfl

theorem chained_same {lparts rparts : List Expr} {lwords rwords : List String}
    (hleft : Chained kind left lplaces lparts lwords) (hword : setKeyword kind distinct = .ok word)
    (hright : Chained kind right rplaces rparts rwords) :
    Chained kind ⟨.setOp kind left right distinct, dtype, label⟩
      (lplaces.map (Side.left :: ·) ++ rplaces.map (Side.right :: ·)) (lparts ++ rparts) (lwords ++ word :: rwords) where
  complete place := by
    match place with
    | [] => simp [Expr.standing?, Expr.kind, Op.kind]
    | .left :: place => simp [Expr.standing_left, hleft.complete]
    | .right :: place => simp [Expr.standing_right, hright.complete]
  ordered := by
    rw [List.pairwise_append, List.pairwise_map, List.pairwise_map]
    refine ⟨hleft.ordered.imp leftOf_cons, hright.ordered.imp leftOf_cons, ?_⟩
    intro p hp q hq
    obtain ⟨before, -, rfl⟩ := List.mem_map.mp hp
    obtain ⟨after, -, rfl⟩ := List.mem_map.mp hq
    exact ⟨[], before, after, rfl, rfl⟩
  standing := by
    have hl := hleft.standing
    have hr := hright.standing
    simp [Function.comp_def, Expr.standing_left, Expr.standing_right, hl, hr]
  length := by
    have hl := hleft.length
    have hr := hright.length
    simp only [List.length_append, List.length_cons]
    omega
  joined i w hw := by
    have hlength := hleft.length_places
    rcases Nat.lt_trichotomy i lwords.length with hi | rfl | hi
    · rw [List.getElem?_append_left hi] at hw
      exact joinsAt_left (hleft.joined i w hw)
    · obtain rfl : word = w := by simpa using hw
      exact joinsAt_top hword hlength (List.ne_nil_of_length_eq_add_one hright.length_places)
    · obtain ⟨j, rfl⟩ : ∃ j, i = (lplaces.map (Side.left :: ·)).length + j :=
        ⟨i - lwords.length - 1, by rw [List.length_map]; omega⟩
      refine joinsAt_right (hright.joined j w ?_)
      rw [List.length_map, hlength, List.getElem?_append_right (by omega), Nat.add_assoc, Nat.add_sub_cancel_left,
        Nat.add_comm 1 j, List.getElem?_cons_succ] at hw
      exact hw

end Same

theorem chained_of_flatten {kind : SetOpKind} {e : Expr} :
    ∀ {parts : List Expr} {words : List String}, flattenSetOp kind e = .ok (parts, words) →
      ∃ places, Chained kind e places parts words := by
  induction e using Expr.induction_on with
  | step e ih =>
    intro parts words h
    rcases flatten_cases h with ⟨hk, rfl, rfl⟩ |
      ⟨left, right, distinct, dtype, label, lp, lw, word, rp, rw, rfl, hl, hword, hr, rfl, rfl⟩
    · exact ⟨[[]], chained_other hk⟩
    · obtain ⟨lplaces, hleft⟩ := ih left List.mem_cons_self hl
      obtain ⟨rplaces, hright⟩ := ih right (List.mem_cons_of_mem _ List.mem_cons_self) hr
      exact ⟨_, chained_same hleft hword hright⟩

def numberedPieces? (words : List String) : Nat → List Expr → Option (List Piece)
  | _, [] => some []
  | 0, e :: rest => do return chainPart 0 e ++ (← numberedPieces? words 1 rest)
  | i + 1, e :: rest => do
    let word ← words[i]?
    return .text ("\n" ++ word ++ "\n") :: chainPart (i + 1) e ++ (← numberedPieces? words (i + 2) rest)

theorem numberedPieces_rest (front : List String) {words : List String} (e : Expr) {rest : List Expr}
    (h : rest.length = words.length) :
    (numberedPieces? (front ++ words) (front.length + 1) rest).map (chainPart front.length e ++ ·) =
      some (chainPieces front.length (e :: rest) words) := by
  induction rest generalizing e front words with
  | nil => simp [numberedPieces?, chainPieces]
  | cons f rest ih =>
    obtain ⟨word, words, rfl⟩ := List.exists_cons_of_length_eq_add_one h.symm
    have hrest := ih (front ++ [word]) f (Nat.succ.inj h)
    simp only [List.append_assoc, List.singleton_append, List.length_append, List.length_singleton] at hrest
    obtain ⟨pieces, hpieces, htail⟩ := Option.map_eq_some_iff.mp hrest
    have hword : (front ++ word :: words)[front.length]? = some word := by simp
    have hchain : chainPieces front.length (e :: f :: rest) (word :: words) = chainPart front.length e ++
      .text ("\n" ++ word ++ "\n") :: chainPieces (front.length + 1) (f :: rest) words := rfl
    rw [numberedPieces?, hword, hpieces, hchain, ← htail]
    rfl

theorem numberedPieces_eq {parts : List Expr} {words : List String} (h : parts.length = words.length + 1) :
    numberedPieces? words 0 parts = some (chainPieces 0 parts words) := by
  obtain ⟨e, rest, rfl⟩ := List.exists_cons_of_length_eq_add_one h
  have hrest := numberedPieces_rest [] e (Nat.succ.inj h)
  simp only [List.nil_append, List.length_nil, Nat.zero_add] at hrest
  obtain ⟨pieces, hpieces, htail⟩ := Option.map_eq_some_iff.mp hrest
  rw [numberedPieces?, hpieces, ← htail]
  rfl

theorem pieces_setOp {kind : SetOpKind} {e : Expr} {parts : List Expr} {words : List String}
    (hk : e.kind = .setOp kind) (h : flattenSetOp kind e = .ok (parts, words)) :
    (Formatter.setOp.layout e).pieces = chainPieces 0 parts words := by
  obtain ⟨op, dtype, label⟩ := e
  cases op with
  | setOp k left right distinct =>
    obtain rfl : k = kind := by simpa [Expr.kind, Op.kind] using hk
    simp only [Formatter.layout, h]
  | _ => simp [Expr.kind, Op.kind] at hk

/-- An expression is refused just if the tree of one kind at its top keeps duplicates that have no word. Any other is
taken apart completely, and where it is written every word that is looked up between two parts is there. -/
theorem set_operations_flatten_completely (kind : SetOpKind) (e : Expr) :
    ((∃ error, flattenSetOp kind e = .error error) ↔ e.Wordless kind) ∧
      (¬e.Wordless kind → ∃ places parts words, flattenSetOp kind e = .ok (parts, words) ∧
        Chained kind e places parts words ∧
        (e.kind = .setOp kind → numberedPieces? words 0 parts = some (Formatter.setOp.layout e).pieces)) := by
  have hok := isOk_flatten_iff kind e
  cases hflat : flattenSetOp kind e with
  | error error =>
    have hwordless : e.Wordless kind := by
      by_contra hne
      rw [hflat] at hok
      exact Bool.false_ne_true (hok.mpr hne)
    exact ⟨iff_of_true ⟨error, rfl⟩ hwordless, fun hne => absurd hwordless hne⟩
  | ok chain =>
    obtain ⟨parts, words⟩ := chain
    have hne : ¬e.Wordless kind := hok.mp (by rw [hflat]; rfl)
    obtain ⟨places, hchained⟩ := chained_of_flatten hflat
    refine ⟨iff_of_false (by simp) hne, fun _ => ⟨places, parts, words, rfl, hchained, fun hk => ?_⟩⟩
    rw [pieces_setOp hk hflat]
    exact numberedPieces_eq hchained.length

def rowsOf (name : String) : Expr :=
  Expr.table name ⟨[]⟩

def mixedUnions : Expr :=
  ((rowsOf "a").union (rowsOf "b") false).union ((rowsOf "c").setOp .intersection (rowsOf "d") true) true

theorem mixedUnions_flatten :
    ¬mixedUnions.Wordless .union ∧
      ∃ places, Chained .union mixedUnions places
        [rowsOf "a", rowsOf "b", (rowsOf "c").setOp .intersection (rowsOf "d") true] ["UNION ALL", "UNION DISTINCT"] := by
  have hunion : ¬mixedUnions.Wordless .union := by simp [Expr.Wordless]
  obtain ⟨places, parts, words, hflat, hchained, -⟩ := (set_operations_flatten_completely .union mixedUnions).2 hunion
  have hparts : flattenSetOp .union mixedUnions =
    .ok ([rowsOf "a", rowsOf "b", (rowsOf "c").setOp .intersection (rowsOf "d") true], ["UNION ALL", "UNION DISTINCT"]) := rfl
  obtain ⟨rfl, rfl⟩ := Prod.mk.inj (Except.ok.inj (hparts.symm.trans hflat))
  exact ⟨hunion, places, hchained⟩

end Sql

end BigQuerySql
