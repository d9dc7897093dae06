import BigQuerySql.Proofs.Lexis

namespace BigQuerySql

namespace Lexis

inductive Bracket where
  | round
  | square
  | conditional
deriving DecidableEq, Repr

def isWord (cs : List Char) (word : String) : Bool :=
  cs.map Char.toUpper == word.toList

namespace Token

def opening? : Token → Option Bracket
  | .symbol '(' => some .round
  | .symbol '[' => some .square
  | .word cs => if isWord cs "CASE" then some .conditional else none
  | _ => none

def closing? : Token → Option Bracket
  | .symbol ')' => some .round
  | .symbol ']' => some .square
  | .word cs => if isWord cs "END" then some .conditional else none
  | _ => none

def isOperator : Token → Bool
  | .symbol c => "+-*/%=<>!|&^~".toList.contains c
  | .word cs => ["AND", "OR", "NOT", "IS", "BETWEEN", "LIKE", "IN"].any (isWord cs)
  | _ => false

def separates : Token → Bool
  | .word cs => isOperator (.word cs) || ["UNION", "INTERSECT", "EXCEPT"].any (isWord cs)
  | t => t.isOperator

end Token

def enter (stack : List Bracket) (t : Token) : Option (List Bracket) :=
  match t.opening?, t.closing? with
  | some b, _ => some (b :: stack)
  | none, some b => if stack.head? = some b then some stack.tail else none
  | none, none => some stack

def walk : List Bracket → List Token → Option (List Bracket)
  | stack, [] => some stack
  | stack, t :: rest => (enter stack t).bind (walk · rest)

def shows : List Bracket → List Token → Bool
  | _, [] => false
  | stack, t :: rest => (stack.isEmpty && t.separates) || (enter stack t).any (shows · rest)

theorem walk_append (stack : List Bracket) (u v : List Token) :
    walk stack (u ++ v) = (walk stack u).bind (walk · v) := by
  induction u generalizing stack with
  | nil => rfl
  | cons t u ih =>
    simp only [List.cons_append, walk]
    cases enter stack t with
    | none => rfl
    | some s => exact ih s

theorem shows_append (stack : List Bracket) (u v : List Token) :
    shows stack (u ++ v) = (shows stack u || (walk stack u).any (shows · v)) := by
  induction u generalizing stack with
  | nil => simp [shows, walk]
  | cons t u ih =>
    simp only [List.cons_append, shows, walk]
    cases enter stack t with
    | none => simp
    | some s => simp [ih s, Bool.or_assoc]

theorem enter_frame {stack s : List Bracket} {t : Token} (h : enter stack t = some s)
    (extra : List Bracket) : enter (stack ++ extra) t = some (s ++ extra) := by
  unfold enter at h ⊢
  cases ho : t.opening? with
  | some b =>
    obtain rfl : b :: stack = s := by simpa [ho] using h
    rfl
  | none =>
    cases hc : t.closing? with
    | none =>
      obtain rfl : stack = s := by simpa [ho, hc] using h
      rfl
    | some b =>
      cases stack with
      | nil => simp [ho, hc] at h
      | cons b' rest =>
        obtain ⟨rfl, rfl⟩ : b' = b ∧ rest = s := by simpa [ho, hc] using h
        simp

theorem walk_frame {stack s : List Bracket} {ts : List Token} (h : walk stack ts = some s)
    (extra : List Bracket) : walk (stack ++ extra) ts = some (s ++ extra) := by
  induction ts generalizing stack with
  | nil =>
    obtain rfl : stack = s := by simpa [walk] using h
    rfl
  | cons t ts ih =>
    obtain ⟨mid, hmid, h⟩ := Option.bind_eq_some_iff.mp h
    simp only [walk, enter_frame hmid extra, Option.bind_some, ih h]

theorem shows_frame {stack s extra : List Bracket} {ts : List Token} (h : walk stack ts = some s)
    (hextra : extra ≠ []) : shows (stack ++ extra) ts = false := by
  induction ts generalizing stack with
  | nil => rfl
  | cons t ts ih =>
    obtain ⟨mid, hmid, h⟩ := Option.bind_eq_some_iff.mp h
    simp [shows, hextra, enter_frame hmid extra, ih h]

def Enclosed (ts : List Token) : Prop :=
  walk [] ts = some []

instance (ts : List Token) : Decidable (Enclosed ts) :=
  inferInstanceAs (Decidable (_ = _))

theorem Enclosed.walk_eq {ts : List Token} (h : Enclosed ts) (stack : List Bracket) :
    walk stack ts = some stack :=
  walk_frame h stack

theorem Enclosed.shows_inside {ts : List Token} (h : Enclosed ts) {stack : List Bracket}
    (hs : stack ≠ []) : shows stack ts = false :=
  shows_frame h hs

theorem Enclosed.append {u v : List Token} (hu : Enclosed u) (hv : Enclosed v) : Enclosed (u ++ v) := by
  rw [Enclosed, walk_append, hu.walk_eq]
  exact hv

theorem Enclosed.shows_append {u v : List Token} (hu : Enclosed u) :
    shows [] (u ++ v) = (shows [] u || shows [] v) := by
  rw [Lexis.shows_append, hu.walk_eq, Option.any_some]

/-- A text that can stand next to any operator: no operator shows in it, and it does not begin with a minus,
which after another one would begin a comment. -/
def selfDelimiting (text : String) : Bool :=
  match tokens? text.toList with
  | some ts => walk [] ts == some [] && !shows [] ts && text.toList.head? != some '-'
  | none => false

theorem shows_of_minus {cs : List Char} {ts : List Token} (h : tokens? cs = some ts)
    (hm : cs.head? = some '-') : shows [] ts = true := by
  obtain ⟨rest, rfl⟩ : ∃ rest, cs = '-' :: rest := by
    cases cs with
    | nil => simp at hm
    | cons c rest => exact ⟨rest, by simpa using hm⟩
  obtain ⟨last, -, rfl⟩ := Option.map_eq_some_iff.mp h
  have hstart : advance .blank '-' = (.blank, [.symbol '-']) := rfl
  rw [read_cons, hstart]
  rfl

theorem selfDelimiting_iff {text : String} {ts : List Token} (h : tokens? text.toList = some ts)
    (he : Enclosed ts) : selfDelimiting text = !shows [] ts := by
  have hwalk : (walk [] ts == some []) = true := beq_iff_eq.mpr he
  rw [selfDelimiting, h]
  simp only [hwalk, Bool.true_and]
  cases hs : shows [] ts with
  | true => rfl
  | false =>
    have hm : text.toList.head? ≠ some '-' := by
      intro hm
      simp [shows_of_minus h hm] at hs
    simpa using hm

def textTokens (s : String) : List Token :=
  (tokens? s.toList).getD []

def walkPieces : List Bracket → List Piece → Option (List Bracket)
  | stack, [] => some stack
  | stack, .text s :: rest => (walk stack (textTokens s)).bind (walkPieces · rest)
  | stack, .part _ :: rest => walkPieces stack rest

def showsPieces : List Bracket → List Piece → Bool
  | _, [] => false
  | stack, .text s :: rest =>
    shows stack (textTokens s) || (walk stack (textTokens s)).any (showsPieces · rest)
  | stack, .part _ :: rest => showsPieces stack rest

def outerParts : List Bracket → List Piece → List Nat
  | _, [] => []
  | stack, .text s :: rest => (walk stack (textTokens s)).toList.flatMap (outerParts · rest)
  | stack, .part i :: rest => if stack.isEmpty then i :: outerParts stack rest else outerParts stack rest

theorem walk_spell {parts : Nat → List Token} {pieces : List Piece}
    (h : ∀ i, .part i ∈ pieces → Enclosed (parts i)) (stack : List Bracket) :
    walk stack (pieces.flatMap (spell parts)) = walkPieces stack pieces := by
  induction pieces generalizing stack with
  | nil => rfl
  | cons p rest ih =>
    have hrest (stack : List Bracket) := ih (fun i hi => h i (.tail _ hi)) stack
    rw [List.flatMap_cons, walk_append]
    cases p with
    | text s =>
      rw [walkPieces, spell, textTokens]
      congr 1
      funext stack
      exact hrest stack
    | part i =>
      rw [walkPieces, spell, (h i (by simp)).walk_eq, Option.bind_some]
      exact hrest stack

theorem shows_spell {parts : Nat → List Token} {pieces : List Piece}
    (h : ∀ i, .part i ∈ pieces → Enclosed (parts i)) (stack : List Bracket) :
    shows stack (pieces.flatMap (spell parts)) =
      (showsPieces stack pieces || (outerParts stack pieces).any fun i => shows [] (parts i)) := by
  induction pieces generalizing stack with
  | nil => rfl
  | cons p rest ih =>
    have hrest (stack : List Bracket) := ih (fun i hi => h i (.tail _ hi)) stack
    rw [List.flatMap_cons, shows_append]
    cases p with
    | text s =>
      rw [showsPieces, outerParts, spell, ← textTokens]
      cases walk stack (textTokens s) with
      | none => simp
      | some mid => simp [hrest mid, Bool.or_assoc]
    | part i =>
      have hi := h i (by simp)
      rw [showsPieces, outerParts, spell, hi.walk_eq, Option.any_some, hrest stack]
      cases stack with
      | nil => simp [Bool.or_left_comm]
      | cons b stack => simp [hi.shows_inside]

/-- What the pieces of a text show outside their brackets: nothing, an operator, or only their first part. -/
inductive Openness where
  | sealed
  | operator
  | first
deriving DecidableEq, Repr

def openness (pieces : List Piece) : Option Openness :=
  if walkPieces [] pieces = some [] then
    if showsPieces [] pieces then some .operator
    else
      match outerParts [] pieces with
      | [] => some .sealed
      | [0] => some .first
      | _ => none
  else none

def Openness.shows (first : Bool) : Openness → Bool
  | .sealed => false
  | .operator => true
  | .first => first

theorem openness_spell {parts : Nat → List Token} {pieces : List Piece} {o : Openness}
    (h : ∀ i, .part i ∈ pieces → Enclosed (parts i)) (ho : openness pieces = some o) :
    Enclosed (pieces.flatMap (spell parts)) ∧
      shows [] (pieces.flatMap (spell parts)) = o.shows (shows [] (parts 0)) := by
  rw [Enclosed, walk_spell h, shows_spell h]
  unfold openness at ho
  split at ho
  next hwalk =>
    refine ⟨hwalk, ?_⟩
    split at ho
    next hshow =>
      obtain rfl : Openness.operator = o := by simpa using ho
      simp [hshow, Openness.shows]
    next hshow =>
      split at ho
      next hparts =>
        obtain rfl : Openness.sealed = o := by simpa using ho
        simp [hshow, hparts, Openness.shows]
      next hparts =>
        obtain rfl : Openness.first = o := by simpa using ho
        simp [hshow, hparts, Openness.shows]
      next => simp at ho
  next => simp at ho

instance (pieces : List Piece) : Decidable (Joined pieces) :=
  inferInstanceAs (Decidable (_ ∧ _))

theorem joined_text_cons {s : String} {ps : List Piece} (hs : readable (.text s))
    (he : endsBlank s.toList) (hp : Joined ps) : Joined (.text s :: ps) := by
  refine ⟨List.forall_mem_cons.mpr ⟨hs, hp.1⟩, List.isChain_cons.mpr ⟨fun q _ => ?_, hp.2⟩⟩
  exact meets_endsBlank he q

theorem joined_append_text {s : String} {ps qs : List Piece} (ho : opens s.toList) (hp : Joined ps)
    (hq : Joined (.text s :: qs)) : Joined (ps ++ .text s :: qs) := by
  refine ⟨fun p hmem => (List.mem_append.mp hmem).elim (hp.1 p) (hq.1 p),
    List.isChain_append.mpr ⟨hp.2, hq.2, fun p _ q hmem => ?_⟩⟩
  obtain rfl : Piece.text s = q := by simpa using hmem
  exact meets_opens p ho

theorem joined_single {s : String} (hs : readable (.text s)) : Joined [.text s] :=
  ⟨by simpa using hs, by simp⟩

theorem Joined.replace {ps qs : List Piece} {j : Nat} (h : Joined (ps ++ .part j :: qs)) {s : String}
    (hs : readable (.text s)) : Joined (ps ++ .text s :: qs) := by
  obtain ⟨hread, hchain⟩ := h
  obtain ⟨hps, hqs, hlast⟩ := List.isChain_append.mp hchain
  obtain ⟨hhead, hqs⟩ := List.isChain_cons.mp hqs
  refine ⟨fun p hmem => ?_, List.isChain_append.mpr ⟨hps, List.isChain_cons.mpr ⟨?_, hqs⟩, ?_⟩⟩
  · rcases List.mem_append.mp hmem with hmem | hmem
    · exact hread p (by simp [hmem])
    · rcases List.mem_cons.mp hmem with rfl | hmem
      · exact hs
      · exact hread p (by simp [hmem])
  · intro q hq
    have hpart := hhead q hq
    cases q with
    | text r => exact meets_opens _ hpart
    | part i => simp [meets] at hpart
  · intro p hp q hq
    obtain rfl : Piece.text s = q := by simpa using hq
    have hpart := hlast p hp (.part j) (by simp)
    cases p with
    | text r => exact meets_endsBlank hpart _
    | part i => simp [meets] at hpart

theorem walkPieces_append (stack : List Bracket) (ps qs : List Piece) :
    walkPieces stack (ps ++ qs) = (walkPieces stack ps).bind (walkPieces · qs) := by
  induction ps generalizing stack with
  | nil => rfl
  | cons p ps ih =>
    cases p with
    | text s =>
      simp only [List.cons_append, walkPieces]
      cases walk stack (textTokens s) with
      | none => rfl
      | some mid => exact ih mid
    | part i => exact ih stack

theorem showsPieces_append (stack : List Bracket) (ps qs : List Piece) :
    showsPieces stack (ps ++ qs) =
      (showsPieces stack ps || (walkPieces stack ps).any (showsPieces · qs)) := by
  induction ps generalizing stack with
  | nil => simp [showsPieces, walkPieces]
  | cons p ps ih =>
    cases p with
    | text s =>
      simp only [List.cons_append, showsPieces, walkPieces]
      cases walk stack (textTokens s) with
      | none => simp
      | some mid => simp [ih mid, Bool.or_assoc]
    | part i => exact ih stack

theorem outerParts_append (stack : List Bracket) (ps qs : List Piece) :
    outerParts stack (ps ++ qs) =
      outerParts stack ps ++ (walkPieces stack ps).toList.flatMap (outerParts · qs) := by
  induction ps generalizing stack with
  | nil => simp [outerParts, walkPieces]
  | cons p ps ih =>
    cases p with
    | text s =>
      simp only [List.cons_append, outerParts, walkPieces]
      cases walk stack (textTokens s) with
      | none => simp
      | some mid => simp [ih mid]
    | part i =>
      simp only [List.cons_append, outerParts, walkPieces, ih stack]
      split <;> simp

theorem openness_sealed {pieces : List Piece} :
    openness pieces = some .sealed ↔
      walkPieces [] pieces = some [] ∧ showsPieces [] pieces = false ∧ outerParts [] pieces = [] := by
  unfold openness
  split
  next hwalk =>
    split
    next hshow => simp [hshow]
    next hshow =>
      split
      next hparts => simp [hwalk, hshow, hparts]
      next hparts => simp [hparts]
      next hparts _ => simpa using fun _ _ => hparts
  next hwalk => simp [hwalk]

theorem openness_replace {ps qs : List Piece} {j : Nat} (h : openness (ps ++ .part j :: qs) = some .sealed)
    {s : String} (hs : Enclosed (textTokens s)) (hq : shows [] (textTokens s) = false) :
    openness (ps ++ .text s :: qs) = some .sealed := by
  obtain ⟨hwalk, hshow, hparts⟩ := openness_sealed.mp h
  rw [walkPieces_append] at hwalk
  obtain ⟨stack, hps, hwalk⟩ := Option.bind_eq_some_iff.mp hwalk
  rw [showsPieces_append, hps, Option.any_some, Bool.or_eq_false_iff] at hshow
  rw [outerParts_append, hps] at hparts
  have hquiet : shows stack (textTokens s) = false := by
    cases stack with
    | nil => exact hq
    | cons b stack => exact hs.shows_inside (by simp)
  refine openness_sealed.mpr ⟨?_, ?_, ?_⟩
  · rw [walkPieces_append, hps, Option.bind_some, walkPieces, hs.walk_eq, Option.bind_some]
    exact hwalk
  · rw [showsPieces_append, hps, Option.any_some, showsPieces, hs.walk_eq, Option.any_some, hquiet,
      hshow.1]
    exact hshow.2
  · cases stack with
    | nil => simp [outerParts] at hparts
    | cons b stack => simpa [outerParts_append, hps, outerParts, hs.walk_eq] using hparts

def wraps (before after : String) : Bool :=
  readable (.text before) && readable (.text after) && endsBlank before.toList && opens after.toList &&
    !shows [] (textTokens before) &&
    match walk [] (textTokens before) with
    | some (b :: stack) =>
      walk (b :: stack) (textTokens after) == some [] && !shows (b :: stack) (textTokens after)
    | _ => false

def TextsEnclosed (ps : List Piece) : Prop :=
  ∀ s, .text s ∈ ps → Enclosed (textTokens s)

theorem TextsEnclosed.survey {ps : List Piece} (h : TextsEnclosed ps) {stack : List Bracket} (hs : stack ≠ []) :
    walkPieces stack ps = some stack ∧ showsPieces stack ps = false ∧ outerParts stack ps = [] := by
  induction ps with
  | nil => exact ⟨rfl, rfl, rfl⟩
  | cons p ps ih =>
    have hrest := ih fun s hmem => h s (.tail _ hmem)
    cases p with
    | text s =>
      have henc := h s (by simp)
      simpa [walkPieces, showsPieces, outerParts, henc.walk_eq, henc.shows_inside hs] using hrest
    | part i => simpa [walkPieces, showsPieces, outerParts, hs] using hrest

theorem wrapped_sealed {before after : String} {ps : List Piece} (h : wraps before after) (hp : TextsEnclosed ps) :
    openness (.text before :: (ps ++ [Piece.text after])) = some .sealed := by
  simp only [wraps, Bool.and_eq_true, Bool.not_eq_true'] at h
  obtain ⟨⟨-, hquiet⟩, hwrap⟩ := h
  split at hwrap
  next b stack hwalk =>
    obtain ⟨hclose, hend⟩ : walk (b :: stack) (textTokens after) = some [] ∧
        shows (b :: stack) (textTokens after) = false := by simpa using hwrap
    obtain ⟨hw, hs, ho⟩ := hp.survey (List.cons_ne_nil b stack)
    refine openness_sealed.mpr ⟨?_, ?_, ?_⟩
    · simp [walkPieces, hwalk, walkPieces_append, hw, hclose]
    · simp [showsPieces, hwalk, hquiet, showsPieces_append, hs, hw, hend]
    · simp [outerParts, hwalk, outerParts_append, ho, hw, hclose]
  next => simp at hwrap

theorem wrapped_joined {before after : String} {ps : List Piece} (h : wraps before after) (hp : Joined ps) :
    Joined (.text before :: (ps ++ [Piece.text after])) := by
  simp only [wraps, Bool.and_eq_true] at h
  obtain ⟨⟨⟨⟨⟨hb, ha⟩, hblank⟩, hopens⟩, -⟩, -⟩ := h
  exact joined_text_cons hb hblank (joined_append_text hopens hp (joined_single ha))

end Lexis

end BigQuerySql
