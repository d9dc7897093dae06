import BigQuerySql.Proofs.Nesting
import BigQuerySql.Proofs.Rendering

namespace BigQuerySql

open Lexis

namespace Lexis

def trailingBackslashes (cs : List Char) : Nat :=
  (cs.reverse.takeWhile (· == '\\')).length

theorem trailingBackslashes_append (cs : List Char) (c : Char) :
    trailingBackslashes (cs ++ [c]) = if c = '\\' then trailingBackslashes cs + 1 else 0 := by
  by_cases hc : c = '\\' <;> simp [trailingBackslashes, hc]

theorem read_raw_body {cs : List Char} (h : ∀ c ∈ cs, c ≠ '\'' ∧ c ≠ '\n' ∧ c ≠ '\r') :
    read (.quoted .single) cs =
      (if trailingBackslashes cs % 2 = 1 then .escaped .single else .quoted .single, []) := by
  induction cs using List.reverseRecOn with
  | nil => rfl
  | append_singleton cs c ih =>
    obtain ⟨hq, hn, hr⟩ := h c (by simp)
    rw [read_append, ih fun d hd => h d (by simp [hd]), trailingBackslashes_append]
    by_cases hc : c = '\\'
    · by_cases hodd : trailingBackslashes cs % 2 = 1
      · have hnext : (trailingBackslashes cs + 1) % 2 = 0 := by omega
        simp [hc, hodd, hnext, read_cons, advance]
      · have hnext : (trailingBackslashes cs + 1) % 2 = 1 := by omega
        simp [hc, hodd, hnext, read_cons, advance, Quote.char]
    · by_cases hodd : trailingBackslashes cs % 2 = 1
      · simp [hc, hodd, read_cons, advance]
      · simp [hc, hodd, hq, hn, hr, read_cons, advance, Quote.char]

theorem tokens_rawString {s raw : String} (h : Sql.rawString? s = some raw) :
    tokens? raw.toList = some [.text] := by
  simp only [Sql.rawString?] at h
  split at h
  next => simp at h
  next hgood =>
    obtain rfl : "r'" ++ s ++ "'" = raw := by simpa using h
    simp only [Bool.or_eq_true, List.any_eq_true, beq_iff_eq, not_or, not_exists, not_and] at hgood
    obtain ⟨hchars, heven⟩ := hgood
    replace heven : ¬trailingBackslashes s.toList % 2 = 1 := heven
    have hbody : ∀ c ∈ s.toList, c ≠ '\'' ∧ c ≠ '\n' ∧ c ≠ '\r' := by
      intro c hc
      simpa [not_or, and_assoc] using hchars c hc
    have hopen : read .blank "r'".toList = (.opened .single, []) := by decide
    have hclose : read (.quoted .single) "'".toList = (.blank, [.text]) := by decide
    rw [String.toList_append, String.toList_append, List.append_assoc, tokens?, read_append, hopen]
    cases hs : s.toList with
    | nil => rfl
    | cons c rest =>
      have hfirst : read (.opened .single) (c :: rest) = read (.quoted .single) (c :: rest) := by
        have hc := (hbody c (by simp [hs])).1
        simp [read_cons, advance, Quote.char, hc]
      rw [hs] at hbody heven
      rw [read_append, hfirst, read_raw_body hbody, if_neg heven, hclose]
      rfl

end Lexis

namespace Layout

theorem parts_succ (separator : String) (first n : Nat) :
    parts separator first (n + 2) = .part first :: .text separator :: parts separator (first + 1) (n + 1) := by
  have hmap (m : Nat) : (List.range (m + 1)).map (fun i => Piece.part (first + i)) =
      .part first :: (List.range m).map fun i => Piece.part (first + 1 + i) := by
    rw [List.range_succ_eq_map, List.map_cons, List.map_map]
    congr 1
    refine List.map_congr_left fun i _ => ?_
    simp only [Function.comp_apply, Nat.succ_eq_add_one]
    congr 1
    omega
  rw [parts, parts, hmap (n + 1), List.range_succ_eq_map, List.map_cons, List.intersperse_cons_cons]

theorem mem_parts {separator : String} {first n i : Nat} :
    .part i ∈ parts separator first n ↔ first ≤ i ∧ i < first + n := by
  induction n generalizing first with
  | zero => simp [parts]
  | succ n ih =>
    cases n with
    | zero =>
      simp [parts]
      omega
    | succ n =>
      rw [parts_succ, List.mem_cons, List.mem_cons, ih]
      simp
      omega

theorem text_mem_parts {separator s : String} {first n : Nat} (h : .text s ∈ parts separator first n) :
    s = separator := by
  induction n generalizing first with
  | zero => simp [parts] at h
  | succ n ih =>
    cases n with
    | zero => simp [parts] at h
    | succ n =>
      rw [parts_succ, List.mem_cons, List.mem_cons] at h
      rcases h with h | h | h
      · simp at h
      · simpa using h
      · exact ih h

theorem textsEnclosed_parts (first n : Nat) : TextsEnclosed (parts ", " first n) := by
  intro s hs
  rw [text_mem_parts hs]
  decide

theorem joined_parts (first n : Nat) : Joined (parts ", " first n) := by
  induction n generalizing first with
  | zero => exact ⟨by simp [parts], by simp [parts]⟩
  | succ n ih =>
    cases n with
    | zero => exact ⟨by simp [parts, readable], by simp [parts]⟩
    | succ n =>
      have hpart : Joined [.part first] := ⟨by simp [readable], by simp⟩
      rw [parts_succ]
      exact joined_separated hpart (ih (first + 1)) (by decide) (by decide) (by decide)

end Layout

namespace Kind

def openness : Kind → Openness
  | .binary .divide | .binary .modulus | .binary .power | .binary .floorDivide => .sealed
  | .binary _ => .operator
  | .call .negate | .call .not | .call .isNull | .call .notNull | .call .between
  | .call .stringSqlLike => .operator
  | .call .arrayIndex | .structField => .first
  | .tableScan | .setOp _ | .stringFind => .operator
  | _ => .sealed

end Kind

structure Shaped (k : Kind) (l : Layout) : Prop where
  joined : Joined l.pieces
  covers : ∀ i, .part i ∈ l.pieces ↔ i < l.steps.length
  operands : ∀ s ∈ l.steps, s.expr?.isSome
  openness_eq : openness l.pieces = some k.openness

def sound (n : Nat) (o : Openness) (pieces : List Piece) : Bool :=
  decide (Joined pieces) && (List.range n).all (fun i => pieces.contains (.part i)) &&
    pieces.all (fun | .part i => i < n | .text _ => true) && openness pieces == some o

theorem shaped_of_sound {k : Kind} {n : Nat} {o : Openness} {steps : List Step} {pieces : List Piece}
    (h : sound n o pieces) (hk : k.openness = o) (hn : steps.length = n)
    (hs : ∀ s ∈ steps, s.expr?.isSome) : Shaped k ⟨steps, pieces⟩ := by
  simp only [sound, Bool.and_eq_true, decide_eq_true_eq, List.all_eq_true, beq_iff_eq] at h
  obtain ⟨⟨⟨hjoined, hcovers⟩, hbound⟩, hopen⟩ := h
  refine ⟨hjoined, fun i => ⟨fun hi => ?_, fun hi => ?_⟩, hs, by rw [hopen, hk]⟩
  · simpa [hn] using hbound _ hi
  · simpa using hcovers i (by simpa [hn] using hi)

theorem shaped_replace {k : Kind} {n : Nat} {steps : List Step} {ps qs : List Piece} {s : String}
    (h : sound (n + 1) .sealed (ps ++ .part n :: qs)) (hk : k.openness = .sealed) (hn : steps.length = n)
    (hp : .part n ∉ ps) (hq : .part n ∉ qs) (ht : tokens? s.toList = some [.text])
    (hs : ∀ s ∈ steps, s.expr?.isSome) : Shaped k ⟨steps, ps ++ .text s :: qs⟩ := by
  simp only [sound, Bool.and_eq_true, decide_eq_true_eq, List.all_eq_true, beq_iff_eq] at h
  obtain ⟨⟨⟨hjoined, hcovers⟩, hbound⟩, hopen⟩ := h
  have htext : textTokens s = [.text] := by rw [textTokens, ht, Option.getD_some]
  refine ⟨hjoined.replace (by rw [readable, ht]; rfl), fun i => ⟨fun hi => ?_, fun hi => ?_⟩, hs, ?_⟩
  · have hmem : .part i ∈ ps ∨ .part i ∈ qs := by simpa using hi
    have hlt : i < n + 1 := by simpa using hbound (.part i) (by simp; tauto)
    have hne : i ≠ n := by
      rintro rfl
      exact hmem.elim hp hq
    simp only [hn]
    omega
  · have hmem := hcovers i (by simp only [hn] at hi; simp; omega)
    have hne : i ≠ n := by
      rintro rfl
      simp [hn] at hi
    simpa [hne] using hmem
  · rw [hk]
    exact openness_replace hopen (by rw [htext]; rfl) (by rw [htext]; rfl)

theorem shaped_wrapped {k : Kind} {steps : List Step} {before after : String} {ps : List Piece}
    (hk : k.openness = .sealed) (hw : wraps before after) (hj : Joined ps) (hi : TextsEnclosed ps)
    (hc : ∀ i, .part i ∈ ps ↔ i < steps.length) (hs : ∀ s ∈ steps, s.expr?.isSome) :
    Shaped k ⟨steps, .text before :: (ps ++ [Piece.text after])⟩ := by
  refine ⟨wrapped_joined hw hj, fun i => ?_, hs, ?_⟩
  · simpa using hc i
  · rw [hk]
    exact wrapped_sealed hw hi

theorem shaped_apply {k : Kind} {name : String} (hk : k.openness = .sealed)
    (hw : wraps (name ++ "(") ")") (args : List Expr) : Shaped k (.apply name args) := by
  refine shaped_wrapped hk hw (Layout.joined_parts 0 _) (Layout.textsEnclosed_parts 0 _) (fun i => ?_) ?_
  · rw [Layout.mem_parts]
    simp
  · simp [Step.expr?]

theorem shaped_around {k : Kind} {before after : String} (hk : k.openness = .sealed)
    (hw : wraps before after) (arg : Expr) :
    Shaped k ⟨[.operand arg], [.text before, .part 0, .text after]⟩ := by
  have hpart : Joined [.part 0] := ⟨by simp [readable], by simp⟩
  have hinner : TextsEnclosed [.part 0] := by simp [TextsEnclosed]
  exact shaped_wrapped hk hw hpart hinner (fun i => by simp) (by simp [Step.expr?])

namespace Sql

theorem setKeyword_text {kind : SetOpKind} {distinct : Bool} {word : String}
    (h : setKeyword kind distinct = .ok word) :
    readable (.text ("\n" ++ word ++ "\n")) ∧ opens ("\n" ++ word ++ "\n").toList ∧
      endsBlank ("\n" ++ word ++ "\n").toList ∧ Enclosed (textTokens ("\n" ++ word ++ "\n")) ∧
      shows [] (textTokens ("\n" ++ word ++ "\n")) := by
  cases kind <;> cases distinct <;> simp only [setKeyword, Except.ok.injEq, reduceCtorEq] at h <;>
    subst h <;> decide

theorem flatten_length {kind : SetOpKind} {e : Expr} :
    ∀ {parts : List Expr} {words : List String}, flattenSetOp kind e = .ok (parts, words) →
      parts.length = words.length + 1 := by
  induction e using Expr.induction_on with
  | step e ih =>
    intro parts words h
    rcases flatten_cases h with ⟨-, rfl, rfl⟩ |
      ⟨left, right, distinct, dtype, label, lp, lw, word, rp, rw, rfl, hl, -, hr, rfl, rfl⟩
    · rfl
    · have hlp := ih left (by simp [Expr.operands, Op.operands]) hl
      have hrp := ih right (by simp [Expr.operands, Op.operands]) hr
      simp only [List.length_append, List.length_cons]
      omega

theorem flatten_words {kind : SetOpKind} {e : Expr} :
    ∀ {parts : List Expr} {words : List String}, flattenSetOp kind e = .ok (parts, words) →
      ∀ word ∈ words, ∃ distinct, setKeyword kind distinct = .ok word := by
  induction e using Expr.induction_on with
  | step e ih =>
    intro parts words h word hw
    rcases flatten_cases h with ⟨-, rfl, rfl⟩ |
      ⟨left, right, distinct, dtype, label, lp, lw, own, rp, rw, rfl, hl, ho, hr, rfl, rfl⟩
    · simp at hw
    · rcases List.mem_append.mp hw with hw | hw
      · exact ih left (by simp [Expr.operands, Op.operands]) hl word hw
      · rcases List.mem_cons.mp hw with rfl | hw
        · exact ⟨distinct, ho⟩
        · exact ih right (by simp [Expr.operands, Op.operands]) hr word hw

theorem joined_chainPieces {kind : SetOpKind} (i : Nat) :
    ∀ {parts : List Expr} {words : List String}, parts.length = words.length + 1 →
      (∀ word ∈ words, ∃ distinct, setKeyword kind distinct = .ok word) →
      Joined (chainPieces i parts words) := by
  intro parts words hlen hw
  induction parts generalizing i words with
  | nil => simp at hlen
  | cons e rest ih =>
    have hpart : Joined (chainPart i e) := by
      unfold chainPart
      split
      · exact ⟨by simp [readable]; decide, by simp [meets]; decide⟩
      · exact ⟨by simp [readable], by simp⟩
    cases words with
    | nil =>
      obtain rfl : rest = [] := by simpa using hlen
      simpa [chainPieces] using hpart
    | cons word words =>
      obtain ⟨f, rest, rfl⟩ := List.exists_cons_of_ne_nil (l := rest) (by rintro rfl; simp at hlen)
      have hrest : Joined (chainPieces (i + 1) (f :: rest) words) :=
        ih (i + 1) (by simpa using hlen) fun w h => hw w (by simp [h])
      obtain ⟨distinct, hk⟩ := hw word (by simp)
      obtain ⟨hread, hopens, hends, -⟩ := setKeyword_text hk
      exact joined_separated hpart hrest hread hopens hends

theorem eq_of_part_mem {i j : Nat} {e : Expr} (h : .part j ∈ chainPart i e) : j = i := by
  unfold chainPart at h
  split at h <;> simpa using h

theorem lt_of_part_mem {i j : Nat} {parts : List Expr} {words : List String}
    (h : .part j ∈ chainPieces i parts words) : i ≤ j ∧ j < i + parts.length := by
  induction parts generalizing i words with
  | nil => simp [chainPieces] at h
  | cons e rest ih =>
    have hmem : .part j ∈ chainPart i e ∨
        ∃ words, .part j ∈ chainPieces (i + 1) rest words := by
      cases rest with
      | nil => simpa [chainPieces] using h
      | cons f rest =>
        cases words with
        | nil => exact (List.mem_append.mp h).imp_right fun h => ⟨[], h⟩
        | cons word words =>
          exact (List.mem_append.mp h).imp_right fun h => ⟨words, by simpa using h⟩
    rcases hmem with h | ⟨words, h⟩
    · obtain rfl := eq_of_part_mem h
      simp
    · have := ih h
      simp only [List.length_cons]
      omega

theorem part_mem_chain {i j : Nat} {parts : List Expr} {words : List String}
    (hlen : parts.length = words.length + 1) (hj : j < parts.length) :
    .part (i + j) ∈ chainPieces i parts words := by
  induction parts generalizing i j words with
  | nil => simp at hj
  | cons e rest ih =>
    cases j with
    | zero =>
      have hhead : .part i ∈ chainPart i e := by
        unfold chainPart
        split <;> simp
      rw [chainPieces.eq_def, Nat.add_zero]
      exact List.mem_append_left _ hhead
    | succ j =>
      cases words with
      | nil =>
        obtain rfl : rest = [] := by simpa using hlen
        simp at hj
      | cons word words =>
        obtain ⟨f, rest, rfl⟩ := List.exists_cons_of_ne_nil (l := rest) (by rintro rfl; simp at hlen)
        have hrest := @ih (i + 1) j words (by simpa using hlen) (by simpa using hj)
        rw [Nat.add_right_comm] at hrest
        exact List.mem_append_right _ (.tail _ hrest)

theorem chain_survey {kind : SetOpKind} (i : Nat) {parts : List Expr} {words : List String}
    (hlen : parts.length = words.length + 1)
    (hw : ∀ word ∈ words, ∃ distinct, setKeyword kind distinct = .ok word) :
    walkPieces [] (chainPieces i parts words) = some [] ∧
      (words ≠ [] → showsPieces [] (chainPieces i parts words)) := by
  induction parts generalizing i words with
  | nil => simp at hlen
  | cons e rest ih =>
    have hpart : walkPieces [] (chainPart i e) = some [] := by
      unfold chainPart
      split <;> rfl
    cases words with
    | nil =>
      obtain rfl : rest = [] := by simpa using hlen
      simpa [chainPieces] using hpart
    | cons word words =>
      obtain ⟨f, rest, rfl⟩ := List.exists_cons_of_ne_nil (l := rest) (by rintro rfl; simp at hlen)
      obtain ⟨distinct, hk⟩ := hw word (by simp)
      obtain ⟨-, -, -, henc, hshow⟩ := setKeyword_text hk
      have hrest := @ih (i + 1) words (by simpa using hlen) fun w h => hw w (by simp [h])
      simp only [chainPieces]
      refine ⟨?_, fun _ => ?_⟩
      · rw [walkPieces_append, hpart, Option.bind_some, walkPieces, henc.walk_eq, Option.bind_some]
        exact hrest.1
      · rw [showsPieces_append, hpart, Option.any_some, showsPieces, hshow]
        simp

theorem shaped_chain {kind : SetOpKind} {e : Expr} {parts : List Expr} {words : List String}
    (hk : e.kind = .setOp kind) (h : flattenSetOp kind e = .ok (parts, words)) :
    Shaped (.setOp kind) ⟨parts.map .operand, chainPieces 0 parts words⟩ := by
  have hlen := flatten_length h
  have hwords := flatten_words h
  have hne : words ≠ [] := by
    rcases flatten_cases h with ⟨hother, -⟩ |
      ⟨left, right, distinct, dtype, label, lp, lw, word, rp, rw, -, -, -, -, -, rfl⟩
    · exact absurd hk hother
    · simp
  refine ⟨joined_chainPieces 0 hlen hwords, fun i => ⟨fun hi => ?_, fun hi => ?_⟩, by simp [Step.expr?], ?_⟩
  · simpa using (lt_of_part_mem hi).2
  · simpa using part_mem_chain (i := 0) hlen (by simpa using hi)
  · obtain ⟨hwalk, hshow⟩ := chain_survey 0 hlen hwords
    rw [openness, if_pos hwalk, if_pos (hshow hne)]
    rfl

end Sql

namespace Formatter

open Sql

def ownKind? : Formatter → Option Kind
  | .literal => some .literal
  | .column => some .column
  | .parameter => some .scalarParameter
  | .tableScan => some .tableScan
  | .cast => some .cast
  | .floor => some (.call .floor)
  | .structField => some .structField
  | _ => none

def ownKinds : List Kind :=
  [.literal, .column, .scalarParameter, .tableScan, .cast, .call .floor, .structField]

/-- The texts around the arguments of a function over a pattern. The last part stands for a pattern that is
written as a raw string. -/
def regexFits (before middle after : String) (arity : Nat) : Bool :=
  if arity = 2 then
    sound 2 .sealed [.text before, .part 0, ", ", .part 1, .text after] &&
      sound 2 .sealed [.text before, .part 1, ", ", .part 0, .text after]
  else
    arity == 3 &&
      sound 3 .sealed [.text before, .part 0, ", ", .part 2, .text middle, .part 1, .text after] &&
      sound 3 .sealed [.text before, .part 1, ", ", .part 0, .text middle, .part 2, .text after]

def fits : Kind × Formatter → Bool
  | (k, .function name _) => wraps (name ++ "(") ")" && k.openness == .sealed
  | (k, .template arity pieces) => sound arity k.openness pieces
  | (k, .leading words) => sound 1 k.openness [.text words, .part 0]
  | (k, .trailing words) => sound 1 k.openness [.part 0, .text words]
  | (k, .infixed) =>
    match k with
    | .binary op => sound 2 k.openness (binaryPieces op)
    | _ => false
  | (k, .setOp) => k.openness == .operator
  | (k, .between) => k.openness == .operator
  | (k, .like) => k.openness == .operator
  | (k, .stringFind) => k.openness == .operator
  | (k, .truncate name units) =>
    k.openness == .sealed &&
      units.all fun unit => wraps (name ++ "_TRUNC(") (", " ++ unit.sqlName ++ ")")
  | (k, .intervalArithmetic name _) => wraps (name ++ "(") ")" && k.openness == .sealed
  | (k, .regex before middle after arity) =>
    k.openness == .sealed && regexFits before middle after arity
  | (k, .reduction name) => wraps (name ++ "(") ")" && k.openness == .sealed
  | (k, .singleReduction before after) => wraps before after && k.openness == .sealed
  | (_, .genericLiteral) => false
  | (_, .genericCast) => false
  | (_, .genericSetOp) => false
  | (_, .baseFirstLog) => false
  | (_, .genericSubstring) => false
  | (_, .findInSet) => false
  | (k, f) => f.ownKind?.isSome || k.openness == .sealed

def keepsOwnKind (entry : Kind × Formatter) : Bool :=
  match entry.2.ownKind? with
  | some k => entry.1 == k
  | none => !ownKinds.contains entry.1

theorem bigQuery_fits {k : Kind} {f : Formatter} (h : bigQuery.get? k = some f) : fits (k, f) :=
  bigQuery_all (by decide +kernel) (by decide +kernel) h

theorem bigQuery_keepsOwnKind {k : Kind} {f : Formatter} (h : bigQuery.get? k = some f) :
    keepsOwnKind (k, f) :=
  bigQuery_all (by decide +kernel) (by decide +kernel) h

theorem tokens_rawPattern {pattern : Expr} {raw : String} (h : rawPattern? pattern = some raw) :
    tokens? raw.toList = some [.text] := by
  obtain ⟨s, -, hraw⟩ := op_of_rawPattern h
  exact tokens_rawString hraw

def Laid (k : Kind) (l : Layout) : Prop :=
  (∃ error, .fail error ∈ l.steps) ∨ Shaped k l

theorem shaped_regex {k : Kind} {before middle after : String} {arity : Nat} (hk : k.openness = .sealed)
    (h : regexFits before middle after arity) {arg pattern : Expr} {others : List Expr}
    (hlen : others.length + 2 = arity) : Shaped k (regexLayout before middle after arg pattern others) := by
  unfold regexFits at h
  simp only [regexLayout]
  split at h
  next harity =>
    obtain ⟨hraw, hparts⟩ := Bool.and_eq_true_iff.mp h
    replace hraw : sound 2 .sealed
        (([.text before, .part 0, .text ", "] : List Piece) ++ ([.part 1, .text after] : List Piece)) := hraw
    obtain rfl : others = [] := List.length_eq_zero_iff.mp (by omega)
    cases hr : rawPattern? pattern with
    | none => exact shaped_of_sound hparts hk rfl (by simp [Step.expr?])
    | some raw =>
      have hshape : Shaped k ⟨[.operand arg],
          ([.text before, .part 0, .text ", "] : List Piece) ++ ([.text raw, .text after] : List Piece)⟩ :=
        shaped_replace hraw hk rfl (by simp) (by simp) (tokens_rawPattern hr) (by simp [Step.expr?])
      exact hshape
  next harity =>
    simp only [Bool.and_eq_true, beq_iff_eq] at h
    obtain ⟨⟨harity, hraw⟩, hparts⟩ := h
    replace hraw : sound 3 .sealed
        (([.text before, .part 0, .text ", "] : List Piece) ++
          ([.part 2, .text middle, .part 1, .text after] : List Piece)) := hraw
    obtain ⟨other, rfl⟩ : ∃ other, others = [other] := List.length_eq_one_iff.mp (by omega)
    cases hr : rawPattern? pattern with
    | none => exact shaped_of_sound hparts hk rfl (by simp [Step.expr?])
    | some raw =>
      have hshape : Shaped k ⟨[.operand arg, .operand other],
          ([.text before, .part 0, .text ", "] : List Piece) ++
            ([.text raw, .text middle, .part 1, .text after] : List Piece)⟩ :=
        shaped_replace hraw hk rfl (by simp) (by simp) (tokens_rawPattern hr) (by simp [Step.expr?])
      exact hshape

theorem shaped_format {k : Kind} {dtype : DataType} {pieces : List Piece} (hk : k.openness = .sealed)
    (h : formatPieces dtype = .ok pieces) {format arg : Expr} :
    Shaped k ⟨[.operand format, .operand arg], pieces⟩ := by
  cases dtype with
  | date =>
    obtain rfl : _ = pieces := by simpa [formatPieces] using h
    exact shaped_of_sound (by decide +kernel : sound 2 .sealed _) hk rfl (by simp [Step.expr?])
  | time =>
    obtain rfl : _ = pieces := by simpa [formatPieces] using h
    exact shaped_of_sound (by decide +kernel : sound 2 .sealed _) hk rfl (by simp [Step.expr?])
  | timestamp zone =>
    obtain rfl : _ = pieces := by simpa [formatPieces] using h
    have hparts : sound 3 .sealed
        (([.text "FORMAT_TIMESTAMP(", .part 0, .text ", ", .part 1, .text ", "] : List Piece) ++
          ([.part 2, .text ")"] : List Piece)) := by
      decide +kernel
    exact shaped_replace hparts hk rfl (by simp) (by simp) (tokens_stringLiteral _) (by simp [Step.expr?])
  | _ => simp [formatPieces] at h

theorem shaped_stringJoin {k : Kind} (hk : k.openness = .sealed) (separator : Expr) (values : List Expr) :
    Shaped k ⟨values.map Step.operand ++ [Step.operand separator],
      .text "ARRAY_TO_STRING([" :: (Layout.parts ", " 0 values.length ++
        [Piece.text "], ", .part values.length, .text ")"])⟩ := by
  have hopen : walk [] (textTokens "ARRAY_TO_STRING([") = some [.square, .round] := by decide +kernel
  have hquiet : shows [] (textTokens "ARRAY_TO_STRING([") = false := by decide +kernel
  have hend (i : Nat) : Joined [.text "], ", .part i, .text ")"] := by
    refine ⟨by simp [readable]; decide, by simp [meets]; decide⟩
  obtain ⟨hwalk, hshow, hparts⟩ := (Layout.textsEnclosed_parts 0 values.length).survey
    (List.cons_ne_nil Bracket.square [.round])
  refine ⟨?_, fun i => ?_, ?_, ?_⟩
  · exact joined_text_cons (by decide) (by decide)
      (joined_append_text (by decide) (Layout.joined_parts 0 _) (hend _))
  · simp only [List.mem_cons, List.mem_append, Layout.mem_parts]
    simp
    omega
  · intro s hs
    rcases List.mem_append.mp hs with hs | hs
    · obtain ⟨x, -, rfl⟩ := List.mem_map.mp hs
      rfl
    · obtain rfl : s = .operand separator := by simpa using hs
      rfl
  · rw [hk, openness_sealed]
    have hmid : walk [.square, .round] (textTokens "], ") = some [.round] := by decide +kernel
    have hclose : walk [.round] (textTokens ")") = some [] := by decide +kernel
    have hmidquiet : shows [.square, .round] (textTokens "], ") = false := by decide +kernel
    have hlastquiet : shows [.round] (textTokens ")") = false := by decide +kernel
    refine ⟨?_, ?_, ?_⟩
    · simp [walkPieces, hopen, walkPieces_append, hwalk, hmid, hclose]
    · simp [showsPieces, hopen, hquiet, showsPieces_append, hshow, hwalk, hmid, hmidquiet, hlastquiet]
    · simp [outerParts, hopen, outerParts_append, hparts, hwalk, hmid, hclose]

def isPlain : Formatter → Bool
  | .conditional => true
  | .log => true
  | .substring => true
  | .timestampFromUnix => true
  | .hash => true
  | .hashBytes => true
  | .strftime => true
  | .stringToTimestamp => true
  | .stringJoin => true
  | .simplify => true
  | .countDistinct => true
  | .arbitrary => true
  | .covariance => true
  | _ => false

theorem layout_sealed {k : Kind} {f : Formatter} {e : Expr} (hk : k.openness = .sealed)
    (hf : f.isPlain) : Laid k (f.layout e) := by
  have haround : ∀ texts ∈ [("TIMESTAMP_SECONDS(", ")"), ("TIMESTAMP_MILLIS(", ")"), ("TIMESTAMP_MICROS(", ")"),
      ("TIMESTAMP_MICROS(CAST(ROUND(", " / 1000) AS INT64))"), ("count(DISTINCT ", ")")], wraps texts.1 texts.2 := by
    decide +kernel
  have hnames : ∀ name ∈ ["md5", "sha1", "sha256", "sha512"] ++ ["farm_fingerprint", "ln", "log", "PARSE_TIMESTAMP",
      "ST_SIMPLIFY", "ANY_VALUE", "COVAR_SAMP", "COVAR_POP"], wraps (name ++ "(") ")" := by
    decide +kernel
  simp only [List.forall_mem_cons] at haround
  obtain ⟨hseconds, hmillis, hmicros, hnanos, hcount, -⟩ := haround
  obtain ⟨hdigests, hnames⟩ := List.forall_mem_append.mp hnames
  simp only [List.forall_mem_cons] at hnames
  obtain ⟨hfarm, hln, hlog, hparse, hsimplify, hany, hsample, hpop, -⟩ := hnames
  have hlayout := f.outcome e
  generalize f.layout e = l at hlayout
  cases hlayout with
  | conditional =>
    exact .inr (shaped_of_sound (by decide +kernel : sound 3 .sealed _) hk rfl (by simp [Step.expr?]))
  | substringFrom =>
    exact .inr (shaped_of_sound (by decide +kernel : sound 2 .sealed _) hk rfl (by simp [Step.expr?]))
  | substring =>
    exact .inr (shaped_of_sound (by decide +kernel : sound 3 .sealed _) hk rfl (by simp [Step.expr?]))
  | @timestampFromUnix arg unit pieces hop hp =>
    cases unit <;> cases hp
    · exact .inr (shaped_around hk hseconds arg)
    · exact .inr (shaped_around hk hmillis arg)
    · exact .inr (shaped_around hk hmicros arg)
    · exact .inr (shaped_around hk hnanos arg)
  | countDistinct => exact .inr (shaped_around hk hcount _)
  | hash hop hhow => exact .inr (shaped_apply hk (hhow ▸ hfarm) _)
  | hashBytes hop hhow => exact .inr (shaped_apply hk (hdigests _ hhow) _)
  | ln => exact .inr (shaped_apply hk hln _)
  | log => exact .inr (shaped_apply hk hlog _)
  | stringToTimestamp => exact .inr (shaped_apply hk hparse _)
  | simplify => exact .inr (shaped_apply hk hsimplify _)
  | arbitrary => exact .inr (shaped_apply hk hany _)
  | sampleCovariance => exact .inr (shaped_apply hk hsample _)
  | populationCovariance => exact .inr (shaped_apply hk hpop _)
  | strftime hop hp => exact .inr (shaped_format hk hp)
  | stringJoin => exact .inr (shaped_stringJoin hk _ _)
  | fails hargs error => exact .inl ⟨error, by simp⟩
  | _ => simp [isPlain] at hf

theorem layout_laid {e : Expr} {f : Formatter} (h : bigQuery.get? e.kind = some f)
    (hown : f.ownKind? = none) : Laid e.kind (f.layout e) := by
  have hfits := bigQuery_fits h
  cases hplain : f.isPlain with
  | true =>
    have hk : e.kind.openness = .sealed := by
      unfold isPlain at hplain
      split at hplain <;> first | simpa [fits, ownKind?] using hfits | cases hplain
    exact layout_sealed hk hplain
  | false =>
    have hlayout := f.outcome e
    generalize f.layout e = l at hlayout
    cases hlayout with
    | literal | column | parameter | tableScan | cast | floor | structField => cases hown
    | genericLiteral | genericCast | genericSetOp | genericLn | baseFirstLog | genericSubstringFrom | genericSubstring
    | findInSet => cases hfits
    | function =>
      obtain ⟨hw, hk⟩ : wraps (_ ++ "(") ")" = true ∧ e.kind.openness = .sealed := by simpa [fits] using hfits
      exact .inr (shaped_apply hk hw _)
    | intervalArithmetic =>
      obtain ⟨hw, hk⟩ : wraps (_ ++ "(") ")" = true ∧ e.kind.openness = .sealed := by simpa [fits] using hfits
      exact .inr (shaped_apply hk hw _)
    | reduction =>
      obtain ⟨hw, hk⟩ : wraps (_ ++ "(") ")" = true ∧ e.kind.openness = .sealed := by simpa [fits] using hfits
      exact .inr (shaped_apply hk hw _)
    | singleReduction =>
      obtain ⟨hw, hk⟩ : wraps _ _ = true ∧ e.kind.openness = .sealed := by simpa [fits] using hfits
      exact .inr (shaped_around hk hw _)
    | template hlen => exact .inr (shaped_of_sound hfits rfl (by simpa using hlen) (by simp [Step.expr?]))
    | leading | trailing => exact .inr (shaped_of_sound hfits rfl rfl (by simp [Step.expr?]))
    | @infixed op left right hop =>
      have hkind : e.kind = .binary op := by simp [Expr.kind, Op.kind, hop]
      rw [hkind] at hfits ⊢
      exact .inr (shaped_of_sound hfits rfl rfl (by simp [Step.expr?]))
    | @setOp kind left right distinct parts words hop hflat =>
      have hkind : e.kind = .setOp kind := by simp [Expr.kind, Op.kind, hop]
      rw [hkind]
      exact .inr (shaped_chain hkind hflat)
    | between =>
      have hk : e.kind.openness = .operator := by simpa [fits] using hfits
      exact .inr (shaped_of_sound (by decide +kernel : sound 3 .operator _) hk rfl (by simp [Step.expr?]))
    | like =>
      have hk : e.kind.openness = .operator := by simpa [fits] using hfits
      exact .inr (shaped_of_sound (by decide +kernel : sound 2 .operator _) hk rfl (by simp [Step.expr?]))
    | stringFind =>
      have hk : e.kind.openness = .operator := by simpa [fits] using hfits
      exact .inr (shaped_of_sound (by decide +kernel : sound 2 .operator _) hk rfl (by simp [Step.expr?]))
    | @truncate name units kind arg unit hop hunit =>
      obtain ⟨hk, hunits⟩ : e.kind.openness = .sealed ∧
          ∀ unit ∈ units, wraps (name ++ "_TRUNC(") (", " ++ unit.sqlName ++ ")") = true := by
        simpa [fits] using hfits
      exact .inr (shaped_around hk (hunits unit hunit) arg)
    | regex ho hlen =>
      obtain ⟨hk, hregex⟩ := Bool.and_eq_true_iff.mp hfits
      exact .inr (shaped_regex (by simpa using hk) hregex hlen)
    | fails hargs error => exact .inl ⟨error, by simp⟩
    | _ => cases hplain

end Formatter

namespace Sql

theorem castPieces_ok {operand : Piece} {source target : DataType} {pieces : List Piece}
    (h : castPieces operand source target = .ok pieces) :
    (target.isInteger ∧ pieces = [.text "UNIX_MICROS(", operand, .text ")"]) ∨
    ∃ name, target.sqlName = .ok name ∧ pieces = [.text "CAST(", operand, .text (" AS " ++ name ++ ")")] := by
  have hcast (hp : (do return [Piece.text "CAST(", operand, .text (" AS " ++ (← target.sqlName) ++ ")")]) =
      Except.ok pieces) : ∃ name, target.sqlName = .ok name ∧
        pieces = [.text "CAST(", operand, .text (" AS " ++ name ++ ")")] := by
    obtain ⟨name, hname, hp⟩ := except_bind_ok.mp hp
    exact ⟨name, hname, by simpa [pure, Except.pure, eq_comm] using hp⟩
  unfold castPieces at h
  split at h
  · split at h
    next hint => exact .inl ⟨hint, by simpa [eq_comm] using h⟩
    next => exact .inr (hcast h)
  · exact .inr (hcast h)

end Sql

inductive OwnText (naming : ParamNaming) (P : Expr → String → Prop) : Expr → String → Prop where
  | literal {v : Value} {dtype : DataType} {label : Option String} {w : String}
      (h : v.literal dtype = .ok w) : OwnText naming P ⟨.literal v, dtype, label⟩ w
  | column {name : String} {table : Option String} {dtype : DataType} {label : Option String} :
      OwnText naming P ⟨.column name table, dtype, label⟩ (Sql.backtick name)
  | parameter {name placeholder : String} {dtype : DataType} {label : Option String}
      (h : naming.Places name placeholder) :
      OwnText naming P ⟨.scalarParameter name, dtype, label⟩ ("@" ++ placeholder)
  | scan {name : String} {schema : Schema} {dtype : DataType} {label : Option String} :
      OwnText naming P ⟨.tableScan name schema, dtype, label⟩ ("SELECT *\nFROM " ++ Sql.identifier name)
  | structField {arg : Expr} {field : String} {dtype : DataType} {label : Option String} {w : String}
      (h : P arg w) :
      OwnText naming P ⟨.structField arg field, dtype, label⟩ (w ++ ("." ++ Sql.backtick field))
  | unixMicros {arg : Expr} {dtype : DataType} {label : Option String} {w : String}
      (hint : dtype.isInteger) (h : P arg w) :
      OwnText naming P ⟨.cast arg, dtype, label⟩ ("UNIX_MICROS(" ++ w ++ ")")
  | cast {arg : Expr} {dtype : DataType} {label : Option String} {name w : String}
      (hname : dtype.sqlName = .ok name) (h : P arg w) :
      OwnText naming P ⟨.cast arg, dtype, label⟩ ("CAST(" ++ (w ++ (" AS " ++ name)) ++ ")")
  | floor {arg : Expr} {dtype : DataType} {label : Option String} {name w : String}
      (hname : dtype.sqlName = .ok name) (h : P arg w) :
      OwnText naming P ⟨.call .floor [arg], dtype, label⟩ ("CAST(FLOOR(" ++ (w ++ (") AS " ++ name)) ++ ")")

section Own

variable {naming : ParamNaming} {params : Params} {P : Expr → String → Prop} {texts : List String}
  {dtype : DataType} {label : Option String}

theorem ownText_parameter {name : String}
    (ht : List.Forall₂ (((Compiler.bigQuery naming).target params).Takes P)
      [.parameter name dtype] texts) :
    OwnText naming P ⟨.scalarParameter name, dtype, label⟩
      ((Layout.mk [.parameter name dtype] [.part 0]).fill texts) := by
  obtain ⟨w, rfl, hw⟩ := forall₂_single ht
  obtain ⟨placeholder, hplaces, rfl⟩ := Compiler.placeholder_places hw
  have hfill : (Layout.mk [.parameter name dtype] [.part 0]).fill ["@" ++ placeholder] =
      "@" ++ placeholder := by
    simp [Layout.fill, Piece.fill]
  rw [hfill]
  exact .parameter hplaces

theorem ownText_scan {name : String} {schema : Schema}
    (ht : List.Forall₂ (((Compiler.bigQuery naming).target params).Takes P) [.table name] texts) :
    OwnText naming P ⟨.tableScan name schema, dtype, label⟩
      ((Layout.mk [.table name] [.text "SELECT *\nFROM ", .part 0]).fill texts) := by
  obtain ⟨w, rfl, hw⟩ := forall₂_single ht
  obtain rfl : w = Sql.identifier name := hw
  have hfill : (Layout.mk [.table name] [.text "SELECT *\nFROM ", .part 0]).fill [Sql.identifier name] =
      "SELECT *\nFROM " ++ Sql.identifier name := by
    simp [Layout.fill, Piece.fill]
  rw [hfill]
  exact .scan

theorem ownText_structField {arg : Expr} {field : String}
    (ht : List.Forall₂ (((Compiler.bigQuery naming).target params).Takes P) [.operand arg] texts) :
    OwnText naming P ⟨.structField arg field, dtype, label⟩
      ((Layout.mk [.operand arg] [.part 0, .text ("." ++ Sql.backtick field)]).fill texts) := by
  obtain ⟨w, rfl, hw⟩ := forall₂_single ht
  have hfill : (Layout.mk [.operand arg] [.part 0, .text ("." ++ Sql.backtick field)]).fill [w] =
      w ++ ("." ++ Sql.backtick field) := by
    simp [Layout.fill, Piece.fill]
  rw [hfill]
  exact .structField hw

theorem ownText_cast {arg : Expr} {pieces : List Piece}
    (hp : Sql.castPieces (.part 0) arg.dtype dtype = .ok pieces)
    (ht : List.Forall₂ (((Compiler.bigQuery naming).target params).Takes P) [.operand arg] texts) :
    OwnText naming P ⟨.cast arg, dtype, label⟩ ((Layout.mk [.operand arg] pieces).fill texts) := by
  obtain ⟨w, rfl, hw⟩ := forall₂_single ht
  rcases Sql.castPieces_ok hp with ⟨hint, rfl⟩ | ⟨name, hname, rfl⟩
  · have hfill : (Layout.mk [.operand arg] [.text "UNIX_MICROS(", .part 0, .text ")"]).fill [w] =
        "UNIX_MICROS(" ++ w ++ ")" := by
      simp [Layout.fill, Piece.fill, String.append_assoc]
    rw [hfill]
    exact .unixMicros hint hw
  · have hfill : (Layout.mk [.operand arg] [.text "CAST(", .part 0, .text (" AS " ++ name ++ ")")]).fill [w] =
        "CAST(" ++ (w ++ (" AS " ++ name)) ++ ")" := by
      simp [Layout.fill, Piece.fill, String.append_assoc]
    rw [hfill]
    exact .cast hname hw

theorem ownText_floor {arg : Expr} {name : String} (hname : dtype.sqlName = .ok name)
    (ht : List.Forall₂ (((Compiler.bigQuery naming).target params).Takes P) [.operand arg] texts) :
    OwnText naming P ⟨.call .floor [arg], dtype, label⟩
      ((Layout.mk [.operand arg] [.text "CAST(FLOOR(", .part 0, .text (") AS " ++ name ++ ")")]).fill texts) := by
  obtain ⟨w, rfl, hw⟩ := forall₂_single ht
  have hfill : (Layout.mk [.operand arg]
      [.text "CAST(FLOOR(", .part 0, .text (") AS " ++ name ++ ")")]).fill [w] =
        "CAST(FLOOR(" ++ (w ++ (") AS " ++ name)) ++ ")" := by
    simp [Layout.fill, Piece.fill, String.append_assoc]
  rw [hfill]
  exact .floor hname hw

theorem ownText_of_kind {e : Expr} {f : Formatter} (h : f.ownKind? = some e.kind)
    (ht : List.Forall₂ (((Compiler.bigQuery naming).target params).Takes P) (f.layout e).steps texts) :
    (f.layout e).operands = e.operands ∧ OwnText naming P e ((f.layout e).fill texts) := by
  have hlayout := f.outcome e
  generalize f.layout e = l at hlayout ht ⊢
  obtain ⟨op, dtype, label⟩ := e
  cases hlayout with
  | @literal v w hop hw =>
    obtain rfl : op = .literal v := hop
    exact ⟨rfl, Layout.fill_constant w texts ▸ .literal hw⟩
  | @column name table hop =>
    obtain rfl : op = .column name table := hop
    exact ⟨rfl, Layout.fill_constant (Sql.backtick name) texts ▸ .column⟩
  | @parameter name hop =>
    obtain rfl : op = .scalarParameter name := hop
    exact ⟨rfl, ownText_parameter ht⟩
  | @tableScan name schema hop =>
    obtain rfl : op = .tableScan name schema := hop
    exact ⟨rfl, ownText_scan ht⟩
  | @structField arg field hop =>
    obtain rfl : op = .structField arg field := hop
    exact ⟨rfl, ownText_structField ht⟩
  | @cast arg pieces ho hp =>
    cases op with
    | cast =>
      cases ho
      exact ⟨rfl, ownText_cast hp ht⟩
    | _ => cases h
  | @floor arg name ho hname =>
    cases op with
    | call func args =>
      cases ho
      cases h
      exact ⟨rfl, ownText_floor hname ht⟩
    | _ => cases h
  | fails => exact absurd ht Target.not_takes_failing
  | _ => cases h

theorem Compiler.written_cases {e : Expr} {f : Formatter} (hf : Formatter.bigQuery.get? e.kind = some f)
    (ht : List.Forall₂ (((Compiler.bigQuery naming).target params).Takes P) (f.layout e).steps texts) :
    (Formatter.ownKinds.contains e.kind = false ∧ Shaped e.kind (f.layout e)) ∨
    ((f.layout e).operands = e.operands ∧ OwnText naming P e ((f.layout e).fill texts)) := by
  have hkind := Formatter.bigQuery_keepsOwnKind hf
  cases hown : f.ownKind? with
  | none =>
    rcases Formatter.layout_laid hf hown with ⟨error, hfail⟩ | hshaped
    · exact absurd hfail (Target.not_takes_fail ht)
    · exact .inl ⟨by simpa [Formatter.keepsOwnKind, hown] using hkind, hshaped⟩
  | some k =>
    obtain rfl : e.kind = k := by simpa [Formatter.keepsOwnKind, hown] using hkind
    exact .inr (ownText_of_kind hown ht)

end Own

end BigQuerySql
