import BigQuerySql.Proofs.Fingerprints
import BigQuerySql.Proofs.Shapes

namespace BigQuerySql

namespace Lexis

def isLineBreak (c : Char) : Bool :=
  c == '\n' || c == '\r'

/-- The characters of a string up to the quote that ends it, and what follows the quote. A backslash takes the character
after it, and no line break may come before the quote. -/
def body? : List Char → Option (List Char × List Char)
  | [] => none
  | '\'' :: rest => some ([], rest)
  | ['\\'] => none
  | '\\' :: c :: rest => if isLineBreak c then none else (body? rest).map fun r => ('\\' :: c :: r.1, r.2)
  | c :: rest => if isLineBreak c then none else (body? rest).map fun r => (c :: r.1, r.2)

inductive StringForm where
  | plain
  | raw
deriving DecidableEq, Repr

def scanString : List Char → Option (StringForm × List Char × List Char)
  | '\'' :: cs => do
    let (body, rest) ← body? cs
    return (.plain, ← unescape body, rest)
  | 'r' :: '\'' :: cs => do
    let (body, rest) ← body? cs
    return (.raw, body, rest)
  | _ => none

inductive Body : List Char → Prop where
  | nil : Body []
  | char {c : Char} {cs : List Char} (hquote : c ≠ '\'') (hback : c ≠ '\\') (hbreak : isLineBreak c = false)
      (h : Body cs) : Body (c :: cs)
  | escape {c : Char} {cs : List Char} (hbreak : isLineBreak c = false) (h : Body cs) : Body ('\\' :: c :: cs)

theorem Body.append {cs ds : List Char} (hcs : Body cs) (hds : Body ds) : Body (cs ++ ds) := by
  induction hcs with
  | nil => exact hds
  | char hquote hback hbreak _ ih => exact .char hquote hback hbreak ih
  | escape hbreak _ ih => exact .escape hbreak ih

theorem body_append {cs : List Char} (h : Body cs) (rest : List Char) :
    body? (cs ++ '\'' :: rest) = some (cs, rest) := by
  induction h with
  | nil => rfl
  | char hquote hback hbreak _ ih => simp [body?, hback, hbreak, ih]
  | escape hbreak _ ih => simp [body?, hbreak, ih]

theorem body_stringChar (c : Char) : Body (Sql.stringChar c) := by
  unfold Sql.stringChar
  split
  · exact .escape rfl .nil
  · exact .escape rfl .nil
  · exact .escape rfl .nil
  · exact .escape rfl .nil
  next hback hquote hnewline hreturn =>
    have hbreak : isLineBreak c = false := by simpa [isLineBreak] using ⟨hnewline, hreturn⟩
    exact .char hquote hback hbreak .nil

theorem body_stringChars (s : List Char) : Body (s.flatMap Sql.stringChar) := by
  induction s with
  | nil => exact .nil
  | cons c s ih => exact (body_stringChar c).append ih

theorem unescape_stringChar (c : Char) (rest : List Char) :
    unescape (Sql.stringChar c ++ rest) = (unescape rest).map (c :: ·) := by
  unfold Sql.stringChar
  split
  · simp [unescape, unescapeFrom, escape?]
  · simp [unescape, unescapeFrom, escape?]
  · simp [unescape, unescapeFrom, escape?]
  · simp [unescape, unescapeFrom, escape?]
  next hback _ _ _ =>
    have hne : c ≠ '\\' := hback
    simp [unescape, unescapeFrom, hne]

theorem unescape_stringChars (s : List Char) : unescape (s.flatMap Sql.stringChar) = some s := by
  induction s with
  | nil => rfl
  | cons c s ih => rw [List.flatMap_cons, unescape_stringChar, ih, Option.map_some]

theorem scan_stringChars (s rest : List Char) :
    scanString (Sql.stringChars s ++ rest) = some (.plain, s, rest) := by
  have htext : Sql.stringChars s ++ rest = '\'' :: (s.flatMap Sql.stringChar ++ '\'' :: rest) := by
    simp [Sql.stringChars]
  rw [htext, scanString, body_append (body_stringChars s)]
  simp [unescape_stringChars]

/-- Backslashes pair up from the left, but only the run at the end tells whether one is left over. -/
theorem body_of_trailing {cs : List Char} (h : ∀ c ∈ cs, c ≠ '\'' ∧ c ≠ '\n' ∧ c ≠ '\r') :
    (trailingBackslashes cs % 2 = 0 → Body cs) ∧
      (trailingBackslashes cs % 2 = 1 → ∃ paired, cs = paired ++ ['\\'] ∧ Body paired) := by
  induction cs using List.reverseRecOn with
  | nil => exact ⟨fun _ => .nil, fun hodd => by simp [trailingBackslashes] at hodd⟩
  | append_singleton cs c ih =>
    obtain ⟨heven, hodd⟩ := ih fun d hd => h d (by simp [hd])
    obtain ⟨hquote, hnewline, hreturn⟩ := h c (by simp)
    have hbreak : isLineBreak c = false := by simp [isLineBreak, hnewline, hreturn]
    have htaken (hcs : trailingBackslashes cs % 2 = 1) : Body (cs ++ [c]) := by
      obtain ⟨paired, rfl, hpaired⟩ := hodd hcs
      rw [List.append_assoc]
      exact hpaired.append (.escape hbreak .nil)
    rw [trailingBackslashes_append]
    split
    next hc =>
      subst hc
      refine ⟨fun hlast => htaken (by omega), fun hlast => ⟨cs, rfl, heven (by omega)⟩⟩
    next hc =>
      refine ⟨fun _ => ?_, fun hlast => by simp at hlast⟩
      rcases Nat.mod_two_eq_zero_or_one (trailingBackslashes cs) with hcs | hcs
      · exact (heven hcs).append (.char hquote hc hbreak .nil)
      · exact htaken hcs

theorem scan_rawString {s raw : String} (h : Sql.rawString? s = some raw) (rest : List Char) :
    scanString (raw.toList ++ rest) = some (.raw, s.toList, rest) := by
  simp only [Sql.rawString?] at h
  split at h
  next => simp at h
  next hgood =>
    obtain rfl : "r'" ++ s ++ "'" = raw := by simpa using h
    simp only [Bool.or_eq_true, List.any_eq_true, beq_iff_eq, not_or, not_exists, not_and] at hgood
    obtain ⟨hchars, hodd⟩ := hgood
    replace hodd : ¬trailingBackslashes s.toList % 2 = 1 := hodd
    have hbody : Body s.toList := (body_of_trailing fun c hc => and_assoc.mp (hchars c hc)).1 (by omega)
    have htext : ("r'" ++ s ++ "'").toList ++ rest = 'r' :: '\'' :: (s.toList ++ '\'' :: rest) := by simp
    rw [htext, scanString, body_append hbody]
    rfl

/-- A string is read back as what was written, and ends where it was ended. -/
theorem string_literals_read_back (s : String) (rest : List Char) :
    scanString ((Sql.stringLiteral s).toList ++ rest) = some (.plain, s.toList, rest) := by
  rw [Sql.stringLiteral, String.toList_ofList]
  exact scan_stringChars s.toList rest

end Lexis

namespace Sql

def patternLiteral (s : String) : String :=
  (rawString? s).getD (stringLiteral s)

theorem scan_patternLiteral (s : String) (rest : List Char) :
    Lexis.scanString ((patternLiteral s).toList ++ rest) =
      some (if (rawString? s).isSome then .raw else .plain, s.toList, rest) := by
  cases hraw : rawString? s with
  | some raw => simpa [patternLiteral, hraw] using Lexis.scan_rawString hraw rest
  | none => simpa [patternLiteral, hraw, stringLiteral] using Lexis.scan_stringChars s.toList rest

def regexText (before middle after subject pattern : String) : List String → String
  | [] => before ++ subject ++ ", " ++ pattern ++ after
  | other :: _ => before ++ subject ++ ", " ++ pattern ++ middle ++ other ++ after

end Sql

namespace Target

variable {t : Target} {before middle after s : String} {arg pattern : Expr} {others : List Expr}

theorem render_stringLiteral (hget : t.formatters.get? .literal = some .literal)
    (hop : pattern.op = .literal (.string s)) (hdtype : pattern.dtype = .string) :
    t.render pattern = pure (Sql.stringLiteral s) := by
  funext ctx
  have hrun := render_literal hget hop ctx
  rw [hdtype] at hrun
  exact hrun

theorem mapM_operands (es : List Expr) : (es.map Step.operand).mapM (t.takeStep t.render) = es.mapM t.render := by
  rw [List.mapM_map]
  rfl

theorem run_regexLayout (hget : t.formatters.get? .literal = some .literal) (hop : pattern.op = .literal (.string s))
    (hdtype : pattern.dtype = .string) :
    (do let texts ← (Formatter.regexLayout before middle after arg pattern others).steps.mapM (t.takeStep t.render)
        return (Formatter.regexLayout before middle after arg pattern others).fill texts : Render String) =
      (do let subject ← t.render arg
          let texts ← others.mapM t.render
          return Sql.regexText before middle after subject (Sql.patternLiteral s) texts : Render String) := by
  have hpattern : Sql.rawPattern? pattern = Sql.rawString? s := by
    simp [Sql.rawPattern?, Expr.literalValue?, hop]
  have hoperand (x : Expr) : t.takeStep t.render (.operand x) = t.render x := rfl
  simp only [Formatter.regexLayout, hpattern, Sql.patternLiteral]
  cases Sql.rawString? s with
  | some raw =>
    simp only [List.mapM_cons, mapM_operands, hoperand, bind_assoc, pure_bind]
    cases others with
    | nil => simp [Layout.fill, Piece.fill, Sql.regexText, String.append_assoc]
    | cons other rest => simp [List.mapM_cons, Layout.fill, Piece.fill, Sql.regexText, String.append_assoc]
  | none =>
    simp only [List.mapM_cons, mapM_operands, hoperand, render_stringLiteral hget hop hdtype, bind_assoc, pure_bind]
    cases others with
    | nil => simp [Layout.fill, Piece.fill, Sql.regexText, String.append_assoc]
    | cons other rest => simp [List.mapM_cons, Layout.fill, Piece.fill, Sql.regexText, String.append_assoc]

end Target

namespace Compiler

/-- A string that is the pattern of a regular expression is read back as itself, from a raw string where it can be
written as one. It is what the function over it is written with, and takes no part in whether that succeeds. -/
theorem pattern_literals_read_back (s : String) :
    (∀ rest, Lexis.scanString ((Sql.patternLiteral s).toList ++ rest) =
      some (if (Sql.rawString? s).isSome then .raw else .plain, s.toList, rest)) ∧
    ∀ naming params before middle after arity e arg label others,
      Formatter.bigQuery.get? e.kind = some (.regex before middle after arity) →
      e.operands = arg :: ⟨.literal (.string s), .string, label⟩ :: others → others.length + 2 = arity →
      ((bigQuery naming).target params).render e = (do
        let subject ← ((bigQuery naming).target params).render arg
        let texts ← others.mapM ((bigQuery naming).target params).render
        return Sql.regexText before middle after subject (Sql.patternLiteral s) texts) := by
  refine ⟨Sql.scan_patternLiteral s, ?_⟩
  intro naming params before middle after arity e arg label others hget hoperands harity
  have hliteral : ((bigQuery naming).target params).formatters.get? .literal = some .literal := by
    rw [target, bigQuery, Formatter.get_lookupOrder]
    rfl
  have hformatter : ((bigQuery naming).target params).formatters.get? e.kind =
      some (.regex before middle after arity) := hget
  rw [Target.render_eq, hformatter]
  simp only [Formatter.layout, hoperands, if_pos harity]
  exact Target.run_regexLayout hliteral rfl rfl

def digitsIn (column : String) : Expr :=
  .call .regexSearch [.column column none .string, .literal (.string "\\d+\\\\") .string] .bool

theorem digits_pattern_reads_back :
    ((((bigQuery .declared).target []).render (digitsIn "s")).run .start).toOption.map Prod.fst =
      some "REGEXP_CONTAINS(\x60s\x60, r'\\d+\\\\')" ∧
    Lexis.scanString "r'\\d+\\\\') AS t".toList = some (.raw, "\\d+\\\\".toList, ") AS t".toList) := by
  obtain ⟨hscan, hrender⟩ := pattern_literals_read_back "\\d+\\\\"
  refine ⟨?_, hscan ") AS t".toList⟩
  have hget : Formatter.bigQuery.get? (digitsIn "s").kind = some (.regex "REGEXP_CONTAINS(" "" ")" 2) := by
    rw [Formatter.get_lookupOrder]
    rfl
  rw [hrender .declared [] _ _ _ _ _ (.column "s" none .string) none [] hget rfl rfl, render_ordered]
  decide +kernel

end Compiler

end BigQuerySql
