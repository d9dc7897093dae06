import BigQuerySql.Sql.Layout
import BigQuerySql.Sql.Quote
import Mathlib.Data.List.Chain
import Mathlib.Data.List.Forall2

/-!
The tokens of a BigQuery text, read one character at a time. Comments and hexadecimal numbers are not
read; a text is refused where a quote stays open or a character stands for nothing outside quotes.
Reserved words are words like any other, and a name between backticks may be empty: that a text has
tokens does not say that BigQuery takes each of them where it stands.
-/

namespace BigQuerySql

namespace Lexis

inductive Token where
  | word (cs : List Char)
  | number (cs : List Char)
  | parameter (cs : List Char)
  | name (raw : List Char)
  | text
  | symbol (c : Char)
deriving DecidableEq, Repr

inductive Quote where
  | single
  | double
deriving DecidableEq, Repr

def Quote.char : Quote → Char
  | .single => '\''
  | .double => '"'

/-- What has been read of the token that is not finished yet. In `opened` and `emptied` one and two quotes
have been read: a third one opens a string that only three quotes in a row end. -/
inductive Mode where
  | blank
  | word (cs : List Char)
  | number (cs : List Char)
  | sigil
  | parameter (cs : List Char)
  | name (raw : List Char)
  | nameEscape (raw : List Char)
  | opened (quote : Quote)
  | emptied (quote : Quote)
  | quoted (quote : Quote)
  | escaped (quote : Quote)
  | long (quote : Quote) (run : Nat)
  | longEscaped (quote : Quote)
  | stuck
deriving DecidableEq, Repr

def quote? (c : Char) : Option Quote :=
  if c = '\'' then some .single else if c = '"' then some .double else none

def isSign (c : Char) : Bool :=
  c == '+' || c == '-'

def isSymbol (c : Char) : Bool :=
  "()[]<>,.;:+-*/%=!|&^~?".toList.contains c

def isStringMark (cs : List Char) : Bool :=
  [['r'], ['b'], ['r', 'b'], ['b', 'r']].contains (cs.map Char.toLower)

def inExponent (cs : List Char) : Bool :=
  cs.getLast? == some 'e' || cs.getLast? == some 'E'

def start (c : Char) : Mode × List Token :=
  if let some q := quote? c then (.opened q, [])
  else if c = '\x60' then (.name [], [])
  else if c = '@' then (.sigil, [])
  else if c.isDigit then (.number [c], [])
  else if Sql.isLetter c || c == '_' then (.word [c], [])
  else if c.isWhitespace then (.blank, [])
  else if isSymbol c then (.blank, [.symbol c])
  else (.stuck, [])

def emit (t : Token) (r : Mode × List Token) : Mode × List Token :=
  (r.1, t :: r.2)

def advance : Mode → Char → Mode × List Token
  | .blank, c => start c
  | .word cs, c =>
    if Sql.isNameChar c then (.word (cs ++ [c]), [])
    else if isStringMark cs then
      if let some q := quote? c then (.opened q, []) else emit (.word cs) (start c)
    else emit (.word cs) (start c)
  | .number cs, c =>
    if Sql.isNameChar c || c == '.' || (isSign c && inExponent cs) then (.number (cs ++ [c]), [])
    else emit (.number cs) (start c)
  | .sigil, c =>
    if Sql.isLetter c || c == '_' then (.parameter [c], []) else (.stuck, [])
  | .parameter cs, c =>
    if Sql.isNameChar c then (.parameter (cs ++ [c]), []) else emit (.parameter cs) (start c)
  | .name raw, c =>
    if c = '\x60' then (.blank, [.name raw])
    else if c = '\\' then (.nameEscape raw, [])
    else (.name (raw ++ [c]), [])
  | .nameEscape raw, c => (.name (raw ++ ['\\', c]), [])
  | .opened q, c =>
    if c = q.char then (.emptied q, [])
    else if c = '\\' then (.escaped q, [])
    else if c = '\n' || c = '\r' then (.stuck, [])
    else (.quoted q, [])
  | .emptied q, c =>
    if c = q.char then (.long q 0, []) else emit .text (start c)
  | .quoted q, c =>
    if c = q.char then (.blank, [.text])
    else if c = '\\' then (.escaped q, [])
    else if c = '\n' || c = '\r' then (.stuck, [])
    else (.quoted q, [])
  | .escaped q, _ => (.quoted q, [])
  | .long q n, c =>
    if c = q.char then (if n = 2 then (.blank, [.text]) else (.long q (n + 1), []))
    else if c = '\\' then (.longEscaped q, [])
    else (.long q 0, [])
  | .longEscaped q, _ => (.long q 0, [])
  | .stuck, _ => (.stuck, [])

def Mode.finish : Mode → Option (List Token)
  | .blank => some []
  | .word cs => some [.word cs]
  | .number cs => some [.number cs]
  | .parameter cs => some [.parameter cs]
  | .emptied _ => some [.text]
  | _ => none

def read : Mode → List Char → Mode × List Token
  | m, [] => (m, [])
  | m, c :: cs => ((read (advance m c).1 cs).1, (advance m c).2 ++ (read (advance m c).1 cs).2)

def tokens? (cs : List Char) : Option (List Token) :=
  (read .blank cs).1.finish.map ((read .blank cs).2 ++ ·)

@[simp] theorem read_nil (m : Mode) : read m [] = (m, []) := rfl

@[simp] theorem tokens_nil : tokens? [] = some [] := rfl

theorem read_cons (m : Mode) (c : Char) (cs : List Char) :
    read m (c :: cs) = ((read (advance m c).1 cs).1,
      (advance m c).2 ++ (read (advance m c).1 cs).2) := rfl

theorem read_append (m : Mode) (u v : List Char) :
    read m (u ++ v) = ((read (read m u).1 v).1, (read m u).2 ++ (read (read m u).1 v).2) := by
  induction u generalizing m with
  | nil => simp
  | cons c u ih => simp [read_cons, ih]

theorem read_stuck (cs : List Char) : (read .stuck cs).1 = .stuck := by
  induction cs with
  | nil => rfl
  | cons c cs ih => simpa [read_cons, advance] using ih

def breaks (c : Char) : Bool :=
  !Sql.isNameChar c && (quote? c).isNone && !isSign c && c != '.'

def opens : List Char → Bool
  | [] => false
  | c :: _ => breaks c

def endsBlank (cs : List Char) : Bool :=
  (read .blank cs).1 == .blank

theorem quote_char (q : Quote) : quote? q.char = some q := by
  cases q <;> rfl

theorem advance_break {m : Mode} {ts : List Token} {c : Char} (hm : m.finish = some ts)
    (hc : breaks c) : advance m c = ((start c).1, ts ++ (start c).2) := by
  simp only [breaks, Bool.and_eq_true, Bool.not_eq_true', bne_iff_ne, Option.isNone_iff_eq_none]
    at hc
  obtain ⟨⟨⟨hn, hq⟩, hs⟩, hd⟩ := hc
  have hne (q : Quote) : c ≠ q.char := by
    rintro rfl
    simp [quote_char] at hq
  cases m <;> simp only [Mode.finish, Option.some.injEq, reduceCtorEq] at hm <;> subst hm <;>
    simp [advance, emit, hn, hq, hs, hd, hne]

theorem read_break {m : Mode} {ts : List Token} {cs : List Char} (hm : m.finish = some ts)
    (hc : opens cs) : read m cs = ((read .blank cs).1, ts ++ (read .blank cs).2) := by
  cases cs with
  | nil => simp [opens] at hc
  | cons c cs =>
    have hb : advance .blank c = start c := rfl
    rw [read_cons, read_cons, advance_break hm hc, hb]
    simp

theorem tokens_append {u v : List Char} {ts : List Token} (hu : tokens? u = some ts)
    (h : endsBlank u ∨ opens v) : tokens? (u ++ v) = (tokens? v).map (ts ++ ·) := by
  obtain ⟨last, hlast, rfl⟩ := Option.map_eq_some_iff.mp hu
  have hv : read (read .blank u).1 v = ((read .blank v).1, last ++ (read .blank v).2) := by
    rcases h with hb | ho
    · have hb : (read .blank u).1 = .blank := by simpa [endsBlank] using hb
      rw [hb] at hlast ⊢
      obtain rfl : [] = last := by simpa [Mode.finish] using hlast
      rfl
    · exact read_break hlast ho
  simp [tokens?, read_append, hv, Option.map_map, Function.comp_def]

def Separable (u v : List Char) : Prop :=
  endsBlank u ∨ opens v

theorem opens_append {u : List Char} (h : opens u) (v : List Char) : opens (u ++ v) := by
  cases u with
  | nil => simp [opens] at h
  | cons c u => exact h

theorem tokens_flatten {ws : List (List Char)} {tss : List (List Token)}
    (hf : ws.IsChain Separable) (ht : List.Forall₂ (fun w ts => tokens? w = some ts) ws tss) :
    tokens? ws.flatten = some tss.flatten := by
  induction ht with
  | nil => rfl
  | @cons w ts ws tss hw hws ih =>
    have hrest := ih hf.tail
    cases hws with
    | nil => simpa using hw
    | @cons v vs' ws' tss' hv hvs =>
      have hseparable : endsBlank w ∨ opens (v :: ws').flatten :=
        (List.isChain_cons_cons.mp hf).1.imp_right fun ho => opens_append ho _
      rw [List.flatten_cons, tokens_append hw hseparable, hrest]
      simp

example : tokens? "SELECT -1.5e-3 AS \x60a\\\x60b\x60\nFROM t_1".toList = some
    [.word "SELECT".toList, .symbol '-', .number "1.5e-3".toList, .word "AS".toList,
      .name "a\\\x60b".toList, .word "FROM".toList, .word "t_1".toList] := by decide +kernel

theorem read_stringChar (c : Char) :
    read (.quoted .single) (Sql.stringChar c) = (.quoted .single, []) := by
  unfold Sql.stringChar
  split <;> simp_all [read_cons, advance, Quote.char]

theorem read_string_body (s : List Char) :
    read (.quoted .single) (s.flatMap Sql.stringChar) = (.quoted .single, []) := by
  induction s with
  | nil => rfl
  | cons c s ih => simp [read_append, read_stringChar, ih]

theorem read_opened_stringChar (c : Char) :
    read (.opened .single) (Sql.stringChar c) = (.quoted .single, []) := by
  unfold Sql.stringChar
  split <;> simp_all [read_cons, advance, Quote.char]

theorem read_stringChars (s : List Char) :
    read .blank (Sql.stringChars s) =
      if s = [] then (.emptied .single, []) else (.blank, [.text]) := by
  cases s with
  | nil => rfl
  | cons c s =>
    have hopen : read .blank ['\''] = (.opened .single, []) := rfl
    have hclose : read (.quoted .single) ['\''] = (.blank, [.text]) := rfl
    have happ : Sql.stringChars (c :: s) =
        ['\''] ++ (Sql.stringChar c ++ (s.flatMap Sql.stringChar ++ ['\''])) := by
      simp [Sql.stringChars]
    rw [happ, read_append, hopen, read_append, read_opened_stringChar, read_append,
      read_string_body, hclose]
    simp

theorem tokens_stringChars (s : List Char) : tokens? (Sql.stringChars s) = some [.text] := by
  rw [tokens?, read_stringChars]
  split <;> rfl

theorem tokens_stringLiteral (s : String) : tokens? (Sql.stringLiteral s).toList = some [.text] := by
  rw [Sql.stringLiteral, String.toList_ofList, tokens_stringChars]

def tickChar (c : Char) : List Char :=
  if c = '\x60' then ['\\', '\x60'] else [c]

/-- Whether the closing backtick of a name is the first one that no backslash takes: a backslash of the name
takes the character after it, which must not be a backtick's own backslash or the closing backtick. -/
def closes : List Char → Bool
  | [] => true
  | '\\' :: [] => false
  | '\\' :: c :: rest => c != '\x60' && closes rest
  | _ :: rest => closes rest

theorem read_name_body {name : List Char} (h : closes name) (raw : List Char) :
    read (.name raw) (name.flatMap tickChar) = (.name (raw ++ name.flatMap tickChar), []) := by
  fun_induction closes name generalizing raw with
  | case1 => simp
  | case2 => simp at h
  | case3 c rest ih =>
    obtain ⟨hc, hrest⟩ : c ≠ '\x60' ∧ closes rest = true := by simpa using h
    simp [tickChar, hc, read_cons, advance, ih hrest]
  | case4 c rest hend hpair ih =>
    have hb : c ≠ '\\' := by
      rintro rfl
      cases rest with
      | nil => exact hend rfl rfl
      | cons d rest => exact hpair d rest rfl rfl
    rw [List.flatMap_cons, read_append]
    by_cases hc : c = '\x60'
    · simp [tickChar, hc, read_cons, advance, ih h]
    · simp [tickChar, hc, hb, read_cons, advance, ih h]

theorem read_backtickChars {name : List Char} (h : closes name) :
    read .blank (Sql.backtickChars name) = (.blank, [.name (name.flatMap tickChar)]) := by
  have hopen : read .blank ['\x60'] = (.name [], []) := rfl
  have happ : Sql.backtickChars name = ['\x60'] ++ (name.flatMap tickChar ++ ['\x60']) := rfl
  rw [happ, read_append, hopen, read_append, read_name_body h]
  simp [read_cons, advance]

theorem start_letter {c : Char} (h : Sql.isLetter c ∨ c = '_') : start c = (.word [c], []) := by
  have hne (d : Char) (hl : Sql.isLetter d = false) (hu : d ≠ '_') : c ≠ d := by
    rintro rfl
    rcases h with h | h
    · simp [hl] at h
    · exact hu h
  have hq : quote? c = none := by
    simp [quote?, hne '\'' (by decide) (by decide), hne '"' (by decide) (by decide)]
  have hd : c.isDigit = false := by
    rcases h with h | rfl
    · have hlower : '9'.val.toNat < 'a'.val.toNat := by decide
      have hupper : '9'.val.toNat < 'A'.val.toNat := by decide
      simp only [Sql.isLetter, Char.isDigit, Char.le_def, ge_iff_le, UInt32.le_iff_toNat_le, Bool.or_eq_true,
        Bool.and_eq_true, decide_eq_true_eq, Bool.and_eq_false_iff, decide_eq_false_iff_not] at h ⊢
      omega
    · decide
  simp [start, hq, hd, h, hne '\x60' (by decide) (by decide), hne '@' (by decide) (by decide)]

theorem read_word {ds : List Char} (h : ds.all Sql.isNameChar) (cs : List Char) :
    read (.word cs) ds = (.word (cs ++ ds), []) := by
  induction ds generalizing cs with
  | nil => simp
  | cons d ds ih =>
    obtain ⟨hd, hds⟩ : Sql.isNameChar d = true ∧ ds.all Sql.isNameChar = true := by simpa using h
    simp [read_cons, advance, hd, ih hds]

theorem read_parameter {ds : List Char} (h : ds.all Sql.isNameChar) (cs : List Char) :
    read (.parameter cs) ds = (.parameter (cs ++ ds), []) := by
  induction ds generalizing cs with
  | nil => simp
  | cons d ds ih =>
    obtain ⟨hd, hds⟩ : Sql.isNameChar d = true ∧ ds.all Sql.isNameChar = true := by simpa using h
    simp [read_cons, advance, hd, ih hds]

theorem read_bareName {name : List Char} (h : Sql.isBareName name) :
    read .blank name = (.word name, []) := by
  cases name with
  | nil => simp [Sql.isBareName] at h
  | cons c rest =>
    obtain ⟨hc, hrest⟩ : Sql.isLetter c = true ∧ rest.all Sql.isNameChar = true := by
      simpa [Sql.isBareName] using h
    have hstart : advance .blank c = (.word [c], []) := start_letter (.inl hc)
    simp [read_cons, hstart, read_word hrest]

def identifierToken (name : String) : Token :=
  if Sql.isBareName name.toList then .word name.toList else .name (name.toList.flatMap tickChar)

theorem closes_of_not_mem {name : List Char} (h : '\\' ∉ name) : closes name := by
  fun_induction closes name with
  | case1 => rfl
  | case2 => simp at h
  | case3 => simp at h
  | case4 c rest hend hpair ih => exact ih fun hr => h (List.mem_cons_of_mem c hr)

theorem tokens_identifier {name : String} (h : closes name.toList) :
    tokens? (Sql.identifier name).toList = some [identifierToken name] := by
  unfold Sql.identifier identifierToken
  split
  next hb => simp [tokens?, read_bareName hb, Mode.finish]
  next => simp [Sql.backtick, tokens?, read_backtickChars h, Mode.finish]

def digit? (base : Nat) (c : Char) : Option Nat :=
  let value := if c.isDigit then some (c.toNat - 48)
    else if 'a' ≤ c && c ≤ 'f' then some (c.toNat - 87)
    else if 'A' ≤ c && c ≤ 'F' then some (c.toNat - 55)
    else none
  value.filter (· < base)

def coded? (base count : Nat) (cs : List Char) : Option Char := do
  let digits ← (cs.take count).mapM (digit? base)
  if digits.length = count then
    some (Char.ofNat (digits.foldl (fun n d => base * n + d) 0))
  else none

def escape? : List Char → Option (Char × Nat)
  | [] => none
  | c :: rest =>
    match c with
    | 'a' => some ('\x07', 1)
    | 'b' => some ('\x08', 1)
    | 'f' => some ('\x0c', 1)
    | 'n' => some ('\n', 1)
    | 'r' => some ('\r', 1)
    | 't' => some ('\t', 1)
    | 'v' => some ('\x0b', 1)
    | 'x' => (coded? 16 2 rest).map (·, 3)
    | 'X' => (coded? 16 2 rest).map (·, 3)
    | 'u' => (coded? 16 4 rest).map (·, 5)
    | 'U' => (coded? 16 8 rest).map (·, 9)
    | c =>
      if ['\\', '?', '"', '\'', '\x60'].contains c then some (c, 1)
      else (coded? 8 3 (c :: rest)).map (·, 3)

def unescapeFrom : Nat → List Char → Option (List Char)
  | _, [] => some []
  | taken + 1, _ :: rest => unescapeFrom taken rest
  | 0, c :: rest =>
    if c = '\\' then
      match escape? rest with
      | some (d, taken) => (unescapeFrom taken rest).map (d :: ·)
      | none => none
    else (unescapeFrom 0 rest).map (c :: ·)

def unescape (raw : List Char) : Option (List Char) :=
  unescapeFrom 0 raw

def Token.spelling? : Token → Option (List Char)
  | .word cs => some cs
  | .parameter cs => some cs
  | .name raw => unescape raw
  | _ => none

theorem unescape_tickChar {c : Char} (hc : c ≠ '\\') (rest : List Char) :
    unescape (tickChar c ++ rest) = (unescape rest).map (c :: ·) := by
  by_cases ht : c = '\x60'
  · have he : escape? ('\x60' :: rest) = some ('\x60', 1) := by simp [escape?]
    simp [unescape, tickChar, ht, unescapeFrom, he]
  · simp [unescape, tickChar, ht, unescapeFrom, hc]

theorem unescape_name {name : List Char} (h : '\\' ∉ name) :
    unescape (name.flatMap tickChar) = some name := by
  induction name with
  | nil => rfl
  | cons c rest ih =>
    obtain ⟨hc, hrest⟩ : '\\' ≠ c ∧ '\\' ∉ rest := by simpa using h
    rw [List.flatMap_cons, unescape_tickChar hc.symm, ih hrest]
    rfl

theorem spelling_identifierToken {name : String} (h : '\\' ∉ name.toList) :
    (identifierToken name).spelling? = some name.toList := by
  unfold identifierToken
  split
  next => rfl
  next => exact unescape_name h

def readable : Piece → Bool
  | .text s => (tokens? s.toList).isSome
  | .part _ => true

def meets : Piece → Piece → Bool
  | .text s, .text r => endsBlank s.toList || opens r.toList
  | .text s, .part _ => endsBlank s.toList
  | .part _, .text r => opens r.toList
  | .part _, .part _ => false

def Joined (pieces : List Piece) : Prop :=
  (∀ p ∈ pieces, readable p) ∧ pieces.IsChain fun p q => meets p q

theorem meets_opens (p : Piece) {s : String} (h : opens s.toList) : meets p (.text s) := by
  cases p with
  | text r => simp [meets, h]
  | part i => exact h

theorem meets_endsBlank {s : String} (h : endsBlank s.toList) (q : Piece) : meets (.text s) q := by
  cases q with
  | text r => simp [meets, h]
  | part i => exact h

theorem joined_separated {ps qs : List Piece} {s : String} (hp : Joined ps) (hq : Joined qs)
    (hs : readable (.text s)) (ho : opens s.toList) (he : endsBlank s.toList) :
    Joined (ps ++ .text s :: qs) := by
  refine ⟨?_, List.isChain_append.mpr ⟨hp.2, List.isChain_cons.mpr ⟨?_, hq.2⟩, ?_⟩⟩
  · intro p hmem
    rcases List.mem_append.mp hmem with hmem | hmem
    · exact hp.1 p hmem
    · rcases List.mem_cons.mp hmem with rfl | hmem
      · exact hs
      · exact hq.1 p hmem
  · exact fun q _ => meets_endsBlank he q
  · intro p _ q hq
    obtain rfl : Piece.text s = q := by simpa using hq
    exact meets_opens p ho

def partTokens (texts : List String) (i : Nat) : List Token :=
  (tokens? (texts.getD i "").toList).getD []

def spell (parts : Nat → List Token) : Piece → List Token
  | .text s => (tokens? s.toList).getD []
  | .part i => parts i

theorem tokens_pieces {pieces : List Piece} {texts : List String} (h : Joined pieces)
    (hp : ∀ i, .part i ∈ pieces → (tokens? (texts.getD i "").toList).isSome) :
    tokens? (String.join (pieces.map (·.fill texts))).toList =
      some (pieces.flatMap (spell (partTokens texts))) := by
  have hflat : (String.join (pieces.map (·.fill texts))).toList =
      (pieces.map fun p => (p.fill texts).toList).flatten := by
    simp [String.toList_join, List.flatMap_def, Function.comp_def]
  rw [hflat, List.flatMap_def]
  refine tokens_flatten ?_ ?_
  · refine (List.isChain_map _).mpr (h.2.imp fun p q hpq => ?_)
    cases p with
    | text s =>
      cases q with
      | text r => simpa [Separable, Piece.fill, meets] using hpq
      | part j => exact .inl hpq
    | part i =>
      cases q with
      | text r => exact .inr hpq
      | part j => simp [meets] at hpq
  · refine List.forall₂_map_left_iff.mpr (List.forall₂_map_right_iff.mpr ?_)
    refine List.forall₂_same.mpr fun p hmem => ?_
    cases p with
    | text s =>
      obtain ⟨ts, hts⟩ := Option.isSome_iff_exists.mp (h.1 _ hmem)
      simp [Piece.fill, spell, hts]
    | part i =>
      obtain ⟨ts, hts⟩ := Option.isSome_iff_exists.mp (hp i hmem)
      simp only [Piece.fill, spell, partTokens, hts, Option.getD_some]

end Lexis

end BigQuerySql
