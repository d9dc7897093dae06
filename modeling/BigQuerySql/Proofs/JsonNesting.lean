import BigQuerySql.Proofs.JsonText

/-!
Objects that are written one after another with nothing between them. A scanner that follows brackets and strings, and
stops where no object goes on so, tells the gaps between the objects from the places inside them: a text of objects that
stands at the end of another one begins in a gap.
-/

namespace BigQuerySql

namespace Json

/-- What a place in a text is in: among brackets, words and marks, in a string, in an escape in a string, or right
behind a string. -/
inductive Zone where
  | plain
  | string
  | escape
  | behind
deriving DecidableEq, Repr

structure Place where
  depth : Nat
  zone : Zone
deriving DecidableEq, Repr

def opensBracket (c : Char) : Bool :=
  c == '{' || c == '['

def closesBracket (c : Char) : Bool :=
  c == '}' || c == ']'

def separates (c : Char) : Bool :=
  c == ',' || c == ':'

def isEscape (c : Char) : Bool :=
  c == 'u' || (simpleEscape? c).isSome

def isPlain (c : Char) : Bool :=
  !opensBracket c && !closesBracket c && c != '"'

namespace Place

def gap : Place := ⟨0, .plain⟩

/-- The place behind a character, if an object can go on with it. In a gap only an object begins. -/
def next : Place → Char → Option Place
  | ⟨0, .plain⟩, c => if c = '{' then some ⟨1, .plain⟩ else none
  | ⟨0, _⟩, _ => none
  | ⟨d + 1, .plain⟩, c =>
    if opensBracket c then some ⟨d + 2, .plain⟩
    else if closesBracket c then some ⟨d, .plain⟩
    else if c = '"' then some ⟨d + 1, .string⟩
    else some ⟨d + 1, .plain⟩
  | ⟨d + 1, .string⟩, c =>
    if c = '"' then some ⟨d + 1, .behind⟩
    else if c = '\\' then some ⟨d + 1, .escape⟩
    else some ⟨d + 1, .string⟩
  | ⟨d + 1, .escape⟩, c => if isEscape c then some ⟨d + 1, .string⟩ else none
  | ⟨d + 1, .behind⟩, c =>
    if closesBracket c then some ⟨d, .plain⟩
    else if separates c then some ⟨d + 1, .plain⟩
    else none

def scan (p : Place) (cs : List Char) : Option Place :=
  cs.foldlM next p

@[simp] theorem scan_nil (p : Place) : p.scan [] = some p := rfl

theorem scan_cons (p : Place) (c : Char) (cs : List Char) : p.scan (c :: cs) = (p.next c).bind fun q => q.scan cs :=
  List.foldlM_cons

theorem scan_append (p : Place) (cs ds : List Char) : p.scan (cs ++ ds) = (p.scan cs).bind fun q => q.scan ds :=
  List.foldlM_append

theorem scan_append_some {p q : Place} {cs ds : List Char} (h : p.scan (cs ++ ds) = some q) :
    ∃ r, p.scan cs = some r ∧ r.scan ds = some q := by
  rw [scan_append] at h
  exact Option.bind_eq_some_iff.mp h

def within (k : Nat) (p : Place) : Place := ⟨p.depth + k, p.zone⟩

theorem next_within {p q : Place} {c : Char} (h : p.next c = some q) (k : Nat) :
    (p.within k).next c = some (q.within k) := by
  obtain ⟨_ | d, zone⟩ := p
  · cases zone with
    | plain =>
      obtain ⟨rfl, rfl⟩ : c = '{' ∧ (⟨1, .plain⟩ : Place) = q := by simpa [next] using h
      cases k with
      | zero => rfl
      | succ k =>
        have hdepth : 0 + (k + 1) = k + 1 := by omega
        simp only [within, hdepth, next, opensBracket, beq_self_eq_true, Bool.true_or, if_true, Option.some.injEq,
          mk.injEq, and_true]
        omega
    | _ => simp [next] at h
  · have hdepth : d + 1 + k = d + k + 1 := by omega
    cases zone <;> simp only [next, within, hdepth] at h ⊢ <;> split_ifs at h ⊢ <;> cases h <;>
      simp only [Option.some.injEq, mk.injEq, and_true] <;> omega

theorem scan_within {p q : Place} {cs : List Char} (h : p.scan cs = some q) (k : Nat) :
    (p.within k).scan cs = some (q.within k) := by
  induction cs generalizing p with
  | nil =>
    obtain rfl : p = q := by simpa using h
    rfl
  | cons c cs ih =>
    rw [scan_cons] at h
    obtain ⟨r, hr, hq⟩ := Option.bind_eq_some_iff.mp h
    rw [scan_cons, next_within hr k]
    exact ih hq

theorem closesBracket_of_next_gap {p : Place} {c : Char} (h : p.next c = some gap) : closesBracket c = true := by
  by_contra hc
  obtain ⟨_ | d, zone⟩ := p
  · cases zone <;> simp [next, gap] at h
  · cases zone <;> simp only [next, if_neg hc] at h <;> split_ifs at h <;> simp [gap] at h

theorem closesBracket_of_scan_gap {p : Place} {cs : List Char} {c : Char} (h : p.scan (cs ++ [c]) = some gap) :
    closesBracket c = true := by
  obtain ⟨q, -, hq⟩ := scan_append_some h
  rw [scan_cons] at hq
  obtain ⟨r, hr, hlast⟩ := Option.bind_eq_some_iff.mp hq
  obtain rfl : r = gap := by simpa using hlast
  exact closesBracket_of_next_gap hr

def Begins (cs : List Char) : Prop :=
  ∃ c rest, cs = '{' :: '"' :: c :: rest ∧ closesBracket c = false ∧ separates c = false

theorem scan_gap_of_append {cs ds : List Char} (h : gap.scan (cs ++ ds) = some gap) (hds : gap.scan ds = some gap)
    (hbegins : Begins ds) : gap.scan cs = some gap := by
  obtain ⟨⟨depth, zone⟩, hcs, hrest⟩ := scan_append_some h
  obtain ⟨c, rest, rfl, hclose, hseparate⟩ := hbegins
  cases zone with
  | plain =>
    -- from here the text comes back to the depth it began with, which is that of the end
    have hback := scan_within hds depth
    have hstart : gap.within depth = ⟨depth, .plain⟩ := by simp [within, gap]
    rw [hstart, hrest] at hback
    rw [hcs, ← hback]
  | string => cases depth <;> simp [scan_cons, next, hclose, hseparate] at hrest
  | escape => cases depth <;> simp [scan_cons, next, isEscape, simpleEscape?] at hrest
  | behind => cases depth <;> simp [scan_cons, next, closesBracket, separates] at hrest

end Place

open Place

/-- A text inside brackets behind which there may be a mark or a closing bracket. -/
def Settles (cs : List Char) : Prop :=
  ∀ d, ∃ zone, (zone = .plain ∨ zone = .behind) ∧ (⟨d + 1, .plain⟩ : Place).scan cs = some ⟨d + 1, zone⟩

theorem settles_of_plain {cs : List Char} (h : ∀ c ∈ cs, isPlain c = true) : Settles cs := by
  intro d
  refine ⟨.plain, .inl rfl, ?_⟩
  induction cs with
  | nil => rfl
  | cons c cs ih =>
    have hc := h c (by simp)
    simp only [isPlain, Bool.and_eq_true, Bool.not_eq_true', bne_iff_ne, ne_eq] at hc
    rw [scan_cons, next, if_neg (by simp [hc.1.1]), if_neg (by simp [hc.1.2]), if_neg hc.2]
    exact ih fun x hx => h x (by simp [hx])

theorem scan_escapeChar (d : Nat) (c : Char) :
    (⟨d + 1, .string⟩ : Place).scan (escapeChar c) = some ⟨d + 1, .string⟩ := by
  have hdigit : ∀ n < 16, Nat.digitChar n ≠ '"' ∧ Nat.digitChar n ≠ '\\' := by decide
  unfold escapeChar
  split
  case h_8 hquote hbackslash _ _ _ _ _ =>
    split
    next hcontrol =>
      have hhigh := hdigit (c.toNat / 16) (by omega)
      have hlow := hdigit (c.toNat % 16) (by omega)
      simp [scan_cons, next, isEscape, hhigh, hlow]
    next => rw [scan_cons, next, if_neg hquote, if_neg hbackslash, Option.bind_some, scan_nil]
  all_goals simp [scan_cons, next, isEscape, simpleEscape?]

theorem settles_quoted (s : String) : Settles (quoted s) := by
  intro d
  have hinside : ∀ cs : List Char,
      (⟨d + 1, .string⟩ : Place).scan (cs.flatMap escapeChar) = some ⟨d + 1, .string⟩ := by
    intro cs
    induction cs with
    | nil => rfl
    | cons c cs ih => rw [List.flatMap_cons, scan_append, scan_escapeChar, Option.bind_some, ih]
  refine ⟨.behind, .inr rfl, ?_⟩
  rw [quoted, scan_cons]
  simp [next, opensBracket, closesBracket, scan_append, hinside, scan_cons]

theorem Settles.separated {cs ds : List Char} (hcs : Settles cs) (hds : Settles ds) {c : Char}
    (hc : c = ',' ∨ c = ':') : Settles (cs ++ c :: ds) := by
  intro d
  obtain ⟨zone, hzone, hscan⟩ := hcs d
  have hnext : (⟨d + 1, zone⟩ : Place).next c = some ⟨d + 1, .plain⟩ := by
    rcases hzone with rfl | rfl <;> rcases hc with rfl | rfl <;> rfl
  rw [scan_append, hscan, Option.bind_some, scan_cons, hnext]
  exact hds d

theorem Settles.scan_close {cs : List Char} (h : Settles cs) {c : Char} (hc : c = '}' ∨ c = ']') (d : Nat) :
    (⟨d + 1, .plain⟩ : Place).scan (cs ++ [c]) = some ⟨d, .plain⟩ := by
  obtain ⟨zone, hzone, hscan⟩ := h d
  have hnext : (⟨d + 1, zone⟩ : Place).next c = some ⟨d, .plain⟩ := by
    rcases hzone with rfl | rfl <;> rcases hc with rfl | rfl <;> rfl
  rw [scan_append, hscan, Option.bind_some, scan_cons, hnext]
  rfl

theorem Settles.enclosed {cs : List Char} (h : Settles cs) {left right : Char} (hleft : opensBracket left = true)
    (hright : right = '}' ∨ right = ']') : Settles (left :: (cs ++ [right])) := by
  intro d
  refine ⟨.plain, .inl rfl, ?_⟩
  rw [scan_cons, next, if_pos hleft]
  exact h.scan_close hright (d + 1)

theorem isPlain_of_isDigit {c : Char} (h : c.isDigit = true) : isPlain c = true := by
  have hne (d : Char) (hd : d.isDigit = false) : c ≠ d := by
    rintro rfl
    simp [h] at hd
  simp [isPlain, opensBracket, closesBracket, hne '{' rfl, hne '[' rfl, hne '}' rfl, hne ']' rfl, hne '"' rfl]

theorem NumberParts.WellFormed.settles {p : NumberParts} (h : p.WellFormed) : Settles p.chars := by
  have hpower : ∀ c ∈ powerChars p.power, isPlain c = true := by
    cases p.power with
    | none => simp [powerChars]
    | some power =>
      intro c hc
      simp only [powerChars, List.mem_cons] at hc
      rcases hc with rfl | rfl | hc
      · rfl
      · split <;> rfl
      · exact isPlain_of_isDigit (Nat.isDigit_of_mem_toDigits (by decide) (by decide) hc)
  apply settles_of_plain
  intro c hc
  simp only [NumberParts.chars, fractionChars, List.mem_append] at hc
  rcases hc with hc | hc | hc | hc
  · split at hc
    · obtain rfl : c = '-' := by simpa using hc
      rfl
    · simp at hc
  · exact isPlain_of_isDigit (h.whole_digits c hc)
  · split at hc
    · simp at hc
    · rcases List.mem_cons.mp hc with rfl | hc
      · rfl
      · exact isPlain_of_isDigit (h.fraction_digits c hc)
  · exact hpower c hc

theorem settles_atom {j : Json} (hj : j.isComposite = false) : Settles j.chars := by
  have hnull : Settles "null".toList := settles_of_plain (List.all_eq_true.mp (by decide))
  cases j with
  | unreadable => exact hnull
  | null => exact hnull
  | bool b => cases b <;> exact settles_of_plain (List.all_eq_true.mp (by decide))
  | int i =>
    rw [chars, ← chars_intParts]
    exact (intParts_wellFormed i).settles
  | float x =>
    rw [chars]
    by_cases hx : x.isFinite = true
    · obtain ⟨p, hp, hwell, -⟩ := exists_doubleParts hx
      exact hp ▸ hwell.settles
    · rw [floatChars, if_neg hx]
      exact hnull
  | str s => exact settles_quoted s
  | arr items => exact absurd hj (by simp [isComposite])
  | obj members => exact absurd hj (by simp [isComposite])

theorem settles_items {items : List Json} (h : ∀ j ∈ items, Settles j.chars) : Settles (itemChars items) := by
  induction items with
  | nil => exact settles_of_plain (by simp [itemChars])
  | cons j others ih =>
    cases others with
    | nil => exact h j (by simp)
    | cons k others =>
      rw [itemChars_cons_cons]
      exact (h j (by simp)).separated (ih fun i hi => h i (by simp [hi])) (.inl rfl)

theorem settles_members {members : List (String × Json)} (h : ∀ m ∈ members, Settles m.2.chars) :
    Settles (memberChars members) := by
  induction members with
  | nil => exact settles_of_plain (by simp [memberChars])
  | cons m others ih =>
    have hm : Settles m.2.chars := h m (by simp)
    cases others with
    | nil => exact (settles_quoted m.1).separated hm (.inr rfl)
    | cons k others =>
      rw [memberChars_cons_cons]
      exact (settles_quoted m.1).separated (hm.separated (ih fun i hi => h i (by simp [hi])) (.inl rfl)) (.inr rfl)

theorem settles (j : Json) : Settles j.chars := by
  induction j using Json.induction_on with
  | atom j hj => exact settles_atom hj
  | arr items ih =>
    rw [chars]
    exact (settles_items ih).enclosed rfl (.inr rfl)
  | obj members ih =>
    rw [chars]
    exact (settles_members ih).enclosed rfl (.inl rfl)

theorem scan_obj (members : List (String × Json)) : gap.scan (Json.obj members).chars = some gap := by
  rw [chars, scan_cons]
  exact (settles_members fun m _ => settles m.2).scan_close (.inl rfl) 0

theorem chars_append_inj {i j : Json} {r s : List Char} (hr : Escapes continuesNumber r)
    (hs : Escapes continuesNumber s) (h : i.chars ++ r = j.chars ++ s) : i.chars = j.chars ∧ r = s := by
  have hi := readsBack i (2 * i.chars.length + 2 * j.chars.length) r (by omega) hr
  have hj := readsBack j (2 * i.chars.length + 2 * j.chars.length) s (by omega) hs
  rw [h, hj] at hi
  obtain ⟨-, rfl⟩ := Prod.mk.inj (Option.some.inj hi)
  exact ⟨List.append_cancel_right h, rfl⟩

end Json

end BigQuerySql
