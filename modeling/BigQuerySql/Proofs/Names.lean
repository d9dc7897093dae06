import BigQuerySql.Proofs.LiteralTokens
import BigQuerySql.Proofs.Shapes

namespace BigQuerySql

open Lexis

namespace Lexis

def begins : List Char → Bool
  | [] => false
  | c :: _ => !Sql.isNameChar c && (quote? c).isNone

theorem begins_of_opens {cs : List Char} (h : opens cs) : begins cs := by
  cases cs with
  | nil => simp [opens] at h
  | cons c rest =>
    simp only [opens, breaks, Bool.and_eq_true] at h
    simp [begins, h]

def startsApart (cs : List Char) : Bool :=
  cs.isEmpty || begins cs

theorem finish_apart {m : Mode} {t : Token} (hm : (∃ cs, m = .word cs) ∨ ∃ cs, m = .parameter cs)
    (ht : m.finish = some [t]) {rest : List Char} (hr : startsApart rest) :
    (read m rest).1.finish.map ((read m rest).2 ++ ·) = (tokens? rest).map (t :: ·) := by
  rcases hm with ⟨cs, rfl⟩ | ⟨cs, rfl⟩
  all_goals
    obtain rfl : _ = t := by simpa [Mode.finish] using ht
    cases rest with
    | nil => rfl
    | cons c rest =>
      obtain ⟨hname, hquote⟩ : Sql.isNameChar c = false ∧ quote? c = none := by
        simpa [startsApart, begins] using hr
      simp [tokens?, read_cons, advance, hname, hquote, emit, Option.map_map, Function.comp_def]

theorem tokens_bareName {name : List Char} (h : Sql.isBareName name) {rest : List Char}
    (hr : startsApart rest) : tokens? (name ++ rest) = (tokens? rest).map (.word name :: ·) := by
  have hfinish := finish_apart (.inl ⟨name, rfl⟩) rfl hr
  simpa [tokens?, read_append, read_bareName h] using hfinish

def isParameterName : List Char → Bool
  | [] => false
  | c :: rest => (Sql.isLetter c || c == '_') && rest.all Sql.isNameChar

theorem isNameChar_of_isParameterName {cs : List Char} (h : isParameterName cs) : ∀ c ∈ cs, Sql.isNameChar c := by
  cases cs with
  | nil => simp
  | cons c cs =>
    simp only [isParameterName, Bool.and_eq_true, Bool.or_eq_true, List.all_eq_true] at h
    intro d hd
    rcases List.mem_cons.mp hd with rfl | hd
    · rcases h.1 with hd | hd <;> simp [Sql.isNameChar, hd]
    · exact h.2 d hd

theorem read_sigil {c : Char} {rest : List Char} (h : isParameterName (c :: rest)) :
    read .blank ('@' :: c :: rest) = (.parameter (c :: rest), []) := by
  obtain ⟨hc, hrest⟩ : (Sql.isLetter c || c == '_') = true ∧ rest.all Sql.isNameChar = true := by
    simpa only [isParameterName, Bool.and_eq_true] using h
  have hsigil : advance .blank '@' = (.sigil, []) := rfl
  have hfirst : advance .sigil c = (.parameter [c], []) := by simp only [advance, hc, ↓reduceIte]
  simp [read_cons, hsigil, hfirst, read_parameter hrest]

theorem tokens_parameter {name : List Char} (h : isParameterName name) {rest : List Char}
    (hr : startsApart rest) :
    tokens? ('@' :: (name ++ rest)) = (tokens? rest).map (.parameter name :: ·) := by
  cases name with
  | nil => simp [isParameterName] at h
  | cons c cs =>
    have hfinish := finish_apart (.inr ⟨c :: cs, rfl⟩) rfl hr
    have happ : '@' :: (c :: cs ++ rest) = ('@' :: c :: cs) ++ rest := rfl
    rw [happ, tokens?, read_append, read_sigil h]
    simpa using hfinish

theorem read_parameter_cut {cs : List Char} (h : cs.all Sql.isNameChar = false) (acc : List Char) :
    ∃ before ts, (read (.parameter acc) cs).2 = .parameter (acc ++ before) :: ts ∧
      before.length < cs.length := by
  induction cs generalizing acc with
  | nil => simp at h
  | cons c cs ih =>
    by_cases hc : Sql.isNameChar c
    · have hcs : cs.all Sql.isNameChar = false := by simpa [hc] using h
      obtain ⟨before, ts, hread, hlen⟩ := ih hcs (acc ++ [c])
      refine ⟨c :: before, ts, ?_, by simpa using hlen⟩
      simpa [read_cons, advance, hc] using hread
    · refine ⟨[], ?_⟩
      simp [read_cons, advance, hc, emit]

theorem isParameterName_of_token {name : List Char} {t : Token} (h : tokens? ('@' :: name) = some [t])
    (hs : t.spelling? = some name) : isParameterName name := by
  obtain ⟨last, hlast, htokens⟩ := Option.map_eq_some_iff.mp h
  have hsigil : advance .blank '@' = (.sigil, []) := rfl
  cases name with
  | nil => simp [read_cons, hsigil, Mode.finish] at hlast
  | cons c cs =>
    by_cases hc : (Sql.isLetter c || c == '_') = true
    · have hfirst : advance .sigil c = (.parameter [c], []) := by simp only [advance, hc, ↓reduceIte]
      by_cases hcs : cs.all Sql.isNameChar
      · simp [isParameterName, hc, hcs]
      · obtain ⟨before, ts, hread, hlen⟩ := read_parameter_cut (by simpa using hcs) [c]
        have htoken : .parameter ([c] ++ before) = t := by
          have := htokens
          simp [read_cons, hsigil, hfirst, hread] at this
          exact this.1
        rw [← htoken] at hs
        have hlength := congrArg (Option.map List.length) hs
        simp [Token.spelling?] at hlength
        omega
    · have hfirst : advance .sigil c = (.stuck, []) := by
        simp only [advance, hc, Bool.false_eq_true, ↓reduceIte]
      simp [read_cons, hsigil, hfirst, read_stuck, Mode.finish] at hlast

theorem escape_taken {cs : List Char} {d : Char} {taken : Nat} (h : escape? cs = some (d, taken)) :
    0 < taken := by
  cases cs with
  | nil => simp [escape?] at h
  | cons c rest =>
    simp only [escape?] at h
    split at h <;> grind [Option.map_eq_some_iff]

theorem unescapeFrom_skip (taken : Nat) (c : Char) (cs : List Char) :
    unescapeFrom (taken + 1) (c :: cs) = unescapeFrom taken cs := rfl

theorem unescapeFrom_length {name : List Char} : ∀ {taken : Nat} {d : List Char},
    unescapeFrom taken (name.flatMap tickChar) = some d → d.length ≤ name.length := by
  induction name with
  | nil =>
    intro taken d h
    obtain rfl : [] = d := by cases taken <;> simpa [unescapeFrom] using h
    rfl
  | cons c rest ih =>
    intro taken d h
    rw [List.flatMap_cons] at h
    by_cases hc : c = '\x60'
    · rw [tickChar, if_pos hc] at h
      cases taken with
      | zero =>
        have hesc : escape? ('\x60' :: rest.flatMap tickChar) = some ('\x60', 1) := by simp [escape?]
        obtain ⟨d, hd, rfl⟩ : ∃ d', unescapeFrom 0 (rest.flatMap tickChar) = some d' ∧ '\x60' :: d' = d := by
          simpa [unescapeFrom, hesc] using h
        simpa using ih hd
      | succ taken =>
        cases taken with
        | zero =>
          obtain ⟨d, hd, rfl⟩ : ∃ d', unescapeFrom 0 (rest.flatMap tickChar) = some d' ∧ '\x60' :: d' = d := by
            simpa [unescapeFrom] using h
          simpa using ih hd
        | succ taken =>
          have hd : unescapeFrom taken (rest.flatMap tickChar) = some d := h
          exact (ih hd).trans (by simp)
    · rw [tickChar, if_neg hc] at h
      cases taken with
      | succ taken => exact (ih (unescapeFrom_skip taken c _ ▸ h)).trans (by simp)
      | zero =>
        simp only [List.singleton_append, unescapeFrom] at h
        split at h
        · split at h
          next x taken _ =>
            obtain ⟨d, hd, rfl⟩ := Option.map_eq_some_iff.mp h
            simpa using ih hd
          next => simp at h
        · obtain ⟨d, hd, rfl⟩ := Option.map_eq_some_iff.mp h
          simpa using ih hd

theorem unescape_shorter {name d : List Char} (hcloses : closes name) (hmem : '\\' ∈ name)
    (h : unescape (name.flatMap tickChar) = some d) : d.length < name.length := by
  fun_induction closes name generalizing d with
  | case1 => simp at hmem
  | case2 => simp at hcloses
  | case3 c rest ih =>
    have hc : c ≠ '\x60' := by
      rintro rfl
      simp at hcloses
    have hbody : ('\\' :: c :: rest).flatMap tickChar = '\\' :: c :: rest.flatMap tickChar := by
      simp [tickChar, hc]
    rw [hbody, unescape, unescapeFrom, if_pos rfl] at h
    split at h
    next x taken hesc =>
      obtain ⟨d, hd, rfl⟩ := Option.map_eq_some_iff.mp h
      obtain ⟨taken, rfl⟩ : ∃ n, taken = n + 1 := ⟨taken - 1, by have := escape_taken hesc; omega⟩
      have hle := unescapeFrom_length (unescapeFrom_skip taken c _ ▸ hd)
      simp
      omega
    next => simp at h
  | case4 c rest hend hpair ih =>
    have hb : c ≠ '\\' := by
      rintro rfl
      cases rest with
      | nil => exact hend rfl rfl
      | cons d rest => exact hpair d rest rfl rfl
    rw [List.flatMap_cons, unescape_tickChar hb] at h
    obtain ⟨d, hd, rfl⟩ := Option.map_eq_some_iff.mp h
    have hrest : '\\' ∈ rest := by
      rcases List.mem_cons.mp hmem with rfl | hrest
      · exact absurd rfl hb
      · exact hrest
    simpa using ih hcloses hrest hd

theorem tokens_backtick {name : List Char} (h : closes name) (rest : List Char) :
    tokens? (Sql.backtickChars name ++ rest) =
      (tokens? rest).map (.name (name.flatMap tickChar) :: ·) := by
  have hname : tokens? (Sql.backtickChars name) = some [.name (name.flatMap tickChar)] := by
    simp [tokens?, read_backtickChars h, Mode.finish]
  have hblank : endsBlank (Sql.backtickChars name) := by
    simp [endsBlank, read_backtickChars h]
  rw [tokens_append hname (.inl hblank)]
  rfl

theorem closes_of_tokens {name : List Char} {ts : List Token}
    (h : tokens? (Sql.backtickChars name) = some ts) : closes name := by
  by_contra hopen
  have htrap : trapped (read .blank (Sql.backtickChars name)).1 := read_open_backtick (by simpa using hopen)
  simp [tokens?, finish_unfinished (trapped_unfinished htrap)] at h

theorem isNameChar_of_isBareName {name : List Char} (h : Sql.isBareName name) :
    ∀ c ∈ name, Sql.isNameChar c = true := by
  cases name with
  | nil => simp
  | cons c rest =>
    obtain ⟨hc, hrest⟩ : Sql.isLetter c = true ∧ ∀ d ∈ rest, Sql.isNameChar d = true := by
      simpa [Sql.isBareName] using h
    intro d hmem
    rcases List.mem_cons.mp hmem with rfl | hmem
    · simp [Sql.isNameChar, hc]
    · exact hrest d hmem

theorem not_mem_of_isBareName {name : List Char} (h : Sql.isBareName name) : '\\' ∉ name :=
  fun hmem => absurd (isNameChar_of_isBareName h _ hmem) (by decide)

end Lexis

inductive NameUse where
  | quoted (name : String)
  | identifier (name : String)
  | parameter (name : String)
deriving DecidableEq, Repr

namespace NameUse

def name : NameUse → String
  | .quoted name => name
  | .identifier name => name
  | .parameter name => name

def text : NameUse → String
  | .quoted name => Sql.backtick name
  | .identifier name => Sql.identifier name
  | .parameter name => "@" ++ name

def Plain : NameUse → Prop
  | .quoted name => '\\' ∉ name.toList
  | .identifier name => '\\' ∉ name.toList
  | .parameter name => isParameterName name.toList

instance : (u : NameUse) → Decidable u.Plain
  | .quoted name => inferInstanceAs (Decidable ('\\' ∉ name.toList))
  | .identifier name => inferInstanceAs (Decidable ('\\' ∉ name.toList))
  | .parameter name => inferInstanceAs (Decidable (isParameterName name.toList = true))

/-- Before the text that follows it, the name is written as one token, which spells it and ends where it
ends. -/
def StandsAlone (u : NameUse) (after : List Char) : Prop :=
  ∃ t : Token, t.spelling? = some u.name.toList ∧ tokens? u.text.toList = some [t] ∧
    tokens? (u.text.toList ++ after) = (tokens? after).map (t :: ·)

theorem backtick_standsAlone (name : String) (after : List Char) :
    (quoted name).StandsAlone after ↔ '\\' ∉ name.toList := by
  have htext : (quoted name).text.toList = Sql.backtickChars name.toList := String.toList_ofList
  rw [StandsAlone, htext]
  constructor
  · rintro ⟨t, hspell, htoken, -⟩ hmem
    have hcloses := closes_of_tokens htoken
    have hname := tokens_backtick hcloses []
    obtain rfl : .name (name.toList.flatMap tickChar) = t := by
      simpa [htoken, eq_comm] using hname
    exact absurd (unescape_shorter hcloses hmem hspell) (lt_irrefl _)
  · intro hplain
    have hcloses := closes_of_not_mem hplain
    refine ⟨.name (name.toList.flatMap tickChar), unescape_name hplain, ?_, tokens_backtick hcloses after⟩
    simpa using tokens_backtick hcloses []

theorem standsAlone_iff (u : NameUse) {after : List Char} (h : startsApart after) :
    u.StandsAlone after ↔ u.Plain := by
  cases u with
  | quoted name => exact backtick_standsAlone name after
  | identifier name =>
    by_cases hbare : Sql.isBareName name.toList
    · have htext : (identifier name).text = name := by simp [text, Sql.identifier, hbare]
      refine iff_of_true ⟨.word name.toList, rfl, ?_, ?_⟩ (not_mem_of_isBareName hbare)
      · rw [htext]
        have htoken : tokens? (name.toList ++ []) = _ := tokens_bareName hbare rfl
        simpa using htoken
      · rw [htext]
        exact tokens_bareName hbare h
    · have htext : (identifier name).text = (quoted name).text := by simp [text, Sql.identifier, hbare]
      rw [StandsAlone, htext]
      exact backtick_standsAlone name after
  | parameter name =>
    have htext : (parameter name).text.toList = '@' :: name.toList := by
      rw [text, String.toList_append]
      rfl
    rw [StandsAlone, htext]
    constructor
    · rintro ⟨t, hspell, htoken, -⟩
      exact isParameterName_of_token htoken hspell
    · intro hname
      refine ⟨.parameter name.toList, rfl, ?_, tokens_parameter hname h⟩
      have htoken : tokens? ('@' :: (name.toList ++ [])) = _ := tokens_parameter hname rfl
      simpa using htoken

end NameUse

inductive Segment where
  | text (s : String)
  | name (u : NameUse)
deriving DecidableEq, Repr

namespace Segment

def written : Segment → String
  | .text s => s
  | .name u => u.text

def join (segments : List Segment) : String :=
  String.join (segments.map written)

def apart : Segment → Segment → Bool
  | .text _, .text _ => true
  | .text s, .name _ => endsBlank s.toList
  | .name _, .text s => begins s.toList
  | .name _, .name _ => false

theorem join_append (before after : List Segment) : join (before ++ after) = join before ++ join after := by
  simp [join, String.join_append]

theorem startsApart_after {before after : List Segment} {u : NameUse}
    (h : (before ++ .name u :: after).IsChain fun a b => apart a b) : startsApart (join after).toList := by
  have htail : (Segment.name u :: after).IsChain fun a b => apart a b := (List.isChain_append.mp h).2.1
  cases after with
  | nil => rfl
  | cons next rest =>
    have hnext := (List.isChain_cons_cons.mp htail).1
    cases next with
    | name v => simp [apart] at hnext
    | text s =>
      have hs : begins s.toList := hnext
      have hjoin : (join (.text s :: rest)).toList = s.toList ++ (join rest).toList := by
        simp [join, written, String.join_cons]
      rw [hjoin]
      cases hchars : s.toList with
      | nil => simp [hchars, begins] at hs
      | cons c cs => simpa [hchars, startsApart, begins] using hs

end Segment

/-- The names in a text are these, and no other, and the text around each keeps away from it. -/
def Marked (names : NameUse → Prop) (w : String) : Prop :=
  ∃ segments : List Segment, segments ≠ [] ∧ w = Segment.join segments ∧
    (segments.IsChain fun a b => a.apart b) ∧ ∀ u, .name u ∈ segments ↔ names u

theorem Marked.congr {names others : NameUse → Prop} {w : String} (h : Marked names w)
    (hn : ∀ u, names u ↔ others u) : Marked others w := by
  obtain ⟨segments, hne, hw, hchain, hmem⟩ := h
  exact ⟨segments, hne, hw, hchain, fun u => (hmem u).trans (hn u)⟩

theorem marked_text (w : String) : Marked (fun _ => False) w :=
  ⟨[.text w], by simp, by simp [Segment.join, Segment.written], by simp, by simp⟩

theorem marked_name (u : NameUse) : Marked (fun v => v = u) u.text :=
  ⟨[.name u], by simp, by simp [Segment.join, Segment.written], by simp, by simp⟩

namespace Piece

def keepsAway : Piece → Piece → Bool
  | .text _, .text _ => true
  | .text s, .part _ => endsBlank s.toList
  | .part _, .text s => begins s.toList
  | .part _, .part _ => false

theorem keepsAway_of_meets {p q : Piece} (h : meets p q) : p.keepsAway q := by
  cases p with
  | text s =>
    cases q with
    | text r => rfl
    | part j => exact h
  | part i =>
    cases q with
    | text r => exact begins_of_opens h
    | part j => simp [meets] at h

def segments (parts : Nat → List Segment) : Piece → List Segment
  | .text s => [.text s]
  | .part i => parts i

theorem segments_apart {parts : Nat → List Segment} {p q : Piece} (h : p.keepsAway q) :
    ∀ a ∈ (p.segments parts).getLast?, ∀ b ∈ (q.segments parts).head?, Segment.apart a b := by
  intro a ha b hb
  cases p with
  | text s =>
    obtain rfl : .text s = a := by simpa [segments] using ha
    cases b with
    | text r => rfl
    | name u =>
      cases q with
      | text r => simp [segments] at hb
      | part j => exact h
  | part i =>
    cases q with
    | text r =>
      obtain rfl : .text r = b := by simpa [segments] using hb
      cases a with
      | text s => rfl
      | name u => exact h
    | part j => simp [keepsAway] at h

end Piece

theorem Segment.join_flatMap {α : Type} {f : α → String} {g : α → List Segment} {xs : List α}
    (h : ∀ x ∈ xs, f x = join (g x)) : String.join (xs.map f) = join (xs.flatMap g) := by
  induction xs with
  | nil => rfl
  | cons x xs ih =>
    obtain ⟨hx, hxs⟩ := List.forall_mem_cons.mp h
    rw [List.map_cons, String.join_cons, List.flatMap_cons, join_append, hx, ih hxs]

theorem marked_pieces {pieces : List Piece} {texts : List String} {names : Nat → NameUse → Prop}
    (hchain : pieces.IsChain fun p q => p.keepsAway q)
    (hparts : ∀ i, .part i ∈ pieces → Marked (names i) (texts.getD i "")) :
    Marked (fun u => ∃ i, .part i ∈ pieces ∧ names i u) (String.join (pieces.map (·.fill texts))) := by
  by_cases hne : pieces = []
  · subst hne
    exact (marked_text "").congr (by simp)
  simp only [Marked] at hparts
  choose! parts hpne hpw hpc hpm using hparts
  have hsegments : ∀ p ∈ pieces, p.segments parts ≠ [] ∧ p.fill texts = Segment.join (p.segments parts) ∧
      ((p.segments parts).IsChain fun a b => a.apart b) := by
    intro p hp
    cases p with
    | text s => simp [Piece.segments, Piece.fill, Segment.join, Segment.written]
    | part i => exact ⟨hpne i hp, hpw i hp, hpc i hp⟩
  refine ⟨pieces.flatMap (Piece.segments parts), ?_, ?_, ?_, fun u => ?_⟩
  · obtain ⟨p, rest, rfl⟩ := List.exists_cons_of_ne_nil hne
    simp [(hsegments p (by simp)).1]
  · exact Segment.join_flatMap fun p hp => (hsegments p hp).2.1
  · rw [List.flatMap_def, List.isChain_flatten]
    · refine ⟨?_, (List.isChain_map _).mpr (hchain.imp fun p q h => Piece.segments_apart h)⟩
      intro l hl
      obtain ⟨p, hp, rfl⟩ := List.mem_map.mp hl
      exact (hsegments p hp).2.2
    · intro hnil
      obtain ⟨p, hp, hempty⟩ := List.mem_map.mp hnil
      exact (hsegments p hp).1 hempty
  · rw [List.mem_flatMap]
    constructor
    · rintro ⟨p, hp, hu⟩
      cases p with
      | text s => simp [Piece.segments] at hu
      | part i => exact ⟨i, hp, (hpm i hp u).mp hu⟩
    · rintro ⟨i, hi, hu⟩
      exact ⟨.part i, hi, (hpm i hi u).mpr hu⟩

theorem marked_listed {α : Type} {names : α → NameUse → Prop} {xs : List α} {texts : List String}
    {pieces : List Piece} (h : List.Forall₂ (fun x w => Marked (names x) w) xs texts)
    (hchain : pieces.IsChain fun p q => p.keepsAway q) (hcovers : ∀ i, .part i ∈ pieces ↔ i < xs.length) :
    Marked (fun u => ∃ x ∈ xs, names x u) (String.join (pieces.map (·.fill texts))) := by
  have hparts : ∀ i, .part i ∈ pieces →
      Marked (fun u => ∃ x, xs[i]? = some x ∧ names x u) (texts.getD i "") := by
    intro i hi
    have hx : xs[i]? = some (xs.get ⟨i, (hcovers i).mp hi⟩) := by simp
    exact (forall₂_getD h hx).congr fun u => by simp [hx]
  refine (marked_pieces hchain hparts).congr fun u => ⟨?_, ?_⟩
  · rintro ⟨i, -, x, hx, hu⟩
    exact ⟨x, List.mem_of_getElem? hx, hu⟩
  · rintro ⟨x, hx, hu⟩
    obtain ⟨i, hi⟩ := List.mem_iff_getElem?.mp hx
    exact ⟨i, (hcovers i).mpr (List.getElem?_eq_some_iff.mp hi).1, x, hi, hu⟩

theorem Layout.fill_parts (separator : String) (before texts : List String) :
    String.join ((Layout.parts separator before.length texts.length).map (·.fill (before ++ texts))) =
      String.intercalate separator texts := by
  induction texts generalizing before with
  | nil => rfl
  | cons w texts ih =>
    have hfill : (Piece.part before.length).fill (before ++ w :: texts) = w := by simp [Piece.fill]
    cases texts with
    | nil => simp [Layout.parts, hfill]
    | cons v texts =>
      have hrest := ih (before ++ [w])
      rw [List.append_assoc, List.length_append] at hrest
      rw [List.length_cons, List.length_cons, Layout.parts_succ, List.map_cons, List.map_cons,
        String.join_cons, String.join_cons, hfill, String.intercalate_cons_cons, ← hrest]
      simp [Piece.fill, String.append_assoc]

theorem marked_intercalate {α : Type} {names : α → NameUse → Prop} {xs : List α} {texts : List String}
    {before after : String} (h : List.Forall₂ (fun x w => Marked (names x) w) xs texts)
    (hblank : endsBlank before.toList) (hopens : opens after.toList) :
    Marked (fun u => ∃ x ∈ xs, names x u) (before ++ String.intercalate ", " texts ++ after) := by
  have hfill : String.join ((Piece.text before :: (Layout.parts ", " 0 xs.length ++ [Piece.text after])).map
      (·.fill texts)) = before ++ String.intercalate ", " texts ++ after := by
    have hparts := Layout.fill_parts ", " [] texts
    rw [List.nil_append, List.length_nil, ← h.length_eq] at hparts
    rw [List.map_cons, List.map_append, String.join_cons, String.join_append, hparts]
    simp [Piece.fill, String.append_assoc]
  rw [← hfill]
  refine marked_listed h ?_ fun i => ?_
  · refine List.isChain_cons.mpr ⟨fun q _ => Piece.keepsAway_of_meets (meets_endsBlank hblank q), ?_⟩
    refine List.isChain_append.mpr ⟨(Layout.joined_parts 0 _).2.imp fun p q hpq =>
      Piece.keepsAway_of_meets hpq, by simp, fun p _ q hq => ?_⟩
    obtain rfl : Piece.text after = q := by simpa using hq
    exact Piece.keepsAway_of_meets (meets_opens p hopens)
  · have hmem : .part i ∈ Layout.parts ", " 0 xs.length ↔ 0 ≤ i ∧ i < 0 + xs.length := Layout.mem_parts
    simp [hmem]

theorem marked_open {names : NameUse → Prop} {w : String} (hw : Marked names w) {before : String}
    (hblank : endsBlank before.toList) : Marked names (before ++ w) := by
  have hlisted : List.Forall₂ (fun N w => Marked N w) [names] [w] := .cons hw .nil
  have hmarked : Marked _ (String.join ([Piece.text before, .part 0].map (·.fill [w]))) :=
    marked_listed hlisted (by simpa [Piece.keepsAway] using hblank) (fun i => by simp)
  simpa [Piece.fill] using hmarked

theorem marked_around {names : NameUse → Prop} {w : String} (hw : Marked names w) {before after : String}
    (hblank : endsBlank before.toList) (hopens : opens after.toList) :
    Marked names (before ++ w ++ after) := by
  have hlisted : List.Forall₂ (fun N w => Marked N w) [names] [w] := .cons hw .nil
  simpa using marked_intercalate hlisted hblank hopens

theorem marked_pair {names others : NameUse → Prop} {w v : String} (hw : Marked names w)
    (hv : Marked others v) {separator : String} (hblank : endsBlank separator.toList)
    (hbegins : begins separator.toList) :
    Marked (fun u => names u ∨ others u) (w ++ (separator ++ v)) := by
  have hlisted : List.Forall₂ (fun N w => Marked N w) [names, others] [w, v] := .cons hw (.cons hv .nil)
  have hmarked : Marked _ (String.join ([Piece.part 0, .text separator, .part 1].map (·.fill [w, v]))) :=
    marked_listed hlisted (by simp [Piece.keepsAway, hblank, hbegins]) (fun i => by simp; omega)
  simpa [Piece.fill] using hmarked

namespace Value

theorem keys_plain {v : Value} (h : v.isComposite = false) : v.keys = [] := by
  cases v <;> simp_all [isComposite, keys]

theorem marked_literal {v : Value} : ∀ {t : DataType} {a : String}, v.literal t = .ok a →
    Marked (fun u => u ∈ v.keys.map NameUse.quoted) a := by
  induction v using Value.induction_on with
  | plain v hv =>
    intro t a _
    exact (marked_text a).congr fun u => by simp [keys_plain hv]
  | array items ih =>
    intro t a ha
    obtain ⟨element, texts, rfl, hitems, rfl⟩ := literal_array.mp ha
    have hmarked := ((List.forall₂_and_left _ _).mpr ⟨fun x hx => @ih x hx element, hitems⟩).imp
      fun x w h => h.1 h.2
    refine (marked_intercalate hmarked (by decide) (by decide)).congr fun u => ?_
    simp only [keys, itemKeys_eq, List.map_flatMap, List.mem_flatMap]
  | struct members ih =>
    intro t a ha
    obtain ⟨fields, texts, rfl, hmembers, rfl⟩ := literal_struct.mp ha
    have hmarked : List.Forall₂ (fun m w =>
        Marked (fun u => u ∈ m.2.keys.map .quoted ∨ u = .quoted m.1) w) members texts := by
      refine ((List.forall₂_and_left _ _).mpr ⟨fun m hm => @ih m hm, hmembers⟩).imp fun m w h => ?_
      obtain ⟨field, text, -, htext, rfl⟩ := memberLiteral_ok.mp h.2
      exact marked_pair (h.1 htext) (marked_name (.quoted m.1)) (by decide) (by decide)
    refine (marked_intercalate hmarked (by decide) (by decide)).congr fun u => ?_
    simp only [keys, memberKeys_eq, List.map_flatMap, List.mem_flatMap, List.map_cons, List.mem_cons, or_comm]

end Value

namespace DataType

def isComposite : DataType → Bool
  | .array _ => true
  | .struct _ => true
  | _ => false

theorem induction_on {P : DataType → Prop} (plain : ∀ t, t.isComposite = false → P t)
    (array : ∀ element, P element → P (.array element))
    (struct : ∀ fields : List FieldType, (∀ f ∈ fields, P f.dtype) → P (.struct fields)) : ∀ t, P t
  | .array element => array element (induction_on plain array struct element)
  | .struct fields => struct fields fun f _ => induction_on plain array struct f.dtype
  | .bool => plain _ rfl
  | .int8 => plain _ rfl
  | .int16 => plain _ rfl
  | .int32 => plain _ rfl
  | .int64 => plain _ rfl
  | .uint8 => plain _ rfl
  | .uint16 => plain _ rfl
  | .uint32 => plain _ rfl
  | .uint64 => plain _ rfl
  | .float32 => plain _ rfl
  | .float64 => plain _ rfl
  | .decimal _ _ => plain _ rfl
  | .string => plain _ rfl
  | .binary => plain _ rfl
  | .date => plain _ rfl
  | .time => plain _ rfl
  | .timestamp _ => plain _ rfl
  | .interval _ => plain _ rfl
  | .geography => plain _ rfl
  | .null => plain _ rfl
  | .unknown => plain _ rfl
termination_by t => sizeOf t
decreasing_by
  · simp
  · have := List.sizeOf_lt_of_mem ‹_›
    have : sizeOf f = 1 + sizeOf f.name + sizeOf f.dtype + sizeOf f.nullable := by cases f; simp
    simp
    omega

mutual

def fieldNames : DataType → List String
  | .array element => element.fieldNames
  | .struct fields => namesOfFields fields
  | _ => []

def namesOfFields : List (Field DataType) → List String
  | [] => []
  | ⟨name, dtype, _⟩ :: rest => name :: dtype.fieldNames ++ namesOfFields rest

end

theorem namesOfFields_eq (fields : List FieldType) :
    namesOfFields fields = fields.flatMap fun f => f.name :: f.dtype.fieldNames := by
  induction fields with
  | nil => rfl
  | cons f rest ih => simp [namesOfFields, ih]

theorem fieldNames_plain {t : DataType} (h : t.isComposite = false) : t.fieldNames = [] := by
  cases t <;> simp_all [isComposite, fieldNames]

def sqlField (f : FieldType) : Except SqlError String := do
  return Sql.identifier f.name ++ " " ++ (← f.dtype.sqlName)

theorem sqlFields_eq (fields : List FieldType) : sqlFields fields = fields.mapM sqlField := by
  induction fields with
  | nil => rfl
  | cons f rest ih =>
    obtain ⟨name, dtype, nullable⟩ := f
    rw [sqlFields, List.mapM_cons, ih]
    cases hd : dtype.sqlName with
    | error error => simp [sqlField, hd, bind, Except.bind]
    | ok text => simp [sqlField, hd, bind, Except.bind, pure, Except.pure]

theorem sqlField_ok {f : FieldType} {a : String} :
    sqlField f = .ok a ↔ ∃ w, f.dtype.sqlName = .ok w ∧ a = Sql.identifier f.name ++ (" " ++ w) := by
  simp [sqlField, except_bind_ok, pure, Except.pure, String.append_assoc, @eq_comm _ a]

theorem sqlName_array {element : DataType} {a : String} (h : (DataType.array element).sqlName = .ok a) :
    ∃ w, element.sqlName = .ok w ∧ a = "ARRAY<" ++ w ++ ">" := by
  rw [sqlName] at h
  split at h
  · simp at h
  · obtain ⟨w, hw, h⟩ := except_bind_ok.mp h
    exact ⟨w, hw, by simpa [pure, Except.pure, eq_comm] using h⟩

theorem sqlName_struct {fields : List FieldType} {a : String}
    (h : (DataType.struct fields).sqlName = .ok a) :
    ∃ texts, List.Forall₂ (fun f w => sqlField f = .ok w) fields texts ∧
      a = "STRUCT<" ++ String.intercalate ", " texts ++ ">" := by
  rw [sqlName, sqlFields_eq] at h
  simpa [except_bind_ok, mapM_ok, pure, Except.pure, @eq_comm _ _ a] using h

theorem marked_sqlName {t : DataType} : ∀ {a : String}, t.sqlName = .ok a →
    Marked (fun u => u ∈ t.fieldNames.map NameUse.identifier) a := by
  induction t using DataType.induction_on with
  | plain t ht =>
    intro a _
    exact (marked_text a).congr fun u => by simp [fieldNames_plain ht]
  | array element ih =>
    intro a ha
    obtain ⟨w, hw, rfl⟩ := sqlName_array ha
    exact marked_around (ih hw) (by decide) (by decide)
  | struct fields ih =>
    intro a ha
    obtain ⟨texts, htexts, rfl⟩ := sqlName_struct ha
    have hmarked : List.Forall₂ (fun (f : FieldType) w =>
        Marked (fun u => u = .identifier f.name ∨ u ∈ f.dtype.fieldNames.map .identifier) w) fields texts := by
      refine ((List.forall₂_and_left _ _).mpr ⟨fun f hf => @ih f hf, htexts⟩).imp fun f w h => ?_
      obtain ⟨text, htext, rfl⟩ := sqlField_ok.mp h.2
      exact marked_pair (marked_name (.identifier f.name)) (h.1 htext) (by decide) (by decide)
    refine (marked_intercalate hmarked (by decide) (by decide)).congr fun u => ?_
    simp only [fieldNames, namesOfFields_eq, List.map_flatMap, List.mem_flatMap, List.map_cons, List.mem_cons]

end DataType

namespace Expr

def ownNames (naming : ParamNaming) (e : Expr) : List NameUse :=
  match e.op with
  | .literal v => v.keys.map .quoted
  | .column name _ => [.quoted name]
  | .scalarParameter name =>
    match naming with
    | .declared => [.parameter name]
    | .generated => []
  | .tableScan name _ => [.identifier name]
  | .structField _ field => [.quoted field]
  | .cast _ => e.dtype.fieldNames.map .identifier
  | .call .floor _ => e.dtype.fieldNames.map .identifier
  | _ => []

theorem ownNames_eq_nil {naming : ParamNaming} {e : Expr}
    (h : Formatter.ownKinds.contains e.kind = false) : e.ownNames naming = [] := by
  unfold ownNames
  split <;> simp_all [Formatter.ownKinds, kind, Op.kind]

end Expr

inductive Emits (naming : ParamNaming) : Expr → NameUse → Prop where
  | own {e : Expr} {u : NameUse} (h : u ∈ e.ownNames naming) : Emits naming e u
  | operand {e x : Expr} {f : Formatter} {u : NameUse} (hf : Formatter.bigQuery.get? e.kind = some f)
      (hx : x ∈ (f.layout e).operands) (h : Emits naming x u) : Emits naming e u

theorem emits_iff {naming : ParamNaming} {e : Expr} {f : Formatter} {u : NameUse}
    (hf : Formatter.bigQuery.get? e.kind = some f) :
    Emits naming e u ↔ u ∈ e.ownNames naming ∨ ∃ x ∈ (f.layout e).operands, Emits naming x u := by
  constructor
  · rintro (h | ⟨hg, hx, h⟩)
    · exact .inl h
    · obtain rfl : f = _ := by simpa [hf] using hg
      exact .inr ⟨_, hx, h⟩
  · rintro (h | ⟨x, hx, h⟩)
    · exact .own h
    · exact .operand hf hx h

theorem marked_step {t : Target} {names : Expr → NameUse → Prop} {s : Step} {w : String}
    (hs : s.expr?.isSome) (h : t.Takes (fun x w => Marked (names x) w) s w) :
    Marked (fun u => ∃ x, s.expr? = some x ∧ names x u) w := by
  cases s with
  | operand x => exact Marked.congr h fun u => by simp [Step.expr?]
  | nested x =>
    obtain ⟨v, hv, rfl⟩ := h
    have hnames : ∀ u, names x u ↔ ∃ y, (Step.nested x).expr? = some y ∧ names y u := by
      simp [Step.expr?]
    split
    · exact (marked_around hv (by decide) (by decide)).congr hnames
    · exact hv.congr hnames
  | _ => simp [Step.expr?] at hs

theorem marked_shaped {t : Target} {names : Expr → NameUse → Prop} {k : Kind} {l : Layout}
    {texts : List String} (h : Shaped k l)
    (ht : List.Forall₂ (t.Takes fun x w => Marked (names x) w) l.steps texts) :
    Marked (fun u => ∃ x ∈ l.operands, names x u) (l.fill texts) := by
  have hmarked := ((List.forall₂_and_left _ _).mpr ⟨h.operands, ht⟩).imp fun s w hs => marked_step hs.1 hs.2
  refine (marked_listed hmarked (h.joined.2.imp fun p q => Piece.keepsAway_of_meets) h.covers).congr
    fun u => ?_
  simp only [Layout.operands, List.mem_filterMap]
  constructor
  · rintro ⟨s, hs, x, hx, hu⟩
    exact ⟨x, ⟨s, hs, hx⟩, hu⟩
  · rintro ⟨x, ⟨s, hs, hx⟩, hu⟩
    exact ⟨s, hs, x, hx, hu⟩

theorem marked_own {naming : ParamNaming} {e : Expr} {w : String}
    (h : OwnText naming (fun x w => Marked (Emits naming x) w) e w) :
    Marked (fun u => u ∈ e.ownNames naming ∨ ∃ x ∈ e.operands, Emits naming x u) w := by
  cases h with
  | literal hv => exact (Value.marked_literal hv).congr fun u => by simp [Expr.ownNames, Expr.operands, Op.operands]
  | @column name table dtype label =>
    exact (marked_name (.quoted name)).congr fun u => by simp [Expr.ownNames, Expr.operands, Op.operands]
  | @parameter name placeholder dtype label hp =>
    cases naming with
    | declared =>
      obtain rfl : placeholder = name := hp
      exact (marked_name (.parameter placeholder)).congr fun u => by
        simp [Expr.ownNames, Expr.operands, Op.operands]
    | generated => exact (marked_text _).congr fun u => by simp [Expr.ownNames, Expr.operands, Op.operands]
  | @scan name schema dtype label =>
    exact (marked_open (marked_name (.identifier name)) (by decide)).congr fun u => by
      simp [Expr.ownNames, Expr.operands, Op.operands]
  | @structField arg field dtype label w hw =>
    exact (marked_pair hw (marked_name (.quoted field)) (by decide) (by decide)).congr fun u => by
      simp [Expr.ownNames, Expr.operands, Op.operands, or_comm]
  | @unixMicros arg dtype label w hint hw =>
    have hplain : dtype.isComposite = false := by
      cases dtype <;> simp [DataType.isInteger] at hint <;> rfl
    exact (marked_around hw (by decide) (by decide)).congr fun u => by
      simp [Expr.ownNames, Expr.operands, Op.operands, DataType.fieldNames_plain hplain]
  | @cast arg dtype label name w hname hw =>
    have hpair := marked_pair hw (DataType.marked_sqlName hname)
      (by decide : endsBlank " AS ".toList) (by decide)
    exact (marked_around hpair (by decide) (by decide)).congr fun u => by
      simp [Expr.ownNames, Expr.operands, Op.operands, or_comm]
  | @floor arg dtype label name w hname hw =>
    have hpair := marked_pair hw (DataType.marked_sqlName hname)
      (by decide : endsBlank ") AS ".toList) (by decide)
    exact (marked_around hpair (by decide) (by decide)).congr fun u => by
      simp [Expr.ownNames, Expr.operands, Op.operands, or_comm]

theorem marked_writes {naming : ParamNaming} {params : Params} {e : Expr} {w : String}
    (h : ((Compiler.bigQuery naming).target params).Writes e w) : Marked (Emits naming e) w := by
  refine Target.writes_induct (P := fun e w => Marked (Emits naming e) w) (fun e f texts hf ht => ?_) h
  replace ht := Target.forall₂_takes_mono (fun x _ v hv => hv.2) ht
  rcases Compiler.written_cases hf ht with ⟨hkinds, hshaped⟩ | ⟨hoperands, hown⟩
  · refine (marked_shaped hshaped ht).congr fun u => ?_
    rw [emits_iff hf, Expr.ownNames_eq_nil hkinds]
    simp
  · refine (marked_own hown).congr fun u => ?_
    rw [emits_iff hf, hoperands]

inductive Mentions (naming : ParamNaming) : Expr → NameUse → Prop where
  | own {e : Expr} {u : NameUse} (h : u ∈ e.ownNames naming) : Mentions naming e u
  | table {e : Expr} {name table : String} (h : e.op = .column name (some table)) :
      Mentions naming e (.identifier table)
  | operand {e x : Expr} {u : NameUse} (hx : x ∈ e.operands) (h : Mentions naming x u) : Mentions naming e u

section Mentions

variable {naming : ParamNaming} {u : NameUse}

theorem mentions_iff {op : Op Expr} {dtype : DataType} {label : Option String} :
    Mentions naming ⟨op, dtype, label⟩ u ↔
      u ∈ Expr.ownNames naming ⟨op, dtype, label⟩ ∨
      (∃ name table, op = .column name (some table) ∧ u = .identifier table) ∨
      ∃ x ∈ op.operands, Mentions naming x u := by
  constructor
  · rintro (h | h | ⟨hx, h⟩)
    · exact .inl h
    · exact .inr (.inl ⟨_, _, h, rfl⟩)
    · exact .inr (.inr ⟨_, hx, h⟩)
  · rintro (h | ⟨name, table, rfl, rfl⟩ | ⟨x, hx, h⟩)
    · exact .own h
    · exact .table rfl
    · exact .operand hx h

theorem mentions_filtered {arg : Expr} {filter : Option Expr} (h : Mentions naming (arg.filtered filter) u) :
    Mentions naming arg u ∨ ∃ cond ∈ filter, Mentions naming cond u := by
  cases filter with
  | none => exact .inl h
  | some cond =>
    have hnull : ¬Mentions naming (Expr.null arg.dtype) u := by
      simp [Expr.null, Expr.literal, Expr.ofOp, mentions_iff, Expr.ownNames, Value.keys, Op.operands]
    obtain h | h : Mentions naming cond u ∨ Mentions naming arg u := by
      simpa [Expr.filtered, Expr.ifElse, Expr.ofOp, mentions_iff, Expr.ownNames, Op.operands, hnull] using h
    · exact .inr ⟨cond, rfl, h⟩
    · exact .inl h

theorem mentions_flatten {kind : SetOpKind} {e : Expr} :
    ∀ {parts : List Expr} {words : List String}, Sql.flattenSetOp kind e = .ok (parts, words) →
      ∀ x ∈ parts, Mentions naming x u → Mentions naming e u := by
  induction e using Expr.induction_on with
  | step e ih =>
    intro parts words h x hx hu
    rcases Sql.flatten_cases h with ⟨-, rfl, rfl⟩ |
      ⟨left, right, distinct, dtype, label, lp, lw, word, rp, rw, rfl, hl, -, hr, rfl, rfl⟩
    · obtain rfl : x = e := by simpa using hx
      exact hu
    · have hleft : left ∈ [left, right] := by simp
      have hright : right ∈ [left, right] := by simp
      rcases List.mem_append.mp hx with hx | hx
      · exact .operand hleft (ih left hleft hl x hx hu)
      · exact .operand hright (ih right hright hr x hx hu)

theorem mentions_of_layout {f : Formatter} {e x : Expr} (hx : x ∈ (f.layout e).operands) (h : Mentions naming x u) :
    Mentions naming e u := by
  rcases f.layout_operand_cases hx with hx | ⟨arg, filter, rfl, harg, hfilter, -⟩ |
    ⟨kind, parts, words, -, hflat, hx⟩
  · exact .operand hx h
  · rcases mentions_filtered h with h | ⟨cond, hcond, h⟩
    · exact .operand harg h
    · exact .operand (hfilter cond hcond) h
  · exact mentions_flatten hflat x hx h

theorem mentions_of_emits {e : Expr} (h : Emits naming e u) : Mentions naming e u := by
  induction h with
  | own h => exact .own h
  | operand _ hx _ ih => exact mentions_of_layout hx ih

theorem mentions_literal {v : Value} {dtype : DataType} (h : v.keys = []) :
    ¬Mentions naming (Expr.literal v dtype) u := by
  simp [Expr.literal, Expr.ofOp, mentions_iff, Expr.ownNames, h, Op.operands]

theorem mentions_binary {left right : Expr} {op : BinaryOp} (h : Mentions naming (left.binary op right) u) :
    Mentions naming left u ∨ Mentions naming right u := by
  simpa [Expr.binary, Expr.ofOp, mentions_iff, Expr.ownNames, Op.operands] using h

theorem mentions_isNull {e : Expr} (h : Mentions naming e.isNull u) : Mentions naming e u := by
  simpa [Expr.isNull, Expr.call, Expr.ofOp, mentions_iff, Expr.ownNames, Op.operands] using h

theorem mentions_floor {e : Expr} (h : Mentions naming e.floor u) : Mentions naming e u := by
  have hplain : (if e.dtype.isDecimal then e.dtype else .int64 : DataType).fieldNames = [] := by
    refine DataType.fieldNames_plain ?_
    split
    next hd =>
      cases ht : e.dtype <;> simp [ht, DataType.isDecimal] at hd
      rfl
    next => rfl
  simpa [Expr.floor, Expr.call, Expr.ofOp, mentions_iff, Expr.ownNames, Op.operands, hplain] using h

theorem mentions_cast {e : Expr} {dtype : DataType} (ht : dtype.fieldNames = [])
    (h : Mentions naming (e.cast dtype) u) : Mentions naming e u := by
  simpa [Expr.cast, Expr.ofOp, mentions_iff, Expr.ownNames, Op.operands, ht] using h

theorem mentions_reduction {func : Agg} {args : List Expr} {filter : Option Expr} {dtype : DataType}
    {label : Option String} :
    Mentions naming ⟨.reduction func args filter, dtype, label⟩ u ↔
      ∃ x ∈ args ++ filter.toList, Mentions naming x u := by
  simp [mentions_iff, Expr.ownNames, Op.operands]

theorem mentions_rule {rule : Rule} {e : Expr} (h : Mentions naming (rule.apply e) u) :
    Mentions naming e u := by
  have hmade := rule.outcome e
  generalize rule.apply e = made at hmade h
  have hreduction {func target : Agg} {args : List Expr} {filter : Option Expr} {dtype : DataType} {label : Option String}
      (hop : e.op = .reduction func args filter) (h : Mentions naming ⟨.reduction target args filter, dtype, label⟩ u) :
      Mentions naming e u := by
    obtain ⟨x, hx, hu⟩ := mentions_reduction.mp h
    exact .operand (by simpa [Expr.operands, Op.operands, hop] using hx) hu
  have hbinary {op : BinaryOp} {left right : Expr} (hop : e.op = .binary op left right)
      (h : Mentions naming left u ∨ Mentions naming right u) : Mentions naming e u := by
    rcases h with h | h
    · exact .operand (by simp [Expr.operands, Op.operands, hop]) h
    · exact .operand (by simp [Expr.operands, Op.operands, hop]) h
  cases hmade with
  | kept => exact h
  | reaggregate hop => exact hreduction hop h
  | @negated target func args filter hop =>
    have hnot : Mentions naming (Expr.reduction target args filter e.dtype) u := by
      simpa [mentions_iff, Expr.ownNames, Op.operands] using h
    exact hreduction hop hnot
  | @dayOfWeekName arg ho =>
    have harg : Mentions naming arg u := by
      simpa [Expr.strftime, Expr.ofOp, mentions_iff, Expr.ownNames, Op.operands,
        mentions_literal (rfl : (Value.string "%A").keys = [])] using h
    exact .operand (by simp [ho]) harg
  | floorDivide hop => exact hbinary hop (mentions_binary (mentions_floor h))
  | identicalTo hop =>
    rcases mentions_binary h with h | h
    · exact hbinary hop ((mentions_binary h).imp mentions_isNull mentions_isNull)
    · exact hbinary hop (mentions_binary h)
  | @log2 arg ho =>
    have harg : Mentions naming arg u := by
      simpa [Expr.log, Expr.call, Expr.ofOp, mentions_iff, Expr.ownNames, Op.operands,
        mentions_literal (rfl : (Value.int 2).keys = [])] using h
    exact .operand (by simp [ho]) harg
  | @booleanAsInteger func arg filter hop =>
    have ho : e.operands = [arg] ++ filter.toList := by simp [Expr.operands, Op.operands, hop]
    obtain ⟨x, hx, hu⟩ := mentions_reduction.mp h
    rcases List.mem_append.mp hx with hx | hx
    · obtain rfl : x = arg.cast .int64 := by simpa using hx
      exact .operand (by simp [ho]) (mentions_cast rfl hu)
    · exact .operand (ho ▸ List.mem_append_right _ hx) hu

theorem ownNames_mapOperands (naming : ParamNaming) (f : Expr → Expr) (e : Expr) :
    (e.mapOperands f).ownNames naming = e.ownNames naming := by
  obtain ⟨op, dtype, label⟩ := e
  cases op with
  | call func args => cases func <;> rfl
  | _ => rfl

theorem mentions_relabel {e x : Expr} (hop : x.op = e.op) (hd : x.dtype = e.dtype)
    (h : Mentions naming x u) : Mentions naming e u := by
  obtain ⟨op, dtype, label⟩ := e
  obtain ⟨op', dtype', label'⟩ := x
  obtain rfl : op' = op := hop
  obtain rfl : dtype' = dtype := hd
  rw [mentions_iff] at h ⊢
  exact h

theorem mentions_replaced {rules : DispatchTable Rule} {e : Expr} (h : Mentions naming (e.replaced rules) u) :
    Mentions naming e u := by
  cases hr : rules.get? e.kind with
  | none => exact mentions_relabel (by simp [Expr.replaced, hr]) (by simp [Expr.replaced, hr]) h
  | some rule =>
    have hrule : Mentions naming (rule.apply e) u :=
      mentions_relabel (by simp [Expr.replaced, hr]) (by simp [Expr.replaced, hr]) h
    exact mentions_rule hrule

theorem mentions_lowerWithin {rules : DispatchTable Rule} {n : Nat} {e : Expr}
    (h : Mentions naming (e.lowerWithin rules n) u) : Mentions naming e u := by
  induction n generalizing e u with
  | zero => exact h
  | succ n ih =>
    rw [Expr.lowerWithin] at h
    refine mentions_replaced (?_ : Mentions naming (e.replaced rules) u)
    generalize e.replaced rules = node at h ⊢
    cases h with
    | own h => exact .own (ownNames_mapOperands naming _ node ▸ h)
    | table h =>
      obtain ⟨op, dtype, label⟩ := node
      cases op <;> simp [Expr.mapOperands, Op.map] at h
      exact .table (by rw [h.1, h.2])
    | @operand _ x _ hx h =>
      rw [Expr.operands, Expr.mapOperands, Op.operands_map] at hx
      obtain ⟨y, hy, rfl⟩ := List.mem_map.mp hx
      exact .operand hy (ih h)

end Mentions

namespace Expr

theorem nodes_eq (e : Expr) : e.nodes = e :: e.operands.flatMap nodes := by
  obtain ⟨op, dtype, label⟩ := e
  rw [nodes, para_mk, Op.map_fst_pair, Op.operands_map, List.flatMap_map]
  rfl

theorem mem_of_firstByKey {γ : Type} {entries : List (String × γ)} {p : String × γ}
    (h : p ∈ firstByKey entries) : p ∈ entries := by
  have hkept : ∀ (entries kept : List (String × γ)), p ∈ entries.foldl
      (fun kept e => if kept.any (·.1 == e.1) then kept else e :: kept) kept → p ∈ kept ∨ p ∈ entries := by
    intro entries
    induction entries with
    | nil => exact fun kept h => .inl h
    | cons e rest ih =>
      intro kept h
      rcases ih _ h with h | h
      · dsimp only at h
        split at h
        · exact .inl h
        · rcases List.mem_cons.mp h with rfl | h
          · exact .inr (by simp)
          · exact .inl h
      · exact .inr (.tail _ h)
  simpa [firstByKey] using hkept entries [] (by simpa [firstByKey] using h)

theorem column_of_referencedTables {e : Expr} {table : String} (h : table ∈ e.referencedTables) :
    ∃ x ∈ e.nodes, ∃ name, x.op = .column name (some table) := by
  obtain ⟨p, hp, rfl⟩ := List.mem_map.mp h
  obtain ⟨x, hx, hcol⟩ := List.mem_filterMap.mp (mem_of_firstByKey hp)
  split at hcol
  next name table hop =>
    obtain rfl : (table, ()) = p := by simpa using hcol
    exact ⟨x, hx, name, hop⟩
  next => simp at hcol

theorem label_apply (rule : Rule) (e : Expr) : (rule.apply e).label = none ∨ (rule.apply e).label = e.label := by
  have hmade := rule.outcome e
  generalize rule.apply e = made at hmade
  cases hmade with
  | kept | reaggregate | negated => exact .inr rfl
  | _ => exact .inl rfl

theorem label_lowerWithin (rules : DispatchTable Rule) (n : Nat) (e : Expr) :
    (e.lowerWithin rules n).label = e.label := by
  cases n with
  | zero => rfl
  | succ n =>
    have hlabel : (e.lowerWithin rules (n + 1)).label = (e.replaced rules).label := rfl
    rw [hlabel, replaced]
    cases rules.get? e.kind with
    | none => simp
    | some rule =>
      rcases label_apply rule e with h | h
      · simp [h]
      · simp [h]

end Expr

theorem mentions_of_node {naming : ParamNaming} {u : NameUse} {e x : Expr} (hx : x ∈ e.nodes)
    (h : Mentions naming x u) : Mentions naming e u := by
  induction e using Expr.induction_on with
  | step e ih =>
    rw [Expr.nodes_eq] at hx
    rcases List.mem_cons.mp hx with rfl | hx
    · exact h
    · obtain ⟨y, hy, hx⟩ := List.mem_flatMap.mp hx
      exact .operand hy (ih y hy hx)

namespace Compiler

def StatementName (naming : ParamNaming) (e : Expr) (u : NameUse) : Prop :=
  Emits naming e u ∨ (e.isTable = false ∧
    (u = .quoted (e.label.getD defaultAlias) ∨ ∃ table, e.referencedTables = [table] ∧ u = .identifier table))

theorem marked_statement {naming : ParamNaming} {e : Expr} {body : String}
    (h : Marked (Emits naming e) body) : Marked (StatementName naming e) (statement e body) := by
  unfold statement
  split
  next htable => exact h.congr fun u => by simp [StatementName, htable]
  next htable =>
    have hselect := marked_pair h (marked_name (.quoted (e.label.getD defaultAlias)))
      (by decide : endsBlank " AS ".toList) (by decide)
    split
    next table hrefs =>
      have hfrom := marked_pair hselect (marked_name (.identifier table))
        (by decide : endsBlank "\nFROM ".toList) (by decide)
      have hmarked := marked_open hfrom (by decide : endsBlank "SELECT ".toList)
      simp only [NameUse.text, String.append_assoc] at hmarked ⊢
      exact hmarked.congr fun u => by simp [StatementName, htable, hrefs, or_assoc]
    next hrefs =>
      have hnone : ∀ table, e.referencedTables ≠ [table] := hrefs
      have hmarked := marked_open hselect (by decide : endsBlank "SELECT ".toList)
      simp only [NameUse.text, String.append_assoc, String.append_empty] at hmarked ⊢
      exact hmarked.congr fun u => by simp [StatementName, htable, hnone]

theorem compile_ok {c : Compiler} {e : Expr} {params : Params} {q : CompiledQuery}
    (h : c.compile e params = .ok q) :
    ∃ body, (c.target params).Writes (e.lower c.rules) body ∧ q.sql = statement (e.lower c.rules) body := by
  obtain ⟨⟨body, ctx⟩, hbody, h⟩ := except_bind_ok.mp h
  obtain ⟨parameters, -, h⟩ := except_bind_ok.mp h
  obtain rfl : ⟨statement (e.lower c.rules) body, parameters⟩ = q := by simpa [pure, Except.pure] using h
  exact ⟨body, ⟨.start, ctx, .start, hbody⟩, rfl⟩

theorem mentions_of_statementName {naming : ParamNaming} {rules : DispatchTable Rule} {e : Expr} {u : NameUse}
    (h : StatementName naming (e.lower rules) u) :
    Mentions naming e u ∨ u = .quoted (e.label.getD defaultAlias) := by
  rcases h with h | ⟨-, rfl | ⟨table, hrefs, rfl⟩⟩
  · exact .inl (mentions_lowerWithin (mentions_of_emits h))
  · rw [Expr.lower, Expr.label_lowerWithin]
    exact .inr rfl
  · have hmem : table ∈ (e.lower rules).referencedTables := by simp [hrefs]
    obtain ⟨x, hx, name, hop⟩ := Expr.column_of_referencedTables hmem
    exact .inl (mentions_lowerWithin (mentions_of_node hx (.table hop)))

/-- A compiled statement is text and names, each of them held by the expression or the name of the output. A
name is one token that spells it and ends where it ends just if it is plain. -/
theorem compiled_names_stand_alone_iff {naming : ParamNaming} {e : Expr} {params : Params}
    {q : CompiledQuery} (h : (bigQuery naming).compile e params = .ok q) :
    ∃ segments : List Segment, q.sql = Segment.join segments ∧ (segments.IsChain fun a b => a.apart b) ∧
      (∀ u, .name u ∈ segments ↔ StatementName naming (e.lower Rule.bigQuery) u) ∧
      (∀ u, .name u ∈ segments → Mentions naming e u ∨ u = .quoted (e.label.getD defaultAlias)) ∧
      ∀ before u after, segments = before ++ .name u :: after →
        (u.StandsAlone (Segment.join after).toList ↔ u.Plain) := by
  obtain ⟨body, hbody, hsql⟩ := compile_ok h
  obtain ⟨segments, -, hjoin, hchain, hnames⟩ := marked_statement (marked_writes hbody)
  refine ⟨segments, hsql.trans hjoin, hchain, hnames, fun u hu => ?_, fun before u after hsplit => ?_⟩
  · exact mentions_of_statementName ((hnames u).mp hu)
  · exact u.standsAlone_iff (Segment.startsApart_after (hsplit ▸ hchain))

theorem compile_ordered (naming : ParamNaming) (e : Expr) (params : Params) :
    (bigQuery naming).compile e params = (ordered naming).compile e params := by
  rw [compile, render_ordered]
  rfl

theorem compile_of_run {α : Type} {f : CompiledQuery → α} {c : Compiler} {e : Expr} {params : Params} {a : α}
    (h : (c.compile e params).toOption.map f = some a) : ∃ q, c.compile e params = .ok q ∧ f q = a := by
  cases hc : c.compile e params with
  | error error => simp [hc, Except.toOption] at h
  | ok q => exact ⟨q, rfl, by simpa [hc, Except.toOption] using h⟩

def fieldAndColumn : Expr :=
  let row : DataType := .struct [⟨"a\x60b", .int64, true⟩]
  let field : Expr := ⟨.structField (.param "row_1" row) "a\x60b", .int64, none⟩
  (field.binary .add (.column "x" (some "my-table") .int64)).named "total"

theorem fieldAndColumn_names_stand_alone :
    ∃ q segments,
      (bigQuery .declared).compile fieldAndColumn [("row_1", .struct [("a\x60b", .int 1)])] = .ok q ∧
      q.sql = "SELECT @row_1.\x60a\\\x60b\x60 + \x60x\x60 AS \x60total\x60\nFROM \x60my-table\x60" ∧
      q.sql = Segment.join segments ∧
      ∀ before u after, segments = before ++ .name u :: after → u.StandsAlone (Segment.join after).toList := by
  obtain ⟨q, hq, hsql⟩ : ∃ q, (bigQuery .declared).compile fieldAndColumn
      [("row_1", .struct [("a\x60b", .int 1)])] = .ok q ∧ q.sql =
      "SELECT @row_1.\x60a\\\x60b\x60 + \x60x\x60 AS \x60total\x60\nFROM \x60my-table\x60" := by
    refine compile_of_run ?_
    rw [compile_ordered]
    decide +kernel
  obtain ⟨segments, hjoin, -, -, hheld, halone⟩ := compiled_names_stand_alone_iff hq
  refine ⟨q, segments, hq, hsql, hjoin, fun before u after hsplit => (halone before u after hsplit).mpr ?_⟩
  have hu : u = .quoted "a\x60b" ∨ u = .parameter "row_1" ∨ u = .quoted "x" ∨ u = .identifier "my-table" ∨
      u = .quoted "total" := by
    simpa [fieldAndColumn, Expr.named, Expr.binary, Expr.param, Expr.column, Expr.ofOp, mentions_iff,
      Expr.ownNames, Op.operands, or_assoc] using hheld u (by simp [hsplit])
  rcases hu with rfl | rfl | rfl | rfl | rfl <;> decide

theorem trailing_backslash_leaves_name_open :
    ∃ q, (bigQuery .declared).compile (.column "a\\" none .int64) [] = .ok q ∧
      q.sql = "SELECT " ++ (NameUse.quoted "a\\").text ++ " AS \x60tmp\x60" ∧
      ¬(NameUse.quoted "a\\").StandsAlone " AS \x60tmp\x60".toList := by
  obtain ⟨q, hq, hsql⟩ : ∃ q, (bigQuery .declared).compile (.column "a\\" none .int64) [] = .ok q ∧
      q.sql = "SELECT " ++ (NameUse.quoted "a\\").text ++ " AS \x60tmp\x60" := by
    refine compile_of_run ?_
    rw [compile_ordered]
    decide +kernel
  exact ⟨q, hq, hsql, by rw [NameUse.backtick_standsAlone]; decide⟩

end Compiler

end BigQuerySql
