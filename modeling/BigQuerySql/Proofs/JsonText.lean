import BigQuerySql.Proofs.DoubleText

namespace BigQuerySql

namespace Json

theorem hexValue_digitChar : ∀ d < 16, hexValue? (Nat.digitChar d) = some d := by
  decide

theorem hex4_control {n : Nat} (h : n < 0x20) :
    hex4? '0' '0' (Nat.digitChar (n / 16)) (Nat.digitChar (n % 16)) = some n := by
  have hzero : hexValue? '0' = some 0 := rfl
  have hhigh := hexValue_digitChar (n / 16) (by omega)
  have hlast := hexValue_digitChar (n % 16) (by omega)
  simp only [hex4?, hzero, hhigh, hlast, Option.bind_eq_bind, Option.bind_some, Option.pure_def, Option.some.injEq]
  omega

theorem readString_escapeChar (c : Char) (rest : List Char) :
    readString (escapeChar c ++ rest) = (readString rest).map (prepend c) := by
  unfold escapeChar
  split
  case h_8 hquote hbackslash _ _ _ _ _ =>
    -- a character below the blank is no half of a surrogate pair
    split
    next hcontrol =>
      have hlow : isLowSurrogate c.toNat = false := by simp [isLowSurrogate]; omega
      have hhigh : isHighSurrogate c.toNat = false := by simp [isHighSurrogate]; omega
      simp only [List.cons_append, List.nil_append]
      rw [readString, hex4_control hcontrol]
      simp [hlow, hhigh]
    next hcontrol =>
      rw [List.cons_append, List.nil_append, readString.eq_def]
      split <;> simp_all
  all_goals simp [readString, simpleEscape?]

theorem readString_escaped (cs rest : List Char) :
    readString (cs.flatMap escapeChar ++ '"' :: rest) = some (some cs, rest) := by
  induction cs with
  | nil => rfl
  | cons c cs ih =>
    rw [List.flatMap_cons, List.append_assoc, readString_escapeChar, ih]
    rfl

theorem readString_quoted (s : String) (rest : List Char) :
    ∃ body, quoted s ++ rest = '"' :: body ∧ readString body = some (some s.toList, rest) :=
  ⟨s.toList.flatMap escapeChar ++ '"' :: rest, by simp [quoted], readString_escaped s.toList rest⟩

def isComposite : Json → Bool
  | .arr _ => true
  | .obj _ => true
  | _ => false

theorem induction_on {P : Json → Prop} (atom : ∀ j, j.isComposite = false → P j)
    (arr : ∀ items, (∀ j ∈ items, P j) → P (.arr items))
    (obj : ∀ members, (∀ m ∈ members, P m.2) → P (.obj members)) : ∀ j, P j
  | .arr items => arr items fun j _ => induction_on atom arr obj j
  | .obj members => obj members fun m _ => induction_on atom arr obj m.2
  | .unreadable => atom _ rfl
  | .null => atom _ rfl
  | .bool _ => atom _ rfl
  | .int _ => atom _ rfl
  | .float _ => atom _ rfl
  | .str _ => atom _ rfl
termination_by j => sizeOf j
decreasing_by
  · have := List.sizeOf_lt_of_mem ‹_›
    simp
    omega
  · have := List.sizeOf_lt_of_mem ‹_›
    have : sizeOf m = 1 + sizeOf m.1 + sizeOf m.2 := by cases m; simp
    simp
    omega

def rereadNumber (cs : List Char) : Json :=
  ((readParts cs).map fun r => r.1.toJson).getD .unreadable

mutual

def reread : Json → Json
  | .unreadable => .null
  | .null => .null
  | .bool b => .bool b
  | .int i => rereadNumber (intChars i)
  | .float x => if x.isFinite then rereadNumber (floatChars x) else .null
  | .str s => .str s
  | .arr items => .arr (rereadItems items)
  | .obj members => .obj (rereadMembers members)

def rereadItems : List Json → List Json
  | [] => []
  | j :: rest => j.reread :: rereadItems rest

def rereadMembers : List (String × Json) → List (String × Json)
  | [] => []
  | (name, j) :: rest => (name, j.reread) :: rereadMembers rest

end

theorem rereadItems_eq (items : List Json) : rereadItems items = items.map reread := by
  induction items with
  | nil => rfl
  | cons j rest ih => rw [rereadItems, ih, List.map_cons]

theorem rereadMembers_eq (members : List (String × Json)) :
    rereadMembers members = members.map fun m => (m.1, m.2.reread) := by
  induction members with
  | nil => rfl
  | cons m rest ih =>
    obtain ⟨name, j⟩ := m
    rw [rereadMembers, ih, List.map_cons]

theorem rereadNumber_chars {p : NumberParts} (h : p.WellFormed) : rereadNumber p.chars = p.toJson := by
  have hread : readParts (p.chars ++ []) = some (p, []) := readParts_chars h (by simp [Escapes])
  rw [List.append_nil] at hread
  simp [rereadNumber, hread]

theorem readNumber_chars {p : NumberParts} (h : p.WellFormed) {rest : List Char}
    (hrest : Escapes continuesNumber rest) : readNumber (p.chars ++ rest) = some (rereadNumber p.chars, rest) := by
  rw [readNumber_eq, readParts_chars h hrest, rereadNumber_chars h]
  rfl

theorem skipBlanks_cons {c : Char} {cs : List Char} (h : c.isWhitespace = false) : skipBlanks (c :: cs) = c :: cs := by
  simp [skipBlanks, h]

def isNumberStart (c : Char) : Bool :=
  c == '-' || c.isDigit

theorem NumberParts.WellFormed.chars_eq_cons {p : NumberParts} (h : p.WellFormed) :
    ∃ c cs, p.chars = c :: cs ∧ ∀ d, isNumberStart d = false → c ≠ d := by
  suffices ∃ c cs, p.chars = c :: cs ∧ isNumberStart c = true by
    obtain ⟨c, cs, hchars, hc⟩ := this
    refine ⟨c, cs, hchars, ?_⟩
    rintro d hd rfl
    simp [hc] at hd
  cases hneg : p.negative with
  | true => exact ⟨'-', p.whole ++ (fractionChars p.fraction ++ powerChars p.power), by simp [chars, hneg], rfl⟩
  | false =>
    obtain ⟨d, ds, hwhole⟩ := List.exists_cons_of_ne_nil h.whole_ne_nil
    have hdigit := h.whole_digits d (by simp [hwhole])
    refine ⟨d, ds ++ (fractionChars p.fraction ++ powerChars p.power), by simp [chars, hneg, hwhole], ?_⟩
    simp [isNumberStart, hdigit]

theorem readValue_chars_number {p : NumberParts} (h : p.WellFormed) {rest : List Char}
    (hrest : Escapes continuesNumber rest) (n : Nat) :
    readValue (n + 1) (p.chars ++ rest) = some (rereadNumber p.chars, rest) := by
  obtain ⟨c, cs, hchars, hc⟩ := h.chars_eq_cons
  rw [← readNumber_chars h hrest, hchars, List.cons_append, readValue, skipBlanks_cons]
  · simp [hc '"' rfl, hc '[' rfl, hc '{' rfl, hc 'n' rfl, hc 't' rfl, hc 'f' rfl]
  · simp [Char.isWhitespace, hc ' ' rfl, hc '\t' rfl, hc '\n' rfl, hc '\r' rfl]

theorem chars_eq_cons (j : Json) : ∃ c cs, j.chars = c :: cs ∧ c.isWhitespace = false ∧ c ≠ ']' := by
  have hnumber {p : NumberParts} (h : p.WellFormed) :
      ∃ c cs, p.chars = c :: cs ∧ c.isWhitespace = false ∧ c ≠ ']' := by
    obtain ⟨c, cs, hchars, hc⟩ := h.chars_eq_cons
    refine ⟨c, cs, hchars, ?_, hc ']' rfl⟩
    simp [Char.isWhitespace, hc ' ' rfl, hc '\t' rfl, hc '\n' rfl, hc '\r' rfl]
  cases j with
  | bool b => cases b <;> exact ⟨_, _, rfl, by decide, by decide⟩
  | int i =>
    rw [chars, ← chars_intParts]
    exact hnumber (intParts_wellFormed i)
  | float x =>
    rw [chars]
    by_cases hx : x.isFinite = true
    · obtain ⟨p, hp, hwell, -⟩ := exists_doubleParts hx
      exact hp ▸ hnumber hwell
    · rw [floatChars, if_neg hx]
      exact ⟨_, _, rfl, by decide, by decide⟩
  | _ => exact ⟨_, _, rfl, by decide, by decide⟩

theorem readValue_atom {j : Json} (hj : j.isComposite = false) {n : Nat} {rest : List Char}
    (hrest : Escapes continuesNumber rest) : readValue (n + 1) (j.chars ++ rest) = some (j.reread, rest) := by
  have hnull : readValue (n + 1) ("null".toList ++ rest) = some (.null, rest) := by
    simp [readValue, skipBlanks, Char.isWhitespace, readWord]
  cases j with
  | unreadable => exact hnull
  | null => exact hnull
  | bool b => cases b <;> simp [chars, reread, readValue, skipBlanks, Char.isWhitespace, readWord]
  | int i =>
    rw [chars, reread, ← chars_intParts]
    exact readValue_chars_number (intParts_wellFormed i) hrest n
  | float x =>
    rw [chars, reread]
    by_cases hx : x.isFinite = true
    · obtain ⟨p, hp, hwell, -⟩ := exists_doubleParts hx
      rw [if_pos hx, ← hp]
      exact readValue_chars_number hwell hrest n
    · rw [floatChars, if_neg hx, if_neg hx]
      exact hnull
  | str s =>
    obtain ⟨body, hbody, hread⟩ := readString_quoted s rest
    rw [chars, hbody, readValue, skipBlanks_cons (by decide)]
    simp [hread, stringOf, reread]
  | arr items => exact absurd hj (by simp [isComposite])
  | obj members => exact absurd hj (by simp [isComposite])

/-- A value that is read from its text whatever follows, within steps bounded by the length of the text. -/
def ReadsBack (j : Json) : Prop :=
  ∀ (n : Nat) (rest : List Char), 2 * j.chars.length ≤ n → Escapes continuesNumber rest →
    readValue n (j.chars ++ rest) = some (j.reread, rest)

theorem escapes_cons {c : Char} (h : continuesNumber c = false) (rest : List Char) :
    Escapes continuesNumber (c :: rest) := by
  rintro d hd
  obtain rfl : c = d := by simpa using hd
  exact h

theorem itemChars_cons_cons (j k : Json) (others : List Json) :
    itemChars (j :: k :: others) = j.chars ++ ',' :: itemChars (k :: others) := by
  rw [itemChars]
  simp

theorem memberChars_cons_cons (m k : String × Json) (others : List (String × Json)) :
    memberChars (m :: k :: others) = quoted m.1 ++ ':' :: (m.2.chars ++ ',' :: memberChars (k :: others)) := by
  obtain ⟨name, j⟩ := m
  rw [memberChars]
  simp

theorem readItems_chars {items : List Json} (hne : items ≠ []) (h : ∀ j ∈ items, j.ReadsBack) {n : Nat}
    {rest : List Char} (hn : 2 * (itemChars items).length + 1 ≤ n) :
    readItems n (itemChars items ++ ']' :: rest) = some (rereadItems items, rest) := by
  induction items generalizing n with
  | nil => exact absurd rfl hne
  | cons j others ih =>
    obtain ⟨n, rfl⟩ : ∃ m, n = m + 1 := ⟨n - 1, by omega⟩
    have hj : j.ReadsBack := h j (by simp)
    -- the last item is followed by the bracket and every other one by a comma, so that no number goes on
    cases others with
    | nil =>
      rw [itemChars] at hn ⊢
      rw [readItems, hj n (']' :: rest) (by omega) (escapes_cons (by decide) rest)]
      rfl
    | cons next others =>
      rw [itemChars_cons_cons] at hn ⊢
      simp only [List.length_append, List.length_cons] at hn
      rw [List.append_assoc, List.cons_append, readItems, hj n _ (by omega) (escapes_cons (by decide) _)]
      have hrest := ih (by simp) (fun k hk => h k (by simp [hk])) (n := n) (by omega)
      simp [skipBlanks, Char.isWhitespace, hrest, rereadItems]

theorem readMembers_chars {members : List (String × Json)} (hne : members ≠ []) (h : ∀ m ∈ members, m.2.ReadsBack)
    {n : Nat} {rest : List Char} (hn : 2 * (memberChars members).length + 1 ≤ n) :
    readMembers n (memberChars members ++ '}' :: rest) =
      some ((rereadMembers members).map fun m => (some m.1.toList, m.2), rest) := by
  induction members generalizing n with
  | nil => exact absurd rfl hne
  | cons m others ih =>
    obtain ⟨n, rfl⟩ : ∃ k, n = k + 1 := ⟨n - 1, by omega⟩
    obtain ⟨name, j⟩ := m
    have hj : j.ReadsBack := h (name, j) (by simp)
    cases others with
    | nil =>
      rw [memberChars] at hn ⊢
      simp only [List.length_append, List.length_cons] at hn
      obtain ⟨body, hbody, hread⟩ := readString_quoted name (':' :: (j.chars ++ '}' :: rest))
      rw [List.append_assoc, List.cons_append, hbody, readMembers, skipBlanks_cons (by decide)]
      simp only [hread, skipBlanks_cons (by decide : Char.isWhitespace ':' = false)]
      rw [hj n ('}' :: rest) (by omega) (escapes_cons (by decide) rest)]
      rfl
    | cons next others =>
      rw [memberChars_cons_cons] at hn ⊢
      simp only [List.length_append, List.length_cons] at hn
      obtain ⟨body, hbody, hread⟩ :=
        readString_quoted name (':' :: (j.chars ++ ',' :: (memberChars (next :: others) ++ '}' :: rest)))
      rw [List.append_assoc, List.cons_append, List.append_assoc, List.cons_append, hbody, readMembers,
        skipBlanks_cons (by decide)]
      simp only [hread, skipBlanks_cons (by decide : Char.isWhitespace ':' = false)]
      rw [hj n _ (by omega) (escapes_cons (by decide) _)]
      have hrest := ih (by simp) (fun k hk => h k (by simp [hk])) (n := n) (by omega)
      simp [skipBlanks, Char.isWhitespace, hrest, rereadMembers]

theorem objectOf_named (members : List (String × Json)) :
    objectOf (members.map fun m => (some m.1.toList, m.2)) = .obj members := by
  have hnames : (members.map fun m => (some m.1.toList, m.2)).mapM
      (fun m : Option (List Char) × Json => m.1.map fun name => (String.ofList name, m.2)) = some members := by
    induction members with
    | nil => rfl
    | cons m rest ih => simp [ih]
  rw [objectOf, hnames]

theorem itemChars_eq_cons {items : List Json} (hne : items ≠ []) :
    ∃ c cs, itemChars items = c :: cs ∧ c.isWhitespace = false ∧ c ≠ ']' := by
  rcases items with _ | ⟨j, _ | ⟨next, others⟩⟩
  · exact absurd rfl hne
  · exact chars_eq_cons j
  · obtain ⟨c, cs, hchars, hc⟩ := chars_eq_cons j
    exact ⟨c, cs ++ ',' :: itemChars (next :: others), by simp [itemChars, hchars], hc⟩

theorem memberChars_eq_cons {members : List (String × Json)} (hne : members ≠ []) :
    ∃ cs, memberChars members = '"' :: cs := by
  rcases members with _ | ⟨m, _ | ⟨next, others⟩⟩
  · exact absurd rfl hne
  · exact ⟨_, rfl⟩
  · exact ⟨_, rfl⟩

theorem readsBack_arr {items : List Json} (h : ∀ j ∈ items, j.ReadsBack) : (Json.arr items).ReadsBack := by
  intro n rest hn _
  obtain ⟨n, rfl⟩ : ∃ m, n = m + 1 := ⟨n - 1, by simp [chars] at hn; omega⟩
  by_cases hne : items = []
  · rw [hne]
    rfl
  · have hitems : readItems n (itemChars items ++ ']' :: rest) = some (rereadItems items, rest) :=
      readItems_chars hne h (by simp [chars] at hn; omega)
    obtain ⟨c, cs, hhead, hblank, hclose⟩ := itemChars_eq_cons hne
    rw [hhead, List.cons_append] at hitems
    simp only [chars, hhead, List.cons_append, List.append_assoc, List.nil_append]
    rw [readValue, skipBlanks_cons (by decide)]
    simp [skipBlanks_cons hblank, hclose, hitems, reread]

theorem readsBack_obj {members : List (String × Json)} (h : ∀ m ∈ members, m.2.ReadsBack) :
    (Json.obj members).ReadsBack := by
  intro n rest hn _
  obtain ⟨n, rfl⟩ : ∃ m, n = m + 1 := ⟨n - 1, by simp [chars] at hn; omega⟩
  by_cases hne : members = []
  · rw [hne]
    rfl
  · have hmembers : readMembers n (memberChars members ++ '}' :: rest) =
        some ((rereadMembers members).map fun m => (some m.1.toList, m.2), rest) :=
      readMembers_chars hne h (by simp [chars] at hn; omega)
    obtain ⟨cs, hhead⟩ := memberChars_eq_cons hne
    rw [hhead, List.cons_append] at hmembers
    simp only [chars, hhead, List.cons_append, List.append_assoc, List.nil_append]
    rw [readValue, skipBlanks_cons (by decide)]
    simp [skipBlanks_cons (by decide : Char.isWhitespace '"' = false), hmembers, objectOf_named, reread]

theorem readsBack (j : Json) : j.ReadsBack := by
  induction j using Json.induction_on with
  | atom j hj =>
    intro n rest hn hrest
    obtain ⟨c, cs, hchars, -⟩ := chars_eq_cons j
    obtain ⟨n, rfl⟩ : ∃ m, n = m + 1 := ⟨n - 1, by simp [hchars] at hn; omega⟩
    exact readValue_atom hj hrest
  | arr items ih => exact readsBack_arr ih
  | obj members ih => exact readsBack_obj ih

theorem read_text (j : Json) : read? j.text = some j.reread := by
  have hread := readsBack j (2 * j.chars.length + 2) [] (by omega) (by simp [Escapes])
  rw [List.append_nil] at hread
  simp [read?, text, hread, skipBlanks]

end Json

end BigQuerySql
