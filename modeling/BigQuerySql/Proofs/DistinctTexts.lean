import BigQuerySql.Proofs.SteadyDocuments

namespace BigQuerySql

namespace Json

mutual

def plain : Json → Json
  | .unreadable => .null
  | .float x => if x.isFinite then .float x else .null
  | .arr items => .arr (plainItems items)
  | .obj members => .obj (plainMembers members)
  | j => j

def plainItems : List Json → List Json
  | [] => []
  | j :: rest => j.plain :: plainItems rest

def plainMembers : List (String × Json) → List (String × Json)
  | [] => []
  | (name, j) :: rest => (name, j.plain) :: plainMembers rest

end

theorem plainItems_eq (items : List Json) : plainItems items = items.map plain := by
  induction items with
  | nil => rfl
  | cons j rest ih => rw [plainItems, ih, List.map_cons]

theorem plainMembers_eq (members : List (String × Json)) :
    plainMembers members = members.map fun m => (m.1, m.2.plain) := by
  induction members with
  | nil => rfl
  | cons m rest ih =>
    obtain ⟨name, j⟩ := m
    rw [plainMembers, ih, List.map_cons]

theorem itemChars_eq_tail (items : List Json) :
    itemChars items = (items.flatMap fun j => ',' :: j.chars).tail := by
  induction items with
  | nil => rfl
  | cons j rest ih =>
    cases rest with
    | nil => simp [itemChars]
    | cons k others => simpa [itemChars_cons_cons] using ih

def memberText (m : String × Json) : List Char :=
  quoted m.1 ++ ':' :: m.2.chars

theorem memberChars_eq_tail (members : List (String × Json)) :
    memberChars members = (members.flatMap fun m => ',' :: memberText m).tail := by
  induction members with
  | nil => rfl
  | cons m rest ih =>
    cases rest with
    | nil => simp [memberChars, memberText]
    | cons k others => simpa [memberChars_cons_cons, memberText] using ih

theorem chars_plain (j : Json) : j.plain.chars = j.chars := by
  induction j using Json.induction_on with
  | atom j hj =>
    cases j with
    | float x =>
      by_cases hx : x.isFinite = true
      · rw [plain, if_pos hx]
      · rw [plain, if_neg hx, chars, chars, floatChars, if_neg hx]
    | arr items => simp [isComposite] at hj
    | obj members => simp [isComposite] at hj
    | _ => rfl
  | arr items ih =>
    have hitems : itemChars (items.map plain) = itemChars items := by
      rw [itemChars_eq_tail, itemChars_eq_tail, List.flatMap_map]
      exact congrArg List.tail (List.flatMap_congr fun j hj => by rw [ih j hj])
    rw [plain, chars, chars, plainItems_eq, hitems]
  | obj members ih =>
    have hmembers : memberChars (members.map fun m => (m.1, m.2.plain)) = memberChars members := by
      rw [memberChars_eq_tail, memberChars_eq_tail, List.flatMap_map]
      exact congrArg List.tail (List.flatMap_congr fun m hm => by rw [memberText, memberText, ih m hm])
    rw [plain, chars, chars, plainMembers_eq, hmembers]

theorem Steady.plain_eq {j : Json} (h : j.Steady) : j.plain = j := by
  induction j using Json.induction_on with
  | atom j hj =>
    cases j with
    | unreadable => simp [Steady, reread] at h
    | float x =>
      rw [Steady, reread] at h
      split at h
      · rw [plain, if_pos ‹_›]
      · simp at h
    | arr items => simp [isComposite] at hj
    | obj members => simp [isComposite] at hj
    | _ => rfl
  | arr items ih =>
    rw [plain, plainItems_eq, List.map_congr_left fun j hj => ih j hj (steady_arr.mp h j hj), List.map_id']
  | obj members ih =>
    have hmembers : ∀ m ∈ members, (m.1, m.2.plain) = m := fun m hm => by rw [ih m hm (steady_obj.mp h m hm)]
    rw [plain, plainMembers_eq, List.map_congr_left hmembers, List.map_id']

theorem reread_of_chars {j k : Json} (h : j.chars = k.chars) : j.reread = k.reread := by
  have htext : j.text = k.text := by rw [text, text, h]
  have hread := read_text k
  rw [← htext, read_text j] at hread
  exact Option.some.inj hread

theorem chars_append_cancel {j k : Json} {rest others : List Char} (h : j.chars ++ rest = k.chars ++ others)
    (hrest : Escapes continuesNumber rest) (hothers : Escapes continuesNumber others) :
    j.chars = k.chars ∧ rest = others := by
  have hj := readsBack j (2 * j.chars.length + 2 * k.chars.length) rest (by omega) hrest
  have hk := readsBack k (2 * j.chars.length + 2 * k.chars.length) others (by omega) hothers
  rw [h, hk, Option.some.injEq, Prod.mk.injEq] at hj
  obtain rfl := hj.2
  exact ⟨List.append_cancel_right h, rfl⟩

theorem quoted_append_cancel {name other : String} {rest others : List Char}
    (h : quoted name ++ rest = quoted other ++ others) : name = other ∧ rest = others := by
  obtain ⟨body, hbody, hread⟩ := readString_quoted name rest
  obtain ⟨body', hbody', hread'⟩ := readString_quoted other others
  rw [hbody, hbody', List.cons.injEq] at h
  rw [h.2, hread'] at hread
  simp only [Option.some.injEq, Prod.mk.injEq, String.toList_inj] at hread
  exact ⟨hread.1.symm, hread.2.symm⟩

theorem memberText_append_cancel {m k : String × Json} {rest others : List Char}
    (h : memberText m ++ rest = memberText k ++ others) (hrest : Escapes continuesNumber rest)
    (hothers : Escapes continuesNumber others) : memberText m = memberText k ∧ rest = others := by
  rw [memberText, memberText, List.append_assoc, List.append_assoc] at h
  obtain ⟨hname, h⟩ := quoted_append_cancel h
  obtain ⟨hchars, hrest⟩ := chars_append_cancel (List.cons.inj h).2 hrest hothers
  exact ⟨by rw [memberText, memberText, hname, hchars], hrest⟩

section Separated

variable {α : Type} {piece : α → List Char}

theorem escapes_separated (xs : List α) : Escapes continuesNumber (xs.flatMap fun x => ',' :: piece x) := by
  cases xs with
  | nil => simp [Escapes]
  | cons x xs => exact escapes_cons (by decide) _

theorem separated_inj
    (hpiece : ∀ {x y : α} {rest others : List Char}, piece x ++ rest = piece y ++ others →
      Escapes continuesNumber rest → Escapes continuesNumber others → piece x = piece y ∧ rest = others)
    {xs ys : List α} (h : (xs.flatMap fun x => ',' :: piece x) = ys.flatMap fun x => ',' :: piece x) :
    xs.map piece = ys.map piece := by
  induction xs generalizing ys with
  | nil => cases ys <;> simp at h ⊢
  | cons x xs ih =>
    cases ys with
    | nil => simp at h
    | cons y ys =>
      simp only [List.flatMap_cons, List.cons_append, List.cons.injEq, true_and] at h
      obtain ⟨hhead, hrest⟩ := hpiece h (escapes_separated xs) (escapes_separated ys)
      rw [List.map_cons, List.map_cons, hhead, ih hrest]

theorem separated_tail_inj (hne : ∀ x : α, piece x ≠ []) {xs ys : List α}
    (h : (xs.flatMap fun x => ',' :: piece x).tail = (ys.flatMap fun x => ',' :: piece x).tail) :
    (xs.flatMap fun x => ',' :: piece x) = ys.flatMap fun x => ',' :: piece x := by
  cases xs <;> cases ys <;> simp_all

end Separated

theorem map_chars_of_arr {items others : List Json} (h : (Json.arr items).chars = (Json.arr others).chars) :
    items.map chars = others.map chars := by
  have hne (j : Json) : j.chars ≠ [] := by
    obtain ⟨c, cs, hchars, -⟩ := chars_eq_cons j
    simp [hchars]
  rw [chars, chars, itemChars_eq_tail, itemChars_eq_tail] at h
  exact separated_inj chars_append_cancel (separated_tail_inj hne (List.append_cancel_right (List.cons.inj h).2))

theorem map_text_of_obj {members others : List (String × Json)}
    (h : (Json.obj members).chars = (Json.obj others).chars) :
    members.map memberText = others.map memberText := by
  have hne (m : String × Json) : memberText m ≠ [] := by simp [memberText]
  rw [chars, chars, memberChars_eq_tail, memberChars_eq_tail] at h
  exact separated_inj memberText_append_cancel
    (separated_tail_inj hne (List.append_cancel_right (List.cons.inj h).2))

def isNumber : Json → Bool
  | .int _ => true
  | .float x => x.isFinite
  | _ => false

def isReadNumber : Json → Bool
  | .unreadable => true
  | .int _ => true
  | .float _ => true
  | _ => false

theorem NumberParts.isReadNumber_toJson (p : NumberParts) : p.toJson.isReadNumber = true := by
  unfold toJson numberOf
  dsimp only
  split_ifs <;> rfl

theorem reread_number {j : Json} (h : j.isNumber = true) : ∃ p : NumberParts, j.reread = p.toJson := by
  cases j with
  | int i => exact ⟨intParts i, by rw [reread, ← chars_intParts, rereadNumber_chars (intParts_wellFormed i)]⟩
  | float x =>
    have hfinite : x.isFinite = true := h
    obtain ⟨p, hchars, hp, -⟩ := exists_doubleParts hfinite
    exact ⟨p, by rw [reread, if_pos hfinite, ← hchars, rereadNumber_chars hp]⟩
  | _ => simp [isNumber] at h

theorem isReadNumber_reread (j : Json) : j.reread.isReadNumber = j.isNumber := by
  by_cases h : j.isNumber = true
  · obtain ⟨p, hp⟩ := reread_number h
    rw [h, hp, p.isReadNumber_toJson]
  · cases j <;> simp_all [isNumber, reread, isReadNumber]

theorem isComposite_reread (j : Json) : j.reread.isComposite = j.isComposite := by
  by_cases h : j.isNumber = true
  · have hread := isReadNumber_reread j
    rw [h] at hread
    cases hj : j.reread <;> cases j <;> simp_all [isReadNumber, isNumber, isComposite]
  · cases j <;> simp_all [isNumber, reread, isComposite]

theorem reread_atom {j : Json} (hj : j.isComposite = false) (hnumber : j.isNumber = false) : j.reread = j.plain := by
  cases j <;> simp_all [isNumber, isComposite, reread, plain]

theorem intParts_inj {i k : Int} (h : intParts i = intParts k) : i = k := by
  simp only [intParts, NumberParts.mk.injEq, decide_eq_decide] at h
  have hdigits := congrArg (Nat.ofDigitChars 10 · 0) h.2.1
  simp only [Nat.ofDigitChars_ten_toDigits] at hdigits
  omega

theorem intChars_ne_floatChars (i : Int) {x : Binary64} (hx : x.isFinite = true) : intChars i ≠ floatChars x := by
  obtain ⟨p, hchars, hp, hpointed⟩ := exists_doubleParts hx
  rw [← chars_intParts, ← hchars]
  intro h
  obtain rfl := chars_inj (intParts_wellFormed i) hp h
  -- an integer has neither a point nor a power
  rcases hpointed with hpointed | hpointed <;> simp [intParts] at hpointed

theorem eq_of_number {j k : Json} (hj : j.isNumber = true) (hk : k.isNumber = true) (h : j.chars = k.chars) :
    j = k := by
  cases j with
  | int i =>
    cases k with
    | int i' =>
      rw [chars, chars, ← chars_intParts, ← chars_intParts] at h
      rw [intParts_inj (chars_inj (intParts_wellFormed i) (intParts_wellFormed i') h)]
    | float y => exact absurd h (intChars_ne_floatChars i hk)
    | _ => simp [isNumber] at hk
  | float x =>
    cases k with
    | int i => exact absurd h.symm (intChars_ne_floatChars i hj)
    | float y => rw [floatChars_inj hj hk h]
    | _ => simp [isNumber] at hk
  | _ => simp [isNumber] at hj

theorem memberText_inj {m k : String × Json} (h : memberText m = memberText k) :
    m.1 = k.1 ∧ m.2.chars = k.2.chars := by
  obtain ⟨hname, h⟩ := quoted_append_cancel h
  exact ⟨hname, (List.cons.inj h).2⟩

theorem isComposite_of_chars {j k : Json} (h : j.chars = k.chars) : k.isComposite = j.isComposite := by
  rw [← isComposite_reread, ← reread_of_chars h, isComposite_reread]

theorem plain_of_chars {j k : Json} (h : j.chars = k.chars) : j.plain = k.plain := by
  induction j using Json.induction_on generalizing k with
  | atom j hj =>
    have hread := reread_of_chars h
    have hnumber : j.isNumber = k.isNumber := by rw [← isReadNumber_reread, hread, isReadNumber_reread]
    have hk : k.isComposite = false := (isComposite_of_chars h).trans hj
    cases hjn : j.isNumber with
    | true => rw [eq_of_number hjn (hnumber ▸ hjn) h]
    | false => rw [← reread_atom hj hjn, hread, reread_atom hk (hnumber ▸ hjn)]
  | arr items ih =>
    obtain ⟨others, rfl⟩ : ∃ others, k = .arr others := by
      have hread := reread_of_chars h
      have hk := isComposite_of_chars h
      cases k <;> simp_all [reread, isComposite]
    rw [plain, plain, plainItems_eq, plainItems_eq, map_eq_map_of (map_chars_of_arr h) fun j hj k _ => ih j hj]
  | obj members ih =>
    obtain ⟨others, rfl⟩ : ∃ others, k = .obj others := by
      have hread := reread_of_chars h
      have hk := isComposite_of_chars h
      cases k <;> simp_all [reread, isComposite]
    rw [plain, plain, plainMembers_eq, plainMembers_eq, map_eq_map_of (map_text_of_obj h)]
    intro m hm k _ hk
    obtain ⟨hname, hchars⟩ := memberText_inj hk
    rw [hname, ih m hm hchars]

end Json

end BigQuerySql
