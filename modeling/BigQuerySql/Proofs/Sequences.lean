import Mathlib.Data.List.Chain
import Mathlib.Data.List.Forall2
import Mathlib.Data.List.Induction
import Mathlib.Data.List.Nodup
import Mathlib.Data.List.TakeWhile
import Mathlib.Logic.Relation
import Mathlib.Order.WellFounded

namespace BigQuerySql

variable {α β γ δ ε : Type}

section Results

theorem except_bind_ok {x : Except ε α} {f : α → Except ε β} {b : β} :
    (x >>= f) = .ok b ↔ ∃ a, x = .ok a ∧ f a = .ok b := by
  cases x with
  | error e => simp [bind, Except.bind]
  | ok a => simp [bind, Except.bind]

theorem except_error_iff {x : Except ε α} : (∃ error, x = .error error) ↔ ¬∃ a, x = .ok a := by
  cases x <;> simp

theorem option_toList_inj {o o' : Option α} : o.toList = o'.toList ↔ o = o' := by
  cases o <;> cases o' <;> simp

theorem mapM_congr {m : Type → Type} [Monad m] [LawfulMonad m] {f g : α → m β} {xs : List α}
    (h : ∀ x ∈ xs, f x = g x) : xs.mapM f = xs.mapM g := by
  induction xs with
  | nil => rfl
  | cons x rest ih =>
    rw [List.forall_mem_cons] at h
    rw [List.mapM_cons, List.mapM_cons, h.1, ih h.2]

theorem mapM_ok {f : α → Except ε β} {xs : List α} {ys : List β} :
    xs.mapM f = .ok ys ↔ List.Forall₂ (fun x y => f x = .ok y) xs ys := by
  induction xs generalizing ys with
  | nil => simp [pure, Except.pure, eq_comm]
  | cons x xs ih =>
    rw [List.mapM_cons, List.forall₂_cons_left_iff]
    constructor
    · intro h
      obtain ⟨y, hy, h⟩ := except_bind_ok.mp h
      obtain ⟨rest, hrest, h⟩ := except_bind_ok.mp h
      obtain rfl : y :: rest = ys := by simpa [pure, Except.pure] using h
      exact ⟨y, rest, hy, ih.mp hrest, rfl⟩
    · rintro ⟨y, rest, hy, hrest, rfl⟩
      rw [hy]
      exact except_bind_ok.mpr ⟨y, rfl, except_bind_ok.mpr ⟨rest, ih.mpr hrest, rfl⟩⟩

theorem mapM_map_eq_some {decode : β → Option γ} {encode : α → β} {f : α → γ} {xs : List α}
    (h : ∀ x ∈ xs, decode (encode x) = some (f x)) : (xs.map encode).mapM decode = some (xs.map f) := by
  induction xs with
  | nil => rfl
  | cons x xs ih => simp [h x (by simp), ih fun y hy => h y (by simp [hy])]

end Results

section Lookup

variable [BEq α] [LawfulBEq α]

theorem lookup_cons_if [DecidableEq α] (k : α) (e : α × β) (entries : List (α × β)) :
    (e :: entries).lookup k = if k = e.1 then some e.2 else entries.lookup k := by
  obtain ⟨i, a⟩ := e
  by_cases h : k = i
  · simp [h]
  · have hb : (k == i) = false := by simpa using h
    simp [List.lookup_cons, hb, h]

theorem mem_of_lookup {entries : List (α × β)} {k : α} {v : β} (h : entries.lookup k = some v) : (k, v) ∈ entries := by
  obtain ⟨before, after, hsplit, -⟩ := List.lookup_eq_some_iff.mp h
  rw [hsplit]
  simp

end Lookup

section Pairing

variable {R : α → β → Prop} {xs : List α} {ys : List β}

theorem forall₂_iff_getElem :
    List.Forall₂ R xs ys ↔
      ys.length = xs.length ∧ ∀ (i : Nat) x y, xs[i]? = some x → ys[i]? = some y → R x y := by
  rw [List.forall₂_iff_get]
  constructor
  · rintro ⟨hlength, h⟩
    refine ⟨hlength.symm, fun i x y hx hy => ?_⟩
    obtain ⟨hi, rfl⟩ := List.getElem?_eq_some_iff.mp hx
    obtain ⟨hj, rfl⟩ := List.getElem?_eq_some_iff.mp hy
    exact h i hi hj
  · rintro ⟨hlength, h⟩
    exact ⟨hlength.symm, fun i hi hj => h i _ _ (List.getElem?_eq_getElem hi) (List.getElem?_eq_getElem hj)⟩

theorem forall₂_getD (h : List.Forall₂ R xs ys) {fallback : β} {i : Nat} {x : α} (hx : xs[i]? = some x) :
    R x (ys.getD i fallback) := by
  obtain ⟨hlength, hall⟩ := forall₂_iff_getElem.mp h
  obtain ⟨hi, rfl⟩ := List.getElem?_eq_some_iff.mp hx
  rw [← hlength] at hi
  exact hall i _ _ hx (by simp [List.getElem?_eq_getElem hi])

theorem forall₂_mem (h : List.Forall₂ R xs ys) {x : α} (hx : x ∈ xs) : ∃ y ∈ ys, R x y := by
  induction h with
  | nil => simp at hx
  | @cons x' y xs ys hxy _ ih =>
    rcases List.mem_cons.mp hx with rfl | hx
    · exact ⟨y, by simp, hxy⟩
    · obtain ⟨y, hy, hxy⟩ := ih hx
      exact ⟨y, .tail _ hy, hxy⟩

theorem forall₂_exists (h : List.Forall₂ R xs ys) : ∀ x ∈ xs, ∃ y, R x y := by
  intro x hx
  obtain ⟨y, -, hxy⟩ := forall₂_mem h hx
  exact ⟨y, hxy⟩

theorem forall₂_single {x : α} (h : List.Forall₂ R [x] ys) : ∃ y, ys = [y] ∧ R x y := by
  obtain ⟨y, rest, hy, hrest, rfl⟩ := List.forall₂_cons_left_iff.mp h
  cases hrest
  exact ⟨y, rfl, hy⟩

theorem exists_forall₂_of_mem (h : ∀ x ∈ xs, ∃ y, R x y) : ∃ ys, List.Forall₂ R xs ys := by
  induction xs with
  | nil => exact ⟨[], .nil⟩
  | cons x xs ih =>
    rw [List.forall_mem_cons] at h
    obtain ⟨y, hy⟩ := h.1
    obtain ⟨ys, hys⟩ := ih h.2
    exact ⟨y :: ys, .cons hy hys⟩

theorem exists_forall₂ {P : β → γ → Prop} {Q : α → γ → Prop} (h : ∀ x ∈ xs, ∃ y z, R x y ∧ P y z ∧ Q x z) :
    ∃ ys zs, List.Forall₂ R xs ys ∧ List.Forall₂ P ys zs ∧ List.Forall₂ Q xs zs := by
  induction xs with
  | nil => exact ⟨[], [], .nil, .nil, .nil⟩
  | cons x xs ih =>
    obtain ⟨y, z, hr, hp, hq⟩ := h x (by simp)
    obtain ⟨ys, zs, hrs, hps, hqs⟩ := ih fun x hx => h x (.tail _ hx)
    exact ⟨y :: ys, z :: zs, .cons hr hrs, .cons hp hps, .cons hq hqs⟩

theorem forall₂_square {P : α → γ → Prop} {Q : β → δ → Prop} {S : γ → δ → Prop} {us : List γ} {vs : List δ}
    (h : List.Forall₂ R xs ys) (hu : List.Forall₂ P xs us) (hv : List.Forall₂ Q ys vs)
    (step : ∀ x ∈ xs, ∀ y ∈ ys, ∀ u v, R x y → P x u → Q y v → S u v) : List.Forall₂ S us vs := by
  induction h generalizing us vs with
  | nil =>
    cases hu
    cases hv
    exact .nil
  | @cons x y xs ys hxy _ ih =>
    cases hu with
    | cons hxu hu =>
      cases hv with
      | cons hyv hv =>
        refine .cons (step x (by simp) y (by simp) _ _ hxy hxu hyv) (ih hu hv ?_)
        exact fun x hx y hy => step x (.tail _ hx) y (.tail _ hy)

end Pairing

section Images

variable {f : α → β} {xs ys : List α}

theorem map_eq_iff : xs.map f = ys.map f ↔ List.Forall₂ (fun x y => f x = f y) xs ys := by
  rw [← List.forall₂_eq_eq_eq, List.forall₂_map_left_iff, List.forall₂_map_right_iff]

theorem map_eq_map_of {g : α → γ} (h : xs.map f = ys.map f) (hfg : ∀ x ∈ xs, ∀ y ∈ ys, f x = f y → g x = g y) :
    xs.map g = ys.map g := by
  induction xs generalizing ys with
  | nil => cases ys <;> simp at h ⊢
  | cons x xs ih =>
    cases ys with
    | nil => simp at h
    | cons y ys =>
      simp only [List.map_cons, List.cons.injEq] at h ⊢
      exact ⟨hfg x (by simp) y (by simp) h.1, ih h.2 fun a ha b hb => hfg a (by simp [ha]) b (by simp [hb])⟩

theorem map_cancel (hf : ∀ x ∈ xs, ∀ y ∈ ys, f x = f y → x = y) (h : xs.map f = ys.map f) : xs = ys := by
  have hid := map_eq_map_of (g := id) h hf
  rwa [List.map_id, List.map_id] at hid

theorem map_pair_eq {g : α → List γ} (hlength : ∀ x y, f x = f y → (g x).length = (g y).length)
    (hf : xs.map f = ys.map f) (hg : xs.flatMap g = ys.flatMap g) :
    (xs.map fun x => (f x, g x)) = ys.map fun x => (f x, g x) := by
  induction xs generalizing ys with
  | nil => cases ys <;> simp at hf ⊢
  | cons x xs ih =>
    cases ys with
    | nil => simp at hf
    | cons y ys =>
      simp only [List.map_cons, List.cons.injEq, List.flatMap_cons] at hf hg ⊢
      obtain ⟨hhead, hrest⟩ := List.append_inj hg (hlength x y hf.1)
      exact ⟨Prod.ext hf.1 hhead, ih hf.2 hrest⟩

theorem flatMap_range (f : α → List β) (xs : List α) :
    (List.range xs.length).flatMap (fun i => (xs[i]?.map f).getD []) = xs.flatMap f := by
  induction xs using List.reverseRecOn with
  | nil => rfl
  | append_singleton xs x ih =>
    rw [List.length_append, List.length_singleton, List.range_succ, List.flatMap_append, List.flatMap_append, ← ih]
    congr 1
    · refine List.flatMap_congr fun i hi => ?_
      rw [List.getElem?_append_left (List.mem_range.mp hi)]
    · simp

theorem nodup_map_renamed_iff [DecidableEq α] {old new : α} (h : xs.Nodup) (hold : old ∈ xs) :
    (xs.map fun x => if x = old then new else x).Nodup ↔ (new ∈ xs → new = old) := by
  rw [List.nodup_map_iff_inj_on h]
  constructor
  · intro hinj hnew
    by_contra hne
    exact hne (hinj new hnew old hold (by simp))
  · intro hnew x hx y hy
    split <;> split <;> grind

end Images

theorem nodup_of_isChain {r : α → α → Prop} {chain : List α} (hwf : WellFounded r)
    (h : chain.IsChain fun x y => r y x) : chain.Nodup := by
  have hchain : chain.IsChain fun x y => Relation.TransGen r y x := h.imp fun _ _ hxy => .single hxy
  have : Trans (fun x y => Relation.TransGen r y x) (fun x y => Relation.TransGen r y x)
      (fun x y => Relation.TransGen r y x) := ⟨fun hxy hyz => hyz.trans hxy⟩
  refine hchain.pairwise.imp ?_
  rintro x _ hxy rfl
  exact hwf.transGen.irrefl.irrefl x hxy

theorem foldl_max_le {xs : List Nat} {start n : Nat} :
    xs.foldl max start ≤ n ↔ start ≤ n ∧ ∀ x ∈ xs, x ≤ n := by
  induction xs generalizing start with
  | nil => simp
  | cons x rest ih => rw [List.foldl_cons, ih, List.forall_mem_cons, Nat.max_le, and_assoc]

section Repetitions

variable [DecidableEq α] [DecidableEq β]

theorem filter_eraseDups (p : α → Bool) (xs : List α) : (xs.filter p).eraseDups = xs.eraseDups.filter p := by
  match xs with
  | [] => rfl
  | x :: rest =>
    -- the tail is filtered before it is gone through, so that the recursion is on its length
    have ih := filter_eraseDups p (rest.filter fun y => !y == x)
    rw [List.eraseDups_cons]
    by_cases hx : p x
    · rw [List.filter_cons_of_pos hx, List.filter_cons_of_pos hx, List.eraseDups_cons, ← ih, List.filter_filter,
        List.filter_filter]
      simp only [Bool.and_comm]
    · rw [List.filter_cons_of_neg hx, List.filter_cons_of_neg hx, ← ih, List.filter_filter]
      congr 1
      refine List.filter_congr fun y _ => ?_
      by_cases hy : y = x
      · simp [hy, hx]
      · simp [hy]
termination_by xs.length
decreasing_by exact Nat.lt_succ_of_le (List.length_filter_le _ _)

theorem eraseDups_append (xs ys : List α) :
    (xs ++ ys).eraseDups = xs.eraseDups ++ ys.eraseDups.filter fun y => !xs.contains y := by
  have hremove : ys.removeAll xs = ys.filter fun y => !xs.contains y := by
    simp [List.removeAll, List.elem_eq_contains]
  rw [List.eraseDups_append, hremove, filter_eraseDups]

theorem eraseDups_of_nodup {xs : List α} (h : xs.Nodup) : xs.eraseDups = xs := by
  induction xs with
  | nil => rfl
  | cons x rest ih =>
    rw [List.nodup_cons] at h
    have hfilter : rest.filter (fun y => !y == x) = rest :=
      List.filter_eq_self.mpr fun y hy => by simpa using fun heq : y = x => h.1 (heq ▸ hy)
    rw [List.eraseDups_cons, hfilter, ih h.2]

theorem eraseDups_concat (xs : List α) (x : α) :
    (xs ++ [x]).eraseDups = if x ∈ xs then xs.eraseDups else xs.eraseDups ++ [x] := by
  have hone : [x].eraseDups = [x] := by simp [List.eraseDups_cons]
  rw [eraseDups_append, hone]
  by_cases hx : x ∈ xs <;> simp [hx]

theorem eraseDups_map {f : α → β} {xs : List α} (hf : ∀ x ∈ xs, ∀ y ∈ xs, f x = f y → x = y) :
    (xs.map f).eraseDups = xs.eraseDups.map f := by
  induction xs using List.reverseRecOn with
  | nil => rfl
  | append_singleton xs x ih =>
    have hmem : f x ∈ xs.map f ↔ x ∈ xs := by
      refine ⟨fun h => ?_, fun h => List.mem_map_of_mem h⟩
      obtain ⟨y, hy, heq⟩ := List.mem_map.mp h
      exact hf y (by simp [hy]) x (by simp) heq ▸ hy
    rw [List.map_append, List.map_singleton, eraseDups_concat, eraseDups_concat,
      ih fun y hy z hz => hf y (by simp [hy]) z (by simp [hz])]
    by_cases hx : x ∈ xs
    · rw [if_pos (hmem.mpr hx), if_pos hx]
    · rw [if_neg (mt hmem.mp hx), if_neg hx, List.map_append, List.map_singleton]

end Repetitions

/-- A list that begins with nothing of a class ends whatever was read of that class. -/
def Escapes (p : Char → Bool) (cs : List Char) : Prop :=
  ∀ c ∈ cs.head?, p c = false

section Runs

variable {p : Char → Bool} {rest : List Char}

theorem Escapes.mono {q : Char → Bool} (h : Escapes p rest) (hpq : ∀ c, p c = false → q c = false) : Escapes q rest :=
  fun c hc => hpq c (h c hc)

theorem dropWhile_of_escapes (h : Escapes p rest) : rest.dropWhile p = rest := by
  cases rest with
  | nil => rfl
  | cons c cs => simp [h c (by simp)]

theorem takeWhile_append_left (h : Escapes p rest) (cs : List Char) : (cs ++ rest).takeWhile p = cs.takeWhile p := by
  induction cs with
  | nil =>
    cases rest with
    | nil => rfl
    | cons c rest => simp [h c rfl]
  | cons c cs ih => rw [List.cons_append, List.takeWhile_cons, List.takeWhile_cons, ih]

theorem takeWhile_append_escapes {ds : List Char} (hds : ∀ c ∈ ds, p c = true) (hrest : Escapes p rest) :
    (ds ++ rest).takeWhile p = ds ∧ (ds ++ rest).dropWhile p = rest := by
  rw [takeWhile_append_left hrest, List.dropWhile_append_of_pos hds, dropWhile_of_escapes hrest]
  exact ⟨List.takeWhile_eq_self_iff.mpr hds, rfl⟩

end Runs

end BigQuerySql
