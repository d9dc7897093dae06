import BigQuerySql.Proofs.Documents
import BigQuerySql.Proofs.Registry
import Mathlib.Data.Prod.Lex
import Mathlib.Data.String.Basic

namespace BigQuerySql

theorem inj_of_ofName {α : Type} {name : α → String} {ofName? : String → Option α}
    (h : ∀ x, ofName? (name x) = some x) {x y : α} (hname : name x = name y) : x = y :=
  Option.some.inj ((h x).symm.trans (hname ▸ h y))

theorem Func.name_inj {f g : Func} (h : f.name = g.name) : f = g := by
  have hapart (f : Func) (hf : f ∈ plain) (g : GeoFunc) : f.name ≠ (Func.geo g).name := by
    have hclear : plain.all fun f => !f.name.toList.contains '(' := by decide
    intro heq
    have hf := List.all_eq_true.mp hclear f hf
    rw [heq] at hf
    simp [name] at hf
  rcases f.plain_or_geo with ⟨hf, -⟩ | ⟨own, rfl⟩ <;> rcases g.plain_or_geo with ⟨hg, -⟩ | ⟨other, rfl⟩
  · exact Option.some.inj ((ofName_name f hf).symm.trans (h ▸ ofName_name g hg))
  · exact absurd h (hapart f hf other)
  · exact absurd h.symm (hapart g hg own)
  · have hname : own.name = other.name := by simpa [name] using h
    rw [inj_of_ofName GeoFunc.ofName_name hname]

namespace Kind

def place (k : Kind) : Nat ×ₗ String :=
  toLex (k.form, k.operatorName)

theorem before_iff {a b : Kind} : a.before b = true ↔ a.place < b.place := by
  simp [before, place, Prod.Lex.toLex_lt_toLex]

theorem place_injective : Function.Injective place := by
  intro a b h
  obtain ⟨hform, hname⟩ : a.form = b.form ∧ a.operatorName = b.operatorName := by simpa [place] using h
  -- kinds of one form are the same, or of one family and told by the operator
  cases a with
  | setOp kind =>
    cases b <;> simp only [form, Nat.reduceEqDiff] at hform
    rw [inj_of_ofName SetOpKind.ofName_name hname]
  | binary op =>
    cases b <;> simp only [form, Nat.reduceEqDiff] at hform
    rw [inj_of_ofName BinaryOp.ofName_name hname]
  | call func =>
    cases b <;> simp only [form, Nat.reduceEqDiff] at hform
    rw [Func.name_inj hname]
  | reduction func =>
    cases b <;> simp only [form, Nat.reduceEqDiff] at hform
    rw [inj_of_ofName Agg.ofName_name hname]
  | truncate kind =>
    cases b <;> simp only [form, Nat.reduceEqDiff] at hform
    rw [inj_of_ofName TemporalKind.ofName_name hname]
  | intervalArithmetic op =>
    cases b <;> simp only [form, Nat.reduceEqDiff] at hform
    rw [inj_of_ofName IntervalOp.ofName_name hname]
  | _ => cases b <;> first | rfl | simp only [form, Nat.reduceEqDiff] at hform

instance : IsStrictTotalOrder Kind fun a b => a.before b = true where
  trichotomous a b hab hba := by
    rw [before_iff, not_lt] at hab hba
    exact place_injective (le_antisymm hba hab)
  irrefl a h := lt_irrefl _ (before_iff.mp h)
  trans a b c hab hbc := before_iff.mpr ((before_iff.mp hab).trans (before_iff.mp hbc))

end Kind

namespace DispatchTable

variable {α : Type}

def Ordered (t : DispatchTable α) : Prop :=
  t.kinds.Pairwise fun a b => a.before b = true

theorem Ordered.nodup {t : DispatchTable α} (h : t.Ordered) : t.kinds.Nodup := by
  refine List.Pairwise.imp (R := fun a b : Kind => a.before b = true) ?_ h
  rintro a _ hab rfl
  exact irrefl_of (fun a b : Kind => a.before b = true) a hab

theorem mem_kinds_iff {t : DispatchTable α} {k : Kind} : k ∈ t.kinds ↔ (t.get? k).isSome = true := by
  obtain ⟨entries⟩ := t
  induction entries with
  | nil => simp [kinds, get?]
  | cons e rest ih =>
    simp only [kinds, get?] at ih
    simp only [kinds, get?, List.map_cons, List.mem_cons, lookup_cons_if, ih]
    by_cases hk : k = e.1 <;> simp [hk]

theorem mem_insertEntry {k x : Kind} {a : α} {entries : List (Kind × α)}
    (h : x ∈ (insertEntry k a entries).map Prod.fst) : x = k ∨ x ∈ entries.map Prod.fst := by
  have hkinds := mem_kinds_iff (t := ⟨insertEntry k a entries⟩) (k := x)
  have hbefore := mem_kinds_iff (t := ⟨entries⟩) (k := x)
  rw [get?, lookup_insertEntry] at hkinds
  by_cases hx : x = k
  · exact .inl hx
  · rw [if_neg hx] at hkinds
    exact .inr (hbefore.mpr (hkinds.mp h))

theorem ordered_empty : (empty : DispatchTable α).Ordered :=
  .nil

theorem ordered_insert {t : DispatchTable α} (h : t.Ordered) (k : Kind) (a : α) : (t.insert k a).Ordered := by
  obtain ⟨entries⟩ := t
  simp only [Ordered, kinds, insert] at h ⊢
  induction entries with
  | nil => exact List.pairwise_singleton _ _
  | cons e rest ih =>
    obtain ⟨hfirst, hrest⟩ := List.pairwise_cons.mp h
    rw [insertEntry]
    split_ifs with hsame hbefore
    · exact hsame ▸ h
    · refine List.pairwise_cons.mpr ⟨fun x hx => ?_, h⟩
      rcases List.mem_cons.mp hx with rfl | hx
      · exact hbefore
      · exact trans_of (fun a b : Kind => a.before b = true) hbefore (hfirst x hx)
    · have hafter : e.1.before k = true := by
        rcases trichotomous_of (fun a b : Kind => a.before b = true) e.1 k with hlt | heq | hgt
        · exact hlt
        · exact absurd heq hsame
        · exact absurd hgt hbefore
      refine List.pairwise_cons.mpr ⟨fun x hx => ?_, ih hrest⟩
      rcases mem_insertEntry hx with rfl | hx
      · exact hafter
      · exact hfirst x hx

theorem ordered_insertMany {t : DispatchTable α} (h : t.Ordered) (entries : List (Kind × α)) :
    (t.insertMany entries).Ordered := by
  induction entries generalizing t with
  | nil => exact h
  | cons e rest ih => exact ih (ordered_insert h e.1 e.2)

theorem ordered_erase {t : DispatchTable α} (h : t.Ordered) (k : Kind) : (t.erase k).Ordered :=
  h.sublist (List.filter_sublist.map Prod.fst)

theorem lookup_eq_some_iff_mem {k : Kind} {a : α} {entries : List (Kind × α)} (h : (entries.map Prod.fst).Nodup) :
    entries.lookup k = some a ↔ (k, a) ∈ entries := by
  induction entries with
  | nil => simp
  | cons e rest ih =>
    obtain ⟨i, b⟩ := e
    obtain ⟨hnew, hrest⟩ := List.nodup_cons.mp h
    rw [lookup_cons_if, List.mem_cons, ← ih hrest]
    split_ifs with hk
    · obtain rfl : k = i := hk
      have hmiss : rest.lookup k ≠ some a := by
        rw [Ne, ih hrest]
        exact fun hmem => hnew (List.mem_map.mpr ⟨(k, a), hmem, rfl⟩)
      simp [hmiss, eq_comm]
    · have hi : k ≠ i := hk
      simp [hi]

theorem get_extend (t : DispatchTable α) {layer : DispatchTable α} (h : layer.Ordered) (k : Kind) :
    (t.extend layer).get? k = (layer.get? k).or (t.get? k) := by
  have hreverse : (layer.entries.reverse.map Prod.fst).Nodup := by
    rw [List.map_reverse]
    exact List.nodup_reverse.mpr h.nodup
  have hlookup : layer.entries.reverse.lookup k = layer.entries.lookup k := by
    refine Option.ext fun a => ?_
    rw [lookup_eq_some_iff_mem hreverse, lookup_eq_some_iff_mem h.nodup, List.mem_reverse]
  rw [extend, get_insertMany, hlookup]
  rfl

inductive Edit (α : Type) where
  | register (k : Kind) (a : α)
  | remove (k : Kind)
  | extend (layer : List (Edit α))

mutual

def Edit.verdict (k : Kind) : Edit α → Option (Option α)
  | .register i a => if k = i then some (some a) else none
  | .remove i => if k = i then some none else none
  | .extend layer => (entryOf k layer).map some

/-- The entry of a kind by a history, the latest edit first: the latest one that says anything decides. -/
def entryOf (k : Kind) : List (Edit α) → Option α
  | [] => none
  | e :: earlier => (e.verdict k).getD (entryOf k earlier)

end

theorem entryOf_eq (k : Kind) (h : List (Edit α)) : entryOf k h = (h.findSome? (Edit.verdict k)).join := by
  induction h with
  | nil => rfl
  | cons e earlier ih => cases hverdict : e.verdict k <;> simp [entryOf, hverdict, ih]

structure Building (α T : Type) where
  empty : T
  register : T → Kind → α → T
  remove : T → Kind → T
  extend : T → T → T

def Building.ofTables : Building α (DispatchTable α) where
  empty := .empty
  register := insert
  remove := erase
  extend := DispatchTable.extend

def Building.ofHistories : Building α (List (Edit α)) where
  empty := []
  register h k a := .register k a :: h
  remove h k := .remove k :: h
  extend h layer := .extend layer :: h

inductive Call (α : Type) where
  | builder
  | toBuilder (table : Nat)
  | register (builder : Nat) (k : Kind) (a : α)
  | remove (builder : Nat) (k : Kind)
  | extend (builder table : Nat)
  | build (builder : Nat)

structure Workshop (T : Type) where
  builders : List (Option T)
  tables : List T

namespace Workshop

variable {T U : Type}

def edit (w : Workshop T) (i : Nat) (f : T → T) : Workshop T :=
  ⟨w.builders.modify i (Option.map f), w.tables⟩

def map (f : T → U) (w : Workshop T) : Workshop U :=
  ⟨w.builders.map (Option.map f), w.tables.map f⟩

theorem map_edit (f : T → U) {g : T → T} {g' : U → U} (h : ∀ t, f (g t) = g' (f t)) (w : Workshop T) (i : Nat) :
    (w.edit i g).map f = (w.map f).edit i g' := by
  have hbuilders : (w.builders.modify i (Option.map g)).map (Option.map f) =
      (w.builders.map (Option.map f)).modify i (Option.map g') := by
    refine List.ext_getElem? fun j => ?_
    rw [List.getElem?_map, List.getElem?_modify, List.getElem?_modify, List.getElem?_map]
    rcases w.builders[j]? with _ | _ | t <;> by_cases hj : i = j <;> simp [hj, h]
  rw [map, edit, edit, hbuilders, map]

end Workshop

namespace Building

variable {T : Type} (b : Building α T)

def step (w : Workshop T) : Call α → Workshop T
  | .builder => ⟨w.builders ++ [some b.empty], w.tables⟩
  | .toBuilder table =>
    match w.tables[table]? with
    | some t => ⟨w.builders ++ [some t], w.tables⟩
    | none => w
  | .register i k a => w.edit i fun t => b.register t k a
  | .remove i k => w.edit i fun t => b.remove t k
  | .extend i table =>
    match w.tables[table]? with
    | some layer => w.edit i fun t => b.extend t layer
    | none => w
  | .build i =>
    match w.builders[i]? with
    | some (some t) => ⟨w.builders.set i none, w.tables ++ [t]⟩
    | _ => w

def run (calls : List (Call α)) : Workshop T :=
  calls.foldl b.step ⟨[], []⟩

mutual

def replayEdit (t : T) : Edit α → T
  | .register k a => b.register t k a
  | .remove k => b.remove t k
  | .extend layer => b.extend t (replay layer)

def replay : List (Edit α) → T
  | [] => b.empty
  | e :: earlier => replayEdit (replay earlier) e

end

theorem replay_step (w : Workshop (List (Edit α))) (c : Call α) :
    (ofHistories.step w c).map b.replay = b.step (w.map b.replay) c := by
  cases c with
  | builder => simp [step, Workshop.map, ofHistories, replay]
  | toBuilder table => cases ht : w.tables[table]? <;> simp [step, Workshop.map, ht]
  | register i k a =>
    have hedit (h : List (Edit α)) : b.replay (ofHistories.register h k a) = b.register (b.replay h) k a := rfl
    exact Workshop.map_edit b.replay hedit w i
  | remove i k =>
    have hedit (h : List (Edit α)) : b.replay (ofHistories.remove h k) = b.remove (b.replay h) k := rfl
    exact Workshop.map_edit b.replay hedit w i
  | extend i table =>
    have htables : (w.map b.replay).tables[table]? = w.tables[table]?.map b.replay := List.getElem?_map
    cases ht : w.tables[table]? with
    | none => simp [step, htables, ht]
    | some layer =>
      have hedit (h : List (Edit α)) :
          b.replay (ofHistories.extend h layer) = b.extend (b.replay h) (b.replay layer) := rfl
      simp only [step, htables, ht, Option.map_some]
      exact Workshop.map_edit b.replay hedit w i
  | build i =>
    rcases hi : w.builders[i]? with _ | _ | t <;> simp [step, hi, Workshop.map]

theorem run_eq_replay (calls : List (Call α)) : b.run calls = (ofHistories.run calls).map b.replay := by
  have hfold (w : Workshop (List (Edit α))) :
      calls.foldl b.step (w.map b.replay) = (calls.foldl ofHistories.step w).map b.replay := by
    induction calls generalizing w with
    | nil => rfl
    | cons c rest ih => rw [List.foldl_cons, List.foldl_cons, ← replay_step, ih]
  exact hfold ⟨[], []⟩

theorem tables_step (w : Workshop T) (c : Call α) : w.tables <+: (b.step w c).tables := by
  cases c with
  | toBuilder table => cases ht : w.tables[table]? <;> simp [step, ht]
  | extend i table => cases ht : w.tables[table]? <;> simp [step, ht, Workshop.edit]
  | build i => rcases hi : w.builders[i]? with _ | _ | t <;> simp [step, hi]
  | _ => exact List.prefix_refl _

theorem tables_run (calls later : List (Call α)) : (b.run calls).tables <+: (b.run (calls ++ later)).tables := by
  rw [run, run, List.foldl_append]
  generalize calls.foldl b.step ⟨[], []⟩ = w
  induction later generalizing w with
  | nil => exact List.prefix_refl _
  | cons c rest ih => exact (b.tables_step w c).trans (ih (b.step w c))

end Building

/-- A property holds of all histories if every edit passes it on, one that lays a table over another also from the
history of that table. -/
theorem history_induction {P : List (Edit α) → Prop} (nil : P [])
    (register : ∀ k a h, P h → P (.register k a :: h)) (remove : ∀ k h, P h → P (.remove k :: h))
    (extend : ∀ layer h, P layer → P h → P (.extend layer :: h)) : ∀ h, P h
  | [] => nil
  | .register k a :: h => register k a h (history_induction nil register remove extend h)
  | .remove k :: h => remove k h (history_induction nil register remove extend h)
  | .extend layer :: h =>
    extend layer h (history_induction nil register remove extend layer) (history_induction nil register remove extend h)

theorem replay_ordered (h : List (Edit α)) : (Building.ofTables.replay h).Ordered := by
  induction h using history_induction with
  | nil => exact ordered_empty
  | register k a h ih => exact ordered_insert ih k a
  | remove k h ih => exact ordered_erase ih k
  | extend layer h _ ih => exact ordered_insertMany ih _

theorem get_replay (k : Kind) (h : List (Edit α)) : (Building.ofTables.replay h).get? k = entryOf k h := by
  induction h using history_induction with
  | nil => rfl
  | register i a h ih =>
    have hreplay : Building.ofTables.replay (.register i a :: h) = (Building.ofTables.replay h).insert i a := rfl
    rw [hreplay, get_insert, ih, entryOf, Edit.verdict]
    split_ifs <;> rfl
  | remove i h ih =>
    have hreplay : Building.ofTables.replay (.remove i :: h) = (Building.ofTables.replay h).erase i := rfl
    rw [hreplay, get_erase, ih, entryOf, Edit.verdict]
    split_ifs <;> rfl
  | extend layer h ihlayer ih =>
    have hreplay : Building.ofTables.replay (.extend layer :: h) =
        (Building.ofTables.replay h).extend (Building.ofTables.replay layer) := rfl
    rw [hreplay, get_extend _ (replay_ordered layer), ihlayer, ih, entryOf, Edit.verdict]
    cases entryOf k layer <;> rfl

/-- Whatever calls are made, every table that is built holds for each kind what the latest edit of its history that
says anything about the kind says about it, lists the kinds it has an entry for in strictly increasing order, counts
and knows these kinds, and stays as it is whatever calls follow. -/
theorem tables_follow_histories (calls : List (Call α)) {i : Nat} {t : DispatchTable α}
    (ht : (Building.ofTables.run calls).tables[i]? = some t) :
    ∃ history, (Building.ofHistories.run calls).tables[i]? = some history ∧
      (∀ k, t.get? k = (history.findSome? (Edit.verdict k)).join) ∧
      IsStrictTotalOrder Kind (fun a b => a.before b = true) ∧ t.kinds.Pairwise (fun a b => a.before b = true) ∧
      (∀ k, k ∈ t.kinds ↔ ∃ a, t.get? k = some a) ∧ t.size = t.kinds.length ∧
      (∀ k, t.contains k = true ↔ ∃ a, t.get? k = some a) ∧
      ∀ later, (Building.ofTables.run (calls ++ later)).tables[i]? = some t := by
  have hreplay := ht
  rw [Building.run_eq_replay, Workshop.map, List.getElem?_map, Option.map_eq_some_iff] at hreplay
  obtain ⟨history, hhistory, rfl⟩ := hreplay
  refine ⟨history, hhistory, fun k => ?_, inferInstance, replay_ordered history, fun k => ?_, ?_, fun k => ?_, ?_⟩
  · rw [get_replay, entryOf_eq]
  · rw [mem_kinds_iff, Option.isSome_iff_exists]
  · exact (List.length_map _).symm
  · rw [contains, Option.isSome_iff_exists]
  · intro later
    obtain ⟨added, hadded⟩ := Building.ofTables.tables_run calls later
    rw [← hadded, List.getElem?_append_left (List.getElem?_eq_some_iff.mp ht).1, ht]

def layering : List (Call String) :=
  [.builder, .register 0 (.binary .divide) "base divide", .register 0 (.reduction .sum) "base sum",
    .register 0 .cast "base cast", .build 0,
    .toBuilder 0, .register 1 (.binary .divide) "dialect divide", .remove 1 .cast, .build 1,
    .builder, .register 2 .literal "literal", .register 2 .cast "own cast", .extend 2 1, .build 2]

theorem layering_follows_histories :
    ∃ t : DispatchTable String, (Building.ofTables.run layering).tables[2]? = some t ∧
      t.get? (.binary .divide) = some "dialect divide" ∧ t.get? .cast = some "own cast" ∧
      .cast ∈ t.kinds ∧ .ifElse ∉ t.kinds := by
  obtain ⟨t, ht⟩ : ∃ t : DispatchTable String, (Building.ofTables.run layering).tables[2]? = some t := ⟨_, rfl⟩
  obtain ⟨history, hhistory, hget, -, -, hkinds, -⟩ := tables_follow_histories layering ht
  obtain rfl := Option.some.inj hhistory
  have hcast : t.get? .cast = some "own cast" := hget .cast
  have hmissing : t.get? .ifElse = none := hget .ifElse
  refine ⟨t, ht, hget (.binary .divide), hcast, (hkinds .cast).mpr ⟨_, hcast⟩, fun hmem => ?_⟩
  obtain ⟨a, ha⟩ := (hkinds .ifElse).mp hmem
  simp [hmissing] at ha

end DispatchTable

end BigQuerySql
