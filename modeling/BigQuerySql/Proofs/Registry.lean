import BigQuerySql.Proofs.Sequences
import BigQuerySql.Sql.BigQuery

namespace BigQuerySql

namespace DispatchTable

variable {α : Type}

theorem lookup_insertEntry (k : Kind) (a : α) (k' : Kind) (entries : List (Kind × α)) :
    (insertEntry k a entries).lookup k' = if k' = k then some a else entries.lookup k' := by
  induction entries with
  | nil => simp [insertEntry, lookup_cons_if]
  | cons e rest ih =>
    simp only [insertEntry]
    split
    next hk => by_cases h : k' = k <;> simp [lookup_cons_if, hk, h]
    next hk =>
      split
      · simp [lookup_cons_if]
      · rw [lookup_cons_if, ih, lookup_cons_if]
        by_cases h : k' = e.1
        · simp [h, hk]
        · simp [h]

theorem get_insert (t : DispatchTable α) (k : Kind) (a : α) (k' : Kind) :
    (t.insert k a).get? k' = if k' = k then some a else t.get? k' :=
  lookup_insertEntry k a k' t.entries

theorem insertMany_append (t : DispatchTable α) (first second : List (Kind × α)) :
    t.insertMany (first ++ second) = (t.insertMany first).insertMany second := by
  simp only [insertMany, List.foldl_append]

theorem get_insertMany (t : DispatchTable α) (entries : List (Kind × α)) (k : Kind) :
    (t.insertMany entries).get? k = (entries.reverse.lookup k).or (t.get? k) := by
  induction entries generalizing t with
  | nil => simp [insertMany]
  | cons e rest ih =>
    have hstep : t.insertMany (e :: rest) = (t.insert e.1 e.2).insertMany rest := rfl
    rw [hstep, ih, get_insert, List.reverse_cons, List.lookup_append, lookup_cons_if, Option.or_assoc]
    by_cases h : k = e.1 <;> simp [h]

theorem lookup_filter (p : Kind → Bool) (k : Kind) (entries : List (Kind × α)) :
    (entries.filter fun e => p e.1).lookup k = if p k then entries.lookup k else none := by
  induction entries with
  | nil => simp
  | cons e rest ih =>
    rw [lookup_cons_if, List.filter_cons]
    split
    next he =>
      rw [lookup_cons_if, ih]
      by_cases hk : k = e.1
      · simp [hk, he]
      · simp [hk]
    next he =>
      rw [ih]
      by_cases hk : k = e.1
      · simp [hk, he]
      · simp [hk]

theorem get_erase (t : DispatchTable α) (i k : Kind) : (t.erase i).get? k = if k = i then none else t.get? k := by
  have hfilter := lookup_filter (fun x => decide (x ≠ i)) k t.entries
  rw [get?, erase, hfilter]
  by_cases hk : k = i <;> simp [hk, get?]

theorem get_eraseMany (t : DispatchTable α) (kinds : List Kind) (k : Kind) :
    (t.eraseMany kinds).get? k = if k ∈ kinds then none else t.get? k := by
  induction kinds generalizing t with
  | nil => simp [eraseMany]
  | cons i rest ih =>
    have hstep : t.eraseMany (i :: rest) = (t.erase i).eraseMany rest := rfl
    rw [hstep, ih, get_erase]
    by_cases hk : k = i <;> simp [hk]

end DispatchTable

namespace Formatter

def bigQueryLayer : List (Kind × Formatter) :=
  bigQueryForms ++ SetOpKind.all.map (fun kind => (.setOp kind, .setOp)) ++ calls bigQueryCalls ++
    geographyCalls.map (fun e => (.call (.geo e.1), e.2)) ++ reductions bigQueryReductions

def genericLayer : List (Kind × Formatter) :=
  genericForms ++ BinaryOp.all.map (fun op => (.binary op, .infixed)) ++
    SetOpKind.all.map (fun kind => (.setOp kind, .genericSetOp)) ++ calls genericCalls ++
    reductions genericReductions

theorem generic_eq : generic = DispatchTable.empty.insertMany genericLayer := by
  simp only [generic, genericLayer, DispatchTable.insertMany_append]

theorem bigQuery_eq : bigQuery = (generic.insertMany bigQueryLayer).eraseMany removedKinds := by
  simp only [bigQuery, bigQueryLayer, DispatchTable.insertMany_append]

theorem get_bigQuery (k : Kind) :
    bigQuery.get? k = if k ∈ removedKinds then none
      else (bigQueryLayer.reverse.lookup k).or (genericLayer.reverse.lookup k) := by
  have hempty : DispatchTable.empty.get? k = (none : Option Formatter) := rfl
  rw [bigQuery_eq, generic_eq, DispatchTable.get_eraseMany, DispatchTable.get_insertMany,
    DispatchTable.get_insertMany, hempty, Option.or_none]

def lookupOrder : DispatchTable Formatter :=
  ⟨(bigQueryLayer.reverse ++ genericLayer.reverse).filter fun e => e.1 ∉ removedKinds⟩

theorem get_lookupOrder (k : Kind) : bigQuery.get? k = lookupOrder.get? k := by
  have hfilter := DispatchTable.lookup_filter (fun i => decide (i ∉ removedKinds)) k
    (bigQueryLayer.reverse ++ genericLayer.reverse)
  rw [get_bigQuery, lookupOrder, DispatchTable.get?, hfilter, List.lookup_append]
  by_cases hk : k ∈ removedKinds <;> simp [hk]

theorem not_mem_of_lookup {k : Kind} {entries : List (Kind × Formatter)}
    (h : entries.reverse.lookup k = none) : k ∉ entries.map Prod.fst := by
  intro hk
  obtain ⟨e, he, rfl⟩ := List.mem_map.mp hk
  have := List.lookup_eq_none_iff.mp h e (List.mem_reverse.mpr he)
  simp at this

/-- A test holds of whatever is registered for BigQuery if it holds of BigQuery's own entries and of the
generic ones that are neither replaced nor removed. -/
theorem bigQuery_all {p : Kind × Formatter → Bool} (hown : bigQueryLayer.all p)
    (hgeneric : genericLayer.all fun e =>
      p e || removedKinds.contains e.1 || (bigQueryLayer.map Prod.fst).contains e.1)
    {k : Kind} {f : Formatter} (h : bigQuery.get? k = some f) : p (k, f) := by
  rw [get_bigQuery] at h
  split at h
  next => simp at h
  next hk =>
    cases hl : bigQueryLayer.reverse.lookup k with
    | some g =>
      obtain rfl : g = f := by simpa [hl] using h
      exact List.all_eq_true.mp hown _ (List.mem_reverse.mp (mem_of_lookup hl))
    | none =>
      rw [hl, Option.none_or] at h
      have hp := List.all_eq_true.mp hgeneric _ (List.mem_reverse.mp (mem_of_lookup h))
      have hover : ¬∃ g, (k, g) ∈ bigQueryLayer := by simpa using not_mem_of_lookup hl
      simpa [hk, hover] using hp

def keepsQueryForm : Kind × Formatter → Bool
  | (.tableScan, .tableScan) => true
  | (.tableScan, _) => false
  | (.setOp _, .setOp) => true
  | (.setOp _, _) => false
  | _ => true

theorem bigQuery_keepsQueryForm {k : Kind} {f : Formatter} (h : bigQuery.get? k = some f) :
    keepsQueryForm (k, f) :=
  bigQuery_all (by decide) (by decide) h

theorem bigQuery_tableScan {f : Formatter} (h : bigQuery.get? .tableScan = some f) : f = .tableScan := by
  have hform := bigQuery_keepsQueryForm h
  cases f <;> simp [keepsQueryForm] at hform ⊢

theorem bigQuery_setOp {kind : SetOpKind} {f : Formatter} (h : bigQuery.get? (.setOp kind) = some f) :
    f = .setOp := by
  have hform := bigQuery_keepsQueryForm h
  cases f <;> simp [keepsQueryForm] at hform ⊢

end Formatter

end BigQuerySql
