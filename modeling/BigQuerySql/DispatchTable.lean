import BigQuerySql.Expr.Kind

namespace BigQuerySql

/-- What is registered for each kind of node: one entry a kind, in the order of the kinds. -/
structure DispatchTable (α : Type) where
  entries : List (Kind × α)

namespace DispatchTable

variable {α : Type}

def empty : DispatchTable α := ⟨[]⟩

def get? (t : DispatchTable α) (k : Kind) : Option α :=
  t.entries.lookup k

def contains (t : DispatchTable α) (k : Kind) : Bool :=
  (t.get? k).isSome

def kinds (t : DispatchTable α) : List Kind :=
  t.entries.map (·.1)

def size (t : DispatchTable α) : Nat :=
  t.entries.length

def isEmpty (t : DispatchTable α) : Bool :=
  t.entries.isEmpty

def insertEntry (k : Kind) (a : α) : List (Kind × α) → List (Kind × α)
  | [] => [(k, a)]
  | e :: rest =>
    if e.1 = k then (k, a) :: rest
    else if k.before e.1 then (k, a) :: e :: rest
    else e :: insertEntry k a rest

def insert (t : DispatchTable α) (k : Kind) (a : α) : DispatchTable α :=
  ⟨insertEntry k a t.entries⟩

def insertMany (t : DispatchTable α) (entries : List (Kind × α)) : DispatchTable α :=
  entries.foldl (fun t e => t.insert e.1 e.2) t

def erase (t : DispatchTable α) (k : Kind) : DispatchTable α :=
  ⟨t.entries.filter fun e => e.1 ≠ k⟩

def eraseMany (t : DispatchTable α) (kinds : List Kind) : DispatchTable α :=
  kinds.foldl erase t

def extend (t layer : DispatchTable α) : DispatchTable α :=
  t.insertMany layer.entries

def copyEntry (t : DispatchTable α) (source target : Kind) : DispatchTable α :=
  match t.get? source with
  | some a => t.insert target a
  | none => t

def summary (t : DispatchTable α) : String :=
  "DispatchTable \x7b entries: " ++ toString t.size ++ " \x7d"

end DispatchTable

end BigQuerySql
