import BigQuerySql.Json.Basic

namespace BigQuerySql

namespace Json

def str? : Json → Option String
  | .str s => some s
  | _ => none

def bool? : Json → Option Bool
  | .bool b => some b
  | _ => none

def int? : Json → Option Int
  | .int i => some i
  | _ => none

def arr? : Json → Option (List Json)
  | .arr items => some items
  | _ => none

def obj? : Json → Option (List (String × Json))
  | .obj members => some members
  | _ => none

def float? : Json → Option Binary64
  | .int i => some (Binary64.ofInt i)
  | .float x => some x
  | _ => none

def int64? (j : Json) : Option Int64 := do
  let i ← j.int?
  if decide (-Int.pow 2 63 ≤ i) && decide (i < Int.pow 2 63) then some (Int64.ofInt i) else none

def byte? (j : Json) : Option UInt8 := do
  let i ← j.int?
  if decide (0 ≤ i) && decide (i < 256) then some (UInt8.ofNat i.toNat) else none

def nullable? (decode : Json → Option α) : Json → Option (Option α)
  | .null => some none
  | j => (decode j).map some

def optional? (decode : Json → Option α) : Option Json → Option (Option α)
  | none => some none
  | some j => nullable? decode j

def orDefault? (default : α) (decode : Json → Option α) : Option Json → Option α
  | none => some default
  | some j => decode j

def member? (members : List (String × Json)) (name : String) : Option (Option Json) :=
  match members.filter fun m => m.1 == name with
  | [] => some none
  | [m] => some (some m.2)
  | _ => none

/-- The fields of a record in the order of their names. A record is an object, in which members with
other names are ignored, or an array of its fields in order, of which only those after the first
`required` may be left out. -/
def record? (names : List String) (required : Nat) : Json → Option (List (Option Json))
  | .obj members => names.mapM (member? members)
  | .arr items =>
    if required ≤ items.length && items.length ≤ names.length then
      some (items.map some ++ List.replicate (names.length - items.length) none)
    else none
  | _ => none

def choice? : Json → Option (String × Option Json)
  | .str s => some (s, none)
  | .obj [(name, payload)] => some (name, some payload)
  | _ => none

/-- A choice that carries nothing may be written as a string or with `null`, and inside an expression also
with an empty object. -/
def plainChoice? (inner : Bool) (j : Json) : Option String :=
  match j.choice? with
  | some (name, none) => some name
  | some (name, some .null) => some name
  | some (name, some (.obj [])) => if inner then some name else none
  | _ => none

def named? (inner : Bool) (ofName? : String → Option α) (j : Json) : Option α :=
  (j.plainChoice? inner).bind ofName?

/-- Entries of an ordered mapping: a repeated key keeps its first place and its last value. -/
def putEntry (key : String) (value : α) : List (String × α) → List (String × α)
  | [] => [(key, value)]
  | (k, v) :: rest => if k = key then (k, value) :: rest else (k, v) :: putEntry key value rest

def orderedEntries (entries : List (String × α)) : List (String × α) :=
  entries.foldl (fun done e => putEntry e.1 e.2 done) []

end Json

end BigQuerySql
