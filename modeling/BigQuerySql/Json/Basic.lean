import BigQuerySql.Number.Binary64

namespace BigQuerySql

/-- A JSON document. Members keep the order of the text, repeated names included. A number written as
a whole number between `-2^63` and `2^64 - 1` is an integer, any other a double. What is well formed but stands for no
value, such as a number beyond the doubles, is kept as unreadable: it harms only those who look at it. -/
inductive Json where
  | unreadable
  | null
  | bool (b : Bool)
  | int (i : Int)
  | float (x : Binary64)
  | str (s : String)
  | arr (items : List Json)
  | obj (members : List (String × Json))

namespace Json

def insertMember (name : String) (value : Json) : List (String × Json) → List (String × Json)
  | [] => [(name, value)]
  | (n, v) :: rest =>
    if name < n then (name, value) :: (n, v) :: rest
    else if name = n then (name, value) :: rest
    else (n, v) :: insertMember name value rest

/-- Members in increasing order of their names; of members with one name the last stays. -/
def sortMembers (members : List (String × Json)) : List (String × Json) :=
  members.foldl (fun sorted m => insertMember m.1 m.2 sorted) []

mutual

def sorted : Json → Json
  | .arr items => .arr (sortedItems items)
  | .obj members => .obj (sortMembers (sortedMembers members))
  | j => j

def sortedItems : List Json → List Json
  | [] => []
  | j :: rest => j.sorted :: sortedItems rest

def sortedMembers : List (String × Json) → List (String × Json)
  | [] => []
  | (n, j) :: rest => (n, j.sorted) :: sortedMembers rest

end

mutual

def depth : Json → Nat
  | .arr items => depthItems items + 1
  | .obj members => depthMembers members + 1
  | _ => 0

def depthItems : List Json → Nat
  | [] => 0
  | j :: rest => max j.depth (depthItems rest)

def depthMembers : List (String × Json) → Nat
  | [] => 0
  | (_, j) :: rest => max j.depth (depthMembers rest)

end

def nestingLimit : Nat := 127

mutual

def clipped : Json → Nat → Json
  | .arr _, 0 => .unreadable
  | .obj _, 0 => .unreadable
  | .arr items, limit + 1 => .arr (clippedItems limit items)
  | .obj members, limit + 1 => .obj (clippedMembers limit members)
  | j, _ => j

def clippedItems (limit : Nat) : List Json → List Json
  | [] => []
  | j :: rest => j.clipped limit :: clippedItems limit rest

def clippedMembers (limit : Nat) : List (String × Json) → List (String × Json)
  | [] => []
  | (n, j) :: rest => (n, j.clipped limit) :: clippedMembers limit rest

end

mutual

def isReadable : Json → Bool
  | .unreadable => false
  | .arr items => areItemsReadable items
  | .obj members => areMembersReadable members
  | _ => true

def areItemsReadable : List Json → Bool
  | [] => true
  | j :: rest => j.isReadable && areItemsReadable rest

def areMembersReadable : List (String × Json) → Bool
  | [] => true
  | (_, j) :: rest => j.isReadable && areMembersReadable rest

end

def ofOption (f : α → Json) : Option α → Json
  | none => .null
  | some a => f a

end Json

end BigQuerySql
