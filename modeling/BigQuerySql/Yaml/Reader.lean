import BigQuerySql.Yaml.Basic
import BigQuerySql.Yaml.Scan

namespace BigQuerySql

namespace Yaml

/-- How far the tokens of a document are read: those that are left, the anchored nodes, the last first and without
a node while it is read, and what the handles of tags stand for. -/
structure Reading where
  tokens : List Token
  anchors : List (String × Option Yaml)
  handles : List (String × String)

structure Properties where
  anchor : Option String
  tag : Option String

namespace Reading

def skip (r : Reading) : Reading :=
  { r with tokens := r.tokens.tail }

def sees (r : Reading) (tokens : List Token) : Bool :=
  r.tokens.head?.any tokens.contains

def tag? (r : Reading) (handle suffix : String) : Option String :=
  if handle.isEmpty then some suffix else (r.handles.lookup handle).map (· ++ suffix)

def properties (r : Reading) : Option (Properties × Reading) :=
  match r.tokens with
  | .anchor name :: .tag handle suffix :: rest => do
    return (⟨some name, some (← r.tag? handle suffix)⟩, { r with tokens := rest })
  | .tag handle suffix :: .anchor name :: rest => do
    return (⟨some name, some (← r.tag? handle suffix)⟩, { r with tokens := rest })
  | .anchor name :: rest => some (⟨some name, none⟩, { r with tokens := rest })
  | .tag handle suffix :: rest => do
    return (⟨none, some (← r.tag? handle suffix)⟩, { r with tokens := rest })
  | _ => some (⟨none, none⟩, r)

def declare (r : Reading) : Option String → Reading
  | some name => { r with anchors := (name, none) :: r.anchors }
  | none => r

def define (r : Reading) (count : Nat) (node : Yaml) : Option String → Reading
  | some name => { r with anchors := r.anchors.set (r.anchors.length - 1 - count) (name, some node) }
  | none => r

end Reading

mutual

/-- Reads a node. Collections over several lines may stand only where `block` allows them, and items in the column
of a mapping only where `indentless` does. A reference to a node around it stands for nothing that can be used. -/
def readNode (block indentless : Bool) : Nat → Reading → Option (Yaml × Reading)
  | 0, _ => none
  | n + 1, r =>
    match r.tokens with
    | .reference name :: _ => (r.anchors.lookup name).map fun node => (node.getD (.seq []), r.skip)
    | _ => do
      let (p, r) ← r.properties
      let (node, after) ← readContent block indentless p n (r.declare p.anchor)
      return (node, after.define r.anchors.length node p.anchor)

def readContent (block indentless : Bool) (p : Properties) : Nat → Reading → Option (Yaml × Reading)
  | 0, _ => none
  | n + 1, r =>
    match r.tokens with
    | .scalar plain text :: _ => some (.scalar (p.tag.filter (· ≠ "!")) plain text, r.skip)
    | .bracketOpen :: _ => (readFlowItems true n r.skip).map fun a => (.seq a.1, a.2)
    | .braceOpen :: _ => (readFlowEntries true n r.skip).map fun a => (.map a.1, a.2)
    | _ =>
      if indentless && r.sees [.dash] then
        (readIndentless n r).map fun a => (.seq a.1, a.2)
      else if block && r.sees [.blockSeq] then
        (readItems n r.skip).map fun a => (.seq a.1, a.2)
      else if block && r.sees [.blockMap] then
        (readEntries n r.skip).map fun a => (.map a.1, a.2)
      else if p.anchor.isSome || p.tag.isSome then some (.scalar p.tag true "", r)
      else none

def readNodeUnless (stops : List Token) (block indentless : Bool) :
    Nat → Reading → Option (Yaml × Reading)
  | 0, _ => none
  | n + 1, r => if r.sees stops then some (empty, r) else readNode block indentless n r

def readValue (stops : List Token) (block : Bool) : Nat → Reading → Option (Yaml × Reading)
  | 0, _ => none
  | n + 1, r =>
    if r.sees [.value] then readNodeUnless stops block block n r.skip else some (empty, r)

def readItems : Nat → Reading → Option (List Yaml × Reading)
  | 0, _ => none
  | n + 1, r =>
    if r.sees [.dash] then do
      let (item, r) ← readNodeUnless [.dash, .blockEnd] true false n r.skip
      (readItems n r).map fun a => (item :: a.1, a.2)
    else if r.sees [.blockEnd] then some ([], r.skip)
    else none

def readIndentless : Nat → Reading → Option (List Yaml × Reading)
  | 0, _ => none
  | n + 1, r =>
    if r.sees [.dash] then do
      let (item, r) ← readNodeUnless [.dash, .key, .value, .blockEnd] true false n r.skip
      (readIndentless n r).map fun a => (item :: a.1, a.2)
    else some ([], r)

def readEntries : Nat → Reading → Option (List (Yaml × Yaml) × Reading)
  | 0, _ => none
  | n + 1, r =>
    if r.sees [.key] then do
      let (key, r) ← readNodeUnless [.key, .value, .blockEnd] true true n r.skip
      let (value, r) ← readValue [.key, .value, .blockEnd] true n r
      (readEntries n r).map fun a => ((key, value) :: a.1, a.2)
    else if r.sees [.blockEnd] then some ([], r.skip)
    else none

/-- Reads items in brackets; commas stand between them and may stand behind the last. An entry among them is a
mapping of its own; one without a key takes the token in its place. -/
def readFlowItems (first : Bool) : Nat → Reading → Option (List Yaml × Reading)
  | 0, _ => none
  | n + 1, r =>
    if r.sees [.bracketClose] then some ([], r.skip)
    else if !first && !r.sees [.comma] then none
    else
      let r := if first then r else r.skip
      if r.sees [.bracketClose] then some ([], r.skip)
      else if r.sees [.key] then do
        let (key, r) ←
          if r.skip.sees [.value, .comma, .bracketClose] then some (empty, r.skip.skip)
          else readNode false false n r.skip
        let (value, r) ← readValue [.comma, .bracketClose] false n r
        (readFlowItems false n r).map fun a => (.map [(key, value)] :: a.1, a.2)
      else do
        let (item, r) ← readNode false false n r
        (readFlowItems false n r).map fun a => (item :: a.1, a.2)

def readFlowEntries (first : Bool) : Nat → Reading → Option (List (Yaml × Yaml) × Reading)
  | 0, _ => none
  | n + 1, r =>
    if r.sees [.braceClose] then some ([], r.skip)
    else if !first && !r.sees [.comma] then none
    else
      let r := if first then r else r.skip
      if r.sees [.braceClose] then some ([], r.skip)
      else if r.sees [.key] then do
        let (key, r) ← readNodeUnless [.value, .comma, .braceClose] false false n r.skip
        let (value, r) ← readValue [.comma, .braceClose] false n r
        (readFlowEntries false n r).map fun a => ((key, value) :: a.1, a.2)
      else do
        let (key, r) ← readNode false false n r
        (readFlowEntries false n r).map fun a => ((key, empty) :: a.1, a.2)

end

/-- Reads the directives in front of a document: at most one version, which must be a known one, and each handle
once. -/
def readDirectives (versioned : Bool) (handles : List (String × String)) :
    List Token → Option (List (String × String) × List Token)
  | .version major minor :: rest =>
    if versioned || major ≠ 1 || (minor ≠ 1 && minor ≠ 2) then none
    else readDirectives true handles rest
  | .tagHandle name lead :: rest =>
    if handles.any (·.1 == name) then none
    else readDirectives versioned ((name, lead) :: handles) rest
  | rest => some (handles, rest)

def isDirective : Token → Bool
  | .version _ _ => true
  | .tagHandle _ _ => true
  | _ => false

def knownHandles : List (String × String) :=
  [("!", "!"), ("!!", commonTags)]

def readRoot (handles : List (String × String)) (tokens : List Token) : Option (Yaml × List Token) :=
  (readNode true false (4 * tokens.length + 4) ⟨tokens, [], handles ++ knownHandles⟩).map fun r =>
    (r.1, r.2.tokens)

def readDocument (tokens : List Token) : Option (Yaml × List Token) :=
  match tokens with
  | [] => some (empty, [])
  | first :: _ =>
    if isDirective first || first == .documentStart then do
      match ← readDirectives false [] tokens with
      | (handles, .documentStart :: rest) =>
        if rest.head?.all fun t => isDirective t || t == .documentStart || t == .documentEnd then
          some (empty, rest)
        else readRoot handles rest
      | _ => none
    else readRoot [] tokens

def read? (text : String) : Option Yaml := do
  let (root, rest) ← readDocument (← tokens? text)
  if rest.all (· == .documentEnd) then some root else none

end Yaml

end BigQuerySql
