import BigQuerySql.Command.Basic

namespace BigQuerySql

namespace Arguments

structure Level where
  options : List String
  positional : Option String
  commands : List String
  hasVersion : Bool

def top : Level := ⟨["config"], none, ["compile", "schema", "help"], true⟩

def compile : Level := ⟨["config", "params"], some "expr", [], false⟩

def schema : Level := ⟨["config"], some "table", [], false⟩

/-- What has been given: the values taken over so far, and the last one, of which its option may still wait
for its value. -/
structure Given where
  values : List (String × String)
  pending : Option (String × Option String)

namespace Given

def none : Given := ⟨[], Option.none⟩

def value? (g : Given) (name : String) : Option String :=
  g.values.lookup name

/-- Takes over the last value. An option must have one, may not be given twice, and no value is empty. -/
def settle (g : Given) : Except UsageError Given :=
  match g.pending with
  | Option.none => .ok g
  | some (_, Option.none) => .error .missingValue
  | some (name, some value) =>
    if (g.value? name).isSome then .error .repeatedOption
    else if value.isEmpty then .error .missingValue
    else .ok ⟨(name, value) :: g.values, Option.none⟩

def hasPositional (g : Given) (name : String) : Bool :=
  (g.value? name).isSome ||
    match g.pending with
    | some (pending, _) => pending == name
    | Option.none => false

end Given

inductive Word where
  | escape
  | long (name : String) (value : Option String)
  | short (name : Char)
  | plain (text : String)

namespace Word

def ofChars : List Char → Word
  | ['-', '-'] => .escape
  | '-' :: '-' :: rest =>
    let name := rest.takeWhile (· != '=')
    match rest.dropWhile (· != '=') with
    | [] => .long (String.ofList name) none
    | _ :: value => .long (String.ofList name) (some (String.ofList value))
  | '-' :: c :: rest => if c == '-' then .plain (String.ofList ('-' :: c :: rest)) else .short c
  | cs => .plain (String.ofList cs)

end Word

def readLong (level : Level) (g : Given) (name : String) (value : Option String) :
    Except UsageError Given := do
  if level.options.contains name then
    let g ← g.settle
    match value with
    | some _ => Given.settle ⟨g.values, some (name, value)⟩
    | Option.none => return ⟨g.values, some (name, Option.none)⟩
  else if name == "help" || (level.hasVersion && name == "version") then
    if value.isSome then throw .unexpectedValue
    let _ ← g.settle
    throw (if name == "help" then .help else .version)
  else throw .unknownArgument

def readShort (level : Level) (g : Given) (name : Char) : Except UsageError Given := do
  if name == 'h' || (level.hasVersion && name == 'V') then
    let _ ← g.settle
    throw (if name == 'h' then .help else .version)
  else throw .unknownArgument

/-- An argument without a dash, which may be the value that an option waits for. After two dashes it is no
value and no command. -/
def readPlain (level : Level) (escaped : Bool) (g : Given) (text : String) :
    Except UsageError Given :=
  match g.pending, escaped with
  | some (name, Option.none), false => .ok ⟨g.values, some (name, some text)⟩
  | _, _ =>
    match level.positional with
    | some name =>
      if g.hasPositional name then .error .unknownArgument
      else do
        let g ← g.settle
        return ⟨g.values, some (name, some text)⟩
    | Option.none =>
      if escaped && level.commands.contains text then .error .unknownArgument
      else .error .unknownCommand

def waits (g : Given) : Bool :=
  match g.pending with
  | some (_, Option.none) => true
  | _ => false

def readLevel (level : Level) :
    Bool → Given → List String → Except UsageError (Given × Option (String × List String))
  | _, g, [] => .ok (g, none)
  | true, g, arg :: rest => do
    let g ← readPlain level true g arg
    readLevel level true g rest
  | false, g, arg :: rest =>
    if !waits g && level.commands.contains arg then .ok (g, some (arg, rest))
    else
      match Word.ofChars arg.toList with
      | .escape => readLevel level true g rest
      | .long name value => do
        let g ← readLong level g name value
        readLevel level false g rest
      | .short name => do
        let g ← readShort level g name
        readLevel level false g rest
      | .plain text => do
        let g ← readPlain level false g text
        readLevel level false g rest

def readCommand (level : Level) (args : List String) : Except UsageError Given := do
  let (g, _) ← readLevel level false .none args
  g.settle

def required (g : Given) (name : String) : Except UsageError String :=
  match g.value? name with
  | some value => .ok value
  | none => .error .missingArgument

def helpFor : List String → UsageError
  | [] => .help
  | [name] => if top.commands.contains name then .help else .unknownCommand
  | _ => .unknownCommand

def commandOf (name : String) (args : List String) : Except UsageError (Command × Given) := do
  if name == "compile" then
    let g ← readCommand compile args
    return (.compile (← required g "expr") (g.value? "params"), g)
  else if name == "schema" then
    let g ← readCommand schema args
    return (.schema (← required g "table"), g)
  else throw (helpFor args)

def defaultConfig : String := "config.yaml"

/-- Reads the arguments of a run. The configuration may be given before or after the command, and after it
wins. -/
def read (args : List String) : Except UsageError Invocation := do
  let (before, found) ← readLevel top false .none args
  match found with
  | some (name, rest) =>
    let (command, after) ← commandOf name rest
    let before ← before.settle
    return ⟨((after.value? "config") <|> (before.value? "config")).getD defaultConfig, command⟩
  | none =>
    let before ← before.settle
    throw (if before.values.isEmpty then .nothingGiven else .missingCommand)

end Arguments

end BigQuerySql
