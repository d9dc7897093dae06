import BigQuerySql.Command.Run

open BigQuerySql

def readEntry (path : String) : IO FileEntry := do
  try
    return .text (← IO.FS.readFile path)
  catch
    | .noFileOrDirectory .. => return .missing
    | _ => return .unreadable

def readFiles (paths : List String) : IO (List (String × FileEntry)) :=
  paths.mapM fun path => do return (path, ← readEntry path)

def readEnvironment : IO (List (String × String)) :=
  Settings.overrides.filterMapM fun name => do
    return (← IO.getEnv name).map (name, ·)

def main (args : List String) : IO UInt32 := do
  match Arguments.read args with
  | .error .help =>
    IO.println UsageError.help.message
    return 0
  | .error .version =>
    IO.println UsageError.version.message
    return 0
  | .error error =>
    IO.eprintln ("error: " ++ error.message)
    return 2
  | .ok invocation =>
    let files ← readFiles invocation.paths
    let environment ← readEnvironment
    match invocation.run (fun path => (files.lookup path).getD .missing) (environment.lookup ·) with
    | .ok report =>
      IO.print report.output
      return 0
    | .error error =>
      IO.eprintln ("Error: " ++ error.message)
      return 1
