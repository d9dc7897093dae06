import BigQuerySql.Settings.Basic
import BigQuerySql.Text.Blank
import BigQuerySql.Yaml.Reader

namespace BigQuerySql

namespace Settings

def setting? {α : Type} (entries : List (String × Yaml)) (key : String) (decode : Yaml → Option α)
    (default : α) : Option α := do
  match ← Yaml.entry? entries key with
  | some y => decode y
  | none => return default

def connectionOf? (y : Yaml) : Option ConnectionSettings := do
  let entries ← y.section?
  let text (key : String) := setting? entries key Yaml.nullableText?
  let default := ConnectionSettings.default
  return ⟨← text "project_id" default.project, ← text "dataset_id" default.dataset,
    ← text "application_name" default.applicationName,
    ← text "partition_column" default.partitionColumn⟩

def namingOf? (y : Yaml) : Option ParamNaming := do
  let entries ← y.section?
  setting? entries "param_naming" (fun y => y.choice?.bind ParamNaming.ofName?) .declared

def loggingOf? (y : Yaml) : Option LoggingSettings := do
  let entries ← y.section?
  let text (key : String) := setting? entries key Yaml.text?
  let default := LoggingSettings.default
  return ⟨← text "level" default.level, ← text "format" default.format,
    ← text "output" default.output, ← text "directory" default.directory⟩

def ofYaml? (y : Yaml) : Option Settings := do
  let entries ← y.section?
  return ⟨← setting? entries "connection" connectionOf? .default,
    ← setting? entries "compiler" namingOf? .declared,
    ← setting? entries "logging" loggingOf? .default⟩

def ofText (text : String) : Except SettingsError Settings :=
  if (Text.trim text.toList).isEmpty then .ok .default
  else
    match (Yaml.read? text).bind ofYaml? with
    | some s => .ok s
    | none => .error .malformed

def load (text : Option String) (env : Environment) : Except SettingsError Settings := do
  let s ← match text with
    | some text => ofText text
    | none => .ok .default
  s.override env

end Settings

end BigQuerySql
