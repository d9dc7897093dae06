namespace BigQuerySql

/-- A document. Scalars are kept as they are written, with their tag and a note of whether they stand without
quotes. -/
inductive Yaml where
  | scalar (tag : Option String) (plain : Bool) (text : String)
  | seq (items : List Yaml)
  | map (entries : List (Yaml × Yaml))

namespace Yaml

def empty : Yaml := .scalar none true ""

def commonTags : String := "common:"

def text? : Yaml → Option String
  | .scalar _ _ text => some text
  | _ => none

def isNullWord (text : String) : Bool :=
  text == "~" || text == "null" || text == "Null" || text == "NULL"

/-- An optional text is absent where nothing or a null stands without quotes. A tag makes it a text, but the
tag of nulls asks for a null. -/
def nullableText? : Yaml → Option (Option String)
  | .scalar none true text => some (if text.isEmpty || isNullWord text then none else some text)
  | .scalar (some tag) true text =>
    if tag = commonTags ++ "null" then if isNullWord text then some none else none
    else some (some text)
  | .scalar _ false text => some (some text)
  | _ => none

/-- A choice by name is a scalar, or the name is a tag of the document's own and nothing follows it. -/
def choice? : Yaml → Option String
  | .scalar tag plain text =>
    match tag.map String.toList with
    | some ('!' :: name) =>
      if plain && (text.isEmpty || isNullWord text) then
        some (if name.isEmpty then "!" else String.ofList name)
      else none
    | _ => some text
  | _ => none

def section? : Yaml → Option (List (String × Yaml))
  | .map entries => entries.mapM fun e => e.1.text?.map (·, e.2)
  | .scalar _ plain text => if plain && text.isEmpty then some [] else none
  | .seq _ => none

def entry? (entries : List (String × Yaml)) (key : String) : Option (Option Yaml) :=
  match entries.filter fun e => e.1 == key with
  | [] => some none
  | [e] => some (some e.2)
  | _ => none

end Yaml

end BigQuerySql
