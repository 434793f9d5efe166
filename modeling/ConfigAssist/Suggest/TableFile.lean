import ConfigAssist.Suggest.Table
import ConfigAssist.Toml.Document

/-!
Schema tables as files. A table has a sentinel, a list of rows for every pool and a list of snippets.
The lists are written as arrays at the top or as one stanza for each row, and a row as a table or as
an array of its fields. Nothing else may stand in the file.
-/

namespace ConfigAssist.Table

open Toml

/-- The value under a name of one part. -/
def member? (members : List (Path × Value)) (name : Text) : Option Value := members.lookup [name]

/-- Whether all keys are among some names of one part, and none is used twice. -/
def namesOnly (names : List Text) (members : List (Path × Value)) : Bool :=
  let paths := members.map Prod.fst
  areDistinct paths && paths.all fun path => names.any fun name => path == [name]

def text? : Value → Option Text
  | .text t => some t
  | _ => none

/-- A field that may be left out but must be a text. -/
def optional (members : List (Path × Value)) (name : String) : Option (Option Text) :=
  match member? members name.toList with
  | none => some none
  | some v => (text? v).map some

def rowOfMembers (members : List (Path × Value)) : Option Row :=
  if namesOnly ["text".toList, "description".toList] members then do
    return { text := (← optional members "text").getD []
             description := ← optional members "description" }
  else none

/-- In an array the fields stand in order; what follows them does not count. -/
def row? : Value → Option Row
  | .table members => rowOfMembers members
  | .array (text :: description :: _) => do
    return { text := ← text? text, description := some (← text? description) }
  | _ => none

def snippetRowOfMembers (members : List (Path × Value)) : Option SnippetRow :=
  if namesOnly ["prefix".toList, "label".toList, "body".toList, "description".toList] members then do
    return { name := (← optional members "prefix").getD []
             label := ← optional members "label"
             body := (← optional members "body").getD []
             description := ← optional members "description" }
  else none

def snippetRow? : Value → Option SnippetRow
  | .table members => snippetRowOfMembers members
  | .array (name :: label :: body :: description :: _) => do
    return { name := ← text? name, label := some (← text? label)
             body := ← text? body, description := some (← text? description) }
  | _ => none

def sentinelName : Text := "snippet_sentinel".toList

def snippetsName : Text := "snippets".toList

/-- The names of the lists of a table. -/
def listNames : List Text := Pool.all.map (·.name.toList) ++ [snippetsName]

/-- The members before the first header, and the stanzas below headers with the names of lists. -/
structure Outline where
  top : List (Path × Value)
  items : List (Text × List (Path × Value))

/-- The list that a stanza adds a row to. -/
def item? (s : Stanza) : Option (Text × List (Path × Value)) :=
  match s.header with
  | .arrayItem [name] => if listNames.contains name then some (name, s.members) else none
  | _ => none

def outline? : List Stanza → Option Outline
  | top :: rest => do
    let items ← rest.mapM item?
    if namesOnly (sentinelName :: listNames) top.members
        && items.all (fun item => (member? top.members item.1).isNone) then
      some { top := top.members, items }
    else none
  | [] => none

/-- The rows of a list, by a reading of tables and arrays and one of the members of a stanza. -/
def rows? (o : Outline) (name : Text) (ofValue : Value → Option α)
    (ofMembers : List (Path × Value) → Option α) : Option (List α) :=
  match member? o.top name with
  | some (.array items) => items.mapM ofValue
  | some _ => none
  | none => (o.items.filter (·.1 == name)).mapM fun item => ofMembers item.2

def ofOutline (o : Outline) : Option Table := do
  let sentinel ← match member? o.top sentinelName with
    | none => some none
    | some v => (text? v).map some
  let rows (p : Pool) := rows? o p.name.toList row? rowOfMembers
  let snippets ← rows? o snippetsName snippetRow? snippetRowOfMembers
  if Pool.all.all fun p => (rows p).isSome then
    some { sentinel, rows := fun p => (rows p).getD [], snippets }
  else none

/-- The table in a file. -/
def ofFile? (file : Text) : Option Table := stanzas? file >>= outline? >>= ofOutline

end ConfigAssist.Table

namespace ConfigAssist

/-- The schema in a file. A file that holds no table is a fault before all others. -/
def Schema.ofFile (file : Text) : Except SchemaError Schema :=
  match Table.ofFile? file with
  | none => .error .layout
  | some t => t.check

end ConfigAssist
