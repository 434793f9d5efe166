import ConfigAssist.Suggest.Schema

/-!
Schema tables as they are written down, and what makes one valid: the sentinel is an identifier, every
candidate has a text, and every snippet has a name of its own and a body. Of several faults the first
one counts: the sentinel's, then the pools' in order, then the snippets' in order.
-/

namespace ConfigAssist

inductive SchemaError where
  /-- The text is no table, or the table holds something else than a schema does. -/
  | layout
  | emptyText (pool : Pool) (index : Nat)
  | unnamedSnippet (index : Nat)
  | emptyBody (name : Text)
  | duplicateSnippet (name : Text)
  | invalidSentinel (sentinel : Text)
deriving DecidableEq

namespace SchemaError

def quote (t : Text) : String := "'" ++ String.ofList t ++ "'"

def message : SchemaError → String
  | layout => "invalid schema table"
  | emptyText pool index => pool.name ++ " entry " ++ toString index ++ " has no text"
  | unnamedSnippet index => "snippet " ++ toString index ++ " has no prefix"
  | emptyBody name => "snippet " ++ quote name ++ " has an empty body"
  | duplicateSnippet name => "duplicate snippet prefix " ++ quote name
  | invalidSentinel sentinel => "invalid snippet sentinel " ++ quote sentinel

end SchemaError

namespace Table

structure Row where
  text : Text := []
  description : Option Text := none
deriving DecidableEq

structure SnippetRow where
  name : Text := []
  label : Option Text := none
  body : Text := []
  description : Option Text := none
deriving DecidableEq

/-- A name counts without the space around it. -/
def SnippetRow.key (r : SnippetRow) : Text := Text.trim r.name

/-- A body counts without the line ends behind it. -/
def SnippetRow.content (r : SnippetRow) : Text :=
  Text.trimEndWith (fun c => c == '\n' || c == '\r') r.body

def SnippetRow.snippet (r : SnippetRow) : Snippet where
  name := r.key
  label := (r.label.filter (!Text.isBlank ·)).getD r.key
  body := r.content
  description := r.description

end Table

/-- A table that has not been checked. -/
structure Table where
  sentinel : Option Text := none
  rows : Pool → List Table.Row
  snippets : List Table.SnippetRow

namespace Table

def defaultSentinel : Text := "snip".toList

def isIdentifier : Text → Bool
  | [] => false
  | c :: cs => (c.isAlpha || c == '_') && cs.all fun c => c.isAlphanum || c == '_'

def word (t : Table) : Text := t.sentinel.getD defaultSentinel

/-- The first row without a text. -/
def rowFault? (pool : Pool) (index : Nat) : List Row → Option SchemaError
  | [] => none
  | r :: rs =>
    if Text.isBlank r.text then some (.emptyText pool index) else rowFault? pool (index + 1) rs

/-- The first faulty snippet. A name must not be among those before it. -/
def snippetFault? (seen : List Text) (index : Nat) : List SnippetRow → Option SchemaError
  | [] => none
  | r :: rs =>
    if r.key.isEmpty then some (.unnamedSnippet index)
    else if Text.isBlank r.content then some (.emptyBody r.key)
    else if seen.contains r.key then some (.duplicateSnippet r.key)
    else snippetFault? (r.key :: seen) (index + 1) rs

/-- The first fault of a table. -/
def fault? (t : Table) : Option SchemaError :=
  if isIdentifier t.word then
    (Pool.all.findSome? fun pool => rowFault? pool 0 (t.rows pool)) <|> snippetFault? [] 0 t.snippets
  else some (.invalidSentinel t.word)

/-- The schema that a valid table stands for. -/
def schema (t : Table) : Schema where
  pool p := (t.rows p).map fun r => { text := r.text, kind := p.kind, description := r.description }
  snippets := t.snippets.map SnippetRow.snippet
  sentinel := t.word

def check (t : Table) : Except SchemaError Schema :=
  match t.fault? with
  | some e => .error e
  | none => .ok t.schema

end Table

end ConfigAssist
