import ConfigAssist.Suggest.Ranking
import ConfigAssist.Suggest.Schema
import ConfigAssist.Suggest.Scope
import ConfigAssist.Suggest.Typed

/-!
Offers: the suggestions at a cursor and the range they replace. What is being typed decides where they
come from; the scope of the line decides only between the pools.
-/

namespace ConfigAssist

structure Offer where
  items : List Suggestion := []
  replace : Range := {}
deriving DecidableEq

namespace Offer

def ofEntity (e : Entity) : Suggestion where
  insert := e.id
  kind := .entity
  detail := e.displayName
  icon := e.icon

def ofSnippet (indent : Text) (s : Snippet) : Suggestion where
  insert := s.expand indent
  display := s.label
  kind := .snippet
  detail := some s.name
  description := s.description

/-- The first entities by id whose id begins with what was typed. -/
def entities (known : List Entity) (id : Text) : List Suggestion :=
  let fitting := known.filter fun e => Text.startsWith id e.id
  ((Ranking.sortBy Entity.id fitting).take Suggestion.limit).map ofEntity

/-- Tags are ranked without the marks in front of them. -/
def tags (schema : Schema) (name : Text) : List Suggestion :=
  Ranking.best (fun item => item.insert.dropWhile (· == '!')) name
    ((schema.pool .escapeTags).map Entry.suggestion)

/-- The first snippets of the table whose name begins with what was typed, ignoring case. -/
def snippets (schema : Schema) (indent name : Text) : List Suggestion :=
  let fitting := schema.snippets.filter fun s =>
    Text.startsWith (Text.lower name) (Text.lower s.name)
  (fitting.take Suggestion.limit).map (ofSnippet indent)

/-- Whether a word is the value of a mode key, the first of a list item or not. -/
def isModeValue (before : Text) : Bool :=
  let head := Text.trim (beforeWord before)
  let key := match head with
    | '-' :: rest => Text.trimStart rest
    | _ => head
  key == "mode:".toList

/-- The pools for a word that is neither id, tag nor trigger. -/
def pools (scope : Scope) (before word : Text) : List Pool :=
  if Text.trim before = word ∧ scope.indent = 0 then [.domains]
  else match scope.enclosing with
    | some .automation =>
      if isModeValue before then [.automationModes]
      else if scope.inTrigger then [.triggers]
      else if scope.inCondition then [.conditions]
      else if scope.inAction then [.services, .actionKeys]
      else [.automationKeys]
    | some .sensor | some .binarySensor =>
      if scope.inPlatform then [.sensorPlatforms] else [.commonKeys]
    | some .script | none => [.commonKeys, .domains]

def ranked (schema : Schema) (pools : List Pool) (word : Text) : List Suggestion :=
  Ranking.rank ((pools.flatMap schema.pool).map Entry.suggestion) word

/-- An offer of suggestions that all replace one range. -/
def place (items : List Suggestion) (replace : Range) : Offer where
  items := items.map ({ · with range := replace })
  replace := replace

end Offer

/-- The offer at a cursor in a document. A column past the end of its line or inside a character is
lowered; past the last line there is nothing to offer. -/
def offer (schema : Schema) (lines : List Text) (cursor : Position) (known : List Entity) : Offer :=
  match lines[cursor.line]? with
  | none => Offer.place [] { start := cursor, stop := cursor }
  | some line =>
    let before := Text.fit Text.utf8 cursor.column line
    let typed := Typed.ofText schema.sentinel before
    let items := match typed with
      | .entity id => Offer.entities known id
      | .tag name => Offer.tags schema name
      | .snippet _ name => Offer.snippets schema (line.takeWhile Yaml.isIndent) name
      | .other word =>
        Offer.ranked schema (Offer.pools (Scope.ofLine lines cursor.line) before word) word
    let column := Text.size Text.utf8 before
    Offer.place items
      { start := { line := cursor.line, column := column - Text.size Text.utf8 typed.replaced }
        stop := { line := cursor.line, column } }

end ConfigAssist
