import ConfigAssist.Session.Reply
import ConfigAssist.Session.Request
import ConfigAssist.Suggest.Builtin
import ConfigAssist.Suggest.Offer
import ConfigAssist.Suggest.TableFile
import ConfigAssist.Text.Column

/-!
Sessions. A session keeps the schema, the known entities, and the highest place in the sequence of
requests; a request with a lower place comes too late and gets no suggestions. Columns are in UTF-16
units.
-/

namespace ConfigAssist

/-- The texts that a session reads. -/
inductive Subject where
  | state
  | request
  | entities
deriving DecidableEq

def Subject.name : Subject → String
  | .state => "lexer state"
  | .request => "completion request"
  | .entities => "entities"

inductive SessionError where
  | unreadable (subject : Subject)
  | schema (e : SchemaError)
  | outOfRange (line character : Nat)
deriving DecidableEq

def SessionError.message : SessionError → String
  | unreadable subject => "invalid " ++ subject.name ++ " json"
  | schema e => "invalid schema: " ++ e.message
  | outOfRange line character =>
    "position " ++ toString line ++ ":" ++ toString character ++ " is outside the document"

structure Session where
  schema : Schema := .builtin
  registry : Registry := {}
  /-- The highest place in the sequence of requests so far. -/
  latest : Option Nat := none

namespace Session

/-- A session that has not been called yet. -/
def initial : Session := {}

/-- A request comes too late if one with a higher place came before. -/
def isStale (s : Session) (r : Request) : Bool :=
  match r.sequence, s.latest with
  | some n, some latest => n < latest
  | _, _ => false

/-- A position on a line, its column changed to UTF-16 units. -/
def unitPosition (line : Text) (p : Position) : Position where
  line := p.line
  column := Text.unitColumn line p.column

def unitRange (line : Text) (r : Range) : Range where
  start := unitPosition line r.start
  stop := unitPosition line r.stop

/-- The answer to a request that points at a line. -/
def answer (s : Session) (r : Request) (lines : List Text) (line : Text) : Answer :=
  let cursor : Position := { line := r.line, column := Text.byteColumn line r.character }
  let o := offer s.schema lines cursor s.registry.entities
  { Offer.place o.items (unitRange line o.replace) with sequence := r.sequence }

/-- The answer to a request that comes too late. -/
def staleAnswer (r : Request) : Answer :=
  let cursor : Position := { line := r.line, column := r.character }
  { Offer.place [] { start := cursor, stop := cursor } with sequence := r.sequence, stale := true }

def complete (s : Session) (r : Request) : Except SessionError (Answer × Session) :=
  let lines := Text.lines r.text
  match lines[r.line]? with
  | none => .error (.outOfRange r.line r.character)
  | some line =>
    if s.isStale r then .ok (staleAnswer r, s)
    else .ok (s.answer r lines line, { s with latest := r.sequence <|> s.latest })

def setEntities (s : Session) (records : List Entity) : Session :=
  { s with registry := .ofRecords records }

def loadSchema (s : Session) (file : Text) : Except SchemaError Session := do
  return { s with schema := ← Schema.ofFile file }

end Session

end ConfigAssist
