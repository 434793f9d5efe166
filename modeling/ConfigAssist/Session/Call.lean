import ConfigAssist.Session.Basic

/-!
Calls to a session. A call is given as text; it either fails and changes nothing or has a reply.
-/

namespace ConfigAssist

inductive Call where
  | classify (line state : Text)
  | completion (request : Text)
  | entities (list : Text)
  | schema (file : Text)
  | status
deriving DecidableEq

/-- The spans of a line in UTF-16 units, and the state after it. -/
def classifyUnits (line : Text) (s : State) : List Span × State :=
  let (ps, exit) := pieces line s
  (spansFrom Text.utf16 0 ps, exit)

namespace Session

/-- The reply to a call, and the session after it. -/
def perform (s : Session) : Call → Except SessionError (Reply × Session)
  | .classify line state =>
    match State.ofText? state with
    | none => .error (.unreadable .state)
    | some entry =>
      let (spans, exit) := classifyUnits line entry
      .ok (.coloring spans exit, s)
  | .completion request =>
    match Request.ofText? request with
    | none => .error (.unreadable .request)
    | some r => (s.complete r).map fun (a, next) => (.answer a, next)
  | .entities list =>
    match Entity.listOfText? list with
    | none => .error (.unreadable .entities)
    | some records =>
      let next := s.setEntities records
      .ok (.intake next.registry.size (records.length - next.registry.size), next)
  | .schema file =>
    match s.loadSchema file with
    | .error e => .error (.schema e)
    | .ok next => .ok (.schema next.schema.snippets.length next.schema.sentinel, next)
  | .status =>
    .ok (.status s.registry.size s.schema.snippets.length s.schema.sentinel s.latest, s)

/-- The outcome of a call, and the session after it. A call that fails leaves the session as it was. -/
def call (s : Session) (c : Call) : Except SessionError Reply × Session :=
  match s.perform c with
  | .ok (r, next) => (.ok r, next)
  | .error e => (.error e, s)

/-- The session after some calls, one after the other. -/
def after (s : Session) (calls : List Call) : Session := calls.foldl (fun s c => (s.call c).2) s

/-- The outcomes of some calls, one after the other. -/
def run (s : Session) : List Call → List (Except SessionError Reply)
  | [] => []
  | c :: cs =>
    let (outcome, next) := s.call c
    outcome :: next.run cs

end Session

end ConfigAssist
