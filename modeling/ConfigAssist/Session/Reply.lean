import ConfigAssist.Color.Line
import ConfigAssist.Json.Printer
import ConfigAssist.Session.StateText
import ConfigAssist.Suggest.Offer

/-!
Replies of a session and their JSON. All columns are in UTF-16 units.
-/

namespace ConfigAssist

open Json

/-- The answer to a request for completion: an offer, the place of the request in the sequence, and
whether the request came too late. -/
structure Answer extends Offer where
  sequence : Option Nat := none
  stale : Bool := false
deriving DecidableEq

inductive Reply where
  /-- The spans of a line and the state after it. -/
  | coloring (spans : List Span) (exit : State)
  | answer (a : Answer)
  /-- How many of the records that were sent are known now, and how many are not. -/
  | intake (accepted dropped : Nat)
  | schema (snippets : Nat) (sentinel : Text)
  | status (entities snippets : Nat) (sentinel : Text) (latest : Option Nat)
deriving DecidableEq

def Span.toJson (s : Span) : Value := .record
  [("start", .ofNat s.start), ("end", .ofNat s.stop), ("category", .ofString s.category.name),
    ("marker", .ofOption (fun m => .ofString m.name) s.marker)]

def Suggestion.toJson (s : Suggestion) : Value := .record
  [("insert_text", .ofText s.insert), ("display_text", .ofText s.display),
    ("kind", .ofString s.kind.name), ("class_name", .ofString ("ha-hint-" ++ s.kind.name)),
    ("description", .ofOption .ofText s.description), ("detail", .ofOption .ofText s.detail),
    ("icon", .ofOption .ofText s.icon)]

def Position.toJson (p : Position) : Value :=
  .record [("line", .ofNat p.line), ("character", .ofNat p.column)]

def Range.toJson (r : Range) : Value :=
  .record [("start", r.start.toJson), ("end", r.stop.toJson)]

def Answer.toJson (a : Answer) : Value := .record
  [("items", .array (a.items.map Suggestion.toJson)), ("replace", a.replace.toJson),
    ("sequence", .ofOption .ofNat a.sequence), ("stale", .bool a.stale)]

namespace Reply

def toJson : Reply → Value
  | coloring spans exit =>
    .record [("spans", .array (spans.map Span.toJson)), ("state", exit.toJson)]
  | answer a => a.toJson
  | intake accepted dropped =>
    .record [("accepted", .ofNat accepted), ("dropped", .ofNat dropped)]
  | schema snippets sentinel =>
    .record [("snippet_count", .ofNat snippets), ("snippet_sentinel", .ofText sentinel)]
  | status entities snippets sentinel latest =>
    .record [("entity_count", .ofNat entities), ("snippet_count", .ofNat snippets),
      ("snippet_sentinel", .ofText sentinel), ("last_sequence", .ofOption .ofNat latest)]

def toText (r : Reply) : Text := r.toJson.render

end Reply

end ConfigAssist
