import ConfigAssist.Template.Token
import ConfigAssist.Yaml.Token

/-!
Colouring of lines. A line is cut into pieces, each read in the state that the piece before it left;
the spans of a line are the pieces with their offsets. The state after a line is all that the next
line needs. Offsets are natural numbers of any size: only the theorems on tiling, on colouring and
completion over the wire and on columns tie them to 32 bits, the others hold for lines of any length.
-/

namespace ConfigAssist

/-- What is open between two pieces: the scalars and at most one template. -/
structure State where
  scalars : Yaml.Scalars := {}
  template : Option Template.Delimiter := none
deriving DecidableEq

namespace State

/-- Nothing is open. -/
def initial : State := {}

def inTemplate (s : State) : Bool := s.template.isSome

def inBlockScalar (s : State) : Bool := s.scalars.block.isSome

def enter (s : State) (line : Text) : State := { s with scalars := s.scalars.enter line }

/-- What stands at a place, and the state after it. Openers and closers of templates come first. -/
def read (p : Yaml.Place) (s : State) (c : Char) (cs : Text) : Reading × State :=
  match s.template with
  | none =>
    match Template.Delimiter.opening? (c :: cs) with
    | some d =>
      ({ further := d.openerLength (c :: cs) - 1, category := .delimiter },
        { s with template := some d })
    | none =>
      let (reading, scalars) := Yaml.read p s.scalars c cs
      (reading, { s with scalars })
  | some d =>
    match d.closerLength? (c :: cs) with
    | some n => ({ further := n - 1, category := .delimiter }, { s with template := none })
    | none => (d.readBody c cs, s)

end State

/-- A stretch of a line with what it is, and the state it was read in. -/
structure Piece where
  entry : State
  text : Text
  category : Category
  marker : Option Marker
deriving DecidableEq

/-- The pieces of the rest of a line, and the state after it. The first characters of the rest may
belong to the piece before; they are skipped. -/
def scan (p : Yaml.Place) (s : State) : Nat → Text → List Piece × State
  | _, [] => ([], s)
  | skip + 1, _ :: cs => scan p s skip cs
  | 0, c :: cs =>
    let (reading, next) := s.read p c cs
    let text := c :: cs.take reading.further
    let (pieces, exit) := scan (p.advance text) next reading.further cs
    (⟨s, text, reading.category, reading.marker⟩ :: pieces, exit)

theorem scan_skip (p : Yaml.Place) (s : State) (skip : Nat) (t : Text) :
    scan p s skip t = scan p s 0 (t.drop skip) := by
  induction t generalizing skip with
  | nil => simp [scan]
  | cons c cs ih =>
    cases skip with
    | zero => simp
    | succ k => simp only [scan, List.drop_succ_cons, ih k]

theorem flatten_scan (p : Yaml.Place) (s : State) (skip : Nat) (t : Text) :
    ((scan p s skip t).1.map Piece.text).flatten = t.drop skip := by
  induction t generalizing p s skip with
  | nil => simp [scan]
  | cons c cs ih =>
    cases skip with
    | zero => simp only [scan, List.map_cons, List.flatten_cons, ih, List.cons_append,
        List.take_append_drop, List.drop_zero]
    | succ k => simp only [scan, List.drop_succ_cons, ih]

/-- The pieces of a line that is entered in a state, and the state after it. -/
def pieces (line : Text) (s : State) : List Piece × State :=
  scan (Yaml.Place.start line) (s.enter line) 0 line

/-- The pieces of a line are the line. -/
theorem flatten_pieces (line : Text) (s : State) :
    ((pieces line s).1.map Piece.text).flatten = line := flatten_scan _ _ 0 line

structure Span where
  start : Nat
  stop : Nat
  category : Category
  marker : Option Marker
deriving DecidableEq

/-- Pieces laid end to end from an offset, in some unit. -/
def spansFrom (unit : Char → Nat) (offset : Nat) : List Piece → List Span
  | [] => []
  | p :: ps =>
    let stop := offset + Text.size unit p.text
    ⟨offset, stop, p.category, p.marker⟩ :: spansFrom unit stop ps

/-- The spans of a line in bytes, and the state after it. -/
def classify (line : Text) (s : State) : List Span × State :=
  let (ps, exit) := pieces line s
  (spansFrom Text.utf8 0 ps, exit)

/-- The spans of consecutive lines, the first one entered in a given state. -/
def classifyFrom (s : State) : List Text → List (List Span)
  | [] => []
  | line :: rest =>
    let (spans, exit) := classify line s
    spans :: classifyFrom exit rest

def classifyLines (lines : List Text) : List (List Span) := classifyFrom .initial lines

/-- The state after consecutive lines. -/
def stateAfter (s : State) (lines : List Text) : State :=
  lines.foldl (fun s line => (classify line s).2) s

end ConfigAssist
