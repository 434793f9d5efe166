import ConfigAssist.Toml.Scalar
import ConfigAssist.Toml.Token

/-!
Table files. A file is a list of stanzas: the members before the first header, and the members below
each header. The reader goes through the tokens once, with a stack for the values that are still open.
-/

namespace ConfigAssist.Toml

/-- A key with its dotted parts. -/
abbrev Path := List Text

inductive Value where
  | text (t : Text)
  /-- A boolean, number, date or time, as it is written. -/
  | scalar (t : Text)
  | array (items : List Value)
  | table (members : List (Path × Value))

/-- A header with two brackets begins the next table of an array. -/
inductive Header where
  | top
  | table (path : Path)
  | arrayItem (path : Path)
deriving DecidableEq

structure Stanza where
  header : Header := .top
  members : List (Path × Value) := []

/-- The number of values that may be open inside each other, and of parts that a key may have. -/
def depthLimit : Nat := 80

/-- No path says again what another one says, or goes on below its value. -/
def areDistinct : List Path → Bool
  | [] => true
  | p :: ps => ps.all (fun q => !p.isPrefixOf q && !q.isPrefixOf p) && areDistinct ps

/-- What is still open around a place, with the finished parts backwards. -/
inductive Frame where
  /-- A member of a stanza; everything else is inside one. -/
  | assignment (path : Path)
  | array (items : List Value)
  /-- A table inside a value, and the path of the member that is being read. -/
  | table (members : List (Path × Value)) (path : Path)

/-- What was read last, and so what may come next. A key or header that needs one more part cannot end
yet. -/
inductive Focus where
  | statement
  | statementEnd
  | bracket
  | header (twice : Bool) (path : Path) (more : Bool)
  | headerEnd (path : Path)
  | key (path : Path) (more : Bool)
  /-- A key that its line has ended after, inside a table. -/
  | keyEnd (path : Path)
  | value
  | item
  | tableKey
  /-- The pieces of a scalar, backwards, and the gap behind it, which belongs to it if it goes on. -/
  | scalar (pieces : List Text) (gap : Text)
  | done (v : Value)

structure Reader where
  stanzas : List Stanza := []
  current : Stanza := {}
  stack : List Frame := []
  focus : Focus := .statement

namespace Reader

def isBareKey (t : Text) : Bool :=
  !t.isEmpty && t.all fun c => c.isAlphanum || c == '_' || c == '-'

/-- The part of a key that a token is. -/
def keyPart? : Token → Option Text
  | .bare t => if isBareKey t then some t else none
  | .quoted false t => some t
  | _ => none

/-- A key with one more token: a part where one must follow, a dot where none must. -/
def extendKey (path : Path) (more : Bool) (token : Token) : Option (Path × Bool) :=
  if more then
    if path.length < depthLimit then (keyPart? token).map fun part => (path ++ [part], false)
    else none
  else if token = .dot then some (path, true)
  else none

/-- The stanzas so far, the last of them complete. -/
def finished (r : Reader) : List Stanza :=
  { r.current with members := r.current.members.reverse } :: r.stanzas

def openStanza (r : Reader) (header : Header) : Reader where
  stanzas := r.finished
  current := { header }
  focus := .statementEnd

def addMember (r : Reader) (path : Path) (v : Value) : Reader where
  stanzas := r.stanzas
  current := { r.current with members := (path, v) :: r.current.members }

/-- Opens an array or a table inside a value. -/
def push (r : Reader) (frame : Frame) (focus : Focus) : Option Reader :=
  if r.stack.length ≤ depthLimit then some { r with stack := frame :: r.stack, focus } else none

/-- Ends a table inside a value, which is the open value no more. -/
def closeTable (r : Reader) (rest : List Frame) (members : List (Path × Value)) : Option Reader :=
  if areDistinct (members.map Prod.fst) then
    some { r with stack := rest, focus := .done (.table members.reverse) }
  else none

/-- Whether a table is what is open around a place. -/
def inTable (r : Reader) : Bool :=
  match r.stack with
  | .table _ _ :: _ => true
  | _ => false

def stepHeader (r : Reader) (twice : Bool) (path : Path) (more : Bool) (token : Token) :
    Option Reader :=
  match token with
  | .gap _ => some { r with focus := .header twice path more }
  | .closeBracket =>
    if more then none
    else if twice then some { r with focus := .headerEnd path }
    else some (r.openStanza (.table path))
  | _ => (extendKey path more token).map fun (path, more) =>
      { r with focus := .header twice path more }

/-- The value of a key comes next. -/
def assign (r : Reader) (path : Path) : Option Reader :=
  match r.stack with
  | [] => some { r with stack := [.assignment path], focus := .value }
  | .table members _ :: rest => some { r with stack := .table members path :: rest, focus := .value }
  | _ => none

/-- A token inside or after a key. Inside tables the line may end after a key. -/
def stepKey (r : Reader) (path : Path) (more : Bool) (token : Token) : Option Reader :=
  match token with
  | .gap _ => some { r with focus := .key path more }
  | .equals => if more then none else r.assign path
  | .lineEnd => if r.inTable && !more then some { r with focus := .keyEnd path } else none
  | _ => (extendKey path more token).map fun (path, more) => { r with focus := .key path more }

def beginValue (r : Reader) : Token → Option Reader
  | .quoted _ t => some { r with focus := .done (.text t) }
  | .bare t => some { r with focus := .scalar [t] [] }
  | .openBracket => r.push (.array []) .item
  | .openBrace => r.push (.table [] []) .tableKey
  | _ => none

/-- A token after a value. Inside arrays and tables a line may end there. -/
def afterValue (r : Reader) (v : Value) (token : Token) : Option Reader :=
  match token, r.stack with
  | .gap _, _ => some { r with focus := .done v }
  | .lineEnd, [.assignment path] => some (r.addMember path v)
  | .lineEnd, _ => some { r with focus := .done v }
  | .comma, .array items :: rest =>
    some { r with stack := .array (v :: items) :: rest, focus := .item }
  | .closeBracket, .array items :: rest =>
    some { r with stack := rest, focus := .done (.array (v :: items).reverse) }
  | .comma, .table members path :: rest =>
    some { r with stack := .table ((path, v) :: members) [] :: rest, focus := .tableKey }
  | .closeBrace, .table members path :: rest => r.closeTable rest ((path, v) :: members)
  | _, _ => none

/-- A token after a scalar. A gap belongs to it if more of it follows, a dot if no gap is between. -/
def afterScalar (r : Reader) (pieces : List Text) (gap : Text) (token : Token) : Option Reader :=
  match token, gap with
  | .bare t, _ => some { r with focus := .scalar (t :: gap :: pieces) [] }
  | .dot, [] => some { r with focus := .scalar (['.'] :: pieces) [] }
  | .gap g, [] => some { r with focus := .scalar pieces g }
  | _, _ =>
    let t := pieces.reverse.flatten
    if isScalar t then r.afterValue (.scalar t) token else none

def step (r : Reader) (token : Token) : Option Reader :=
  match r.focus, token with
  | .statement, .gap _ => some r
  | .statement, .lineEnd => some r
  | .statement, .openBracket => some { r with focus := .bracket }
  | .statement, _ => r.stepKey [] true token
  | .statementEnd, .gap _ => some r
  | .statementEnd, .lineEnd => some { r with focus := .statement }
  | .statementEnd, _ => none
  | .bracket, .openBracket => some { r with focus := .header true [] true }
  | .bracket, _ => r.stepHeader false [] true token
  | .header twice path more, _ => r.stepHeader twice path more token
  | .headerEnd path, .closeBracket => some (r.openStanza (.arrayItem path))
  | .headerEnd _, _ => none
  | .key path more, _ => r.stepKey path more token
  | .keyEnd _, .gap _ => some r
  | .keyEnd _, .lineEnd => some r
  | .keyEnd path, .equals => r.assign path
  | .keyEnd _, _ => none
  | .value, .gap _ => some r
  | .value, .lineEnd => if r.inTable then some r else none
  | .value, _ => r.beginValue token
  | .item, .gap _ => some r
  | .item, .lineEnd => some r
  | .item, .closeBracket =>
    match r.stack with
    | .array items :: rest =>
      some { r with stack := rest, focus := .done (.array items.reverse) }
    | _ => none
  | .item, _ => r.beginValue token
  | .tableKey, .gap _ => some r
  | .tableKey, .lineEnd => some r
  | .tableKey, .closeBrace =>
    match r.stack with
    | .table members _ :: rest => r.closeTable rest members
    | _ => none
  | .tableKey, _ => r.stepKey [] true token
  | .scalar pieces gap, _ => r.afterScalar pieces gap token
  | .done v, _ => r.afterValue v token

end Reader

/-- The stanzas of a file. The end of the file ends its last line. -/
def stanzas? (file : Text) : Option (List Stanza) := do
  let tokens ← Token.ofText? file
  let r ← (tokens ++ [Token.lineEnd]).foldlM Reader.step {}
  match r.focus with
  | .statement => some r.finished.reverse
  | _ => none

end ConfigAssist.Toml
