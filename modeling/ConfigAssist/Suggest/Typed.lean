import ConfigAssist.Text.Blank
import ConfigAssist.Text.Search
import ConfigAssist.Suggest.Entity

/-!
What is being typed at the end of a text: an entity id, a tag, a snippet trigger, or any other word. A
word reaches back to the nearest space, quote, bracket, brace or comma.
-/

namespace ConfigAssist

def endsWord (c : Char) : Bool :=
  Text.isSpace c || c == '"' || c == '\'' || c == '[' || c == ']' || c == '{' || c == '}' || c == ','

/-- The word at the end of a text. -/
def lastWord (before : Text) : Text := (before.reverse.takeWhile (!endsWord ·)).reverse

/-- The text before the word at the end of a text. -/
def beforeWord (before : Text) : Text := (before.reverse.dropWhile (!endsWord ·)).reverse

/-- The entity id at the end of a text: a domain, a point, and as much of the object as there is. It
must not continue a word or a chain of points. -/
def typedId? (before : Text) : Option Text :=
  let backward := before.reverse
  match backward.dropWhile Entity.isIdChar with
  | '.' :: rest =>
    let object := backward.takeWhile Entity.isIdChar
    let domain := rest.takeWhile Entity.isIdChar
    let continues (c : Char) : Bool := c.isAlphanum || c == '_' || c == '.'
    if domain.isEmpty || (rest.dropWhile Entity.isIdChar).head?.any continues then none
    else some (object ++ '.' :: domain).reverse
  | _ => none

/-- A text without another one that it begins with. -/
def after? : Text → Text → Option Text
  | [], t => some t
  | c :: cs, d :: ds => if c = d then after? cs ds else none
  | _ :: _, [] => none

/-- The name in a snippet trigger: the sentinel, a colon and the name, with space before them. -/
def triggerName? (sentinel before : Text) : Option Text :=
  match after? (sentinel ++ [':']) (lastWord before) with
  | some name =>
    let alone := (beforeWord before).getLast?.all Text.isSpace
    if alone && name.all fun c => c.isAlphanum || c == '_' || c == '-' then some name else none
  | none => none

inductive Typed where
  | entity (id : Text)
  | tag (name : Text)
  | snippet (word name : Text)
  | other (word : Text)
deriving DecidableEq

namespace Typed

def ofText (sentinel before : Text) : Typed :=
  match typedId? before with
  | some id => .entity id
  | none =>
    match lastWord before with
    | '!' :: name => .tag name
    | word =>
      match triggerName? sentinel before with
      | some name => .snippet word name
      | none => .other word

/-- The text that a suggestion takes the place of. -/
def replaced : Typed → Text
  | entity id => id
  | tag name => '!' :: name
  | snippet word _ => word
  | other word => word

end Typed

end ConfigAssist
