import ConfigAssist.Text.Blank

/-!
Snippets: bodies of several lines that are inserted under a name. A body is written where the cursor
stands, so its first line is already indented and the later ones are given the indentation, except
where they are blank.
-/

namespace ConfigAssist

structure Snippet where
  name : Text
  label : Text
  body : Text
  description : Option Text := none
deriving DecidableEq

namespace Snippet

def indentLine (indent line : Text) : Text := if Text.isBlank line then line else indent ++ line

/-- The lines of the body, the later ones indented. -/
def expandedLines (s : Snippet) (indent : Text) : List Text :=
  match Text.splitOn '\n' s.body with
  | [] => []
  | first :: later => first :: later.map (indentLine indent)

def expand (s : Snippet) (indent : Text) : Text := ['\n'].intercalate (s.expandedLines indent)

end Snippet

end ConfigAssist
