import ConfigAssist.Suggest.Item
import ConfigAssist.Text.LowerCase
import ConfigAssist.Text.Search

/-!
Ranking. A candidate matches if its key contains what was typed, ignoring case. Keys that start with
it come first; within each of the two tiers the order is that of the keys by code points, and equal
keys keep the order of the pool.
-/

namespace ConfigAssist.Ranking

def matchesIn (typed key : Text) : Bool := Text.occursIn (Text.lower typed) (Text.lower key)

def leads (typed key : Text) : Bool := Text.startsWith (Text.lower typed) (Text.lower key)

/-- A stable sort by key. -/
def sortBy (key : α → Text) (items : List α) : List α :=
  items.mergeSort fun a b => Text.atMost (key a) (key b)

/-- All matching candidates, best first. -/
def order (key : α → Text) (typed : Text) (pool : List α) : List α :=
  let (leading, inner) := (pool.filter (matchesIn typed <| key ·)).partition (leads typed <| key ·)
  sortBy key leading ++ sortBy key inner

/-- The best matching candidates, by a key of their own. -/
def best (key : α → Text) (typed : Text) (pool : List α) : List α :=
  (order key typed pool).take Suggestion.limit

/-- The best matching suggestions by the text they insert. -/
def rank (pool : List Suggestion) (typed : Text) : List Suggestion :=
  best Suggestion.insert typed pool

end ConfigAssist.Ranking
