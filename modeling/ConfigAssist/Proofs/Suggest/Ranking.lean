import ConfigAssist.Proofs.Text.Order
import ConfigAssist.Suggest.Ranking

/-! What a ranking keeps: of the candidates in the pool those that match, and not more of
them than go into one answer. -/

namespace ConfigAssist.Ranking

variable {α : Type} {key : α → Text} {typed : Text} {pool : List α} {item : α}

theorem matchesIn_iff {typed key : Text} :
    matchesIn typed key = true ↔ Text.lower typed <:+: Text.lower key := Text.occursIn_iff

theorem mem_sortBy {items : List α} : item ∈ sortBy key items ↔ item ∈ items := List.mem_mergeSort

theorem pairwise_sortBy (key : α → Text) (items : List α) :
    (sortBy key items).Pairwise fun a b => Text.atMost (key a) (key b) = true := by
  apply List.pairwise_mergeSort
  · exact fun _ _ _ => Text.atMost_trans
  · exact fun _ _ => Text.atMost_total _ _

theorem sortBy_perm (key : α → Text) (items : List α) : (sortBy key items).Perm items :=
  List.mergeSort_perm items _

theorem mem_order : item ∈ order key typed pool ↔ item ∈ pool ∧ matchesIn typed (key item) = true := by
  rw [order, List.partition_eq_filter_filter]
  simp only [List.mem_append, mem_sortBy, List.mem_filter, Function.comp_apply, Bool.not_eq_true']
  -- an item is in the tier that its key says
  cases leads typed (key item) <;> simp

theorem of_mem_best (h : item ∈ best key typed pool) :
    item ∈ pool ∧ matchesIn typed (key item) = true := mem_order.mp (List.mem_of_mem_take h)

theorem length_best_le : (best key typed pool).length ≤ Suggestion.limit := List.length_take_le _ _

end ConfigAssist.Ranking
