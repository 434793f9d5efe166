import ConfigAssist.Proofs.Suggest.Ranking
import ConfigAssist.Suggest.Offer
import Mathlib.Data.List.Infix

/-! Selections. The first candidates in an order of their keys are chosen, and of those with
the same key the first ones of the pool. Rankings choose like this from the candidates
that match, in two tiers. -/

namespace ConfigAssist

variable {α : Type} {key : α → Text}

/-- A choice of the first candidates, and what is left of them. -/
structure StableTop (limit : Nat) (precedes : Text → Text → Prop) (key : α → Text)
    (candidates chosen left : List α) : Prop where
  count : chosen.length = min limit candidates.length
  whole : (chosen ++ left).Perm candidates
  sorted : chosen.Pairwise fun a b => precedes (key a) (key b) ∨ key a = key b
  stable : ∀ k, chosen.filter (key · = k) <+: candidates.filter (key · = k)
  top : ∀ a ∈ left, ∀ b ∈ chosen, ¬ precedes (key a) (key b)

theorem stableTop_take {precedes : Text → Text → Prop} {candidates sorted : List α}
    (hasymm : ∀ k l, precedes k l → ¬ precedes l k) (hperm : sorted.Perm candidates)
    (hsorted : sorted.Pairwise fun a b => precedes (key a) (key b) ∨ key a = key b)
    (hstable : ∀ k, sorted.filter (key · = k) = candidates.filter (key · = k)) (limit : Nat) :
    StableTop limit precedes key candidates (sorted.take limit) (sorted.drop limit) where
  count := by rw [List.length_take, hperm.length_eq]
  whole := by rw [List.take_append_drop]; exact hperm
  sorted := hsorted.sublist (List.take_sublist limit sorted)
  stable k := by rw [← hstable k]; exact (List.take_prefix limit sorted).filter _
  top := by
    intro a ha b hb hprecedes
    rw [← List.take_append_drop limit sorted, List.pairwise_append] at hsorted
    rcases hsorted.2.2 b hb a ha with h | h
    · exact hasymm _ _ h hprecedes
    · rw [h] at hprecedes
      exact hasymm _ _ hprecedes hprecedes

namespace Ranking

variable {typed : Text} {pool items : List α}

/-- The items with one key keep their order. -/
theorem filter_sortBy (key : α → Text) (items : List α) (k : Text) :
    (sortBy key items).filter (key · = k) = items.filter (key · = k) := by
  have hsame : (items.filter (key · = k)).Pairwise fun a b => Text.atMost (key a) (key b) = true := by
    apply List.pairwise_of_forall_mem_list
    intro a ha b hb
    have ha' := (List.mem_filter.mp ha).2
    have hb' := (List.mem_filter.mp hb).2
    rw [decide_eq_true_eq] at ha' hb'
    rw [ha', hb']
    exact Text.atMost_of_begins List.prefix_rfl
  have hsub : (items.filter (key · = k)).Sublist (sortBy key items) := by
    apply List.sublist_mergeSort _ _ hsame List.filter_sublist
    · exact fun _ _ _ => Text.atMost_trans
    · exact fun _ _ => Text.atMost_total _ _
  have hsub' := hsub.filter (key · = k)
  rw [List.filter_filter] at hsub'
  simp only [Bool.and_self] at hsub'
  exact (hsub'.eq_of_length ((sortBy_perm key items).filter _).length_eq.symm).symm

theorem stableTop_sortBy (key : α → Text) (items : List α) (limit : Nat) :
    StableTop limit Text.Before key items ((sortBy key items).take limit)
      ((sortBy key items).drop limit) :=
  stableTop_take (fun _ _ => Text.before_asymm) (sortBy_perm key items)
    ((pairwise_sortBy key items).imp Text.atMost_iff.mp) (filter_sortBy key items) limit

/-- Whether a key starts with what was typed, ignoring case. -/
def Leads (typed key : Text) : Prop := Text.lower typed <+: Text.lower key

/-- The order of a ranking: first by tier, then by code points. -/
def Precedes (typed k l : Text) : Prop :=
  (Leads typed k ∧ ¬ Leads typed l) ∨ ((Leads typed k ↔ Leads typed l) ∧ Text.Before k l)

theorem leads_iff {typed key : Text} : leads typed key = true ↔ Leads typed key := Text.startsWith_iff

theorem precedes_asymm (typed k l : Text) (h : Precedes typed k l) : ¬ Precedes typed l k := by
  rintro (⟨hl, hk⟩ | ⟨htier, hbefore⟩)
  · rcases h with ⟨hk', -⟩ | ⟨htier, -⟩
    · exact hk hk'
    · exact hk (htier.mpr hl)
  · rcases h with ⟨hk, hl⟩ | ⟨-, hbefore'⟩
    · exact hl (htier.mpr hk)
    · exact Text.before_asymm hbefore hbefore'

theorem precedes_or_eq_of_atMost {k l : Text} (htier : Leads typed k ↔ Leads typed l)
    (h : Text.atMost k l = true) : Precedes typed k l ∨ k = l :=
  (Text.atMost_iff.mp h).imp_left fun hbefore => .inr ⟨htier, hbefore⟩

theorem atMost_of_precedes {k l : Text} (htier : Leads typed k ↔ Leads typed l)
    (h : Precedes typed k l ∨ k = l) : Text.atMost k l = true := by
  rw [Text.atMost_iff]
  refine h.imp_left ?_
  rintro (⟨hk, hl⟩ | ⟨-, hbefore⟩)
  · exact absurd (htier.mp hk) hl
  · exact hbefore

/-- The candidates that match what was typed. -/
def fitting (key : α → Text) (typed : Text) (pool : List α) : List α :=
  pool.filter fun a => Text.lower typed <:+: Text.lower (key a)

theorem order_eq (key : α → Text) (typed : Text) (pool : List α) :
    order key typed pool =
      sortBy key ((fitting key typed pool).filter fun a => leads typed (key a)) ++
        sortBy key ((fitting key typed pool).filter fun a => !leads typed (key a)) := by
  have hfitting : fitting key typed pool = pool.filter fun a => matchesIn typed (key a) := by
    apply List.filter_congr
    intro a _
    rw [Bool.eq_iff_iff, matchesIn_iff, decide_eq_true_eq]
  rw [order, List.partition_eq_filter_filter, hfitting]
  rfl

theorem order_perm (key : α → Text) (typed : Text) (pool : List α) :
    (order key typed pool).Perm (fitting key typed pool) := by
  rw [order_eq]
  exact ((sortBy_perm key _).append (sortBy_perm key _)).trans (List.filter_append_perm _ _)

theorem pairwise_tier {tier : Bool} (h : ∀ a ∈ items, leads typed (key a) = tier) :
    (sortBy key items).Pairwise fun a b => Precedes typed (key a) (key b) ∨ key a = key b := by
  apply (pairwise_sortBy key items).imp_of_mem
  intro a b ha hb hle
  have htier : leads typed (key a) = leads typed (key b) :=
    (h a (mem_sortBy.mp ha)).trans (h b (mem_sortBy.mp hb)).symm
  rw [Bool.eq_iff_iff, leads_iff, leads_iff] at htier
  exact precedes_or_eq_of_atMost htier hle

theorem pairwise_order (key : α → Text) (typed : Text) (pool : List α) :
    (order key typed pool).Pairwise fun a b => Precedes typed (key a) (key b) ∨ key a = key b := by
  have hleading : ∀ a ∈ (fitting key typed pool).filter (fun a => leads typed (key a)),
      leads typed (key a) = true := fun a ha => (List.mem_filter.mp ha).2
  have hinner : ∀ a ∈ (fitting key typed pool).filter (fun a => !leads typed (key a)),
      leads typed (key a) = false := by
    intro a ha
    simpa using (List.mem_filter.mp ha).2
  rw [order_eq, List.pairwise_append]
  refine ⟨pairwise_tier hleading, pairwise_tier hinner, ?_⟩
  intro a ha b hb
  have ha' := hleading a (mem_sortBy.mp ha)
  have hb' := hinner b (mem_sortBy.mp hb)
  rw [leads_iff] at ha'
  rw [← Bool.not_eq_true, leads_iff] at hb'
  exact .inl (.inl ⟨ha', hb'⟩)

/-- Items with one key are in one tier, so they keep their order. -/
theorem filter_order (key : α → Text) (typed : Text) (pool : List α) (k : Text) :
    (order key typed pool).filter (key · = k) = (fitting key typed pool).filter (key · = k) := by
  rw [order_eq, List.filter_append, filter_sortBy, filter_sortBy, List.filter_filter,
    List.filter_filter]
  have hkey : ∀ tier, (fun a => decide (key a = k) && (leads typed (key a) == tier)) =
      fun a => decide (key a = k) && (leads typed k == tier) := by
    intro tier
    funext a
    by_cases ha : key a = k
    · rw [ha]
    · simp [ha]
  have hleading := hkey true
  have hinner := hkey false
  simp only [beq_true, beq_false] at hleading hinner
  rw [hleading, hinner]
  cases leads typed k <;> simp

theorem stableTop_best (key : α → Text) (typed : Text) (pool : List α) :
    StableTop 20 (Precedes typed) key (fitting key typed pool) (best key typed pool)
      ((order key typed pool).drop 20) :=
  stableTop_take (precedes_asymm typed) (order_perm key typed pool) (pairwise_order key typed pool)
    (filter_order key typed pool) 20

/-- Where all members of a class stand before all others, to divide a list by it changes nothing. -/
theorem filter_append_filter_not {p : α → Bool} (h : items.Pairwise fun a b => p b = true → p a = true) :
    items.filter p ++ items.filter (fun a => !p a) = items := by
  induction items with
  | nil => rfl
  | cons x xs ih =>
    rw [List.pairwise_cons] at h
    have hrest := ih h.2
    by_cases hx : p x = true
    · simp [hx, hrest]
    · have hnone : xs.filter p = [] := by
        rw [List.filter_eq_nil_iff]
        exact fun a ha hpa => hx (h.1 a ha hpa)
      rw [hnone, List.nil_append] at hrest
      simp [hx, hnone, hrest]

theorem sortBy_of_pairwise (h : items.Pairwise fun a b => Text.atMost (key a) (key b) = true) :
    sortBy key items = items := List.mergeSort_of_pairwise h

/-- Items in the order of a ranking that all match are ranked as they stand. -/
theorem order_of_pairwise (hfitting : fitting key typed items = items)
    (h : items.Pairwise fun a b => Precedes typed (key a) (key b) ∨ key a = key b) :
    order key typed items = items := by
  have htier : ∀ p : α → Bool, (∀ a b, p a = true → p b = true →
      (Leads typed (key a) ↔ Leads typed (key b))) → sortBy key (items.filter p) = items.filter p := by
    intro p hp
    apply sortBy_of_pairwise
    apply (h.sublist List.filter_sublist).imp_of_mem
    intro a b ha hb hab
    exact atMost_of_precedes (hp a b (List.mem_filter.mp ha).2 (List.mem_filter.mp hb).2) hab
  have hleading := htier (fun a => leads typed (key a)) fun a b ha hb =>
    iff_of_true (leads_iff.mp ha) (leads_iff.mp hb)
  have hinner := htier (fun a => !leads typed (key a)) fun a b ha hb => by
    rw [← leads_iff, ← leads_iff]
    simp_all
  rw [order_eq, hfitting, hleading, hinner]
  apply filter_append_filter_not
  apply h.imp
  rintro a b ((⟨ha, -⟩ | ⟨hab, -⟩) | hab) hb
  · exact leads_iff.mpr ha
  · exact leads_iff.mpr (hab.mpr (leads_iff.mp hb))
  · rw [hab]
    exact hb

theorem best_best (key : α → Text) (typed : Text) (pool : List α) :
    best key typed (best key typed pool) = best key typed pool := by
  have hfitting : fitting key typed (best key typed pool) = best key typed pool := by
    rw [fitting, List.filter_eq_self]
    intro a ha
    exact decide_eq_true (matchesIn_iff.mp (of_mem_best ha).2)
  have hsorted := (pairwise_order key typed pool).sublist (List.take_sublist Suggestion.limit _)
  have horder : order key typed (best key typed pool) = best key typed pool :=
    order_of_pairwise hfitting hsorted
  rw [best, horder]
  exact List.take_of_length_le length_best_le

/-- The keys of a ranking do not tell in which order the pool was. -/
theorem map_key_best {pool' : List α} (key : α → Text) (typed : Text) (h : pool'.Perm pool) :
    (best key typed pool').map key = (best key typed pool).map key := by
  have hperm : ((order key typed pool').map key).Perm ((order key typed pool).map key) :=
    ((order_perm key typed pool').trans ((h.filter _).trans (order_perm key typed pool).symm)).map key
  have hsorted : ∀ pool : List α, ((order key typed pool).map key).Pairwise fun k l =>
      Precedes typed k l ∨ k = l := fun pool => List.pairwise_map.mpr (pairwise_order key typed pool)
  have horder : (order key typed pool').map key = (order key typed pool).map key := by
    refine List.Perm.eq_of_pairwise ?_ (hsorted pool') (hsorted pool) hperm
    intro k l _ _ hkl hlk
    rcases hkl with hkl | rfl
    · rcases hlk with hlk | rfl
      · exact absurd hlk (precedes_asymm typed k l hkl)
      · rfl
    · rfl
  rw [best, best, List.map_take, List.map_take, horder]

/-- What a ranking by some keys makes of a pool. -/
structure Ranked (key : α → Text) (typed : Text) (pool chosen : List α) : Prop where
  top : ∃ left, StableTop 20 (Precedes typed) key (fitting key typed pool) chosen left
  again : best key typed chosen = chosen
  shuffled : ∀ pool', pool'.Perm pool → (best key typed pool').map key = chosen.map key

theorem ranked_best (key : α → Text) (typed : Text) (pool : List α) :
    Ranked key typed pool (best key typed pool) where
  top := ⟨_, stableTop_best key typed pool⟩
  again := best_best key typed pool
  shuffled _ := map_key_best key typed

/-- The key of a tag: its text without the marks in front. -/
def tagKey (item : Suggestion) : Text := item.insert.dropWhile (· == '!')

/-- Suggestions are ranked by the text that they insert, and tags without their marks. Both
rankings choose the first twenty of the candidates that match, as the pool has them. -/
theorem rankings_take_top :
    (∀ (typed : Text) (pool : List Suggestion),
      Ranked Suggestion.insert typed pool (rank pool typed)) ∧
    ∀ (name : Text) (schema : Schema),
      Ranked tagKey name ((schema.pool .escapeTags).map Entry.suggestion) (Offer.tags schema name) := by
  constructor
  · intro typed pool
    exact ranked_best Suggestion.insert typed pool
  · intro name schema
    exact ranked_best tagKey name _

/-- A candidate twice, one that differs in case, one in the second tier, and one that does
not match. -/
theorem rankings_take_top_ties :
    let first : Suggestion := { insert := "alias:".toList, kind := .key }
    let second : Suggestion :=
      { insert := "alias:".toList, kind := .key, description := some "again".toList }
    let upper : Suggestion := { insert := "Alias:".toList, kind := .key }
    let inner : Suggestion := { insert := "Real:".toList, kind := .key }
    let pool := [inner, first, { insert := "mode:".toList, kind := .key }, second, upper]
    let chosen := rank pool "AL".toList
    chosen = [upper, first, second, inner] ∧ rank chosen "AL".toList = chosen ∧
      pool.reverse.Perm pool ∧
      (rank pool.reverse "AL".toList).map Suggestion.insert = chosen.map Suggestion.insert ∧
      ∃ left, StableTop 20 (Precedes "AL".toList) Suggestion.insert
        (fitting Suggestion.insert "AL".toList pool) chosen left := by
  intro first second upper inner pool chosen
  have hranked := rankings_take_top.1 "AL".toList pool
  have hperm : pool.reverse.Perm pool := List.reverse_perm pool
  have hleading : (fitting Suggestion.insert "AL".toList pool).filter
      (fun a => leads "AL".toList a.insert) = [first, second, upper] := by decide
  have hinner : (fitting Suggestion.insert "AL".toList pool).filter
      (fun a => !leads "AL".toList a.insert) = [inner] := by decide
  have hsorted : sortBy Suggestion.insert [first, second, upper] = [upper, first, second] := by
    simp [sortBy, List.mergeSort, List.MergeSort.Internal.splitInTwo, Text.atMost, first, second, upper]
  have hchosen : chosen = [upper, first, second, inner] := by
    unfold chosen
    rw [rank, best, order_eq, hleading, hinner, hsorted,
      sortBy_of_pairwise (List.pairwise_singleton _ inner)]
    rfl
  exact ⟨hchosen, hranked.again, hperm, hranked.shuffled _ hperm, hranked.top⟩

end Ranking

end ConfigAssist
