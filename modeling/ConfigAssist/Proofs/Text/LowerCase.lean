import ConfigAssist.Text.LowerCase
import Mathlib.Data.List.TakeWhile

/-! The lower case of a part of a text. Only a capital sigma looks at the characters around
it, so a part is lowered as it is alone if its sigmas have the forms they have in the part
alone. The text around can change only a sigma that ends the part or begins it. What stands
before a place is given backwards, as the lower case itself reads it. -/

namespace ConfigAssist.Text

/-- Whether a capital sigma takes its final form. -/
def finalBetween (before after : Text) : Bool := leadsCased before && !leadsCased after

def lowerCharBetween (before : Text) (c : Char) (after : Text) : Text :=
  if c = 'Σ' then [if finalBetween before after then 'ς' else 'σ'] else lowerChar c

def lowerBetween (before : Text) : Text → Text → Text
  | [], _ => []
  | c :: cs, after => lowerCharBetween before c (cs ++ after) ++ lowerBetween (c :: before) cs after

theorem lowerAfter_cons (before : Text) (c : Char) (cs : Text) :
    lowerAfter before (c :: cs) = lowerCharBetween before c cs ++ lowerAfter (c :: before) cs := rfl

theorem lowerAfter_append (before s t : Text) :
    lowerAfter before (s ++ t) = lowerBetween before s t ++ lowerAfter (s.reverse ++ before) t := by
  induction s generalizing before with
  | nil => rfl
  | cons c cs ih =>
    simp only [List.cons_append, lowerAfter_cons, ih, lowerBetween, List.append_assoc,
      List.reverse_cons, List.nil_append]

theorem lowerAfter_eq (before t : Text) : lowerAfter before t = lowerBetween before t [] := by
  have happend := lowerAfter_append before t []
  simpa [lowerAfter] using happend

theorem length_lowerCharBetween (c : Char) (before after before' after' : Text) :
    (lowerCharBetween before c after).length = (lowerCharBetween before' c after').length := by
  by_cases hc : c = 'Σ' <;> simp [lowerCharBetween, hc]

theorem length_lowerBetween (t before after before' after' : Text) :
    (lowerBetween before t after).length = (lowerBetween before' t after').length := by
  induction t generalizing before before' with
  | nil => rfl
  | cons c cs ih =>
    simp only [lowerBetween, List.length_append, ih (c :: before) (c :: before'),
      length_lowerCharBetween c before (cs ++ after) before' (cs ++ after')]

theorem lowerCharBetween_eq_iff {c : Char} {before after before' after' : Text} :
    lowerCharBetween before c after = lowerCharBetween before' c after' ↔
      (c = 'Σ' → finalBetween before after = finalBetween before' after') := by
  by_cases hc : c = 'Σ'
  · cases h : finalBetween before after <;> cases h' : finalBetween before' after' <;>
      simp [lowerCharBetween, hc, h, h']
  · simp [lowerCharBetween, hc]

theorem lowerBetween_eq_iff {t before after before' after' : Text} :
    lowerBetween before t after = lowerBetween before' t after' ↔
      ∀ u v, t = u ++ 'Σ' :: v →
        finalBetween (u.reverse ++ before) (v ++ after) =
          finalBetween (u.reverse ++ before') (v ++ after') := by
  induction t generalizing before before' with
  | nil => simp [lowerBetween]
  | cons c cs ih =>
    constructor
    · intro h u v hsplit
      obtain ⟨hhead, htail⟩ := List.append_inj h (length_lowerCharBetween ..)
      cases u with
      | nil =>
        obtain ⟨hc, rfl⟩ := List.cons.inj hsplit
        exact lowerCharBetween_eq_iff.mp hhead hc
      | cons d us =>
        obtain ⟨rfl, hcs⟩ := List.cons.inj hsplit
        simpa using ih.mp htail us v hcs
    · intro h
      have hhead : lowerCharBetween before c (cs ++ after) =
          lowerCharBetween before' c (cs ++ after') :=
        lowerCharBetween_eq_iff.mpr fun hc => h [] cs (by rw [hc, List.nil_append])
      have htail : lowerBetween (c :: before) cs after = lowerBetween (c :: before') cs after' :=
        ih.mpr fun us v hcs => by simpa using h (c :: us) v (by rw [hcs, List.cons_append])
      rw [lowerBetween, lowerBetween, hhead, htail]

/-- A capital sigma of a part takes its final form in the whole text just if it does in the
part alone. -/
def KeepsSigmas (front t back : Text) : Prop :=
  ∀ u v, t = u ++ 'Σ' :: v →
    finalBetween (u.reverse ++ front.reverse) (v ++ back) = finalBetween u.reverse v

theorem keepsSigmas_iff {front t back : Text} :
    KeepsSigmas front t back ↔ lower t = lowerBetween front.reverse t back := by
  rw [lower, lowerAfter_eq, lowerBetween_eq_iff]
  simp only [KeepsSigmas, List.append_nil]
  exact ⟨fun h u v hsplit => (h u v hsplit).symm, fun h u v hsplit => (h u v hsplit).symm⟩

instance (front t back : Text) : Decidable (KeepsSigmas front t back) :=
  decidable_of_iff _ keepsSigmas_iff.symm

theorem length_lower (before t after : Text) :
    (lower t).length = (lowerBetween before t after).length := by
  rw [lower, lowerAfter_eq]
  exact length_lowerBetween ..

theorem keepsSigmas_of_occurs {front t back : Text}
    (h : lower t <:+: lowerBetween front.reverse t back) : KeepsSigmas front t back :=
  keepsSigmas_iff.mpr (h.eq_of_length (length_lower ..))

theorem lower_append_append (front t back : Text) :
    lower (front ++ (t ++ back)) = lowerBetween [] front (t ++ back) ++
      (lowerBetween front.reverse t back ++ lowerAfter (t.reverse ++ front.reverse) back) := by
  rw [lower, lowerAfter_append, lowerAfter_append, List.append_nil]

theorem KeepsSigmas.lower_occurs {front t back : Text} (h : KeepsSigmas front t back) :
    lower t <:+: lower (front ++ (t ++ back)) := by
  rw [lower_append_append, ← keepsSigmas_iff.mp h, ← List.append_assoc]
  exact List.infix_append _ _ _

theorem lower_prefix_iff {t back : Text} :
    lower t <+: lower (t ++ back) ↔ KeepsSigmas [] t back := by
  have hwhole := lower_append_append [] t back
  rw [List.nil_append] at hwhole
  rw [hwhole]
  constructor
  · intro h
    have hpart : lower t <+: lowerBetween [] t back :=
      List.prefix_of_prefix_length_le h (List.prefix_append _ _) (Nat.le_of_eq (length_lower ..))
    exact keepsSigmas_of_occurs hpart.isInfix
  · intro h
    rw [keepsSigmas_iff.mp h]
    exact List.prefix_append _ _

def IsIgnorable (t : Text) : Prop := ∀ c ∈ t, isCaseIgnorable c = true

theorem isIgnorable_reverse {t : Text} : IsIgnorable t.reverse ↔ IsIgnorable t := by
  simp [IsIgnorable]

theorem leadsCased_append {s : Text} (h : IsIgnorable s) (t : Text) :
    leadsCased (s ++ t) = leadsCased t := by
  rw [leadsCased, List.dropWhile_append_of_pos h, leadsCased]

theorem leadsCased_of_isIgnorable {t : Text} (h : IsIgnorable t) : leadsCased t = false := by
  simpa [leadsCased] using leadsCased_append h []

theorem leadsCased_append_of_not {s : Text} (h : ¬ IsIgnorable s) (t : Text) :
    leadsCased (s ++ t) = leadsCased s := by
  obtain ⟨c, cs, hrest⟩ : ∃ c cs, s.dropWhile isCaseIgnorable = c :: cs := by
    apply List.exists_cons_of_ne_nil
    rwa [Ne, List.dropWhile_eq_nil_iff]
  simp [leadsCased, List.dropWhile_append, hrest]

/-- A text ends with a final sigma, which is not final where a cased letter follows. -/
def EndsInSigma (t : Text) : Prop :=
  ∃ u v, t = u ++ 'Σ' :: v ∧ leadsCased u.reverse = true ∧ IsIgnorable v

/-- A text begins with a sigma that no cased letter follows. It is not final, but may be where
a cased letter stands before it. -/
def BeginsWithSigma (t : Text) : Prop :=
  ∃ u v, t = u ++ 'Σ' :: v ∧ IsIgnorable u ∧ leadsCased v = false

theorem keepsSigmas_of {front t back : Text} (hend : EndsInSigma t → leadsCased back = false)
    (hbegin : BeginsWithSigma t → leadsCased front.reverse = false) : KeepsSigmas front t back := by
  intro u v hsplit
  -- only across ignorable characters does a sigma see the text around the part
  by_cases hu : IsIgnorable u
  · have hu' : IsIgnorable u.reverse := isIgnorable_reverse.mpr hu
    rw [finalBetween, finalBetween, leadsCased_append hu', leadsCased_of_isIgnorable hu']
    by_cases hv : leadsCased v = true
    · have hnot : ¬ IsIgnorable v := fun hv' => by simp [leadsCased_of_isIgnorable hv'] at hv
      simp [leadsCased_append_of_not hnot, hv]
    · simp [hbegin ⟨u, v, hsplit, hu, by simpa using hv⟩]
  · have hu' : ¬ IsIgnorable u.reverse := mt isIgnorable_reverse.mp hu
    rw [finalBetween, finalBetween, leadsCased_append_of_not hu']
    by_cases hv : IsIgnorable v
    · rw [leadsCased_append hv, leadsCased_of_isIgnorable hv]
      by_cases hcased : leadsCased u.reverse = true
      · rw [hend ⟨u, v, hsplit, hcased, hv⟩]
      · simp [hcased]
    · rw [leadsCased_append_of_not hv]

theorem EndsInSigma.not_keepsSigmas {front t back : Text} (h : EndsInSigma t)
    (hback : leadsCased back = true) : ¬ KeepsSigmas front t back := by
  obtain ⟨u, v, hsplit, hu, hv⟩ := h
  intro hkeeps
  have hform := hkeeps u v hsplit
  simp [finalBetween, leadsCased_append hv, leadsCased_of_isIgnorable hv, hu, hback] at hform

theorem BeginsWithSigma.not_keepsSigmas {front t : Text} (h : BeginsWithSigma t)
    (hfront : leadsCased front.reverse = true) : ¬ KeepsSigmas front t [] := by
  obtain ⟨u, v, hsplit, hu, hv⟩ := h
  have hu' : IsIgnorable u.reverse := isIgnorable_reverse.mpr hu
  intro hkeeps
  have hform := hkeeps u v hsplit
  simp [finalBetween, leadsCased_append hu', leadsCased_of_isIgnorable hu', hv, hfront] at hform

theorem keepsSigmas_in_front_iff {t back : Text} :
    KeepsSigmas [] t back ↔ ¬ (EndsInSigma t ∧ leadsCased back = true) := by
  constructor
  · rintro hkeeps ⟨hend, hback⟩
    exact hend.not_keepsSigmas hback hkeeps
  · intro h
    apply keepsSigmas_of
    · intro hend
      simpa [hend] using h
    · intro _
      rfl

theorem keepsSigmas_in_front {t : Text} (h : ¬ EndsInSigma t) (back : Text) : KeepsSigmas [] t back :=
  keepsSigmas_in_front_iff.mpr fun hend => h hend.1

instance (t : Text) : Decidable (EndsInSigma t) :=
  decidable_of_iff (¬ KeepsSigmas [] t ['a']) <| by
    have hcased : leadsCased ['a'] = true := by decide
    rw [keepsSigmas_in_front_iff, not_not, and_iff_left hcased]

instance (t : Text) : Decidable (BeginsWithSigma t) :=
  decidable_of_iff (¬ KeepsSigmas ['a'] t []) <| by
    refine ⟨fun h => ?_, fun h => h.not_keepsSigmas (by decide)⟩
    by_contra hbegin
    exact h (keepsSigmas_of (fun _ => rfl) fun h => absurd h hbegin)

example : EndsInSigma "ΜΕΣ:".toList ∧ ¬ EndsInSigma "4Σ".toList ∧
    BeginsWithSigma "Σ:".toList ∧ ¬ BeginsWithSigma "ΣΗ".toList := by decide

/-- There is a cased letter that is its own lower case besides any one given. -/
theorem exists_letter (o : Option Char) :
    ∃ c, o ≠ some c ∧ leadsCased [c] = true ∧
      ∀ before cs, lowerAfter before (c :: cs) = c :: lowerAfter (c :: before) cs := by
  have hlower : ∀ c, c ≠ 'Σ' → lowerChar c = [c] → ∀ before cs,
      lowerAfter before (c :: cs) = c :: lowerAfter (c :: before) cs := by
    intro c hc hlower before cs
    rw [lowerAfter_cons, lowerCharBetween, if_neg hc, hlower, List.singleton_append]
  by_cases ha : o = some 'a'
  · exact ⟨'b', by simp [ha], by decide, hlower 'b' (by decide) (by decide)⟩
  · exact ⟨'a', ha, by decide, hlower 'a' (by decide) (by decide)⟩

theorem infix_of_infix_concat {s t : Text} {c : Char} (hlast : s.getLast? ≠ some c)
    (h : s <:+: t ++ [c]) : s <:+: t := by
  rw [List.infix_concat_iff, List.suffix_concat_iff] at h
  rcases h with (rfl | ⟨r, rfl, -⟩) | h
  · exact List.nil_infix
  · simp at hlast
  · exact h

theorem infix_of_infix_cons {s t : Text} {c : Char} (hfirst : s.head? ≠ some c)
    (h : s <:+: c :: t) : s <:+: t := by
  rw [List.infix_cons_iff, List.prefix_cons_iff] at h
  rcases h with (rfl | ⟨r, rfl, -⟩) | h
  · exact List.nil_infix
  · simp at hfirst
  · exact h

theorem EndsInSigma.exists_not_occurs {t : Text} (h : EndsInSigma t) :
    ∃ back, ¬ lower t <:+: lower (t ++ back) := by
  obtain ⟨c, hlast, hcased, hlower⟩ := exists_letter (lower t).getLast?
  refine ⟨[c], fun hinfix => ?_⟩
  have hwhole : lower (t ++ [c]) = lowerBetween [] t [c] ++ [c] := by
    rw [lower, lowerAfter_append, hlower]
    rfl
  -- the two lower cases have the same length, so there is only one place for the infix
  rw [hwhole] at hinfix
  have hpart : lower t <:+: lowerBetween [] t [c] := infix_of_infix_concat hlast hinfix
  have hkeeps : KeepsSigmas [] t [c] := keepsSigmas_of_occurs hpart
  exact h.not_keepsSigmas hcased hkeeps

theorem BeginsWithSigma.exists_not_occurs {t : Text} (h : BeginsWithSigma t) :
    ∃ front, ¬ lower t <:+: lower (front ++ t) := by
  obtain ⟨c, hfirst, hcased, hlower⟩ := exists_letter (lower t).head?
  refine ⟨[c], fun hinfix => ?_⟩
  have hwhole : lower ([c] ++ t) = c :: lowerBetween [c] t [] := by
    rw [lower, List.singleton_append, hlower, lowerAfter_eq]
  rw [hwhole] at hinfix
  have hpart : lower t <:+: lowerBetween [c] t [] := infix_of_infix_cons hfirst hinfix
  have hkeeps : KeepsSigmas [c] t [] := keepsSigmas_of_occurs hpart
  exact absurd hkeeps (h.not_keepsSigmas hcased)

end ConfigAssist.Text
