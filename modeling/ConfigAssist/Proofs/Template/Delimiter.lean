import ConfigAssist.Template.Delimiter

/-! Texts of delimiters. What is recognized as an opener or a closer stands in the text
and is spelled like one of its kind, with a sign only where the kind takes one. -/

namespace ConfigAssist.Template.Delimiter

/-- The spellings of an opener. -/
def Opens (d : Delimiter) (t : Text) : Prop :=
  t = d.opener ∨ d ≠ comment ∧ (t = d.opener ++ ['-'] ∨ t = d.opener ++ ['+'])

/-- The spellings of a closer. -/
def Closes (d : Delimiter) (t : Text) : Prop :=
  t = d.closer ∨ d ≠ comment ∧ (t = '-' :: d.closer ∨ t = '+' :: d.closer)

theorem isSign_iff {c : Char} : isSign c = true ↔ c = '-' ∨ c = '+' := by
  simp [isSign]

theorem signed_iff {d : Delimiter} : d.signed = true ↔ d ≠ comment := by
  cases d <;> simp [signed]

theorem length_opener (d : Delimiter) : d.opener.length = 2 := by cases d <;> rfl

theorem length_closer (d : Delimiter) : d.closer.length = 2 := by cases d <;> rfl

theorem two_le_openerLength (d : Delimiter) (t : Text) : 2 ≤ d.openerLength t := by
  unfold openerLength
  split <;> omega

theorem two_le_of_closerLength? {d : Delimiter} {t : Text} {n : Nat}
    (h : d.closerLength? t = some n) : 2 ≤ n := by
  unfold closerLength? at h
  split at h
  · cases h
    omega
  · split at h <;> cases h
    omega

theorem opener_append_of_opening? {d : Delimiter} {t : Text} (h : opening? t = some d) :
    t = d.opener ++ t.drop 2 := by
  unfold opening? at h
  split at h <;> cases h <;> rfl

theorem opening?_eq_none {t : Text} (h : ∀ d : Delimiter, ¬ d.opener <:+: t) : opening? t = none := by
  rw [Option.eq_none_iff_forall_ne_some]
  intro d hopening
  have hprefix : d.opener <+: t := by
    rw [opener_append_of_opening? hopening]
    exact List.prefix_append _ _
  exact h d hprefix.isInfix

/-- An opener is told by two characters. -/
theorem opening?_congr (c d : Char) (t u : Text) :
    opening? (c :: d :: t) = opening? (c :: d :: u) := by
  unfold opening?
  split <;> simp_all

theorem eq_brace_of_opening? {d : Delimiter} {c : Char} {cs : Text}
    (h : opening? (c :: cs) = some d) : c = '\x7b' := by
  have hopener := opener_append_of_opening? h
  cases d <;> exact (List.cons.inj hopener).1

theorem openerLength_le {d : Delimiter} {t : Text} (h : opening? t = some d) :
    d.openerLength t ≤ t.length := by
  have htwo : 2 ≤ t.length := by
    rw [opener_append_of_opening? h, List.length_append, d.length_opener]
    omega
  unfold openerLength
  split
  · rename_i hsign
    cases hrest : t.drop 2 with
    | nil => simp [hrest] at hsign
    | cons c cs =>
      have hlen := congrArg List.length hrest
      simp only [List.length_drop, List.length_cons] at hlen
      omega
  · exact htwo

theorem closerLength?_le {d : Delimiter} {t : Text} {n : Nat}
    (h : d.closerLength? t = some n) : n ≤ t.length := by
  unfold closerLength? at h
  split at h
  · rename_i hcloser
    have hlen := (List.isPrefixOf_iff_prefix.mp hcloser).length_le
    rw [d.length_closer] at hlen
    cases h
    exact hlen
  · split at h
    · rename_i hsigned
      simp only [Bool.and_eq_true, List.isPrefixOf_iff_prefix] at hsigned
      have hlen := hsigned.2.length_le
      rw [d.length_closer, List.length_tail] at hlen
      cases h
      omega
    · cases h

theorem opens_take_openerLength {d : Delimiter} {t : Text} (h : opening? t = some d) :
    d.Opens (t.take (d.openerLength t)) := by
  have hopener := opener_append_of_opening? h
  have hlen := d.length_opener
  unfold openerLength
  split
  · rename_i hsign
    rw [Bool.and_eq_true, signed_iff] at hsign
    cases hrest : t.drop 2 with
    | nil => simp [hrest] at hsign
    | cons c cs =>
      have hc : c = '-' ∨ c = '+' := by simpa [hrest, isSign_iff] using hsign.2
      have htake : t.take 3 = d.opener ++ [c] := by
        rw [hopener, hrest, List.take_append, hlen, List.take_of_length_le (by omega)]
        rfl
      rw [htake]
      rcases hc with rfl | rfl
      · exact .inr ⟨hsign.1, .inl rfl⟩
      · exact .inr ⟨hsign.1, .inr rfl⟩
  · left
    rw [hopener, List.take_left' hlen]

theorem closes_take_of_closerLength? {d : Delimiter} {t : Text} {n : Nat}
    (h : d.closerLength? t = some n) : d.Closes (t.take n) := by
  have hlen := d.length_closer
  unfold closerLength? at h
  split at h
  · rename_i hcloser
    obtain ⟨rest, rfl⟩ := List.isPrefixOf_iff_prefix.mp hcloser
    cases h
    left
    rw [List.take_left' hlen]
  · split at h
    · rename_i hsigned
      cases t with
      | nil => simp at hsigned
      | cons c cs =>
        simp only [Bool.and_eq_true, signed_iff, List.head?_cons, Option.any_some, isSign_iff,
          List.tail_cons, List.isPrefixOf_iff_prefix] at hsigned
        obtain ⟨⟨hd, hc⟩, rest, rfl⟩ := hsigned
        cases h
        rw [List.take_succ_cons, List.take_left' hlen]
        rcases hc with rfl | rfl
        · exact .inr ⟨hd, .inl rfl⟩
        · exact .inr ⟨hd, .inr rfl⟩
    · cases h

theorem opening?_of_opener {d : Delimiter} {t : Text} (h : d.opener <+: t) : opening? t = some d := by
  obtain ⟨rest, rfl⟩ := h
  cases d <;> rfl

theorem isSome_closerLength?_of_closes {d : Delimiter} {u t : Text} (hcloses : d.Closes u)
    (h : u <+: t) : (d.closerLength? t).isSome := by
  unfold closerLength?
  by_cases hplain : d.closer.isPrefixOf t = true
  · rw [if_pos hplain]
    rfl
  rw [if_neg hplain]
  obtain ⟨rest, rfl⟩ := h
  rcases hcloses with rfl | ⟨hd, hsigned⟩
  · exact absurd (List.isPrefixOf_iff_prefix.mpr (List.prefix_append _ rest)) hplain
  · have hsign := signed_iff.mpr hd
    rcases hsigned with rfl | rfl <;> simp [hsign, isSign]

end ConfigAssist.Template.Delimiter
