import Mathlib.Data.List.Induction
import Mathlib.Data.List.TakeWhile

/-! Runs of characters of a class at the beginning of a text, and runs of one character at
its end. -/

namespace ConfigAssist

variable {α : Type}

theorem length_takeWhile_le (p : α → Bool) (l : List α) : (l.takeWhile p).length ≤ l.length :=
  (List.takeWhile_prefix p).length_le

theorem take_length_takeWhile (p : α → Bool) (l : List α) :
    l.take (l.takeWhile p).length = l.takeWhile p :=
  (List.prefix_iff_eq_take.mp (List.takeWhile_prefix p)).symm

theorem drop_length_takeWhile (p : α → Bool) (l : List α) :
    l.drop (l.takeWhile p).length = l.dropWhile p := by
  have hsplit := List.takeWhile_append_dropWhile (p := p) (l := l)
  calc l.drop (l.takeWhile p).length
      = (l.takeWhile p ++ l.dropWhile p).drop (l.takeWhile p).length := by rw [hsplit]
    _ = l.dropWhile p := List.drop_left

theorem mem_take_length_takeWhile {p : α → Bool} {l : List α} {a : α}
    (h : a ∈ l.take (l.takeWhile p).length) : p a = true := by
  rw [take_length_takeWhile] at h
  exact List.mem_takeWhile_imp h

theorem length_le_takeWhile {p : α → Bool} {s t : List α} (h : s <+: t)
    (hs : ∀ a ∈ s, p a = true) : s.length ≤ (t.takeWhile p).length := by
  obtain ⟨rest, rfl⟩ := h
  rw [List.takeWhile_append_of_pos hs, List.length_append]
  exact Nat.le_add_right _ _

/-- A run that ends in the beginning of a text is the run of that beginning. -/
theorem takeWhile_eq_of_prefix {p : α → Bool} {s t : List α} (h : s <+: t) {a : α} (ha : a ∈ s)
    (hp : p a = false) : t.takeWhile p = s.takeWhile p := by
  obtain ⟨rest, rfl⟩ := h
  rw [List.takeWhile_append, if_neg]
  intro hlength
  have hall : s.takeWhile p = s := (List.takeWhile_prefix p).eq_of_length hlength
  rw [List.takeWhile_eq_self_iff] at hall
  exact Bool.false_ne_true (hp.symm.trans (hall a ha))

/-- A run goes on behind a list only if it has reached the end of it. -/
theorem length_takeWhile_append (p : α → Bool) (l tail : List α) :
    ((l ++ tail).takeWhile p).length = (l.takeWhile p).length ∨
      (l.takeWhile p).length = l.length ∧
        ((l ++ tail).takeWhile p).length = l.length + (tail.takeWhile p).length := by
  rw [List.takeWhile_append]
  split
  · rename_i hall
    exact .inr ⟨hall, List.length_append⟩
  · exact .inl rfl

section

variable [DecidableEq α] {x a : α} {before after : List α}

/-- An element stands at the end of a list an odd number of times in a row. -/
def OddRun (x : α) (before : List α) : Prop := (before.reverse.takeWhile (· == x)).length % 2 = 1

instance (x : α) (before : List α) : Decidable (OddRun x before) :=
  inferInstanceAs (Decidable (_ % 2 = 1))

theorem oddRun_concat_iff : OddRun x (before ++ [a]) ↔ a = x ∧ ¬ OddRun x before := by
  by_cases ha : a = x
  · subst ha
    simp only [OddRun, List.reverse_append, List.reverse_singleton, List.singleton_append,
      List.takeWhile_cons, beq_self_eq_true, if_true, List.length_cons, true_and]
    omega
  · simp [OddRun, ha]

theorem not_oddRun_nil : ¬ OddRun x ([] : List α) := by simp [OddRun]

theorem oddRun_singleton_iff : OddRun x [a] ↔ a = x := by
  rw [← List.nil_append [a], oddRun_concat_iff, and_iff_left not_oddRun_nil]

theorem oddRun_append_iff (h : ¬ OddRun x before) :
    OddRun x (before ++ after) ↔ OddRun x after := by
  induction after using List.reverseRecOn with
  | nil =>
    rw [List.append_nil]
    exact iff_of_false h not_oddRun_nil
  | append_singleton after a ih =>
    rw [← List.append_assoc, oddRun_concat_iff, oddRun_concat_iff, ih]

theorem not_oddRun_of_not_mem (h : x ∉ before) : ¬ OddRun x before := by
  induction before using List.reverseRecOn with
  | nil => exact not_oddRun_nil
  | append_singleton front a =>
    rw [oddRun_concat_iff]
    rintro ⟨rfl, -⟩
    exact h (List.mem_append_right front List.mem_cons_self)

end

end ConfigAssist
