import ConfigAssist.Text.Blank
import Mathlib.Data.List.DropRight

/-! What trimming leaves of a text: the text but for the characters of a class at its ends.
Nothing is left if and only if the text is blank. -/

namespace ConfigAssist.Text

theorem isBlank_iff {t : Text} : isBlank t = true ↔ ∀ c ∈ t, isSpace c = true := List.all_eq_true

theorem isBlank_append (s t : Text) : isBlank (s ++ t) = (isBlank s && isBlank t) := List.all_append

theorem not_of_mem_head?_dropWhile {p : Char → Bool} {t : Text} {c : Char}
    (h : c ∈ (t.dropWhile p).head?) : p c = false := by
  have hstop := List.head?_dropWhile_not p t
  rw [Option.mem_def.mp h] at hstop
  exact hstop

/-- What is left of a text without the characters of a class at its end. -/
structure IsFront (p : Char → Bool) (t front : Text) : Prop where
  split : ∃ tail, t = front ++ tail ∧ ∀ c ∈ tail, p c = true
  last : ∀ c ∈ front.getLast?, p c = false

theorem isFront_trimEndWith (p : Char → Bool) (t : Text) : IsFront p t (trimEndWith p t) where
  split := ⟨t.rtakeWhile p, List.rdropWhile_append_rtakeWhile.symm, fun _ => List.mem_rtakeWhile_imp⟩
  last := by
    intro c hc
    rw [trimEndWith, List.getLast?_reverse] at hc
    exact not_of_mem_head?_dropWhile hc

/-- What is left of a text without the space around it. -/
structure IsCore (t core : Text) : Prop where
  split : ∃ front tail, t = front ++ (core ++ tail) ∧ isBlank front = true ∧ isBlank tail = true
  first : ∀ c ∈ core.head?, isSpace c = false
  last : ∀ c ∈ core.getLast?, isSpace c = false

theorem isCore_trim (t : Text) : IsCore t (trim t) := by
  obtain ⟨⟨tail, htail, hblank⟩, hlast⟩ := isFront_trimEndWith isSpace (trimStart t)
  change trimStart t = trim t ++ tail at htail
  refine ⟨⟨t.takeWhile isSpace, tail, ?_, ?_, isBlank_iff.mpr hblank⟩, ?_, hlast⟩
  · rw [← htail, trimStart, List.takeWhile_append_dropWhile]
  · exact isBlank_iff.mpr fun c => List.mem_takeWhile_imp
  · intro c hc
    have hhead : c ∈ (trimStart t).head? := by
      rw [htail]
      exact List.mem_head?_append_of_mem_head? hc
    exact not_of_mem_head?_dropWhile hhead

theorem trim_eq_nil_iff {t : Text} : trim t = [] ↔ isBlank t = true := by
  obtain ⟨⟨front, tail, hsplit, hfront, htail⟩, hfirst, -⟩ := isCore_trim t
  constructor
  · intro hcore
    rw [hsplit, hcore, isBlank_append, isBlank_append, hfront, htail]
    rfl
  · intro hblank
    cases hcore : trim t with
    | nil => rfl
    | cons c cs =>
      rw [hcore] at hsplit hfirst
      have hc : isSpace c = true := isBlank_iff.mp hblank c (by simp [hsplit])
      cases hc.symm.trans (hfirst c rfl)

theorem dropWhile_append_of_blank {blank t : Text} (hblank : isBlank blank = true)
    (ht : ∀ c ∈ t.head?, isSpace c = false) : (blank ++ t).dropWhile isSpace = t := by
  rw [List.dropWhile_append_of_pos (isBlank_iff.mp hblank)]
  cases t with
  | nil => rfl
  | cons c cs => exact List.dropWhile_cons_of_neg (by simp [ht c rfl])

theorem isBlank_reverse (t : Text) : isBlank t.reverse = isBlank t := List.all_reverse

theorem IsCore.trim_eq {t core : Text} (h : IsCore t core) : trim t = core := by
  obtain ⟨⟨front, tail, rfl, hfront, htail⟩, hfirst, hlast⟩ := h
  cases core with
  | nil =>
    have hblank : isBlank (front ++ ([] ++ tail)) = true := by
      rw [List.nil_append, isBlank_append, hfront, htail]
      rfl
    exact trim_eq_nil_iff.mpr hblank
  | cons c cs =>
    have hstart : trimStart (front ++ (c :: cs ++ tail)) = c :: cs ++ tail :=
      dropWhile_append_of_blank hfront hfirst
    have hend : (tail.reverse ++ (c :: cs).reverse).dropWhile isSpace = (c :: cs).reverse :=
      dropWhile_append_of_blank ((isBlank_reverse tail).trans htail)
        fun d hd => hlast d (List.head?_reverse ▸ hd)
    rw [trim, hstart, trimEnd, trimEndWith, List.reverse_append, hend, List.reverse_reverse]

end ConfigAssist.Text
