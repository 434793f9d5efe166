import ConfigAssist.Text.Column
import Mathlib.Data.List.Forall2

/-! The lines of a text. They are cut at every line feed and nowhere else, and at most
one carriage return is taken off the end of each. -/

namespace ConfigAssist.Text

theorem not_mem_of_mem_splitOn {separator : Char} {t piece : Text} (h : piece ∈ splitOn separator t) :
    separator ∉ piece := by
  induction t generalizing piece with
  | nil =>
    obtain rfl : piece = [] := by simpa [splitOn] using h
    exact List.not_mem_nil
  | cons c cs ih =>
    obtain ⟨first, rest, hsplit⟩ := List.exists_cons_of_ne_nil (splitOn_ne_nil separator cs)
    rw [hsplit] at ih
    rw [splitOn] at h
    split at h
    · rw [hsplit] at h
      rcases List.mem_cons.mp h with rfl | h
      · exact List.not_mem_nil
      · exact ih h
    · rename_i hc
      rw [hsplit, List.modifyHead_cons] at h
      rcases List.mem_cons.mp h with rfl | h
      · have hfirst := ih List.mem_cons_self
        intro hmem
        rcases List.mem_cons.mp hmem with heq | hmem
        · exact hc heq.symm
        · exact hfirst hmem
      · exact ih (List.mem_cons_of_mem first h)

theorem splitOn_eq_list_splitOn (separator : Char) (t : Text) :
    splitOn separator t = List.splitOn separator t := by
  induction t with
  | nil => simp [splitOn]
  | cons c cs ih =>
    rw [splitOn, ih, List.splitOn_eq_splitOnP, List.splitOn_eq_splitOnP,
      List.splitOnP_cons_eq_if_modifyHead]
    simp only [beq_iff_eq]

/-- Pieces without the separator are found again. -/
theorem splitOn_intercalate {separator : Char} {pieces : List Text} (hne : pieces ≠ [])
    (h : ∀ piece ∈ pieces, separator ∉ piece) :
    splitOn separator ([separator].intercalate pieces) = pieces := by
  rw [splitOn_eq_list_splitOn]
  exact List.splitOn_intercalate separator h hne

theorem append_intercalate (before first separator : Text) (rest : List Text) :
    before ++ separator.intercalate (first :: rest) =
      separator.intercalate ((before ++ first) :: rest) := by
  cases rest with
  | nil => simp
  | cons second rest => simp [List.intercalate_cons_cons]

theorem intercalate_append (separator last after : Text) (front : List Text) :
    separator.intercalate (front ++ [last]) ++ after =
      separator.intercalate (front ++ [last ++ after]) := by
  induction front with
  | nil => simp
  | cons line front ih =>
    cases front with
    | nil => simp [List.intercalate_cons_cons]
    | cons next rest =>
      rw [List.cons_append, List.cons_append] at ih ⊢
      rw [List.cons_append, List.cons_append, List.intercalate_cons_cons,
        List.intercalate_cons_cons, ← ih]
      simp

/-- A line as it is cut out of a text, and without the carriage return at its end. -/
inductive Stripped : Text → Text → Prop
  | marked (line : Text) : Stripped (line ++ ['\r']) line
  | bare {line : Text} (hend : ¬ ['\r'] <:+ line) : Stripped line line

theorem stripped_dropLast (line : Text) :
    Stripped line (if line.getLast? = some '\r' then line.dropLast else line) := by
  split
  · rename_i hlast
    obtain ⟨front, rfl⟩ := List.getLast?_eq_some_iff.mp hlast
    rw [List.dropLast_concat]
    exact .marked front
  · rename_i hlast
    refine .bare ?_
    rintro ⟨front, rfl⟩
    exact hlast List.getLast?_concat

/-- The lines that a text has when it is cut at line feeds. -/
def LinesOf (t : Text) (lines : List Text) : Prop :=
  ∃ cuts, cuts ≠ [] ∧ ['\n'].intercalate cuts = t ∧ (∀ cut ∈ cuts, '\n' ∉ cut) ∧
    List.Forall₂ Stripped cuts lines

theorem linesOf_lines (t : Text) : LinesOf t (lines t) := by
  refine ⟨splitOn '\n' t, splitOn_ne_nil '\n' t, intercalate_splitOn '\n' t,
    fun cut => not_mem_of_mem_splitOn, ?_⟩
  rw [lines]
  generalize splitOn '\n' t = cuts
  induction cuts with
  | nil => exact .nil
  | cons cut cuts ih => exact .cons (stripped_dropLast cut) ih

/-- A text with a carriage return in front of every line feed. -/
def withReturns (t : Text) : Text := t.flatMap fun c => if c = '\n' then ['\r', '\n'] else [c]

theorem splitOn_withReturns (t : Text) :
    ∃ front last, splitOn '\n' t = front ++ [last] ∧
      splitOn '\n' (withReturns t) = front.map (· ++ ['\r']) ++ [last] := by
  induction t with
  | nil => exact ⟨[], [], rfl, rfl⟩
  | cons c t ih =>
    obtain ⟨front, last, hsplit, hreturns⟩ := ih
    rw [withReturns] at hreturns
    rw [withReturns, List.flatMap_cons]
    by_cases hc : c = '\n'
    · subst hc
      refine ⟨[] :: front, last, ?_, ?_⟩
      · simp [splitOn, hsplit]
      · simp [splitOn, hreturns]
    · simp only [if_neg hc, List.singleton_append, splitOn, hsplit, hreturns]
      cases front with
      | nil => exact ⟨[], c :: last, rfl, rfl⟩
      | cons line front => exact ⟨(c :: line) :: front, last, rfl, rfl⟩

end ConfigAssist.Text
