import ConfigAssist.Proofs.Text.Lines
import ConfigAssist.Suggest.Snippet

/-! Bodies of snippets are moved in as blocks. Where the first line of a body stands behind
an indentation, its later lines are given that indentation, except those that are blank. -/

namespace ConfigAssist.Snippet

open Text

/-- A later line of a block that is moved in. -/
inductive Indented (indent : Text) : Text → Text → Prop
  | blank {line : Text} (h : isBlank line = true) : Indented indent line line
  | filled {line : Text} (h : isBlank line = false) : Indented indent line (indent ++ line)

/-- The lines of a block, and what they are when the block is moved in. -/
inductive Shifted (indent : Text) : List Text → List Text → Prop
  | block {first : Text} {later later' : List Text}
      (h : List.Forall₂ (Indented indent) later later') :
      Shifted indent (first :: later) ((indent ++ first) :: later')

section

variable {indent : Text}

theorem indented_indentLine (indent line : Text) : Indented indent line (indentLine indent line) := by
  unfold indentLine
  split
  · rename_i h
    exact .blank h
  · rename_i h
    exact .filled (Bool.not_eq_true _ ▸ h)

theorem Indented.unique {line line' line'' : Text} (h : Indented indent line line')
    (h' : Indented indent line line'') : line' = line'' := by
  cases h with
  | blank hblank =>
    cases h' with
    | blank => rfl
    | filled hfilled => cases hblank.symm.trans hfilled
  | filled hfilled =>
    cases h' with
    | blank hblank => cases hblank.symm.trans hfilled
    | filled => rfl

/-- There is one way to move a block in. -/
theorem Shifted.unique {block block' block'' : List Text} (h : Shifted indent block block')
    (h' : Shifted indent block block'') : block' = block'' := by
  obtain ⟨hlater⟩ := h
  obtain ⟨hlater'⟩ := h'
  have hunique : Relator.RightUnique (Indented indent) := fun _ _ _ => Indented.unique
  rw [hunique.forall₂ hlater hlater']

theorem Shifted.length_eq {block block' : List Text} (h : Shifted indent block block') :
    block.length = block'.length := by
  obtain ⟨hlater⟩ := h
  rw [List.length_cons, List.length_cons, hlater.length_eq]

theorem Indented.not_mem {separator : Char} (hindent : separator ∉ indent) {line line' : Text}
    (h : Indented indent line line') (hline : separator ∉ line) : separator ∉ line' := by
  cases h with
  | blank => exact hline
  | filled => exact List.not_mem_append hindent hline

theorem Shifted.not_mem {separator : Char} (hindent : separator ∉ indent) {block block' : List Text}
    (h : Shifted indent block block') (hblock : ∀ line ∈ block, separator ∉ line) :
    ∀ line ∈ block', separator ∉ line := by
  obtain ⟨hlater⟩ := h
  rw [List.forall_mem_cons] at hblock ⊢
  refine ⟨List.not_mem_append hindent hblock.1, ?_⟩
  have hrest := hblock.2
  clear hblock
  induction hlater with
  | nil => exact hrest
  | cons hline _ ih =>
    rw [List.forall_mem_cons] at hrest ⊢
    exact ⟨hline.not_mem hindent hrest.1, ih hrest.2⟩

/-- The text that is inserted behind an indentation and before the rest of a line is the body
moved in. -/
theorem exists_shifted_expand (s : Snippet) (indent after : Text) :
    ∃ front last, Shifted indent (splitOn '\n' s.body) (front ++ [last]) ∧
      indent ++ (s.expand indent ++ after) = ['\n'].intercalate (front ++ [last ++ after]) := by
  obtain ⟨first, later, hbody⟩ := List.exists_cons_of_ne_nil (splitOn_ne_nil '\n' s.body)
  have hlines : s.expandedLines indent = first :: later.map (indentLine indent) := by
    rw [expandedLines, hbody]
  have hlater : List.Forall₂ (Indented indent) later (later.map (indentLine indent)) :=
    List.forall₂_map_right_iff.mpr (List.forall₂_same.mpr fun line _ => indented_indentLine indent line)
  obtain ⟨front, last, hsplit⟩ : ∃ front last,
      (indent ++ first) :: later.map (indentLine indent) = front ++ [last] :=
    ⟨_, _, (List.dropLast_concat_getLast (List.cons_ne_nil _ _)).symm⟩
  refine ⟨front, last, ?_, ?_⟩
  · rw [hbody, ← hsplit]
    exact .block hlater
  · rw [← List.append_assoc, expand, hlines, append_intercalate, hsplit, intercalate_append]

end

end ConfigAssist.Snippet
