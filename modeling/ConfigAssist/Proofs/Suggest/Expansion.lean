import ConfigAssist.Proofs.Suggest.Block
import ConfigAssist.Proofs.Text.Blank
import ConfigAssist.Yaml.Scalar

/-! Indentations act on the bodies of snippets. To expand a body that was expanded before
is to expand it once, by both indentations, and no indentation makes two bodies the same. -/

namespace ConfigAssist.Snippet

open Text Yaml

/-- The lines of a block, and what they are when those after the first are moved in. -/
structure MovedIn (indent : Text) (block block' : List Text) : Prop where
  count : block'.length = block.length
  first : block'.head? = block.head?
  blank : ∀ (i : Nat) (line : Text), block[i]? = some line → isBlank line = true → block'[i]? = some line
  deeper : ∀ (i : Nat) (line : Text), block[i + 1]? = some line → isBlank line = false →
    ∃ line', block'[i + 1]? = some line' ∧ line' = indent ++ line ∧
      indentation line' = indentation line + indent.length
  relative : ∀ (i j : Nat) (line other line' other' : Text), isBlank line = false → isBlank other = false →
    block[i + 1]? = some line → block[j + 1]? = some other →
    block'[i + 1]? = some line' → block'[j + 1]? = some other' →
    (indentation line' : Int) - indentation other' = indentation line - indentation other

theorem indentLine_of_blank {line : Text} (h : isBlank line = true) (indent : Text) :
    indentLine indent line = line := if_pos h

theorem indentLine_of_not_blank {line : Text} (h : isBlank line = false) (indent : Text) :
    indentLine indent line = indent ++ line := if_neg (Bool.eq_false_iff.mp h)

theorem isBlank_indentLine (indent line : Text) : isBlank (indentLine indent line) = isBlank line := by
  cases h : isBlank line with
  | true => rw [indentLine_of_blank h, h]
  | false => rw [indentLine_of_not_blank h, isBlank_append, h, Bool.and_false]

theorem indentLine_nil (line : Text) : indentLine [] line = line := by
  unfold indentLine
  split
  · rfl
  · rfl

theorem indentLine_indentLine (indent indent' line : Text) :
    indentLine indent' (indentLine indent line) = indentLine (indent' ++ indent) line := by
  cases h : isBlank line with
  | true => rw [indentLine_of_blank h, indentLine_of_blank h, indentLine_of_blank h]
  | false =>
    have hmoved := (isBlank_indentLine indent line).trans h
    rw [indentLine_of_not_blank hmoved, indentLine_of_not_blank h, indentLine_of_not_blank h,
      List.append_assoc]

/-- A line and what becomes of it are both blank or both not, so no two cases can meet. -/
theorem indentLine_injective (indent : Text) : Function.Injective (indentLine indent) := by
  intro line other h
  have hblank := isBlank_indentLine indent line
  rw [h, isBlank_indentLine] at hblank
  cases hline : isBlank line with
  | true =>
    rw [hline] at hblank
    rwa [indentLine_of_blank hline, indentLine_of_blank hblank] at h
  | false =>
    rw [hline] at hblank
    rw [indentLine_of_not_blank hline, indentLine_of_not_blank hblank] at h
    exact List.append_cancel_left h

theorem indentation_append {indent : Text} (h : ∀ c ∈ indent, c = ' ' ∨ c = '\t') (line : Text) :
    indentation (indent ++ line) = indentation line + indent.length := by
  have hindent : ∀ c ∈ indent, isIndent c = true := by
    intro c hc
    simpa [isIndent] using h c hc
  rw [indentation, List.takeWhile_append_of_pos hindent, List.length_append, Nat.add_comm]
  rfl

theorem expandedLines_eq {s : Snippet} {first : Text} {later : List Text}
    (h : splitOn '\n' s.body = first :: later) (indent : Text) :
    s.expandedLines indent = first :: later.map (indentLine indent) := by
  rw [expandedLines, h]

theorem exists_lines (s : Snippet) : ∃ first later, splitOn '\n' s.body = first :: later :=
  List.exists_cons_of_ne_nil (splitOn_ne_nil '\n' s.body)

theorem splitOn_expand (s : Snippet) {indent : Text} (hindent : '\n' ∉ indent) :
    splitOn '\n' (s.expand indent) = s.expandedLines indent := by
  obtain ⟨first, later, hbody⟩ := s.exists_lines
  have hlines : ∀ line ∈ first :: later, '\n' ∉ line := by
    rw [← hbody]
    exact fun line => not_mem_of_mem_splitOn
  rw [expand, expandedLines_eq hbody]
  refine splitOn_intercalate (List.cons_ne_nil _ _) ?_
  intro piece hpiece
  rcases List.mem_cons.mp hpiece with rfl | hpiece
  · exact hlines piece List.mem_cons_self
  · obtain ⟨line, hline, rfl⟩ := List.mem_map.mp hpiece
    exact (indented_indentLine indent line).not_mem hindent (hlines line (List.mem_cons_of_mem first hline))

theorem expand_nil (s : Snippet) : s.expand [] = s.body := by
  obtain ⟨first, later, hbody⟩ := s.exists_lines
  have hlater : later.map (indentLine []) = later := by
    rw [funext indentLine_nil]
    exact List.map_id later
  rw [expand, expandedLines_eq hbody, hlater, ← hbody, intercalate_splitOn]

theorem expand_expand (s : Snippet) {indent : Text} (hindent : '\n' ∉ indent) (indent' : Text) :
    ({ s with body := s.expand indent } : Snippet).expand indent' = s.expand (indent' ++ indent) := by
  obtain ⟨first, later, hbody⟩ := s.exists_lines
  have hexpanded : splitOn '\n' (s.expand indent) = first :: later.map (indentLine indent) := by
    rw [splitOn_expand s hindent, expandedLines_eq hbody]
  have hboth : (later.map (indentLine indent)).map (indentLine indent') =
      later.map (indentLine (indent' ++ indent)) := by
    rw [List.map_map]
    exact List.map_congr_left fun line _ => indentLine_indentLine indent indent' line
  rw [expand, expandedLines_eq hexpanded, hboth, expand, expandedLines_eq hbody]

theorem body_eq_of_expand_eq {s s' : Snippet} {indent : Text} (hindent : '\n' ∉ indent)
    (h : s.expand indent = s'.expand indent) : s.body = s'.body := by
  obtain ⟨first, later, hbody⟩ := s.exists_lines
  obtain ⟨first', later', hbody'⟩ := s'.exists_lines
  have hlines := congrArg (splitOn '\n') h
  rw [splitOn_expand s hindent, splitOn_expand s' hindent, expandedLines_eq hbody,
    expandedLines_eq hbody', List.cons.injEq] at hlines
  obtain ⟨rfl, hmap⟩ := hlines
  obtain rfl := List.map_injective_iff.mpr (indentLine_injective indent) hmap
  rw [← intercalate_splitOn '\n' s.body, hbody, ← hbody', intercalate_splitOn]

theorem movedIn_indentLine {indent : Text} (h : ∀ c ∈ indent, c = ' ' ∨ c = '\t') (first : Text)
    (later : List Text) :
    MovedIn indent (first :: later) (first :: later.map (indentLine indent)) := by
  have hlater (i : Nat) {line : Text} (hline : later[i]? = some line) :
      (later.map (indentLine indent))[i]? = some (indentLine indent line) := by
    rw [List.getElem?_map, hline, Option.map_some]
  have hdeeper {line : Text} (hfilled : isBlank line = false) :
      indentation (indentLine indent line) = indentation line + indent.length := by
    rw [indentLine_of_not_blank hfilled, indentation_append h]
  refine ⟨by simp, rfl, ?_, ?_, ?_⟩
  · intro i line hline hblank
    cases i with
    | zero => exact hline
    | succ i => rw [List.getElem?_cons_succ, hlater i hline, indentLine_of_blank hblank]
  · intro i line hline hfilled
    exact ⟨_, hlater i hline, indentLine_of_not_blank hfilled indent, hdeeper hfilled⟩
  · intro i j line other line' other' hfilled hfilled' hline hother hline' hother'
    rw [List.getElem?_cons_succ, hlater i hline, Option.some.injEq] at hline'
    rw [List.getElem?_cons_succ, hlater j hother, Option.some.injEq] at hother'
    rw [← hline', ← hother', hdeeper hfilled, hdeeper hfilled']
    omega

/-- Indentations of spaces and tabs act on bodies: one after the other is both at once, none
leaves the body, and no two bodies become the same. The lines stay what they are but for
those after the first that are not blank, which all move in by the same. -/
theorem expand_isAction (s : Snippet) {indent : Text} (h : ∀ c ∈ indent, c = ' ' ∨ c = '\t')
    (indent' : Text) :
    ({ s with body := s.expand indent } : Snippet).expand indent' = s.expand (indent' ++ indent) ∧
      s.expand [] = s.body ∧
      MovedIn indent (splitOn '\n' s.body) (splitOn '\n' (s.expand indent)) ∧
      ∀ other : Snippet, other.body ≠ s.body → other.expand indent ≠ s.expand indent := by
  have hindent : '\n' ∉ indent := fun hmem => by simpa using h '\n' hmem
  refine ⟨expand_expand s hindent indent', expand_nil s, ?_, ?_⟩
  · obtain ⟨first, later, hbody⟩ := s.exists_lines
    rw [splitOn_expand s hindent, expandedLines_eq hbody, hbody]
    exact movedIn_indentLine h first later
  · exact fun other => mt (body_eq_of_expand_eq hindent)

/-- The blank line in the body has a space on it, and the line behind it a tab before its text. -/
theorem expand_isAction_tab :
    let s : Snippet :=
      { name := "x".toList, label := "x".toList, body := "- a:\n    b: 1\n \n\tc: 2".toList }
    let indent : Text := [' ', ' ']
    let moved := "- a:\n      b: 1\n \n  \tc: 2".toList
    (∀ c ∈ indent, c = ' ' ∨ c = '\t') ∧ s.expand indent = moved ∧
      ({ s with body := moved } : Snippet).expand ['\t'] = s.expand ['\t', ' ', ' '] ∧
      MovedIn indent (splitOn '\n' s.body) (splitOn '\n' moved) := by
  intro s indent moved
  have hindent : ∀ c ∈ indent, c = ' ' ∨ c = '\t' := by simp [indent]
  have hmoved : s.expand indent = moved := by decide +kernel
  obtain ⟨hboth, -, hlines, -⟩ := expand_isAction s hindent ['\t']
  rw [hmoved] at hboth hlines
  exact ⟨hindent, hmoved, hboth, hlines⟩

end ConfigAssist.Snippet
