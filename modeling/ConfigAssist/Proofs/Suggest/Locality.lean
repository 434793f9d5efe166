import ConfigAssist.Proofs.Suggest.Ancestors
import ConfigAssist.Proofs.Suggest.WellFormed
import ConfigAssist.Proofs.Text.Run

/-! What an offer depends on: the text before the cursor, the indentation of its line, and
the lines above it in its block. A block begins at a line that is neither blank nor
indented. The search for ancestors ends there, as no line is indented less. -/

namespace ConfigAssist

open Text

def isTopLevel (line : Text) : Bool := !isBlank line && Yaml.indentation line == 0

/-- The last row above a row whose line is at top level, or the first row. -/
def blockStart (lines : List Text) : Nat → Nat
  | 0 => 0
  | row + 1 => if lines[row]?.any isTopLevel then row else blockStart lines row

theorem le_blockStart {lines : List Text} {row i : Nat} (hi : i < row)
    (h : lines[i]?.any isTopLevel = true) : i ≤ blockStart lines row := by
  induction row with
  | zero => omega
  | succ row ih =>
    rw [blockStart]
    split
    · omega
    · rename_i hrow
      have hne : i ≠ row := by
        rintro rfl
        exact hrow h
      exact ih (by omega)

theorem blockStart_cases (lines : List Text) (row : Nat) :
    blockStart lines row = 0 ∨
      blockStart lines row < row ∧ lines[blockStart lines row]?.any isTopLevel = true := by
  induction row with
  | zero => exact .inl rfl
  | succ row ih =>
    rw [blockStart]
    split
    · rename_i hrow
      exact .inr ⟨Nat.lt_succ_self row, hrow⟩
    · exact ih.imp_right fun ⟨hlt, htop⟩ => ⟨Nat.lt_succ_of_lt hlt, htop⟩

def rows (lines : List Text) (first last : Nat) : List Text := (lines.take last).drop first

theorem rows_eq {lines lines' : List Text} {first last : Nat}
    (h : ∀ i, first ≤ i → i < last → lines[i]? = lines'[i]?) :
    rows lines first last = rows lines' first last := by
  apply List.ext_getElem?
  intro i
  rw [rows, rows, List.getElem?_drop, List.getElem?_drop, List.getElem?_take, List.getElem?_take]
  split
  · rename_i hlt
    exact h _ (Nat.le_add_right _ _) hlt
  · rfl

namespace Scope

theorem ancestors_append_topLevel {top : Text} (h : isTopLevel top = true) (indent : Nat)
    (near far : List Text) :
    ancestors indent (near ++ top :: far) = ancestors indent (near ++ [top]) := by
  induction near generalizing indent with
  | nil =>
    rw [isTopLevel, Bool.and_eq_true, Bool.not_eq_true', beq_iff_eq] at h
    obtain ⟨hblank, hzero⟩ := h
    -- behind the line at top level nothing is indented less
    by_cases hindent : indent = 0
    · rw [hindent, ancestors_zero, ancestors_zero]
    · simp [ancestors, hblank, hzero, hindent, ancestors_zero]
  | cons line near ih => simp only [List.cons_append, ancestors, ih]

theorem ancestors_rows {lines : List Text} {first row : Nat}
    (h : first = 0 ∨ first < row ∧ lines[first]?.any isTopLevel = true) (indent : Nat) :
    ancestors indent (lines.take row).reverse = ancestors indent (rows lines first row).reverse := by
  rcases h with rfl | ⟨hlt, htop⟩
  · rfl
  · obtain ⟨top, hfirst, htop⟩ := (Option.any_eq_true _ _).mp htop
    have hrows : rows lines first row = top :: rows lines (first + 1) row := by
      rw [rows, List.drop_eq_getElem?_toList_append, List.getElem?_take_of_lt hlt, hfirst]
      rfl
    have hsplit : (lines.take row).take first ++ rows lines first row = lines.take row :=
      List.take_append_drop _ _
    rw [← hsplit, hrows, List.reverse_append, List.reverse_cons, List.append_assoc]
    exact ancestors_append_topLevel htop indent _ _

/-- The lines above the block of a line have no part in its scope. -/
theorem ofLine_eq_of_block {lines lines' : List Text} {row : Nat} {line line' : Text}
    (hline : lines[row]? = some line) (hline' : lines'[row]? = some line')
    (hindent : Yaml.indentation line = Yaml.indentation line')
    (hblock : ∀ i, blockStart lines row ≤ i → i < row → lines[i]? = lines'[i]?) :
    ofLine lines row = ofLine lines' row := by
  have hstart := blockStart_cases lines row
  have hstart' : blockStart lines row = 0 ∨
      blockStart lines row < row ∧ lines'[blockStart lines row]?.any isTopLevel = true :=
    hstart.imp_right fun ⟨hlt, htop⟩ => ⟨hlt, hblock _ (Nat.le_refl _) hlt ▸ htop⟩
  simp only [ofLine, hline, hline', hindent, ancestors_rows hstart, ancestors_rows hstart',
    rows_eq hblock]

end Scope

/-- The colon of a trigger ends the indentation in front of it. -/
theorem takeWhile_isIndent_of_trigger {sentinel before name line : Text}
    (hword : lastWord before = sentinel ++ ':' :: name) (hline : before <+: line) :
    line.takeWhile Yaml.isIndent = before.takeWhile Yaml.isIndent := by
  have hcolon : ':' ∈ before := (lastWord_suffix before).subset (by simp [hword])
  exact takeWhile_eq_of_prefix hline hcolon (by decide)

theorem Offer.itemsFor_eq {schema : Schema} {known : List Entity} {lines lines' : List Text}
    {row : Nat} {line line' before : Text} {t : Typed} (ht : t.Recognized schema.sentinel before)
    (hline : before <+: line) (hline' : before <+: line')
    (hscope : Scope.ofLine lines row = Scope.ofLine lines' row) :
    itemsFor schema lines row line before known t =
      itemsFor schema lines' row line' before known t := by
  cases ht with
  | entity => rfl
  | tag => rfl
  | snippet hword =>
    simp only [itemsFor, takeWhile_isIndent_of_trigger hword hline,
      takeWhile_isIndent_of_trigger hword hline']
  | other => simp only [itemsFor, hscope]

/-- Two documents have the same offer where they agree on the text before the cursor, on the
indentation of its line, and on the lines above it down from the start of its block. -/
theorem offer_local (schema : Schema) (known : List Entity) {lines lines' : List Text}
    {row column column' : Nat} {line line' : Text}
    (hline : lines[row]? = some line) (hline' : lines'[row]? = some line')
    (hbefore : fit utf8 column line = fit utf8 column' line')
    (hindent : Yaml.indentation line = Yaml.indentation line')
    (hblock : ∀ i, blockStart lines row ≤ i → i < row → lines[i]? = lines'[i]?) :
    offer schema lines { line := row, column } known =
      offer schema lines' { line := row, column := column' } known := by
  have hscope := Scope.ofLine_eq_of_block hline hline' hindent hblock
  have hleft := fit_prefix utf8 column line
  have hright := fit_prefix utf8 column' line'
  rw [← hbefore] at hright
  have htyped := Typed.recognized_ofText schema.sentinel (fit utf8 column line)
  rw [offer_of_line hline, offer_of_line hline', ← hbefore,
    Offer.itemsFor_eq htyped hleft hright hscope]

/-- The documents differ above the block, behind the cursor, and below its line. -/
theorem offer_local_in_trigger :
    let schema : Schema :=
      { pool := fun | .triggers => [{ text := "platform: sun".toList, kind := .trigger }] | _ => []
        snippets := []
        sentinel := "snip".toList }
    let lines := ["script:", "automation:", "  trigger:", "", "    - pl"].map String.toList
    let lines' := ["  sensor:", "automation:", "  trigger:", "", "    - plé", "x:"].map String.toList
    let o := offer schema lines { line := 4, column := 20 } []
    fit utf8 20 "    - pl".toList = fit utf8 9 "    - plé".toList ∧
      blockStart lines 4 = 1 ∧ (∀ i, blockStart lines 4 ≤ i → i < 4 → lines[i]? = lines'[i]?) ∧
      o.items.map Suggestion.insert = ["platform: sun".toList] ∧
      o = offer schema lines' { line := 4, column := 9 } [] := by
  intro schema lines lines' o
  have hbefore : fit utf8 20 "    - pl".toList = fit utf8 9 "    - plé".toList := by decide
  have hstart : blockStart lines 4 = 1 := by decide
  have hblock : ∀ i, blockStart lines 4 ≤ i → i < 4 → lines[i]? = lines'[i]? := by
    intro i hle hlt
    rw [hstart] at hle
    have hi : i = 1 ∨ i = 2 ∨ i = 3 := by omega
    rcases hi with rfl | rfl | rfl <;> rfl
  exact ⟨hbefore, hstart, hblock, by decide +kernel,
    offer_local schema [] rfl rfl hbefore (by decide) hblock⟩

end ConfigAssist
