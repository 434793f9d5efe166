import ConfigAssist.Proofs.Suggest.Validity
import ConfigAssist.Suggest.Builtin

/-! The schema that is built in. Its table is valid, so checking the table gives it. -/

namespace ConfigAssist

open Text

namespace Builtin

-- a literal is the text of its characters, and these need not be decoded to be seen
theorem isBlank_row {text : Text} (h : isBlank text = false) (description : String) :
    isBlank (row (String.ofList text) description).text = false := by
  rw [row, String.toList_ofList]
  exact h

theorem isBlank_snippetRow {first : Text} (h : isBlank first = false) (name label description : String)
    (rest : List String) :
    isBlank (snippetRow name label description (String.ofList first :: rest)).body = false := by
  cases rest with
  | nil => simpa [snippetRow] using h
  | cons line rest => simp [snippetRow, List.intercalate_cons_cons, isBlank_append, h]

theorem isBlank_rows (pool : Pool) : ∀ r ∈ rows pool, isBlank r.text = false := by
  cases pool <;>
    simp only [rows, domains, automationKeys, automationModes, triggers, conditions, services,
      actionKeys, commonKeys, escapeTags, sensorPlatforms]
  all_goals
    repeat refine List.forall_mem_cons.mpr ⟨isBlank_row rfl _, ?_⟩
    exact List.forall_mem_nil _

theorem isBlank_snippets : ∀ r ∈ snippets, isBlank r.body = false := by
  unfold snippets
  repeat refine List.forall_mem_cons.mpr ⟨isBlank_snippetRow rfl _ _ _ _, ?_⟩
  exact List.forall_mem_nil _

theorem valid_table : table.Valid where
  sentinel := Table.isIdentifier_iff.mp (by decide)
  rows := isBlank_rows
  names := by decide +kernel
  bodies := isBlank_snippets
  distinct := by decide +kernel

end Builtin

theorem Schema.check_builtin : Builtin.table.check = .ok builtin :=
  Table.check_eq_ok_iff.mpr ⟨Table.fault?_eq_none_iff_valid.mpr Builtin.valid_table, rfl⟩

end ConfigAssist
