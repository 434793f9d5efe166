import ConfigAssist.Proofs.Suggest.Typed
import ConfigAssist.Suggest.TableFile

/-! How a table is checked. What comes before the fault that is found is sound. So the
sentinel of an accepted table is an identifier, and no two snippets of it have the same name. -/

namespace ConfigAssist

open Text

namespace Table

theorem isNameChar_of_isIdentifier {t : Text} (h : isIdentifier t = true) :
    t ≠ [] ∧ ∀ c ∈ t, IsNameChar c := by
  cases t with
  | nil => cases h
  | cons c cs =>
    simp only [isIdentifier, Bool.and_eq_true, Bool.or_eq_true, beq_iff_eq, List.all_eq_true] at h
    obtain ⟨hfirst, hrest⟩ := h
    refine ⟨List.cons_ne_nil c cs, ?_⟩
    intro d hd
    rcases List.mem_cons.mp hd with rfl | hd
    · rcases hfirst with halpha | hunder
      · exact .inl (by simp [Char.isAlphanum, halpha])
      · exact .inr (.inl hunder)
    · exact (hrest d hd).imp_right .inl

theorem rowFault?_eq_none_iff {pool : Pool} {index : Nat} {rows : List Row} :
    rowFault? pool index rows = none ↔ ∀ r ∈ rows, isBlank r.text = false := by
  induction rows generalizing index with
  | nil => simp [rowFault?]
  | cons r rows ih =>
    rw [rowFault?, List.forall_mem_cons]
    split
    · rename_i hblank
      simp [hblank]
    · rename_i hblank
      rw [ih, and_iff_right (Bool.not_eq_true _ ▸ hblank)]

theorem rowFault?_eq_some {pool : Pool} {index : Nat} {rows : List Row} {e : SchemaError}
    (h : rowFault? pool index rows = some e) :
    ∃ filled r rest, rows = filled ++ r :: rest ∧ (∀ q ∈ filled, isBlank q.text = false) ∧
      isBlank r.text = true ∧ e = .emptyText pool (index + filled.length) := by
  induction rows generalizing index with
  | nil => cases h
  | cons r rows ih =>
    rw [rowFault?] at h
    split at h
    · rename_i hblank
      exact ⟨[], r, rows, rfl, List.forall_mem_nil _, hblank, (Option.some.inj h).symm⟩
    · rename_i hblank
      obtain ⟨filled, q, rest, rfl, hfilled, hq, rfl⟩ := ih h
      refine ⟨r :: filled, q, rest, rfl, ?_, hq, ?_⟩
      · exact List.forall_mem_cons.mpr ⟨Bool.not_eq_true _ ▸ hblank, hfilled⟩
      · rw [List.length_cons, Nat.add_assoc, Nat.add_comm 1]

theorem snippetFault?_eq_none_iff {seen : List Text} {index : Nat} {rows : List SnippetRow} :
    snippetFault? seen index rows = none ↔
      (∀ r ∈ rows, r.key ≠ [] ∧ isBlank r.content = false ∧ r.key ∉ seen) ∧
        (rows.map SnippetRow.key).Nodup := by
  induction rows generalizing seen index with
  | nil => simp [snippetFault?]
  | cons r rows ih =>
    rw [snippetFault?, List.map_cons, List.nodup_cons, List.forall_mem_cons]
    by_cases hkey : r.key = []
    · simp [hkey]
    by_cases hcontent : isBlank r.content = true
    · simp [hkey, hcontent]
    by_cases hseen : r.key ∈ seen
    · simp [hkey, hcontent, hseen]
    have hhead : r.key ≠ [] ∧ isBlank r.content = false ∧ r.key ∉ seen :=
      ⟨hkey, Bool.not_eq_true _ ▸ hcontent, hseen⟩
    rw [if_neg (by simpa using hkey), if_neg hcontent, if_neg (by simpa using hseen), ih]
    constructor
    · rintro ⟨hrows, hnodup⟩
      refine ⟨⟨hhead, ?_⟩, ?_, hnodup⟩
      · intro q hq
        obtain ⟨hname, hbody, hnew⟩ := hrows q hq
        exact ⟨hname, hbody, fun hmem => hnew (List.mem_cons_of_mem _ hmem)⟩
      · intro hmem
        obtain ⟨q, hq, hqkey⟩ := List.mem_map.mp hmem
        exact (hrows q hq).2.2 (hqkey ▸ List.mem_cons_self)
    · rintro ⟨⟨-, hrows⟩, hnew, hnodup⟩
      refine ⟨?_, hnodup⟩
      intro q hq
      obtain ⟨hname, hbody, hqseen⟩ := hrows q hq
      refine ⟨hname, hbody, ?_⟩
      intro hmem
      rcases List.mem_cons.mp hmem with hqkey | hmem
      · exact hnew (List.mem_map.mpr ⟨q, hq, hqkey⟩)
      · exact hqseen hmem

/-- What is wrong with a snippet, where some names stand before it. -/
inductive SnippetRow.Faulty (seen : List Text) (index : Nat) (r : SnippetRow) : SchemaError → Prop
  | unnamed (hname : r.key = []) : Faulty seen index r (.unnamedSnippet index)
  | empty (hname : r.key ≠ []) (hbody : isBlank r.content = true) :
      Faulty seen index r (.emptyBody r.key)
  | repeated (hname : r.key ≠ []) (hbody : isBlank r.content = false) (hseen : r.key ∈ seen) :
      Faulty seen index r (.duplicateSnippet r.key)

theorem snippetFault?_eq_some {seen : List Text} {index : Nat} {rows : List SnippetRow}
    {e : SchemaError} (h : snippetFault? seen index rows = some e) :
    ∃ sound r rest, rows = sound ++ r :: rest ∧ snippetFault? seen index sound = none ∧
      r.Faulty ((sound.map SnippetRow.key).reverse ++ seen) (index + sound.length) e := by
  induction rows generalizing seen index with
  | nil => cases h
  | cons r rows ih =>
    rw [snippetFault?] at h
    split_ifs at h with hname hbody hseen
    · obtain rfl := Option.some.inj h
      exact ⟨[], r, rows, rfl, rfl, .unnamed (List.isEmpty_iff.mp hname)⟩
    · obtain rfl := Option.some.inj h
      exact ⟨[], r, rows, rfl, rfl, .empty (by simpa using hname) hbody⟩
    · obtain rfl := Option.some.inj h
      refine ⟨[], r, rows, rfl, rfl, .repeated (by simpa using hname) ?_ (by simpa using hseen)⟩
      exact Bool.not_eq_true _ ▸ hbody
    · obtain ⟨sound, q, rest, rfl, hsound, hq⟩ := ih h
      refine ⟨r :: sound, q, rest, rfl, ?_, ?_⟩
      · simp only [snippetFault?, hname, hbody, hseen, hsound]
        rfl
      · simpa [Nat.add_comm 1, Nat.add_assoc] using hq

theorem fault?_eq_none_iff {t : Table} :
    t.fault? = none ↔ isIdentifier t.word = true ∧
      (∀ p ∈ Pool.all, rowFault? p 0 (t.rows p) = none) ∧ snippetFault? [] 0 t.snippets = none := by
  unfold fault?
  split
  · rename_i hword
    simp [hword, List.findSome?_eq_none_iff]
  · rename_i hword
    simp [hword]

theorem check_eq_ok_iff {t : Table} {schema : Schema} :
    t.check = .ok schema ↔ t.fault? = none ∧ t.schema = schema := by
  unfold check
  cases t.fault? with
  | none => simp
  | some e => simp

theorem check_eq_error_iff {t : Table} {e : SchemaError} :
    t.check = .error e ↔ t.fault? = some e := by
  unfold check
  cases t.fault? with
  | none => simp
  | some e' => simp

end Table

theorem Schema.accepted_of_ofFile {file : Text} {schema : Schema} (h : Schema.ofFile file = .ok schema) :
    Table.isIdentifier schema.sentinel = true ∧ (schema.snippets.map Snippet.name).Nodup := by
  unfold Schema.ofFile at h
  split at h
  · cases h
  · rename_i t _
    obtain ⟨hfault, rfl⟩ := Table.check_eq_ok_iff.mp h
    obtain ⟨hword, -, hsnippets⟩ := Table.fault?_eq_none_iff.mp hfault
    have hnames : t.schema.snippets.map Snippet.name = t.snippets.map Table.SnippetRow.key := by
      rw [Table.schema, List.map_map]
      rfl
    rw [hnames]
    exact ⟨hword, (Table.snippetFault?_eq_none_iff.mp hsnippets).2⟩

/-- A file whose sentinel and snippets can be read holds a schema with them. -/
theorem Schema.exists_of_read {file sentinel : Text} {snippets : List Snippet}
    (h : (Schema.ofFile file).toOption.map (fun s => (s.sentinel, s.snippets)) =
      some (sentinel, snippets)) :
    ∃ schema, Schema.ofFile file = .ok schema ∧ schema.sentinel = sentinel ∧
      schema.snippets = snippets := by
  obtain ⟨schema, hschema, hparts⟩ := Option.map_eq_some_iff.mp h
  obtain ⟨rfl, rfl⟩ := Prod.mk.inj hparts
  cases hfile : Schema.ofFile file with
  | error e =>
    rw [hfile] at hschema
    cases hschema
  | ok schema' =>
    rw [hfile] at hschema
    obtain rfl := Option.some.inj hschema
    exact ⟨schema', rfl, rfl, rfl⟩

end ConfigAssist
