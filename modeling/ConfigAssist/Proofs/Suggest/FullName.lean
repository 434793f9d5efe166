import ConfigAssist.Proofs.Suggest.Trigger
import Mathlib.Data.List.Nodup

/-! Names of snippets that are typed in full. The snippet is offered if it is not crowded out
by those before it in the table whose names its own name begins. -/

namespace ConfigAssist

open Text

theorem mem_take_append_cons_iff {α : Type} [DecidableEq α] {a : α} {earlier later : List α} {n : Nat}
    (h : a ∉ earlier) : a ∈ (earlier ++ a :: later).take n ↔ earlier.length < n := by
  have hmem : a ∈ earlier ++ a :: later := List.mem_append_cons_self
  rw [List.mem_take_iff_idxOf_lt hmem, List.idxOf_append_of_notMem h, List.idxOf_cons_self,
    Nat.add_zero]

/-- Items of snippets with different names are different. -/
theorem Offer.mem_place_ofSnippet_iff {chosen table : List Snippet} {s : Snippet}
    (hnodup : (table.map Snippet.name).Nodup) (hchosen : chosen ⊆ table) (hs : s ∈ table) (indent : Text)
    (range : Range) :
    { ofSnippet indent s with range } ∈ (place (chosen.map (ofSnippet indent)) range).items ↔
      s ∈ chosen := by
  rw [place, List.map_map, List.mem_map]
  constructor
  · rintro ⟨r, hr, heq⟩
    have hdetail : some r.name = some s.name := congrArg Suggestion.detail heq
    rw [← List.inj_on_of_nodup_map hnodup (hchosen hr) hs (Option.some.inj hdetail)]
    exact hr
  · intro hmem
    exact ⟨s, hmem, rfl⟩

theorem offer_of_lone_trigger {schema : Schema} (hsentinel : Table.isIdentifier schema.sentinel = true)
    (known : List Entity) {name : Text} (hname : ∀ c ∈ name, IsNameChar c) {lines : List Text}
    {row : Nat} (hline : lines[row]? = some (schema.sentinel ++ ':' :: name)) :
    ∃ range, offer schema lines
        { line := row, column := size utf8 (schema.sentinel ++ ':' :: name) } known =
      .place (((schema.snippets.filter fun s => lower name <+: lower s.name).take 20).map
        (Offer.ofSnippet [])) range := by
  have hbefore : fit utf8 (size utf8 (schema.sentinel ++ ':' :: name))
      (schema.sentinel ++ ':' :: name) = [] ++ (schema.sentinel ++ ':' :: name) := by
    have hfit := fit_append utf8_pos (schema.sentinel ++ ':' :: name) []
    rwa [List.append_nil] at hfit
  exact ⟨_, offer_of_trigger hsentinel known hline (List.forall_mem_nil _) hname hbefore⟩

/-- Where nothing but the full name of a snippet is typed behind the sentinel, the snippet is
offered if and only if there are fewer than twenty before it in the table that the name begins. -/
theorem offer_full_name_iff {file : Text} {schema : Schema} (hschema : Schema.ofFile file = .ok schema)
    (known : List Entity) {earlier later : List Snippet} {s : Snippet}
    (hsnippets : schema.snippets = earlier ++ s :: later) (hname : ∀ c ∈ s.name, IsNameChar c)
    {lines : List Text} {row : Nat} (hline : lines[row]? = some (schema.sentinel ++ ':' :: s.name)) :
    let o := offer schema lines
      { line := row, column := size utf8 (schema.sentinel ++ ':' :: s.name) } known
    { Offer.ofSnippet [] s with range := o.replace } ∈ o.items ↔
      (earlier.countP fun r => lower s.name <+: lower r.name) < 20 := by
  intro o
  obtain ⟨hsentinel, hnodup⟩ := Schema.accepted_of_ofFile hschema
  obtain ⟨range, ho⟩ := offer_of_lone_trigger hsentinel known hname hline
  change o = _ at ho
  have hs : s ∈ schema.snippets := hsnippets ▸ List.mem_append_cons_self
  -- no name is used twice, so none before the snippet can be it
  have hearlier : s ∉ earlier := by
    have hdistinct := hnodup.of_map
    rw [hsnippets, List.nodup_append] at hdistinct
    exact fun hmem => hdistinct.2.2 s hmem s List.mem_cons_self rfl
  have hfitting : (schema.snippets.filter fun r => lower s.name <+: lower r.name) =
      (earlier.filter fun r => lower s.name <+: lower r.name) ++
        s :: later.filter fun r => lower s.name <+: lower r.name := by
    rw [hsnippets, List.filter_append, List.filter_cons_of_pos (by simp)]
  have hout : s ∉ earlier.filter fun r => lower s.name <+: lower r.name :=
    fun hmem => hearlier (List.mem_filter.mp hmem).1
  have hchosen : (schema.snippets.filter fun r => lower s.name <+: lower r.name).take 20 ⊆
      schema.snippets := List.Subset.trans (List.take_subset 20 _) (List.filter_subset_self _)
  have hplaced : { Offer.ofSnippet [] s with range := o.replace } ∈ o.items ↔
      s ∈ (schema.snippets.filter fun r => lower s.name <+: lower r.name).take 20 := by
    rw [ho]
    exact Offer.mem_place_ofSnippet_iff hnodup hchosen hs [] _
  rw [hplaced, hfitting, mem_take_append_cons_iff hout, ← List.countP_eq_length_filter]

/-- Names that differ only in case begin each other. -/
theorem offer_full_name_other_case :
    let file := ("snippets=[[\"ab\",\"\",\"x\",\"\"],[\"A\",\"\",\"y\",\"\"]," ++
      "[\"a\",\"\",\"z\",\"\"]]").toList
    let s : Snippet :=
      { name := "a".toList, label := "a".toList, body := "z".toList, description := some [] }
    ∃ schema, Schema.ofFile file = .ok schema ∧ (∀ c ∈ s.name, IsNameChar c) ∧
      let line := schema.sentinel ++ ':' :: s.name
      let o := offer schema [line] { line := 0, column := size utf8 line } []
      line = "snip:a".toList ∧ s ∈ schema.snippets ∧
        { Offer.ofSnippet [] s with range := o.replace } ∈ o.items := by
  intro file s
  have hread : (Schema.ofFile file).toOption.map (fun s => (s.sentinel, s.snippets)) =
      some ("snip".toList,
        [{ name := "ab".toList, label := "ab".toList, body := "x".toList, description := some [] },
          { name := "A".toList, label := "A".toList, body := "y".toList, description := some [] }] ++
            s :: []) := by
    decide +kernel
  obtain ⟨schema, hschema, hsentinel, hsnippets⟩ := Schema.exists_of_read hread
  have hname : ∀ c ∈ s.name, IsNameChar c := isNameChar_of_all (by decide)
  have hline : [schema.sentinel ++ ':' :: s.name][0]? = some (schema.sentinel ++ ':' :: s.name) := rfl
  have hoffered := (offer_full_name_iff hschema [] hsnippets hname hline).mpr (by decide)
  have htyped : schema.sentinel ++ ':' :: s.name = "snip:a".toList := by
    rw [hsentinel]
    rfl
  exact ⟨schema, hschema, hname, htyped, hsnippets ▸ List.mem_append_cons_self, hoffered⟩

/-- A table in which twenty snippets stand before the one whose name begins all of theirs. -/
def crowdedFile : Text :=
  "snippets=[".toList ++
    ("abcdefghijklmnopqrst".toList.flatMap fun c =>
      "[\"a".toList ++ c :: "\",\"\",\"x\",\"\"],".toList) ++
    "[\"a\",\"\",\"x\",\"\"]]".toList

def crowdedSnippets : List Snippet :=
  (("abcdefghijklmnopqrst".toList.map fun c => ['a', c]) ++ [['a']]).map fun name =>
    { name, label := name, body := ['x'], description := some [] }

theorem read_crowdedFile :
    (Schema.ofFile crowdedFile).toOption.map (fun s => (s.sentinel, s.snippets)) =
      some ("snip".toList, crowdedSnippets) := by
  decide +kernel

/-- A snippet may not be offered where its full name is typed. -/
theorem not_offer_full_name :
    ¬ ∀ (file : Text) (schema : Schema), Schema.ofFile file = .ok schema → ∀ s ∈ schema.snippets,
      (∀ c ∈ s.name, IsNameChar c) → ∀ known,
        let line := schema.sentinel ++ ':' :: s.name
        ∃ item ∈ (offer schema [line] { line := 0, column := size utf8 line } known).items,
          item.kind = .snippet ∧ item.detail = some s.name := by
  intro h
  obtain ⟨schema, hschema, -, hsnippets⟩ := Schema.exists_of_read read_crowdedFile
  obtain ⟨s, hs, hsname⟩ : ∃ s ∈ schema.snippets, s.name = ['a'] := by
    rw [hsnippets]
    decide
  have hname : ∀ c ∈ s.name, IsNameChar c := by
    rw [hsname]
    exact isNameChar_of_all (by decide)
  obtain ⟨item, hitem, -, hdetail⟩ := h crowdedFile schema hschema s hs hname []
  have hline : [schema.sentinel ++ ':' :: s.name][0]? = some (schema.sentinel ++ ':' :: s.name) := rfl
  obtain ⟨range, ho⟩ :=
    offer_of_lone_trigger (Schema.accepted_of_ofFile hschema).1 [] hname hline
  rw [ho, Offer.place, List.map_map, hsnippets, hsname] at hitem
  obtain ⟨r, hr, rfl⟩ := List.mem_map.mp hitem
  have hother : ∀ r ∈ (crowdedSnippets.filter fun r => lower ['a'] <+: lower r.name).take 20,
      r.name ≠ ['a'] := by decide
  exact hother r hr ((Option.some.inj hdetail).trans hsname)

end ConfigAssist
