import ConfigAssist.Proofs.Suggest.Table
import ConfigAssist.Proofs.Text.Blank
import ConfigAssist.Proofs.Text.Bytes
import Mathlib.Data.List.Lex
import Mathlib.Data.List.Nodup

/-! Validity of tables. A table can fail many of its checks at once. It is accepted if it
fails none of them, and otherwise the error is that of the check that comes first. -/

namespace ConfigAssist.Table

open Text

def IsLetter (c : Char) : Prop := ('a' ≤ c ∧ c ≤ 'z') ∨ ('A' ≤ c ∧ c ≤ 'Z')

def IsDigit (c : Char) : Prop := '0' ≤ c ∧ c ≤ '9'

/-- Letters, digits and underscores of ASCII, the first one no digit. -/
def IsIdentifier (t : Text) : Prop :=
  ∃ c cs, t = c :: cs ∧ (IsLetter c ∨ c = '_') ∧ ∀ d ∈ cs, IsLetter d ∨ IsDigit d ∨ d = '_'

/-- What a table must be to be accepted. -/
structure Valid (t : Table) : Prop where
  sentinel : IsIdentifier (t.sentinel.getD "snip".toList)
  rows : ∀ pool, ∀ r ∈ t.rows pool, isBlank r.text = false
  names : ∀ r ∈ t.snippets, trim r.name ≠ []
  bodies : ∀ r ∈ t.snippets, isBlank r.body = false
  distinct : (t.snippets.map fun r => trim r.name).Nodup

inductive Check where
  | sentinel
  | row (pool : Pool) (index : Nat)
  | name (index : Nat)
  | body (index : Nat)
  | repetition (index : Nat)

/-- Checks are numbered like the sections of a text, and that is their order. -/
def Check.number : Check → List Nat
  | sentinel => [0]
  | row pool index => [1, Pool.all.idxOf pool, index]
  | name index => [2, index, 0]
  | body index => [2, index, 1]
  | repetition index => [2, index, 2]

/-- A check that a table fails, and the error that says so. -/
inductive Fails (t : Table) : Check → SchemaError → Prop
  | sentinel (hword : ¬ IsIdentifier (t.sentinel.getD "snip".toList)) :
      Fails t .sentinel (.invalidSentinel (t.sentinel.getD "snip".toList))
  | row {pool : Pool} {index : Nat} {r : Row} (hr : (t.rows pool)[index]? = some r)
      (hblank : isBlank r.text = true) : Fails t (.row pool index) (.emptyText pool index)
  | name {index : Nat} {r : SnippetRow} (hr : t.snippets[index]? = some r) (hname : trim r.name = []) :
      Fails t (.name index) (.unnamedSnippet index)
  | body {index : Nat} {r : SnippetRow} (hr : t.snippets[index]? = some r)
      (hbody : isBlank r.body = true) : Fails t (.body index) (.emptyBody (trim r.name))
  | repetition {index earlier : Nat} {r q : SnippetRow} (hr : t.snippets[index]? = some r)
      (hq : t.snippets[earlier]? = some q) (hearlier : earlier < index) (hname : trim q.name = trim r.name) :
      Fails t (.repetition index) (.duplicateSnippet (trim r.name))

/-- The error of the check that fails and has no other one that fails before it. -/
def IsFirstFault (t : Table) (e : SchemaError) : Prop :=
  ∃ c, t.Fails c e ∧ ∀ c' e', t.Fails c' e' → ¬ c'.number < c.number

theorem isIdentifier_iff {t : Text} : isIdentifier t = true ↔ IsIdentifier t := by
  have hletter (c : Char) : c.isAlpha = true ↔ IsLetter c :=
    Bool.or_eq_true_iff.trans ((or_congr isUpper_iff isLower_iff).trans or_comm)
  have hdigit (c : Char) : c.isDigit = true ↔ IsDigit c := isDigit_iff
  cases t with
  | nil => simp [isIdentifier, IsIdentifier]
  | cons c cs => simp [isIdentifier, IsIdentifier, Char.isAlphanum, hletter, hdigit, or_assoc]

namespace Check

variable {c : Check} {index : Nat}

theorem number_injective : Function.Injective number := by
  intro c c' h
  cases c with
  | row pool index =>
    cases c' with
    | row pool' index' =>
      simp only [number, List.cons.injEq, true_and, and_true] at h
      obtain rfl := (List.idxOf_inj (Pool.mem_all pool)).mp h.1
      rw [h.2]
    | _ => simp [number] at h
  | _ => cases c' <;> simp_all [number]

theorem number_row_lt_iff {pool pool' : Pool} {index index' : Nat} :
    (row pool index).number < (row pool' index').number ↔
      Pool.all.idxOf pool < Pool.all.idxOf pool' ∨ pool = pool' ∧ index < index' := by
  simp [number, List.cons_lt_cons_iff, List.idxOf_inj (Pool.mem_all pool)]

theorem number_lt_name_iff : c.number < (name index).number ↔ c.number < [2, index] := by
  cases c <;> simp [number, List.cons_lt_cons_iff]

theorem number_lt_body_iff :
    c.number < (body index).number ↔ c.number < [2, index] ∨ c = name index := by
  cases c <;> simp [number, List.cons_lt_cons_iff]

theorem number_lt_repetition_iff : c.number < (repetition index).number ↔
    c.number < [2, index] ∨ c = name index ∨ c = body index := by
  cases c <;> simp [number, List.cons_lt_cons_iff]

end Check

theorem SnippetRow.isBlank_content (r : SnippetRow) : isBlank r.content = isBlank r.body := by
  obtain ⟨⟨tail, hsplit, hends⟩, -⟩ := isFront_trimEndWith (fun c => c == '\n' || c == '\r') r.body
  have htail : isBlank tail = true := by
    rw [isBlank_iff]
    intro c hc
    have hend : c = '\n' ∨ c = '\r' := by simpa using hends c hc
    rcases hend with rfl | rfl
    · rfl
    · rfl
  change r.body = r.content ++ tail at hsplit
  rw [hsplit, isBlank_append, htail, Bool.and_true]

theorem fault?_eq_none_iff_valid {t : Table} : t.fault? = none ↔ t.Valid := by
  simp only [fault?_eq_none_iff, rowFault?_eq_none_iff, snippetFault?_eq_none_iff, isIdentifier_iff,
    SnippetRow.isBlank_content]
  constructor
  · rintro ⟨hword, hrows, hsnippets, hdistinct⟩
    exact ⟨hword, fun pool => hrows pool (Pool.mem_all pool), fun r hr => (hsnippets r hr).1,
      fun r hr => (hsnippets r hr).2.1, hdistinct⟩
  · rintro ⟨hword, hrows, hnames, hbodies, hdistinct⟩
    exact ⟨hword, fun pool _ => hrows pool, fun r hr => ⟨hnames r hr, hbodies r hr, List.not_mem_nil⟩,
      hdistinct⟩

section

variable {t : Table} {c : Check} {e : SchemaError}

theorem Valid.not_fails (hvalid : t.Valid) : ¬ t.Fails c e := by
  intro h
  cases h with
  | sentinel hword => exact hword hvalid.sentinel
  | row hr hblank => cases hblank.symm.trans (hvalid.rows _ _ (List.mem_of_getElem? hr))
  | name hr hname => exact hvalid.names _ (List.mem_of_getElem? hr) hname
  | body hr hbody => cases hbody.symm.trans (hvalid.bodies _ (List.mem_of_getElem? hr))
  | @repetition index earlier r q hr hq hearlier hname =>
    have hlength : index < (t.snippets.map fun r => trim r.name).length := by
      rw [List.length_map]
      exact (List.getElem?_eq_some_iff.mp hr).1
    apply List.nodup_iff_getElem?_ne_getElem?.mp hvalid.distinct earlier index hearlier hlength
    rw [List.getElem?_map, List.getElem?_map, hr, hq]
    exact congrArg some hname

theorem Fails.unique {e' : SchemaError} (h : t.Fails c e) (h' : t.Fails c e') : e = e' := by
  cases h <;> cases h' <;> simp_all

/-- A check that comes before those of some snippets does not look at them. -/
theorem Fails.shorten {front rest : List SnippetRow} (hsnippets : t.snippets = front ++ rest)
    (h : t.Fails c e) (hbefore : c.number < [2, front.length]) :
    ({ t with snippets := front } : Table).Fails c e := by
  have hnumber {index aspect : Nat} (hlt : [2, index, aspect] < [2, front.length]) :
      index < front.length := by
    simpa [List.cons_lt_cons_iff] using hlt
  have hfront {index : Nat} (hlt : index < front.length) : t.snippets[index]? = front[index]? := by
    rw [hsnippets, List.getElem?_append_left hlt]
  cases h with
  | sentinel hword => exact .sentinel hword
  | row hr hblank => exact .row hr hblank
  | name hr hname => exact .name (hfront (hnumber hbefore) ▸ hr) hname
  | body hr hbody => exact .body (hfront (hnumber hbefore) ▸ hr) hbody
  | repetition hr hq hearlier hname =>
    have hlt := hnumber hbefore
    exact .repetition (hfront hlt ▸ hr) (hfront (hearlier.trans hlt) ▸ hq) hearlier hname

theorem IsFirstFault.unique {e' : SchemaError} (h : t.IsFirstFault e) (h' : t.IsFirstFault e') :
    e = e' := by
  obtain ⟨c, hfails, hfirst⟩ := h
  obtain ⟨c', hfails', hfirst'⟩ := h'
  have hnumber := le_antisymm (not_lt.mp (hfirst c' e' hfails')) (not_lt.mp (hfirst' c e hfails))
  obtain rfl := Check.number_injective hnumber
  exact hfails.unique hfails'

theorem isFirstFault_of_rows (hword : IsIdentifier (t.sentinel.getD "snip".toList))
    (h : (Pool.all.findSome? fun pool => rowFault? pool 0 (t.rows pool)) = some e) :
    t.IsFirstFault e := by
  obtain ⟨pools, pool, later, hall, hrow, hpools⟩ := List.findSome?_eq_some_iff.mp h
  obtain ⟨filled, r, rest, hrows, hfilled, hblank, rfl⟩ := rowFault?_eq_some hrow
  have hr : (t.rows pool)[filled.length]? = some r := by
    rw [hrows]
    simp
  rw [Nat.zero_add]
  refine ⟨_, .row hr hblank, ?_⟩
  intro c e hfails
  cases hfails with
  | sentinel hnot => exact absurd hword hnot
  | @row pool' index r' hr' hblank' =>
    -- no pool before this one has a row without a text
    have hpool : pool ∉ pools := by
      intro hmem
      cases hrow.symm.trans (hpools pool hmem)
    have hpool' : pool' ∉ pools := by
      intro hmem
      have hfull := rowFault?_eq_none_iff.mp (hpools pool' hmem) r' (List.mem_of_getElem? hr')
      cases hblank'.symm.trans hfull
    rw [Check.number_row_lt_iff]
    rintro (hlt | ⟨rfl, hlt⟩)
    · rw [hall, List.idxOf_append_of_notMem hpool, List.idxOf_append_of_notMem hpool',
        List.idxOf_cons_self] at hlt
      omega
    · rw [hrows, List.getElem?_append_left hlt] at hr'
      cases hblank'.symm.trans (hfilled r' (List.mem_of_getElem? hr'))
  | _ => simp [Check.number, List.cons_lt_cons_iff]

theorem isFirstFault_of_snippets (hword : IsIdentifier (t.sentinel.getD "snip".toList))
    (hrows : ∀ pool, ∀ r ∈ t.rows pool, isBlank r.text = false)
    (h : snippetFault? [] 0 t.snippets = some e) : t.IsFirstFault e := by
  obtain ⟨sound, r, rest, hsnippets, hsound, hfaulty⟩ := snippetFault?_eq_some h
  rw [List.append_nil, Nat.zero_add] at hfaulty
  have hr : t.snippets[sound.length]? = some r := by
    rw [hsnippets]
    simp
  -- with only the snippets before the faulty one the table would be valid
  have hvalid : ({ t with snippets := sound } : Table).Valid := by
    refine fault?_eq_none_iff_valid.mp (fault?_eq_none_iff.mpr ⟨isIdentifier_iff.mpr hword, ?_, hsound⟩)
    exact fun pool _ => rowFault?_eq_none_iff.mpr (hrows pool)
  have hbefore {c : Check} {e : SchemaError} (hfails : t.Fails c e) : ¬ c.number < [2, sound.length] :=
    fun hlt => hvalid.not_fails (hfails.shorten hsnippets hlt)
  have hnamed (hname : r.key ≠ []) {e : SchemaError} : ¬ t.Fails (.name sound.length) e := by
    intro hfails
    cases hfails with
    | name hr' hempty =>
      obtain rfl := Option.some.inj (hr.symm.trans hr')
      exact hname hempty
  cases hfaulty with
  | unnamed hname =>
    refine ⟨_, .name hr hname, ?_⟩
    intro c e hfails
    rw [Check.number_lt_name_iff]
    exact hbefore hfails
  | empty hname hbody =>
    refine ⟨_, .body hr (r.isBlank_content ▸ hbody), ?_⟩
    intro c e hfails
    rw [Check.number_lt_body_iff]
    rintro (hlt | rfl)
    · exact hbefore hfails hlt
    · exact hnamed hname hfails
  | repeated hname hbody hseen =>
    obtain ⟨q, hq, hqname⟩ := List.mem_map.mp (List.mem_reverse.mp hseen)
    obtain ⟨earlier, hearlier, rfl⟩ := List.mem_iff_getElem.mp hq
    have hq : t.snippets[earlier]? = some sound[earlier] := by
      rw [hsnippets, List.getElem?_append_left hearlier, List.getElem?_eq_getElem]
    refine ⟨_, .repetition hr hq hearlier hqname, ?_⟩
    intro c e hfails
    rw [Check.number_lt_repetition_iff]
    rintro (hlt | rfl | rfl)
    · exact hbefore hfails hlt
    · exact hnamed hname hfails
    · cases hfails with
      | body hr' hempty =>
        obtain rfl := Option.some.inj (hr.symm.trans hr')
        rw [SnippetRow.isBlank_content, hempty] at hbody
        cases hbody

theorem isFirstFault_of_fault? (h : t.fault? = some e) : t.IsFirstFault e := by
  unfold fault? at h
  split at h
  · rename_i hword
    have hword : IsIdentifier (t.sentinel.getD "snip".toList) := isIdentifier_iff.mp hword
    rw [Option.orElse_eq_orElse, Option.orElse_eq_or, Option.or_eq_some_iff] at h
    rcases h with hrow | ⟨hrows, hsnippet⟩
    · exact isFirstFault_of_rows hword hrow
    · refine isFirstFault_of_snippets hword ?_ hsnippet
      intro pool
      exact rowFault?_eq_none_iff.mp (List.findSome?_eq_none_iff.mp hrows pool (Pool.mem_all pool))
  · rename_i hword
    obtain rfl := Option.some.inj h
    refine ⟨_, .sentinel (mt isIdentifier_iff.mpr hword), ?_⟩
    intro c _ _
    cases c <;> simp [Check.number, List.cons_lt_cons_iff]

theorem fault?_eq_some_iff : t.fault? = some e ↔ t.IsFirstFault e := by
  constructor
  · exact isFirstFault_of_fault?
  · intro hfirst
    cases hfault : t.fault? with
    | none =>
      obtain ⟨c, hfails, -⟩ := hfirst
      exact absurd hfails (fault?_eq_none_iff_valid.mp hfault).not_fails
    | some e' => rw [hfirst.unique (isFirstFault_of_fault? hfault)]

end

/-- A row of a pool, and the candidate that it stands for. -/
structure Row.IsRead (pool : Pool) (r : Row) (e : Entry) : Prop where
  text : e.text = r.text
  kind : e.kind = pool.kind
  description : e.description = r.description

/-- A snippet in a table, and the snippet that it stands for. -/
structure SnippetRow.IsRead (r : SnippetRow) (s : Snippet) : Prop where
  name : IsCore r.name s.name
  body : IsFront (fun c => c == '\n' || c == '\r') r.body s.body
  labelled : ∀ label ∈ r.label, isBlank label = false → s.label = label
  unlabelled : (∀ label ∈ r.label, isBlank label = true) → s.label = s.name
  description : s.description = r.description

/-- A table, and the schema that it stands for. -/
structure IsRead (t : Table) (schema : Schema) : Prop where
  sentinel : schema.sentinel = t.sentinel.getD "snip".toList
  pools : ∀ pool, List.Forall₂ (Row.IsRead pool) (t.rows pool) (schema.pool pool)
  snippets : List.Forall₂ SnippetRow.IsRead t.snippets schema.snippets

theorem SnippetRow.isRead_snippet (r : SnippetRow) : r.IsRead r.snippet where
  name := isCore_trim r.name
  body := isFront_trimEndWith _ r.body
  labelled := by
    intro label hlabel hfilled
    simp [snippet, Option.mem_def.mp hlabel, Option.filter, hfilled]
  unlabelled := by
    intro hblank
    cases hlabel : r.label with
    | none => simp [snippet, hlabel]
    | some label => simp [snippet, hlabel, Option.filter, hblank label hlabel]
  description := rfl

theorem isRead_schema (t : Table) : t.IsRead t.schema where
  sentinel := rfl
  pools _ := List.forall₂_map_right_iff.mpr (List.forall₂_same.mpr fun _ _ => ⟨rfl, rfl, rfl⟩)
  snippets := List.forall₂_map_right_iff.mpr (List.forall₂_same.mpr fun r _ => r.isRead_snippet)

/-- A table is accepted if and only if it is valid, and the schema is then what stands in it.
Any other table is refused with the error of the first check that it fails. -/
theorem check_by_validity (t : Table) :
    ((∃ schema, t.check = .ok schema) ↔ t.Valid) ∧
      (∀ schema, t.check = .ok schema → t.IsRead schema) ∧
      (∀ e, t.check = .error e ↔ t.IsFirstFault e) ∧
      ∀ file, ofFile? file = some t → Schema.ofFile file = t.check := by
  refine ⟨?_, ?_, fun e => check_eq_error_iff.trans fault?_eq_some_iff, ?_⟩
  · simp only [check_eq_ok_iff, fault?_eq_none_iff_valid]
    simp
  · intro schema hschema
    obtain ⟨-, rfl⟩ := check_eq_ok_iff.mp hschema
    exact isRead_schema t
  · intro file hfile
    rw [Schema.ofFile, hfile]

/-- Three checks fail, and the first of them is that of the second trigger. -/
theorem check_by_validity_three_faults :
    let t : Table :=
      { sentinel := some "_s1".toList
        rows := fun
          | .triggers => [{ text := "sun".toList }, { text := " \t".toList }]
          | .services => [{ description := some "off".toList }]
          | _ => []
        snippets := [{ name := " ".toList, body := "x".toList }] }
    t.Fails (.name 0) (.unnamedSnippet 0) ∧ t.Fails (.row .services 0) (.emptyText .services 0) ∧
      t.check = .error (.emptyText .triggers 1) ∧ t.IsFirstFault (.emptyText .triggers 1) ∧ ¬ t.Valid := by
  intro t
  have hcheck : t.check = .error (.emptyText .triggers 1) := rfl
  obtain ⟨hvalid, -, hfirst, -⟩ := check_by_validity t
  refine ⟨.name rfl rfl, .row rfl rfl, hcheck, (hfirst _).mp hcheck, ?_⟩
  rw [← hvalid, hcheck]
  rintro ⟨_, h⟩
  cases h

end ConfigAssist.Table
