import ConfigAssist.Proofs.Color.Extent
import Mathlib.Data.List.Induction

/-! Opening braces inside tokens. A token ends before the next brace, so that an opener
is seen there. The exceptions are comments, and double quotes with a backslash before
the brace that is not taken by another backslash. -/

namespace ConfigAssist.Yaml

/-- A text ends with a backslash that takes the next character with it: the backslashes
at its end are odd in number. -/
def Escaping (before : Text) : Prop := (before.reverse.takeWhile (· == '\\')).length % 2 = 1

instance (before : Text) : Decidable (Escaping before) :=
  inferInstanceAs (Decidable (_ % 2 = 1))

theorem escaping_concat_iff {before : Text} {c : Char} :
    Escaping (before ++ [c]) ↔ c = '\\' ∧ ¬ Escaping before := oddRun_concat_iff

theorem escaping_singleton_iff {c : Char} : Escaping [c] ↔ c = '\\' := oddRun_singleton_iff

theorem escaping_append_iff {before after : Text} (h : ¬ Escaping before) :
    Escaping (before ++ after) ↔ Escaping after := oddRun_append_iff h

theorem escapes_iff {q : Quote} {c : Char} : q.escapes c = true ↔ q = .double ∧ c = '\\' := by
  simp [Quote.escapes]

/-- The flag of a quoted run tells whether what was passed takes the next character. -/
theorem escapes_iff_of_concat {q : Quote} {c : Char} {passed : Text}
    (hpassed : ¬ (q = .double ∧ Escaping passed)) :
    q.escapes c = true ↔ q = .double ∧ Escaping (passed ++ [c]) := by
  rw [escapes_iff, escaping_concat_iff]
  constructor
  · rintro ⟨hq, hc⟩
    exact ⟨hq, hc, fun h => hpassed ⟨hq, h⟩⟩
  · rintro ⟨hq, hc, -⟩
    exact ⟨hq, hc⟩

theorem not_escaping_concat_of_escaping {q : Quote} {c : Char} {passed : Text}
    (hpassed : q = .double ∧ Escaping passed) :
    false = true ↔ q = .double ∧ Escaping (passed ++ [c]) := by
  simp [escaping_concat_iff, hpassed.2]

/-- In a run of quoted text the mark and the brace stand only where they are escaped. -/
theorem escaping_of_quotedRun {q : Quote} {escaped : Bool} {stop : Char} {passed cs u v : Text}
    (hstop : stop = q.mark ∨ stop = '\x7b')
    (hescaped : escaped = true ↔ q = .double ∧ Escaping passed)
    (h : cs.take (quotedRun q escaped cs) = u ++ stop :: v) :
    q = .double ∧ Escaping (passed ++ u) := by
  -- `hescaped` is the invariant: the flag tells whether what was passed takes the next character
  induction cs generalizing escaped passed u with
  | nil => simp at h
  | cons c cs ih =>
    cases escaped with
    | true =>
      have hpassed := hescaped.mp rfl
      rw [quotedRun, List.take_succ_cons] at h
      cases u with
      | nil => simpa using hpassed
      | cons d u =>
        obtain ⟨rfl, hrest⟩ := List.cons.inj h
        simpa using ih (not_escaping_concat_of_escaping hpassed) hrest
    | false =>
      rw [quotedRun] at h
      by_cases hends : c = q.mark ∨ c = '\x7b'
      · simp [hends] at h
      rw [if_neg hends, List.take_succ_cons] at h
      cases u with
      | nil =>
        obtain rfl := (List.cons.inj h).1
        exact absurd hstop hends
      | cons d u =>
        obtain ⟨rfl, hrest⟩ := List.cons.inj h
        have hpassed : ¬ (q = .double ∧ Escaping passed) := fun h => Bool.false_ne_true (hescaped.mpr h)
        simpa using ih (escapes_iff_of_concat hpassed) hrest

/-- A run of quoted text that ends before the text does takes nothing of what is behind it. -/
theorem not_escaping_of_quotedRun {q : Quote} {escaped : Bool} {passed cs : Text}
    (hescaped : escaped = true ↔ q = .double ∧ Escaping passed)
    (h : cs.drop (quotedRun q escaped cs) ≠ []) :
    ¬ (q = .double ∧ Escaping (passed ++ cs.take (quotedRun q escaped cs))) := by
  induction cs generalizing escaped passed with
  | nil => simp at h
  | cons c cs ih =>
    cases escaped with
    | true =>
      rw [quotedRun, List.drop_succ_cons] at h
      rw [quotedRun, List.take_succ_cons, List.append_cons]
      exact ih (not_escaping_concat_of_escaping (hescaped.mp rfl)) h
    | false =>
      have hpassed : ¬ (q = .double ∧ Escaping passed) := fun h => Bool.false_ne_true (hescaped.mpr h)
      rw [quotedRun] at h ⊢
      by_cases hends : c = q.mark ∨ c = '\x7b'
      · rw [if_pos hends, List.take_zero, List.append_nil]
        exact hpassed
      · rw [if_neg hends, List.drop_succ_cons] at h
        rw [if_neg hends, List.take_succ_cons, List.append_cons]
        exact ih (escapes_iff_of_concat hpassed) h

theorem Quoted.escaping {s : Scalars} {q : Quote} {c : Char} {cs u v : Text} {r : Reading × Scalars}
    (hform : Quoted s c cs q r) (h : cs.take r.1.further = u ++ '\x7b' :: v) :
    q = .double ∧ Escaping (c :: u) := by
  cases hform with
  | pair _ hq hnext =>
    subst hq
    obtain ⟨rest, rfl⟩ := List.head?_eq_some_iff.mp hnext
    have hsecond : [Quote.single.mark] = u ++ '\x7b' :: v := h
    have hmem : '\x7b' ∈ [Quote.single.mark] := by simp [hsecond]
    exact absurd hmem (by decide)
  | closing => simp [Reading.plain] at h
  | run =>
    have hfirst : q.escapes c = true ↔ q = .double ∧ Escaping [c] := by
      rw [escapes_iff, escaping_singleton_iff]
    exact escaping_of_quotedRun (.inr rfl) hfirst h

theorem brace_not_mem_run {p : Char → Bool} (hp : p '\x7b' = false) (cs : Text) :
    '\x7b' ∉ cs.take (cs.takeWhile p).length := by
  intro hmem
  have htrue := mem_take_length_takeWhile hmem
  rw [hp] at htrue
  cases htrue

theorem brace_not_mem_word (p : Place) (c : Char) (cs : Text) :
    '\x7b' ∉ cs.take (readWord p c cs).further := by
  unfold readWord
  dsimp only
  split
  · rename_i hkey
    rw [List.take_add, List.mem_append, drop_length_takeWhile]
    rintro (hword | hcolon)
    · exact brace_not_mem_run (by decide) cs hword
    · obtain ⟨rest, hrest⟩ := colon_of_closesKey hkey
      simp [hrest] at hcolon
  · exact brace_not_mem_run (by decide) cs

theorem brace_not_mem_header (cs : Text) : '\x7b' ∉ cs.take (headerTail cs) := by
  have hindicator {p : Char → Bool} (hp : p '\x7b' = false) (t : Text) :
      '\x7b' ∉ t.take (if t.head?.any p then 1 else 0) := by
    cases t with
    | nil => simp
    | cons c cs =>
      by_cases hc : p c = true
      · have hne : '\x7b' ≠ c := by
          rintro rfl
          exact Bool.false_ne_true (hp.symm.trans hc)
        simp [hc, hne]
      · simp [hc]
  unfold headerTail
  dsimp only
  rw [List.take_add, List.mem_append]
  rintro (hsign | hdepth)
  · exact hindicator (by decide) cs hsign
  · exact hindicator (by decide) _ hdepth

theorem Opened.brace_not_mem {p : Place} {s : Scalars} {c : Char} {cs : Text}
    {r : Reading × Scalars} (h : Opened p s c cs r) (hcategory : r.1.category ≠ .comment) :
    '\x7b' ∉ cs.take r.1.further := by
  cases h with
  | comment => exact absurd rfl hcategory
  | indent | tag | anchor => exact brace_not_mem_run (by decide) cs
  | word => exact brace_not_mem_word p c cs
  | header => exact brace_not_mem_header cs
  | hash | mark | other => simp [Reading.plain]

theorem Read.escaping {p : Place} {s : Scalars} {c : Char} {cs u v : Text} {r : Reading × Scalars}
    (hform : Read p s c cs r) (h : cs.take r.1.further = u ++ '\x7b' :: v)
    (hcategory : r.1.category ≠ .comment) :
    s.block = none ∧ s.quote = some .double ∧ Escaping (c :: u) := by
  have hmem : '\x7b' ∈ cs.take r.1.further := by simp [h]
  cases hform with
  | block => exact absurd hmem (brace_not_mem_run (by decide) cs)
  | quoted hblock hquote hquoted =>
    obtain ⟨rfl, hescaping⟩ := hquoted.escaping h
    exact ⟨hblock, hquote, hescaping⟩
  | opened _ _ hopened => exact absurd hmem (hopened.brace_not_mem hcategory)

end ConfigAssist.Yaml
