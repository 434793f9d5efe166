import ConfigAssist.Proofs.Color.Entry
import ConfigAssist.Proofs.Template.Token
import ConfigAssist.Proofs.Yaml.Brace

/-! Where delimiters are hidden. The scanner looks for them between tokens only, but no
token reaches over one: an opener goes unseen in a comment and behind a backslash in
double quotes, a closer in a literal, and nothing else hides them. -/

namespace ConfigAssist

open Text Template

theorem isAscii_pair {a b : Char} (ha : IsAscii a) (hb : IsAscii b) : ∀ c ∈ [a, b], IsAscii c :=
  List.forall_mem_cons.mpr ⟨ha, List.forall_mem_singleton.mpr hb⟩

theorem Template.Delimiter.isAscii_of_opens {d : Delimiter} : ∀ c ∈ d.opener, IsAscii c := by
  cases d <;> exact isAscii_pair (by decide) (by decide)

theorem Template.Delimiter.isAscii_of_closes {d : Delimiter} {t : Text} (h : d.Closes t) :
    ∀ c ∈ t, IsAscii c := by
  have hcloser : ∀ c ∈ d.closer, IsAscii c := by
    cases d <;> exact isAscii_pair (by decide) (by decide)
  rcases h with rfl | ⟨_, rfl | rfl⟩
  · exact hcloser
  · exact List.forall_mem_cons.mpr ⟨by decide, hcloser⟩
  · exact List.forall_mem_cons.mpr ⟨by decide, hcloser⟩

theorem Template.Delimiter.ne_nil_of_closes {d : Delimiter} {t : Text} (h : d.Closes t) : t ≠ [] := by
  rcases h with rfl | ⟨_, rfl | rfl⟩ <;> cases d <;> decide

section

variable {p : Yaml.Place} {s next : State} {c : Char} {token rest u v : Text} {reading : Reading}
  (hread : s.read p c (token ++ rest) = (reading, next)) (hfits : token.length = reading.further)
  (hcategory : reading.category ≠ .delimiter) (htext : c :: token = u ++ v) (hv : v ≠ [])

include hread hfits hcategory htext hv

theorem opener_hidden {d : Delimiter} (htemplate : s.template = none)
    (hopener : d.opener <+: v ++ rest) :
    reading.category = .comment ∨
      s.scalars.block = none ∧ s.scalars.quote = some .double ∧ Yaml.Escaping u := by
  obtain ⟨hopening, hyaml⟩ := State.read_of_outside htemplate hread hcategory
  -- an opener at the first character would have been seen
  cases u with
  | nil =>
    rw [List.nil_append] at htext
    rw [← htext, List.cons_append] at hopener
    rw [Delimiter.opening?_of_opener hopener] at hopening
    cases hopening
  | cons a u =>
    rw [List.cons_append, List.cons.injEq] at htext
    obtain ⟨rfl, rfl⟩ := htext
    obtain ⟨x, v, rfl⟩ := List.exists_cons_of_ne_nil hv
    have hx : x = '\x7b' := by
      obtain ⟨back, hback⟩ := hopener
      cases d <;> exact (List.cons.inj hback).1.symm
    subst hx
    have htake : (u ++ '\x7b' :: v ++ rest).take
        (Yaml.read p s.scalars c (u ++ '\x7b' :: v ++ rest)).1.further = u ++ '\x7b' :: v := by
      rw [hyaml]
      exact List.take_left' hfits
    by_cases hcomment : reading.category = .comment
    · exact .inl hcomment
    · have hform := Yaml.read_form p s.scalars c (u ++ '\x7b' :: v ++ rest)
      exact .inr (hform.escaping htake (by rwa [hyaml]))

theorem closer_hidden {d : Delimiter} (htemplate : s.template = some d) {t : Text}
    (hcloses : d.Closes t) (hcloser : t <+: v ++ rest) :
    d ≠ .comment ∧ reading.category = .literal ∧ Token.IsLiteral (c :: token) := by
  obtain ⟨hlength, rfl, -⟩ := State.read_of_inside htemplate hread hcategory
  cases u with
  | nil =>
    rw [List.nil_append] at htext
    rw [← htext, List.cons_append] at hcloser
    have hsome := Delimiter.isSome_closerLength?_of_closes hcloses hcloser
    rw [hlength] at hsome
    cases hsome
  | cons a u =>
    rw [List.cons_append, List.cons.injEq] at htext
    obtain ⟨rfl, rfl⟩ := htext
    exact Delimiter.closer_in_body hfits hv hcloses hcloser

end

theorem standsAt_inside {line before inner rest needle : Text} {offset : Nat} (hne : needle ≠ [])
    (hascii : ∀ x ∈ needle, IsAscii x) (hline : before ++ (inner ++ rest) = line)
    (hstart : size utf8 before ≤ offset) (hstop : offset < size utf8 before + size utf8 inner)
    (hat : StandsAt needle line offset) :
    ∃ u v, inner = u ++ v ∧ v ≠ [] ∧ slice? utf8 (size utf8 before) offset line = some u ∧
      needle <+: v ++ rest := by
  obtain ⟨front, back, hsplit, rfl, hneedle⟩ := append_of_standsAt hne hascii hat
  obtain ⟨u, v, rfl, hv, rfl, rfl⟩ := split_inside utf8_pos (hline.trans hsplit) hstart hstop
  refine ⟨u, v, rfl, hv, ?_, hneedle⟩
  have hslice := slice?_append utf8_pos before u (v ++ rest)
  rw [← hline, size_append]
  simpa using hslice

/-- A delimiter that begins inside a span of another kind is hidden there. The closer of a
template comment never is. -/
theorem delimiter_hidden (line : Text) (s : State) {x : State × Span} (hx : x ∈ entrySpans line s)
    (hcategory : x.2.category ≠ .delimiter) {offset : Nat} (hstart : x.2.start ≤ offset)
    (hstop : offset < x.2.stop) :
    (∀ d : Delimiter, x.1.template = none → StandsAt d.opener line offset →
      x.2.category = .comment ∨
        x.1.scalars.block = none ∧ x.1.scalars.quote = some .double ∧
          ∃ before, slice? utf8 x.2.start offset line = some before ∧ Yaml.Escaping before) ∧
      ∀ (d : Delimiter) (t : Text), x.1.template = some d → d.Closes t → StandsAt t line offset →
        d ≠ .comment ∧ x.2.category = .literal ∧
          ∃ text, x.2.text? utf8 line = some text ∧ Token.IsLiteral text := by
  obtain ⟨s', span⟩ := x
  cases readIn_of_mem hx with
  | @step before token rest c s' next reading hline hread hfits =>
    have hline' : before ++ (c :: token ++ rest) = line := hline
    constructor
    · intro d htemplate hat
      obtain ⟨u, v, htext, hv, hslice, hopener⟩ := standsAt_inside (by cases d <;> decide)
        Delimiter.isAscii_of_opens hline' hstart hstop hat
      rcases opener_hidden hread hfits hcategory htext hv htemplate hopener with h | ⟨hb, hq, hu⟩
      · exact .inl h
      · exact .inr ⟨hb, hq, u, hslice, hu⟩
    · intro d t htemplate hcloses hat
      obtain ⟨u, v, htext, hv, -, hcloser⟩ := standsAt_inside (Delimiter.ne_nil_of_closes hcloses)
        (Delimiter.isAscii_of_closes hcloses) hline' hstart hstop hat
      obtain ⟨hd, hliteral, htoken⟩ :=
        closer_hidden hread hfits hcategory htext hv htemplate hcloses hcloser
      have hslice := slice?_append utf8_pos before (c :: token) rest
      rw [hline'] at hslice
      exact ⟨hd, hliteral, c :: token, hslice, htoken⟩

/-- An escaped opener, and a closer with a sign behind an escaped mark. -/
theorem delimiter_hidden_twice :
    let line := "a: \"\\\x7b\x7b-\x7b\x7b '\\'-\x7d\x7d' \x7d\x7d\"".toList
    let quoted : State := { scalars := { quote := some .double } }
    let x : State × Span := (quoted, ⟨4, 6, .plain, none⟩)
    let y : State × Span := ({ quoted with template := some .value }, ⟨11, 18, .literal, none⟩)
    x ∈ entrySpans line .initial ∧ StandsAt ['\x7b', '\x7b'] line 5 ∧
      (∃ before, slice? utf8 4 5 line = some before ∧ Yaml.Escaping before) ∧
      y ∈ entrySpans line .initial ∧ StandsAt ['-', '\x7d', '\x7d'] line 14 ∧
      ∃ text, y.2.text? utf8 line = some text ∧ Token.IsLiteral text := by
  intro line quoted x y
  have hx : x ∈ entrySpans line .initial := by decide
  have hy : y ∈ entrySpans line .initial := by decide
  have hopener : StandsAt ['\x7b', '\x7b'] line 5 := List.isPrefixOf_iff_prefix.mp (by decide)
  have hcloser : StandsAt ['-', '\x7d', '\x7d'] line 14 := List.isPrefixOf_iff_prefix.mp (by decide)
  have hescaped := (delimiter_hidden line .initial hx (by decide) (by decide) (by decide)).1
    .value rfl hopener
  have hliteral := (delimiter_hidden line .initial hy (by decide) (by decide) (by decide)).2
    .value ['-', '\x7d', '\x7d'] rfl (.inr ⟨by decide, .inl rfl⟩) hcloser
  exact ⟨hx, hopener, (hescaped.resolve_left (by decide)).2.2, hy, hcloser, hliteral.2.2⟩

end ConfigAssist
