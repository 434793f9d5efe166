import ConfigAssist.Proofs.Color.Entry
import ConfigAssist.Proofs.Template.Closing
import ConfigAssist.Proofs.Template.Grammar

/-! The token at the beginning of a text is the longest one that the grammar allows there.
For words, numbers and literals it is also told by the text alone: a run of letters, a run
of digits with what follows the point, and the first mark that no backslash takes. -/

namespace ConfigAssist.Template

namespace Token

/-- A token at the beginning of a text, and what it takes. Of the texts there that are in some
language it is the longest; a word is an identifier only if it is not reserved. -/
inductive Longest (t : Text) : Token → Text → Prop
  | matched {token : Token} {text : Text} (hmem : text ∈ token.language) (hbegins : text <+: t)
      (hlongest : ∀ (other : Token) (u : Text), u ∈ other.language → u <+: t →
        u.length ≤ text.length)
      (hpreferred : ∀ other : Token, text ∈ other.language →
        other = token ∨ other = identifier ∧ (token = keyword ∨ token = constant)) :
      Longest t token text
  | unmatched (hnone : ∀ (other : Token) (u : Text), u ∈ other.language → ¬ u <+: t) :
      Longest t unknown (t.take 1)

section

variable {token : Token} {c : Char} {cs u v : Text}

theorem Longest.cons (hmem : c :: v ∈ token.language) (hv : v <+: cs)
    (hlongest : ∀ (other : Token) (u : Text), c :: u ∈ other.language → u <+: cs →
      u.length ≤ v.length)
    (hpreferred : ∀ other : Token, c :: v ∈ other.language →
      other = token ∨ other = identifier ∧ (token = keyword ∨ token = constant)) :
    Longest (c :: cs) token (c :: v) := by
  refine .matched hmem (List.cons_prefix_cons.mpr ⟨rfl, hv⟩) ?_ hpreferred
  intro other t ht hprefix
  obtain ⟨d, u, rfl⟩ := exists_cons_of_mem_language ht
  obtain ⟨rfl, hu⟩ := List.cons_prefix_cons.mp hprefix
  exact Nat.succ_le_succ (hlongest other u ht hu)

/-- A first character that begins no word leaves one token. -/
theorem eq_of_start (hstart : start c = token) (htoken : token ≠ identifier) {other : Token}
    (h : c :: u ∈ other.language) : other = token := by
  have hkind := hstart.symm.trans (start_of_mem_language h)
  cases other with
  | keyword | constant => exact absurd hkind htoken
  | space | quoted | number | identifier | operator | unknown => exact hkind.symm

theorem Longest.of_start (hstart : start c = token) (htoken : token ≠ identifier)
    (hmem : c :: v ∈ token.language) (hv : v <+: cs)
    (hlongest : ∀ u : Text, c :: u ∈ token.language → u <+: cs → u.length ≤ v.length) :
    Longest (c :: cs) token (c :: v) := by
  refine .cons hmem hv ?_ fun other h => .inl (eq_of_start hstart htoken h)
  intro other u h hu
  obtain rfl := eq_of_start hstart htoken h
  exact hlongest u h hu

theorem Longest.alone (hstart : start c = token) (htoken : token ≠ identifier)
    (hnone : ∀ u : Text, c :: u ∈ token.language → ¬ u <+: cs) :
    Longest (c :: cs) unknown [c] := by
  refine .unmatched (t := c :: cs) ?_
  intro other t ht hprefix
  obtain ⟨d, u, rfl⟩ := exists_cons_of_mem_language ht
  obtain ⟨rfl, hu⟩ := List.cons_prefix_cons.mp hprefix
  obtain rfl := eq_of_start hstart htoken ht
  exact hnone u ht hu

end

section

variable {c : Char} {cs : Text}

theorem mem_language_ofWord (hc : isWordStart c = true) (hcs : ∀ d ∈ cs, isWordChar d = true) :
    c :: cs ∈ (ofWord (c :: cs)).language := by
  unfold ofWord
  split
  · exact List.contains_iff_mem.mp ‹_›
  split
  · exact List.contains_iff_mem.mp ‹_›
  · exact cons_mem_one_mul.mpr ⟨hc, mem_kstar_one_iff.mpr hcs⟩

theorem not_mem_constants_of_mem_keywords {t : Text} (h : t ∈ keywords) : t ∉ constants := by
  have hdisjoint : ∀ t ∈ keywords, t ∉ constants := by decide
  exact hdisjoint t h

theorem isWordChar_of_mem_language {token : Token} (hc : isWordStart c = true)
    (h : c :: cs ∈ token.language) : ∀ d ∈ cs, isWordChar d = true := by
  have hreserved (h : c :: cs ∈ keywords ++ constants) : ∀ d ∈ cs, isWordChar d = true := by
    obtain ⟨e, es, heq, -, hes⟩ := spelled_of_reserved h
    rwa [(List.cons.inj heq).2]
  have hkind := (start_of_isWordStart hc).symm.trans (start_of_mem_language h)
  cases token with
  | keyword => exact hreserved (List.mem_append_left _ h)
  | constant => exact hreserved (List.mem_append_right _ h)
  | identifier => exact mem_kstar_one_iff.mp (cons_mem_one_mul.mp h).2
  | space | quoted | number | operator | unknown => cases hkind

/-- A word that is in two languages is reserved, and an identifier besides. -/
theorem eq_ofWord_of_mem_language {token : Token} (hc : isWordStart c = true)
    (h : c :: cs ∈ token.language) : token = ofWord (c :: cs) ∨
      token = identifier ∧ (ofWord (c :: cs) = keyword ∨ ofWord (c :: cs) = constant) := by
  have hkind := (start_of_isWordStart hc).symm.trans (start_of_mem_language h)
  cases token with
  | keyword => exact .inl (by rw [ofWord, if_pos (List.contains_iff_mem.mpr h)])
  | constant =>
    have hkeyword : ¬ keywords.contains (c :: cs) = true := fun hmem =>
      not_mem_constants_of_mem_keywords (List.contains_iff_mem.mp hmem) h
    exact .inl (by rw [ofWord, if_neg hkeyword, if_pos (List.contains_iff_mem.mpr h)])
  | identifier =>
    unfold ofWord
    split
    · exact .inr ⟨rfl, .inl rfl⟩
    split
    · exact .inr ⟨rfl, .inr rfl⟩
    · exact .inl rfl
  | space | quoted | number | operator | unknown => cases hkind

end

section

variable {c : Char} {cs u v : Text}

theorem Numeral.mem_language (h : Numeral cs v) (hc : c.isDigit = true) :
    c :: v ∈ number.language := by
  have hwhole : ∀ d ∈ cs.takeWhile isNumeral, isNumeral d = true :=
    fun d hd => List.mem_takeWhile_imp hd
  refine cons_mem_number_iff.mpr ⟨hc, cs.takeWhile isNumeral, ?_⟩
  cases h with
  | whole => exact ⟨[], (List.append_nil _).symm, hwhole, .inl rfl⟩
  | fraction _ hd =>
    refine ⟨_, rfl, hwhole, .inr (mem_fraction_iff.mpr ⟨_, _, rfl, ?_⟩)⟩
    exact List.forall_mem_cons.mpr ⟨hd, fun x hx => List.mem_takeWhile_imp hx⟩

/-- A number that ends in a fraction has passed the whole run of digits, so it meets the same
point. -/
theorem Numeral.length_le (h : Numeral cs v) (hmem : c :: u ∈ number.language) (hu : u <+: cs) :
    u.length ≤ v.length := by
  obtain ⟨-, whole, part, rfl, hwhole, hpart⟩ := cons_mem_number_iff.mp hmem
  obtain ⟨rest, rfl⟩ := hu
  rcases hpart with rfl | hpart
  · rw [List.append_nil] at h ⊢
    have hle := length_le_takeWhile (List.prefix_append whole rest) hwhole
    cases h with
    | whole => exact hle
    | fraction =>
      rw [List.length_append]
      exact Nat.le_add_right_of_le hle
  · obtain ⟨e, es, rfl, hdigits⟩ := mem_fraction_iff.mp hpart
    obtain ⟨he, hes⟩ := List.forall_mem_cons.mp hdigits
    have hsplit : whole ++ '.' :: e :: es ++ rest = whole ++ '.' :: e :: (es ++ rest) := by simp
    have htake : (whole ++ '.' :: e :: (es ++ rest)).takeWhile isNumeral = whole := by
      rw [List.takeWhile_append_of_pos hwhole]
      exact List.append_nil whole
    have hdrop : (whole ++ '.' :: e :: (es ++ rest)).dropWhile isNumeral =
        '.' :: e :: (es ++ rest) := by
      rw [List.dropWhile_append_of_pos hwhole]
      rfl
    rw [hsplit] at h
    cases h with
    | whole hpoint => exact absurd (he.symm.trans (hpoint e _ hdrop)) (by decide)
    | fraction hpoint =>
      rw [hdrop] at hpoint
      obtain ⟨rfl, rfl⟩ := List.cons.inj (List.cons.inj hpoint).2
      have hle := length_le_takeWhile (List.prefix_append es rest) hes
      rw [htake, List.length_append, List.length_append]
      simpa using hle

theorem closingQuote?_of_body {mark : Char} {body : Text} (hmark : mark ≠ '\\')
    (h : Body mark body) (rest : Text) :
    closingQuote? mark (body ++ mark :: rest) = some (body.length + 1) := by
  induction h with
  | nil => rw [List.nil_append, closingQuote?_cons hmark, if_pos rfl, List.length_nil]
  | plain hquote hslash hline _ ih =>
    rw [List.cons_append, closingQuote?_cons hslash, if_neg hquote, hline, ih]
    rfl
  | escaped hline _ ih =>
    rw [List.cons_append, List.cons_append, closingQuote?_escape, hline, ih]
    rfl

theorem mark_ne_backslash (h : c = '"' ∨ c = '\'') : c ≠ '\\' := by
  rcases h with rfl | rfl <;> decide

theorem closingQuote?_of_mem_quoted (h : c :: u ∈ quoted.language) (hu : u <+: cs) :
    closingQuote? c cs = some u.length := by
  obtain ⟨hc, body, hbody, rfl⟩ := cons_mem_quoted_iff.mp h
  obtain ⟨rest, rfl⟩ := hu
  rw [List.append_assoc, List.length_append]
  exact closingQuote?_of_body (mark_ne_backslash hc) hbody rest

theorem operators_pairwise : operators.Pairwise fun a b => ¬ a <+: b := by decide

theorem length_le_of_find?_operators {t op other : Text}
    (hop : operators.find? (·.isPrefixOf t) = some op) (hmem : other ∈ operators)
    (hother : other <+: t) : other.length ≤ op.length := by
  obtain ⟨hbegins, passed, ahead, hsplit, hpassed⟩ := List.find?_eq_some_iff_append.mp hop
  have hpairwise := operators_pairwise
  rw [hsplit] at hmem hpairwise
  rcases List.mem_append.mp hmem with hmem | hmem
  · have hnot := hpassed other hmem
    rw [List.isPrefixOf_iff_prefix.mpr hother] at hnot
    cases hnot
  · rcases List.mem_cons.mp hmem with rfl | hmem
    · exact Nat.le_refl _
    · have hnot := (List.pairwise_cons.mp (List.pairwise_append.mp hpairwise).2.1).1 other hmem
      have hboth := List.prefix_or_prefix_of_prefix hother (List.isPrefixOf_iff_prefix.mp hbegins)
      exact (hboth.resolve_right hnot).length_le

theorem read_longest (c : Char) (cs : Text) :
    Longest (c :: cs) (read c cs).1 (c :: cs.take (read c cs).2) := by
  have hform := read_form c cs
  generalize read c cs = r at hform ⊢
  cases hform with
  | space hc =>
    rw [take_length_takeWhile]
    refine .of_start (start_of_isSpace hc) nofun ?_ (List.takeWhile_prefix _) ?_
    · exact cons_mem_one_mul.mpr ⟨hc, mem_kstar_one_iff.mpr fun d hd => List.mem_takeWhile_imp hd⟩
    · intro u hmem hu
      exact length_le_takeWhile hu (mem_kstar_one_iff.mp (cons_mem_one_mul.mp hmem).2)
  | word hc =>
    -- a reserved word is an identifier too, so its first character does not tell the token
    rw [take_length_takeWhile]
    refine .cons ?_ (List.takeWhile_prefix _) ?_ ?_
    · exact mem_language_ofWord hc fun d hd => List.mem_takeWhile_imp hd
    · exact fun other u hmem hu => length_le_takeWhile hu (isWordChar_of_mem_language hc hmem)
    · exact fun other hmem => eq_ofWord_of_mem_language hc hmem
  | number hc =>
    have hnumeral := numeral_take cs
    refine .of_start (start_of_isDigit hc) nofun (hnumeral.mem_language hc)
      (List.take_prefix _ _) ?_
    exact fun u hmem hu => hnumeral.length_le hmem hu
  | @quoted n hc hclose =>
    obtain ⟨body, hbody, htake⟩ := body_of_closingQuote? hclose
    have hmem : c :: cs.take n ∈ language quoted :=
      cons_mem_quoted_iff.mpr ⟨hc, body, hbody, htake⟩
    have hprefix := List.take_prefix n cs
    refine .of_start (start_of_mark hc) nofun hmem hprefix ?_
    intro u hother hu
    have hsame := (closingQuote?_of_mem_quoted hmem hprefix).symm.trans
      (closingQuote?_of_mem_quoted hother hu)
    exact Nat.le_of_eq (Option.some.inj hsame).symm
  | unclosed hc hclose =>
    refine .alone (start_of_mark hc) nofun fun u hmem hu => ?_
    rw [closingQuote?_of_mem_quoted hmem hu] at hclose
    cases hclose
  | @operator op hc hop =>
    have hprefix : op <+: c :: cs := by simpa using List.find?_some hop
    have hmem : op ∈ language operator := List.mem_of_find?_eq_some hop
    obtain ⟨d, ds, rfl⟩ := exists_cons_of_mem_language hmem
    obtain ⟨rfl, hds⟩ := List.cons_prefix_cons.mp hprefix
    have htake : cs.take ((d :: ds).length - 1) = ds := (List.prefix_iff_eq_take.mp hds).symm
    rw [htake]
    refine .of_start hc nofun hmem hds ?_
    intro u hother hu
    exact Nat.le_of_succ_le_succ
      (length_le_of_find?_operators hop hother (List.cons_prefix_cons.mpr ⟨rfl, hu⟩))
  | unknown hc hop =>
    refine .alone hc nofun fun u hmem hu => ?_
    have hnone := List.find?_eq_none.mp hop (c :: u) hmem
    exact hnone (List.isPrefixOf_iff_prefix.mpr (List.cons_prefix_cons.mpr ⟨rfl, hu⟩))

end

/-- What the first character of a token says about it. -/
structure Spelled (c : Char) (cs text : Text) (category : Category) : Prop where
  word : isWordStart c = true → text = c :: cs.takeWhile isWordChar ∧
    (category = .keyword ↔ text ∈ keywords) ∧ (category = .literal ↔ text ∈ constants) ∧
    (category = .identifier ↔ text ∉ keywords ++ constants)
  number : c.isDigit = true → category = .literal ∧ ∃ v, text = c :: v ∧ Numeral cs v
  quote : c = '"' ∨ c = '\'' →
    (∃ u, Closing c cs u ∧ (∀ v, Closing c cs v → u.length ≤ v.length) ∧
      text = c :: (u ++ [c]) ∧ category = .literal) ∨
    (∀ u, ¬ Closing c cs u) ∧ text = [c] ∧ category = .plain

theorem category_ofWord (word : Text) :
    ((ofWord word).category = .keyword ↔ word ∈ keywords) ∧
      ((ofWord word).category = .literal ↔ word ∈ constants) ∧
      ((ofWord word).category = .identifier ↔ word ∉ keywords ++ constants) := by
  have hdisjoint := not_mem_constants_of_mem_keywords (t := word)
  unfold ofWord
  split
  · rename_i hkeyword
    have hkeyword := List.contains_iff_mem.mp hkeyword
    simp [category, hkeyword, hdisjoint hkeyword]
  · rename_i hkeyword
    rw [List.contains_iff_mem] at hkeyword
    split
    · rename_i hconstant
      have hconstant := List.contains_iff_mem.mp hconstant
      simp [category, hkeyword, hconstant]
    · rename_i hconstant
      rw [List.contains_iff_mem] at hconstant
      simp [category, hkeyword, hconstant]

theorem spelled_read (c : Char) (cs : Text) :
    Spelled c cs (c :: cs.take (read c cs).2) (read c cs).1.category where
  word hc := by
    have hread : read c cs =
        (ofWord (c :: cs.takeWhile isWordChar), (cs.takeWhile isWordChar).length) := by
      simp [read, hc, isSpace_of_isWordStart hc]
    rw [hread]
    dsimp only
    rw [take_length_takeWhile]
    exact ⟨rfl, category_ofWord _⟩
  number hc := by
    have hread : read c cs = (number, numberTail cs) := by
      simp [read, hc, isSpace_of_isDigit hc, isWordStart_of_isDigit hc]
    rw [hread]
    exact ⟨rfl, _, rfl, numeral_take cs⟩
  quote hc := by
    have hread : read c cs = (closingQuote? c cs).elim (unknown, 0) (quoted, ·) := by
      have hclass : isSpace c = false ∧ isWordStart c = false ∧ c.isDigit = false := by
        rcases hc with rfl | rfl <;> decide
      cases hclose : closingQuote? c cs <;> simp [read, hclass, hc, hclose]
    have hclosed := closed_closingQuote? (mark_ne_backslash hc) cs
    rw [hread]
    generalize closingQuote? c cs = o at hclosed
    cases hclosed with
    | @first u h hfirst =>
      have htake : cs.take (u.length + 1) = u ++ [c] := by
        have htext := List.prefix_iff_eq_take.mp h.again
        rw [List.length_append, List.length_singleton] at htext
        exact htext.symm
      exact .inl ⟨u, h, hfirst, congrArg (c :: ·) htake, rfl⟩
    | never h => exact .inr ⟨h, rfl, rfl⟩

end Token

/-- A span that is one token of the text from its place on. -/
inductive TokenSpan (line : Text) : Span → Prop
  | intro {before cs text : Text} {c : Char} {token : Token} (hline : before ++ c :: cs = line)
      (hlongest : Token.Longest (c :: cs) token text)
      (hspelled : Token.Spelled c cs text token.category) :
      TokenSpan line
        ⟨Text.size Text.utf8 before, Text.size Text.utf8 before + Text.size Text.utf8 text,
          token.category, none⟩

/-- In a value or a statement every span but the delimiters is the longest token at its place. -/
theorem tokenSpan_of_mem {line : Text} {s : State} {x : State × Span} {d : Delimiter}
    (hx : x ∈ entrySpans line s) (htemplate : x.1.template = some d) (hd : d ≠ .comment)
    (hcategory : x.2.category ≠ .delimiter) : TokenSpan line x.2 := by
  obtain ⟨entry, span⟩ := x
  cases readIn_of_mem hx with
  | @step before token rest c _ next reading hline hread hfits =>
    obtain ⟨-, rfl, -⟩ := State.read_of_inside htemplate hread hcategory
    have hbody := d.readBody_eq hd c (token ++ rest)
    have htake : (token ++ rest).take (Token.read c (token ++ rest)).2 = token :=
      List.take_left' (hfits.trans (congrArg Reading.further hbody))
    have hlongest := Token.read_longest c (token ++ rest)
    have hspelled := Token.spelled_read c (token ++ rest)
    rw [htake] at hlongest hspelled
    rw [hbody]
    exact .intro hline hlongest hspelled

/-- A literal in a statement, with a mark that a backslash takes and with a closer of values. -/
theorem tokenSpan_of_mem_literal :
    let line := "\x7b% if 'it\\'s \x7d\x7d' ** 1. %\x7d".toList
    let x : State × Span := ({ template := some .statement }, ⟨6, 16, .literal, none⟩)
    x ∈ entrySpans line .initial ∧ TokenSpan line x.2 := by
  intro line x
  have hx : x ∈ entrySpans line .initial := by decide
  exact ⟨hx, tokenSpan_of_mem hx rfl (by decide) (by decide)⟩

end ConfigAssist.Template
