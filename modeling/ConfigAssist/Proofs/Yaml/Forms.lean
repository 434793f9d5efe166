import ConfigAssist.Yaml.Token

/-! The forms of what is read outside templates: text in a block scalar, text in quotes,
and in the open one form for each kind of character. Each comes with the scalars that it
leaves open, and whatever holds of all readings is shown form by form. -/

namespace ConfigAssist.Yaml

section

variable (p : Place) (s : Scalars) (c : Char) (cs : Text)

inductive Quoted (q : Quote) : Reading × Scalars → Prop
  | pair (hc : c = q.mark) (hq : q = .single) (hnext : cs.head? = some q.mark) :
      Quoted q (.plain 1, s)
  | closing (hc : c = q.mark) (hpair : ¬ (q = .single ∧ cs.head? = some q.mark)) :
      Quoted q (.plain 0, { s with quote := none })
  | run (hc : c ≠ q.mark) : Quoted q (.plain (quotedRun q (q.escapes c) cs), s)

inductive Opened : Reading × Scalars → Prop
  | indent (hc : isIndent c = true) : Opened (.plain (cs.takeWhile isIndent).length, s)
  | word (hc : isWordStart c = true) : Opened (readWord p c cs, s)
  | comment (hc : c = '#') (hprevious : p.previous.all isIndent = true) :
      Opened ({ further := (cs.takeWhile fun c => c != '\r' && c != '\n').length
                category := .comment }, s)
  | hash (hc : c = '#') (hprevious : p.previous.all isIndent = false) : Opened (.plain 0, s)
  | tag (hc : c = '!') : Opened (readTag c cs, s)
  | anchor (hc : c = '&' ∨ c = '*') : Opened (.plain (cs.takeWhile isNameChar).length, s)
  | mark (hc : c = '"' ∨ c = '\'') :
      Opened (.plain 0,
        if p.previous.all opensScalar then { s with quote := Quote.ofMark? c } else s)
  | header (hc : c = '|' ∨ c = '>') :
      Opened (.plain (headerTail cs),
        if endsHeader (cs.drop (headerTail cs)) then { s with announced := some p.indent } else s)
  | other (hindent : isIndent c = false) (hword : isWordStart c = false)
      (hc : c ∉ ['#', '!', '&', '*', '"', '\'', '|', '>']) : Opened (.plain 0, s)

inductive Read : Reading × Scalars → Prop
  | block (hblock : s.block.isSome) : Read (.plain (blockRun cs), s)
  | quoted {q : Quote} {r : Reading × Scalars} (hblock : s.block = none)
      (hquote : s.quote = some q) (hform : Quoted s c cs q r) : Read r
  | opened {r : Reading × Scalars} (hblock : s.block = none) (hquote : s.quote = none)
      (hform : Opened p s c cs r) : Read r

theorem readQuoted_form (q : Quote) : Quoted s c cs q (readQuoted s q c cs) := by
  unfold readQuoted
  split
  · split
    · rename_i hc hpair
      exact .pair hc hpair.1 hpair.2
    · rename_i hc hpair
      exact .closing hc hpair
  · rename_i hc
    exact .run hc

theorem readOpen_form : Opened p s c cs (readOpen p s c cs) := by
  unfold readOpen
  split
  · rename_i hindent
    exact .indent hindent
  rename_i hindent
  split
  · rename_i hword
    exact .word hword
  rename_i hword
  split
  · split
    · rename_i hprevious
      exact .comment rfl hprevious
    · rename_i hprevious
      exact .hash rfl (Bool.eq_false_iff.mpr hprevious)
  · exact .tag rfl
  · exact .anchor (.inl rfl)
  · exact .anchor (.inr rfl)
  · exact .mark (.inl rfl)
  · exact .mark (.inr rfl)
  · exact .header (.inl rfl)
  · exact .header (.inr rfl)
  · have hc : c ∉ ['#', '!', '&', '*', '"', '\'', '|', '>'] := by
      simp only [List.mem_cons, List.not_mem_nil, or_false, not_or]
      refine ⟨?_, ?_, ?_, ?_, ?_, ?_, ?_, ?_⟩ <;> assumption
    exact .other (Bool.eq_false_iff.mpr hindent) (Bool.eq_false_iff.mpr hword) hc

theorem read_form : Read p s c cs (read p s c cs) := by
  cases hblock : s.block with
  | some header =>
    have hsome : s.block.isSome := by simp [hblock]
    rw [read, if_pos hsome]
    exact .block hsome
  | none =>
    rw [read, if_neg (by simp [hblock])]
    cases hquote : s.quote with
    | some q => exact .quoted hblock hquote (readQuoted_form s c cs q)
    | none => exact .opened hblock hquote (readOpen_form p s c cs)

end

theorem colon_of_closesKey {t : Text} (h : closesKey t = true) : ∃ rest, t = ':' :: rest := by
  unfold closesKey at h
  split at h
  · exact ⟨_, rfl⟩
  · cases h

end ConfigAssist.Yaml
