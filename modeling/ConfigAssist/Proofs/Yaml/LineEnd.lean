import ConfigAssist.Proofs.Color.Extent

/-! What a token sees of the text behind its line. Tokens that end with their line look at most at
one character behind it, apart from headers; blanks, comments and open scalars may take more in. -/

namespace ConfigAssist

theorem Text.ne_line_end {t : Text} (hreturn : '\r' ∉ t) (hfeed : '\n' ∉ t) :
    ∀ c ∈ t, c ≠ '\r' ∧ c ≠ '\n' :=
  fun _ hc => ⟨fun heq => hreturn (heq ▸ hc), fun heq => hfeed (heq ▸ hc)⟩

namespace Yaml

/-- A text that ends what stands in front of it: it begins with a space or a carriage return, and
nothing but a comment is in it. -/
structure Tail (tail : Text) : Prop where
  head : ∀ c ∈ tail.head?, c = ' ' ∨ c = '\r'
  ends : endsHeader tail = true

section

variable {tail : Text} (h : Tail tail) (cs : Text)

section

variable {p : Char → Bool} (hspace : p ' ' = false) (hreturn : p '\r' = false)

include h hspace hreturn

theorem Tail.head?_any_append : (cs ++ tail).head?.any p = cs.head?.any p := by
  cases cs with
  | cons c cs => rfl
  | nil =>
    cases tail with
    | nil => rfl
    | cons c rest => rcases h.head c rfl with rfl | rfl <;> simp [hspace, hreturn]

theorem Tail.takeWhile_eq_nil : tail.takeWhile p = [] := by
  cases tail with
  | nil => rfl
  | cons c rest => rcases h.head c rfl with rfl | rfl <;> simp [hspace, hreturn]

theorem Tail.takeWhile_append : (cs ++ tail).takeWhile p = cs.takeWhile p := by
  rw [List.takeWhile_append, h.takeWhile_eq_nil hspace hreturn]
  split
  · rename_i hall
    rw [List.append_nil, (List.takeWhile_prefix p).eq_of_length hall]
  · rfl

theorem Tail.dropWhile_append : (cs ++ tail).dropWhile p = cs.dropWhile p ++ tail := by
  have hsplit := List.takeWhile_append_dropWhile (p := p) (l := cs ++ tail)
  rw [h.takeWhile_append cs hspace hreturn] at hsplit
  refine List.append_cancel_left (hsplit.trans ?_)
  rw [← List.append_assoc, List.takeWhile_append_dropWhile]

end

include h

theorem Tail.opening?_append (c : Char) :
    Template.Delimiter.opening? (c :: (cs ++ tail)) = Template.Delimiter.opening? (c :: cs) := by
  cases cs with
  | cons d cs => exact Template.Delimiter.opening?_congr c d _ _
  | nil =>
    cases tail with
    | nil => rfl
    | cons d rest => rcases h.head d rfl with rfl | rfl <;> simp [Template.Delimiter.opening?]

theorem Tail.headerTail_append : headerTail (cs ++ tail) = headerTail cs := by
  have hsign := h.head?_any_append cs (p := fun c => c == '+' || c == '-') (by decide) (by decide)
  have hdepth (n : Nat) (hn : n ≤ cs.length) :
      ((cs ++ tail).drop n).head?.any Char.isDigit = (cs.drop n).head?.any Char.isDigit := by
    rw [List.drop_append_of_le_length hn]
    exact h.head?_any_append _ (by decide) (by decide)
  unfold headerTail
  rw [hsign]
  split
  · rename_i hany
    have hpos : 1 ≤ cs.length := by
      cases cs with
      | nil => simp at hany
      | cons => simp
    simp only [hdepth 1 hpos]
  · simp only [hdepth 0 (Nat.zero_le _)]

theorem Tail.endsHeader_append : endsHeader (cs ++ tail) = endsHeader cs := by
  unfold endsHeader Text.trimStart
  rw [List.dropWhile_append]
  split
  · rename_i hblank
    rw [List.isEmpty_iff.mp hblank]
    exact h.ends
  · rename_i hblank
    obtain ⟨c, rest, hrest⟩ := List.exists_cons_of_ne_nil fun hnil => hblank (List.isEmpty_iff.mpr hnil)
    rw [hrest]
    rfl

theorem Tail.closesKey_append (hcolon : cs ≠ [':']) : closesKey (cs ++ tail) = closesKey cs := by
  rcases cs with _ | ⟨c, _ | ⟨d, cs⟩⟩
  · cases tail with
    | nil => rfl
    | cons c rest => rcases h.head c rfl with rfl | rfl <;> rfl
  · have hc : c ≠ ':' := fun heq => hcolon (by rw [heq])
    simp [closesKey, hc]
  · by_cases hc : c = ':'
    · subst hc
      rfl
    · simp [closesKey, hc]

end

theorem quotedRun_append (q : Quote) (escaped : Bool) (cs tail : Text) :
    quotedRun q escaped (cs ++ tail) = quotedRun q escaped cs ∨
      quotedRun q escaped cs = cs.length ∧ ∃ n ≤ tail.length,
        quotedRun q escaped (cs ++ tail) = cs.length + n := by
  have hsucc {run longer length : Nat}
      (h : longer = run ∨ run = length ∧ ∃ n ≤ tail.length, longer = length + n) :
      longer + 1 = run + 1 ∨ run + 1 = length + 1 ∧ ∃ n ≤ tail.length, longer + 1 = length + 1 + n := by
    rcases h with rfl | ⟨rfl, n, hn, rfl⟩
    · exact .inl rfl
    · exact .inr ⟨rfl, n, hn, Nat.add_right_comm _ _ _⟩
  fun_induction quotedRun q escaped cs with
  | case1 => exact .inr ⟨rfl, _, quotedRun_le q _ tail, (Nat.zero_add _).symm⟩
  | case2 c cs ih => exact hsucc ih
  | case3 c cs hends =>
    rw [List.cons_append, quotedRun, if_pos hends]
    exact .inl rfl
  | case4 c cs hends ih =>
    rw [List.cons_append, quotedRun, if_neg hends]
    exact hsucc ih

/-- A reading at a place, and the reading at the same place of the line with a tail behind it. The
scalars that are open after it are the same. -/
inductive Reaches (tail cs : Text) : Reading × Scalars → Reading × Scalars → Prop
  | same {r : Reading × Scalars}
      (hkey : r.1.category = .key → r.1.further = cs.length → closesKey (':' :: tail) = true) :
      Reaches tail cs r r
  | blanks (s : Scalars) : Reaches tail cs (.plain cs.length, s)
      (.plain (cs.length + (tail.takeWhile isIndent).length), s)
  | comment (s : Scalars) : Reaches tail cs ({ further := cs.length, category := .comment }, s)
      ({ further := cs.length + (tail.takeWhile fun c => c != '\r' && c != '\n').length
         category := .comment }, s)
  | scalar {s : Scalars} {n : Nat} (hopen : s.block.isSome ∨ s.quote.isSome) (hn : n ≤ tail.length) :
      Reaches tail cs (.plain cs.length, s) (.plain (cs.length + n), s)
  | colon {s : Scalars} {word : Text} {marker : Option Marker} (hline : cs = word ++ [':'])
      (hcloses : closesKey (':' :: tail) = false) (hblock : s.block = none) (hquote : s.quote = none) :
      Reaches tail cs ({ further := cs.length, category := .key, marker }, s) (.plain word.length, s)

theorem Reaches.of_ne_key {tail cs : Text} {r : Reading × Scalars} (h : r.1.category ≠ .key) :
    Reaches tail cs r r := .same fun hkey => absurd hkey h

theorem Reaches.plain {tail cs : Text} (n : Nat) (s : Scalars) :
    Reaches tail cs (.plain n, s) (.plain n, s) := .of_ne_key (by simp [Reading.plain])

theorem Reaches.scalars_eq {tail cs : Text} {r r' : Reading × Scalars} (h : Reaches tail cs r r') :
    r'.2 = r.2 := by
  cases h <;> rfl

section

variable {tail : Text} (h : Tail tail) (p : Place) (s : Scalars) (c : Char) (cs : Text)

include h

theorem reaches_readWord (hblock : s.block = none) (hquote : s.quote = none) :
    Reaches tail cs (readWord p c cs, s) (readWord p c (cs ++ tail), s) := by
  have hmore := h.takeWhile_append cs (p := isWordChar) (by decide) (by decide)
  have hrest := h.dropWhile_append cs (p := isWordChar) (by decide) (by decide)
  have hsplit := List.takeWhile_append_dropWhile (p := isWordChar) (l := cs)
  unfold readWord
  rw [hmore, hrest]
  by_cases hcolon : cs.dropWhile isWordChar = [':']
  · rw [hcolon] at hsplit ⊢
    have hlength : (cs.takeWhile isWordChar).length + 1 = cs.length := by
      conv_rhs => rw [← hsplit]
      simp
    have hlast : closesKey [':'] = true := rfl
    dsimp only
    rw [if_pos hlast, hlength]
    by_cases hcloses : closesKey (':' :: tail) = true
    · rw [List.singleton_append, if_pos hcloses]
      exact .same fun _ _ => hcloses
    · rw [List.singleton_append, if_neg hcloses]
      exact .colon hsplit.symm (Bool.eq_false_iff.mpr hcloses) hblock hquote
  · rw [h.closesKey_append _ hcolon]
    refine .same fun hkey hend => ?_
    dsimp only at hkey hend
    split at hkey
    · rename_i hcloses
      rw [if_pos hcloses] at hend
      obtain ⟨rest, hrest⟩ := colon_of_closesKey hcloses
      have hlength := congrArg List.length hsplit
      rw [List.length_append, hrest, List.length_cons] at hlength
      have hnil : rest = [] := List.eq_nil_of_length_eq_zero (by dsimp only at hend; omega)
      exact absurd (hnil ▸ hrest) hcolon
    · cases hkey

theorem reaches_readOpen (hblock : s.block = none) (hquote : s.quote = none) :
    Reaches tail cs (readOpen p s c cs) (readOpen p s c (cs ++ tail)) := by
  by_cases hindent : isIndent c = true
  · simp only [readOpen, if_pos hindent]
    rcases length_takeWhile_append isIndent cs tail with hsame | ⟨hall, hrun⟩
    · rw [hsame]
      exact .plain _ _
    · rw [hall, hrun]
      exact .blanks s
  by_cases hword : isWordStart c = true
  · simp only [readOpen, if_neg hindent, if_pos hword]
    exact reaches_readWord h p s c cs hblock hquote
  simp only [readOpen, if_neg hindent, if_neg hword]
  split
  · split
    · rcases length_takeWhile_append (fun c => c != '\r' && c != '\n') cs tail with
        hsame | ⟨hall, hrun⟩
      · rw [hsame]
        exact .of_ne_key (by simp)
      · rw [hall, hrun]
        exact .comment s
    · exact .plain _ _
  · rw [readTag, readTag, h.takeWhile_append cs (by decide) (by decide)]
    refine .of_ne_key fun hkey => ?_
    dsimp only at hkey
    split at hkey <;> cases hkey
  · rw [h.takeWhile_append cs (by decide) (by decide)]
    exact .plain _ _
  · rw [h.takeWhile_append cs (by decide) (by decide)]
    exact .plain _ _
  · exact .plain _ _
  · exact .plain _ _
  · rw [h.headerTail_append cs, List.drop_append_of_le_length (headerTail_le cs), h.endsHeader_append]
    exact .plain _ _
  · rw [h.headerTail_append cs, List.drop_append_of_le_length (headerTail_le cs), h.endsHeader_append]
    exact .plain _ _
  · exact .plain _ _

theorem reaches_readQuoted {q : Quote} (hquote : s.quote = some q) :
    Reaches tail cs (readQuoted s q c cs) (readQuoted s q c (cs ++ tail)) := by
  have hnext : (cs ++ tail).head? = some q.mark ↔ cs.head? = some q.mark := by
    have hany := h.head?_any_append cs (p := (· == q.mark)) (by cases q <;> decide)
      (by cases q <;> decide)
    have hhead {found : Option Char} : found.any (· == q.mark) = true ↔ found = some q.mark := by
      cases found <;> simp
    rw [← hhead, ← hhead, hany]
  simp only [readQuoted, hnext]
  by_cases hc : c = q.mark
  · simp only [if_pos hc]
    split <;> exact .plain _ _
  · simp only [if_neg hc]
    rcases quotedRun_append q (q.escapes c) cs tail with hsame | ⟨hall, n, hn, hrun⟩
    · rw [hsame]
      exact .plain _ _
    · rw [hall, hrun]
      exact .scalar (.inr (by simp [hquote])) hn

theorem reaches_read : Reaches tail cs (read p s c cs) (read p s c (cs ++ tail)) := by
  unfold read
  split
  · rename_i hblock
    rcases length_takeWhile_append (· != '\x7b') cs tail with hsame | ⟨hall, hrun⟩
    · rw [blockRun, blockRun, hsame]
      exact .plain _ _
    · rw [blockRun, blockRun, hall, hrun]
      exact .scalar (.inl hblock) (length_takeWhile_le _ tail)
  · rename_i hblock
    split
    · rename_i q hquote
      exact reaches_readQuoted h s c cs hquote
    · rename_i hquote
      exact reaches_readOpen h p s c cs (by simpa using hblock) hquote

end

end Yaml

theorem State.read_append_tail {tail : Text} (h : Yaml.Tail tail) {p : Yaml.Place} {s next : State}
    {c : Char} {cs : Text} {reading : Reading} (htemplate : s.template = none)
    (hopening : Template.Delimiter.opening? (c :: cs) = none)
    (hread : s.read p c cs = (reading, next)) :
    ∃ longer, s.read p c (cs ++ tail) = (longer, next) ∧
      Yaml.Reaches tail cs (reading, next.scalars) (longer, next.scalars) := by
  have hreaches := Yaml.reaches_read h p s.scalars c cs
  have hsame := hreaches.scalars_eq
  have hlonger := h.opening?_append cs c
  rw [hopening] at hlonger
  simp only [State.read, htemplate, hopening] at hread
  simp only [State.read, htemplate, hlonger]
  obtain ⟨rfl, rfl⟩ := Prod.mk.inj hread
  refine ⟨(Yaml.read p s.scalars c (cs ++ tail)).1, by rw [hsame], ?_⟩
  have hpair : ((Yaml.read p s.scalars c (cs ++ tail)).1, (Yaml.read p s.scalars c cs).2) =
      Yaml.read p s.scalars c (cs ++ tail) := by rw [← hsame]
  rw [hpair]
  exact hreaches

end ConfigAssist
