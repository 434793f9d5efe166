import ConfigAssist.Proofs.Color.Width
import ConfigAssist.Proofs.Template.Token
import Mathlib.Data.List.Find

/-! What readings see of the text behind them. Many look beyond their own end, but none that
ends in front of a brace looks past that brace: it would be the same if the line ended
with the brace. -/

namespace ConfigAssist

open Text

variable (front back : Text)

theorem getElem?_before_brace {i : Nat} (hi : i ≤ front.length) :
    (front ++ '\x7b' :: back)[i]? = (front ++ ['\x7b'])[i]? := by
  rcases Nat.lt_or_eq_of_le hi with hlt | rfl
  · rw [List.getElem?_append_left hlt, List.getElem?_append_left hlt]
  · rw [List.getElem?_append_right (Nat.le_refl _), List.getElem?_append_right (Nat.le_refl _),
      Nat.sub_self]
    rfl

theorem head?_before_brace : (front ++ '\x7b' :: back).head? = (front ++ ['\x7b']).head? := by
  rw [List.head?_eq_getElem?, List.head?_eq_getElem?]
  exact getElem?_before_brace front back (Nat.zero_le _)

theorem head?_drop_before_brace {i : Nat} (hi : i ≤ front.length) :
    ((front ++ '\x7b' :: back).drop i).head? = ((front ++ ['\x7b']).drop i).head? := by
  rw [List.head?_drop, List.head?_drop]
  exact getElem?_before_brace front back hi

theorem takeWhile_before_brace {p : Char → Bool} (hp : p '\x7b' = false) :
    (front ++ '\x7b' :: back).takeWhile p = (front ++ ['\x7b']).takeWhile p :=
  takeWhile_eq_of_prefix ⟨back, by simp⟩ (List.mem_append_right _ List.mem_cons_self) hp

/-- A run that stops in front of the brace stops there without regard to what is behind it. -/
theorem takeWhile_eq_of_length_le {p : Char → Bool}
    (h : ((front ++ '\x7b' :: back).takeWhile p).length ≤ front.length) :
    (front ++ '\x7b' :: back).takeWhile p = (front ++ ['\x7b']).takeWhile p := by
  have hsplit : front ++ '\x7b' :: back = (front ++ ['\x7b']) ++ back := by simp
  rw [hsplit] at h ⊢
  rw [List.takeWhile_append] at h ⊢
  split
  · rename_i hall
    rw [if_pos hall, List.length_append, List.length_append, List.length_singleton] at h
    omega
  · rfl

theorem dropWhile_before_brace {p : Char → Bool} (hp : p '\x7b' = false) :
    (front ++ '\x7b' :: back).dropWhile p = front.dropWhile p ++ '\x7b' :: back := by
  rw [List.dropWhile_append]
  split
  · rename_i hnil
    rw [List.isEmpty_iff.mp hnil, List.nil_append,
      List.dropWhile_cons_of_neg (by rw [hp]; exact Bool.false_ne_true)]
  · rfl

/-- A text that has no brace in it cannot end behind one. -/
theorem isPrefixOf_before_brace {needle : Text} (h : '\x7b' ∉ needle) :
    needle.isPrefixOf (front ++ '\x7b' :: back) = needle.isPrefixOf (front ++ ['\x7b']) := by
  induction needle generalizing front with
  | nil => rfl
  | cons x xs ih =>
    cases front with
    | nil =>
      have hne : x ≠ '\x7b' := fun heq => h (heq ▸ List.mem_cons_self)
      simp only [List.nil_append, List.isPrefixOf_cons_cons, beq_false_of_ne hne, Bool.false_and]
    | cons c front =>
      simp only [List.cons_append, List.isPrefixOf_cons_cons]
      rw [ih front fun hmem => h (List.mem_cons_of_mem x hmem)]

theorem isPrefixOf_cons_before_brace {needle : Text} (h : '\x7b' ∉ needle.tail) (c : Char) :
    needle.isPrefixOf (c :: (front ++ '\x7b' :: back)) =
      needle.isPrefixOf (c :: (front ++ ['\x7b'])) := by
  cases needle with
  | nil => rfl
  | cons x xs =>
    have hxs : '\x7b' ∉ xs := h
    simp only [List.isPrefixOf_cons_cons, isPrefixOf_before_brace front back hxs]

namespace Template

namespace Delimiter

theorem opening?_before_brace (c : Char) :
    opening? (c :: (front ++ '\x7b' :: back)) = opening? (c :: (front ++ ['\x7b'])) := by
  cases front with
  | nil => exact opening?_congr c '\x7b' back []
  | cons x front => exact opening?_congr c x _ _

theorem openerLength_before_brace (d : Delimiter) (c : Char) (h : 0 < front.length) :
    d.openerLength (c :: (front ++ '\x7b' :: back)) = d.openerLength (c :: (front ++ ['\x7b'])) := by
  simp only [openerLength, List.drop_succ_cons, head?_drop_before_brace front back h]

theorem closerLength?_before_brace (d : Delimiter) (c : Char) :
    d.closerLength? (c :: (front ++ '\x7b' :: back)) =
      d.closerLength? (c :: (front ++ ['\x7b'])) := by
  have hbrace : '\x7b' ∉ d.closer := by cases d <;> decide
  have htail : '\x7b' ∉ d.closer.tail := fun hmem => hbrace (List.mem_of_mem_tail hmem)
  have hbehind : d.closer.isPrefixOf (c :: (front ++ '\x7b' :: back)).tail =
      d.closer.isPrefixOf (c :: (front ++ ['\x7b'])).tail :=
    isPrefixOf_before_brace front back hbrace
  rw [closerLength?, closerLength?, isPrefixOf_cons_before_brace front back htail, hbehind]
  rfl

end Delimiter

theorem commentRun_before_brace (h : commentRun (front ++ '\x7b' :: back) ≤ front.length) :
    commentRun (front ++ '\x7b' :: back) = commentRun (front ++ ['\x7b']) := by
  have hbrace : '\x7b' ∉ Delimiter.comment.closer.tail := by decide
  induction front with
  | nil =>
    have hcloser : ¬ Delimiter.comment.closer.isPrefixOf ('\x7b' :: back) = true := by
      simp [Delimiter.closer]
    rw [List.nil_append, commentRun_cons, if_neg hcloser] at h
    exact absurd h (Nat.not_succ_le_zero _)
  | cons c front ih =>
    rw [List.cons_append, List.cons_append, commentRun_cons, commentRun_cons,
      isPrefixOf_cons_before_brace front back hbrace]
    rw [List.cons_append, commentRun_cons, isPrefixOf_cons_before_brace front back hbrace] at h
    split
    · rfl
    · rename_i hcloser
      rw [if_neg hcloser, List.length_cons] at h
      rw [ih (Nat.le_of_succ_le_succ h)]

namespace Token

theorem numberTail_before_brace :
    numberTail (front ++ '\x7b' :: back) = numberTail (front ++ ['\x7b']) := by
  have hrest (t : Text) : (front ++ '\x7b' :: t).drop
      ((front ++ '\x7b' :: t).takeWhile fun c => c.isDigit || c == '_').length =
      front.dropWhile (fun c => c.isDigit || c == '_') ++ '\x7b' :: t := by
    rw [drop_length_takeWhile, dropWhile_before_brace front t (by decide)]
  unfold numberTail
  dsimp only
  rw [hrest back, hrest [], takeWhile_before_brace front back (by decide)]
  cases front.dropWhile fun c => c.isDigit || c == '_' with
  | nil => rfl
  | cons x ds =>
    by_cases hpoint : x = '.'
    · subst hpoint
      simp only [List.cons_append, takeWhile_before_brace ds back (p := Char.isDigit) (by decide)]
    · simp [hpoint]

/-- Literals that close in front of the brace are the only ones that close if the brace is the
last character. -/
theorem closingQuote?_before_brace {quote : Char} (h : quote ≠ '\x7b') :
    closingQuote? quote (front ++ ['\x7b']) =
      (closingQuote? quote (front ++ '\x7b' :: back)).filter (· ≤ front.length) := by
  have hshift (found : Option Nat) (k n : Nat) :
      (found.filter (· ≤ n)).map (· + k) = (found.map (· + k)).filter (· ≤ n + k) := by
    cases found with
    | none => rfl
    | some m => by_cases hm : m ≤ n <;> simp [Option.filter, hm]
  have hpast (found : Option Nat) (k n : Nat) (hk : n < k) :
      (found.map (· + k)).filter (· ≤ n) = none := by
    cases found with
    | none => rfl
    | some m =>
      have hm : ¬ m + k ≤ n := by omega
      simp [Option.filter, hm]
  have hbrace (t : Text) : closingQuote? quote ('\x7b' :: t) = (closingQuote? quote t).map (· + 1) := by
    rw [closingQuote?_cons (by decide), if_neg h.symm, if_neg (by decide)]
  fun_induction closingQuote? quote front with
  | case1 =>
    rw [List.nil_append, List.nil_append, hbrace, hbrace, List.length_nil, hpast _ 1 0 (by decide)]
    rfl
  | case2 =>
    have hline : ¬ isLineEnd '\x7b' = true := by decide
    simp only [List.cons_append, List.nil_append, closingQuote?_escape, if_neg hline]
    rw [List.length_singleton, hpast _ 2 1 (by decide)]
    rfl
  | case3 c cs hline =>
    simp only [List.cons_append, closingQuote?_escape, if_pos hline, Option.filter_none]
  | case4 c cs hline ih =>
    simp only [List.cons_append, closingQuote?_escape, if_neg hline, ih, hshift, List.length_cons]
  | case5 cs hlast hslash =>
    simp only [List.cons_append, closingQuote?_cons (ne_backslash hlast hslash), if_true]
    simp [Option.filter]
  | case6 c cs hlast hslash hquote hline =>
    simp only [List.cons_append, closingQuote?_cons (ne_backslash hlast hslash), if_neg hquote,
      if_pos hline, Option.filter_none]
  | case7 c cs hlast hslash hquote hline ih =>
    simp only [List.cons_append, closingQuote?_cons (ne_backslash hlast hslash), if_neg hquote,
      if_neg hline, ih, hshift, List.length_cons]

theorem read_before_brace (c : Char) (h : (read c (front ++ '\x7b' :: back)).2 ≤ front.length) :
    read c (front ++ '\x7b' :: back) = read c (front ++ ['\x7b']) := by
  have hspace := takeWhile_before_brace front back (p := isSpace) (by decide)
  have hword := takeWhile_before_brace front back (p := isWordChar) (by decide)
  have hoperator : operators.find? (·.isPrefixOf (c :: (front ++ '\x7b' :: back))) =
      operators.find? (·.isPrefixOf (c :: (front ++ ['\x7b']))) := by
    have hprefix : ∀ op ∈ operators, op.isPrefixOf (c :: (front ++ '\x7b' :: back)) =
        op.isPrefixOf (c :: (front ++ ['\x7b'])) := by
      intro op hop
      refine isPrefixOf_cons_before_brace front back (fun hmem => ?_) c
      exact absurd (mem_tail_operators hop hmem) (by decide)
    exact List.find?_congr hprefix
  have hquoted : (c = '"' ∨ c = '\'') → closingQuote? c (front ++ ['\x7b']) =
      closingQuote? c (front ++ '\x7b' :: back) := by
    intro hmark
    have hbrace : c ≠ '\x7b' := by rcases hmark with rfl | rfl <;> decide
    have hclass : isSpace c = false ∧ isWordStart c = false ∧ c.isDigit = false := by
      rcases hmark with rfl | rfl <;> decide
    rw [closingQuote?_before_brace front back hbrace]
    cases hclose : closingQuote? c (front ++ '\x7b' :: back) with
    | none => rfl
    | some n =>
      have hn : n ≤ front.length := by
        simpa [read, hclass, hmark, hclose] using h
      simp [Option.filter, hn]
  simp only [read, hspace, hword, numberTail_before_brace, hoperator]
  split
  · rfl
  split
  · rfl
  split
  · rfl
  split
  · rename_i hmark
    rw [hquoted hmark]
  · rfl

end Token

theorem Delimiter.readBody_before_brace (d : Delimiter) (c : Char)
    (h : (d.readBody c (front ++ '\x7b' :: back)).further ≤ front.length) :
    d.readBody c (front ++ '\x7b' :: back) = d.readBody c (front ++ ['\x7b']) := by
  cases d with
  | comment => simp only [readBody, commentRun_before_brace front back h]
  | value => simp only [readBody, Token.read_before_brace front back c h]
  | statement => simp only [readBody, Token.read_before_brace front back c h]

end Template

namespace Yaml

theorem quotedRun_before_brace (q : Quote) (escaped : Bool)
    (h : quotedRun q escaped (front ++ '\x7b' :: back) ≤ front.length) :
    quotedRun q escaped (front ++ '\x7b' :: back) = quotedRun q escaped (front ++ ['\x7b']) := by
  induction front generalizing escaped with
  | nil =>
    cases escaped with
    | true => exact absurd h (Nat.not_succ_le_zero _)
    | false => simp [quotedRun]
  | cons c front ih =>
    cases escaped with
    | true =>
      rw [List.cons_append, quotedRun] at h
      rw [List.cons_append, List.cons_append, quotedRun, quotedRun,
        ih false (Nat.le_of_succ_le_succ h)]
    | false =>
      rw [List.cons_append, quotedRun] at h
      rw [List.cons_append, List.cons_append, quotedRun, quotedRun]
      split
      · rfl
      · rename_i hstop
        rw [if_neg hstop] at h
        rw [ih (q.escapes c) (Nat.le_of_succ_le_succ h)]

theorem headerTail_before_brace :
    headerTail (front ++ '\x7b' :: back) = headerTail (front ++ ['\x7b']) := by
  cases front with
  | nil => rfl
  | cons c front =>
    have hhead (t : Text) : (c :: front ++ '\x7b' :: t).head? = some c := rfl
    have hdrop (sign : Nat) (hsign : sign ≤ 1) :=
      head?_drop_before_brace (c :: front) back (i := sign) (by simp; omega)
    simp only [headerTail, hhead]
    split
    · rw [hdrop 1 (by decide)]
    · rw [hdrop 0 (by decide)]

theorem endsHeader_before_brace :
    endsHeader (front ++ '\x7b' :: back) = endsHeader (front ++ ['\x7b']) := by
  simp only [endsHeader, trimStart, dropWhile_before_brace front _ (p := isSpace) (by decide),
    head?_before_brace]

theorem closesKey_before_brace :
    closesKey (front ++ '\x7b' :: back) = closesKey (front ++ ['\x7b']) := by
  cases front with
  | nil => rfl
  | cons c front =>
    by_cases hc : c = ':'
    · subst hc
      simp only [List.cons_append, closesKey, head?_before_brace front back]
    · simp [closesKey, hc]

theorem readQuoted_before_brace (s : Scalars) (q : Quote) (c : Char)
    (h : (readQuoted s q c (front ++ '\x7b' :: back)).1.further ≤ front.length) :
    readQuoted s q c (front ++ '\x7b' :: back) = readQuoted s q c (front ++ ['\x7b']) := by
  simp only [readQuoted, head?_before_brace front back] at h ⊢
  split
  · rfl
  · rename_i hc
    rw [if_neg hc] at h
    rw [quotedRun_before_brace front back q _ h]

theorem readWord_before_brace (p : Place) (c : Char) :
    readWord p c (front ++ '\x7b' :: back) = readWord p c (front ++ ['\x7b']) := by
  have hword : isWordChar '\x7b' = false := by decide
  simp only [readWord, takeWhile_before_brace front back hword,
    dropWhile_before_brace front _ hword, closesKey_before_brace (front.dropWhile isWordChar) back]

theorem readOpen_before_brace (p : Place) (s : Scalars) (c : Char)
    (h : (readOpen p s c (front ++ '\x7b' :: back)).1.further ≤ front.length) :
    readOpen p s c (front ++ '\x7b' :: back) = readOpen p s c (front ++ ['\x7b']) := by
  by_cases hindent : isIndent c = true
  · have hrun := takeWhile_before_brace front back (p := isIndent) (by decide)
    simp only [readOpen, if_pos hindent, hrun]
  by_cases hword : isWordStart c = true
  · simp only [readOpen, if_neg hindent, if_pos hword, readWord_before_brace front back]
  have hheader (hle : headerTail (front ++ '\x7b' :: back) ≤ front.length) :
      endsHeader ((front ++ '\x7b' :: back).drop (headerTail (front ++ '\x7b' :: back))) =
        endsHeader ((front ++ ['\x7b']).drop (headerTail (front ++ ['\x7b']))) := by
    rw [headerTail_before_brace front back] at hle ⊢
    rw [List.drop_append_of_le_length hle, List.drop_append_of_le_length hle,
      endsHeader_before_brace _ back]
  simp only [readOpen, if_neg hindent, if_neg hword] at h ⊢
  split
  · split
    · rename_i hprevious
      simp only [if_pos hprevious] at h
      rw [takeWhile_eq_of_length_le front back h]
    · rfl
  · rw [readTag, readTag, takeWhile_before_brace front back (by decide)]
  · rw [takeWhile_before_brace front back (by decide)]
  · rw [takeWhile_before_brace front back (by decide)]
  · rfl
  · rfl
  · rw [hheader h, headerTail_before_brace front back]
  · rw [hheader h, headerTail_before_brace front back]
  · rfl

theorem read_before_brace (p : Place) (s : Scalars) (c : Char)
    (h : (read p s c (front ++ '\x7b' :: back)).1.further ≤ front.length) :
    read p s c (front ++ '\x7b' :: back) = read p s c (front ++ ['\x7b']) := by
  have hblock := takeWhile_before_brace front back (p := (· != '\x7b')) (by decide)
  unfold read at h ⊢
  split
  · rw [blockRun, blockRun, hblock]
  · rename_i hnone
    rw [if_neg hnone] at h
    cases hquote : s.quote with
    | some q =>
      rw [hquote] at h
      exact readQuoted_before_brace front back s q c h
    | none =>
      rw [hquote] at h
      exact readOpen_before_brace front back p s c h

end Yaml

/-- What is read in front of a brace is the same whatever stands behind the brace. -/
theorem State.read_before_brace (p : Yaml.Place) (s : State) (c : Char)
    (h : (s.read p c (front ++ '\x7b' :: back)).1.further ≤ front.length) :
    s.read p c (front ++ '\x7b' :: back) = s.read p c (front ++ ['\x7b']) := by
  unfold State.read at h ⊢
  cases htemplate : s.template with
  | none =>
    simp only [htemplate, Template.Delimiter.opening?_before_brace front back] at h ⊢
    cases hopening : Template.Delimiter.opening? (c :: (front ++ ['\x7b'])) with
    | some d =>
      simp only [hopening] at h ⊢
      have htwo := d.two_le_openerLength (c :: (front ++ '\x7b' :: back))
      rw [d.openerLength_before_brace front back c (by omega)]
    | none =>
      simp only [hopening] at h
      rw [Yaml.read_before_brace front back p s.scalars c h]
  | some d =>
    simp only [htemplate, d.closerLength?_before_brace front back] at h ⊢
    cases hcloser : d.closerLength? (c :: (front ++ ['\x7b'])) with
    | some n => rfl
    | none =>
      simp only [hcloser] at h
      rw [d.readBody_before_brace front back c h]

end ConfigAssist
