import ConfigAssist.Proofs.Color.Width
import ConfigAssist.Proofs.Template.Token
import ConfigAssist.Proofs.Yaml.LineEnd
import Mathlib.Data.List.Find

/-! What a template sees of a carriage return behind its line. Spaces and comments take it in, and
everything else is the same with it as without. -/

namespace ConfigAssist

theorem Yaml.tail_return : Tail ['\r'] where
  head c hc := .inr (Option.some.inj hc).symm
  ends := by decide

namespace Template

theorem isPrefixOf_concat {needle : Text} {x : Char} (h : x ∉ needle) (t : Text) :
    needle.isPrefixOf (t ++ [x]) = needle.isPrefixOf t := by
  induction needle generalizing t with
  | nil => rfl
  | cons a needle ih =>
    rw [List.mem_cons, not_or] at h
    cases t with
    | nil =>
      rw [List.nil_append, List.isPrefixOf_cons_cons, beq_false_of_ne (Ne.symm h.1)]
      rfl
    | cons c t => rw [List.cons_append, List.isPrefixOf_cons_cons, List.isPrefixOf_cons_cons, ih h.2]

theorem Delimiter.openerLength_append_return (d : Delimiter) (c : Char) (cs : Text) :
    d.openerLength (c :: (cs ++ ['\r'])) = d.openerLength (c :: cs) := by
  have hsign (t : Text) : (t ++ ['\r']).head?.any isSign = t.head?.any isSign :=
    Yaml.tail_return.head?_any_append t (by decide) (by decide)
  cases cs with
  | nil => rfl
  | cons x cs => simp only [openerLength, List.cons_append, List.drop_succ_cons, List.drop_zero, hsign]

theorem Delimiter.closerLength?_append_return (d : Delimiter) (c : Char) (cs : Text) :
    d.closerLength? (c :: (cs ++ ['\r'])) = d.closerLength? (c :: cs) := by
  have hreturn : '\r' ∉ d.closer := by cases d <;> decide
  have hhere := isPrefixOf_concat hreturn (c :: cs)
  have hbehind := isPrefixOf_concat hreturn cs
  rw [List.cons_append] at hhere
  rw [closerLength?, closerLength?, hhere, List.tail_cons, hbehind]
  rfl

theorem commentRun_append_return (cs : Text) :
    commentRun (cs ++ ['\r']) = commentRun cs ∨
      commentRun cs = cs.length ∧ commentRun (cs ++ ['\r']) = cs.length + 1 := by
  induction cs with
  | nil => exact .inr ⟨rfl, rfl⟩
  | cons c cs ih =>
    have hreturn : '\r' ∉ Delimiter.comment.closer := by decide
    have hcloser := isPrefixOf_concat hreturn (c :: cs)
    rw [List.cons_append] at hcloser ⊢
    rw [commentRun_cons, commentRun_cons, hcloser]
    split
    · exact .inl rfl
    · rcases ih with hsame | ⟨hall, hrun⟩
      · exact .inl (by rw [hsame])
      · exact .inr ⟨by rw [hall]; rfl, by rw [hrun]; rfl⟩

namespace Token

theorem numberTail_append_return (cs : Text) : numberTail (cs ++ ['\r']) = numberTail cs := by
  have hwhole := Yaml.tail_return.takeWhile_append cs (p := fun c => c.isDigit || c == '_')
    (by decide) (by decide)
  have hrest := Yaml.tail_return.dropWhile_append cs (p := fun c => c.isDigit || c == '_')
    (by decide) (by decide)
  unfold numberTail
  dsimp only
  rw [drop_length_takeWhile, drop_length_takeWhile, hrest, hwhole]
  cases cs.dropWhile fun c => c.isDigit || c == '_' with
  | nil => rfl
  | cons x ds =>
    by_cases hpoint : x = '.'
    · subst hpoint
      have hdigits := Yaml.tail_return.takeWhile_append ds (p := Char.isDigit) (by decide) (by decide)
      simp only [List.cons_append, hdigits]
    · simp [hpoint]

theorem closingQuote?_append_return {quote : Char} (h : quote ≠ '\r') (cs : Text) :
    closingQuote? quote (cs ++ ['\r']) = closingQuote? quote cs := by
  have hline : isLineEnd '\r' = true := by decide
  fun_induction closingQuote? quote cs with
  | case1 => rw [List.nil_append, closingQuote?_cons (by decide), if_neg h.symm, if_pos hline]
  | case2 => rw [List.singleton_append, closingQuote?_escape, if_pos hline]
  | case3 c cs hend => rw [List.cons_append, List.cons_append, closingQuote?_escape, if_pos hend]
  | case4 c cs hend ih =>
    rw [List.cons_append, List.cons_append, closingQuote?_escape, if_neg hend, ih]
  | case5 cs hlast hslash =>
    rw [List.cons_append, closingQuote?_cons (ne_backslash hlast hslash), if_pos rfl]
  | case6 c cs hlast hslash hquote hend =>
    rw [List.cons_append, closingQuote?_cons (ne_backslash hlast hslash), if_neg hquote, if_pos hend]
  | case7 c cs hlast hslash hquote hend ih =>
    rw [List.cons_append, closingQuote?_cons (ne_backslash hlast hslash), if_neg hquote, if_neg hend, ih]

theorem read_append_return (c : Char) (cs : Text) :
    read c (cs ++ ['\r']) = read c cs ∨
      read c cs = (space, cs.length) ∧ read c (cs ++ ['\r']) = (space, cs.length + 1) := by
  by_cases hspace : isSpace c = true
  · simp only [read, if_pos hspace]
    rcases length_takeWhile_append isSpace cs ['\r'] with hsame | ⟨hall, hrun⟩
    · exact .inl (by rw [hsame])
    · exact .inr ⟨by rw [hall], by rw [hrun]; rfl⟩
  have hword := Yaml.tail_return.takeWhile_append cs (p := isWordChar) (by decide) (by decide)
  have hquote : (c = '"' ∨ c = '\'') → closingQuote? c (cs ++ ['\r']) = closingQuote? c cs := by
    rintro (rfl | rfl) <;> exact closingQuote?_append_return (by decide) cs
  have hoperator : operators.find? (·.isPrefixOf (c :: (cs ++ ['\r']))) =
      operators.find? (·.isPrefixOf (c :: cs)) := by
    have hreturn : ∀ op ∈ operators, '\r' ∉ op := by decide
    exact List.find?_congr fun op hop => isPrefixOf_concat (hreturn op hop) (c :: cs)
  left
  simp only [read, if_neg hspace, hword, numberTail_append_return, hoperator]
  split
  · rfl
  split
  · rfl
  split
  · rename_i hmark
    rw [hquote hmark]
  · rfl

end Token

theorem Delimiter.readBody_append_return (d : Delimiter) (c : Char) (cs : Text) :
    d.readBody c (cs ++ ['\r']) = d.readBody c cs ∨
      ∃ category ≠ .key, d.readBody c cs = { further := cs.length, category } ∧
        d.readBody c (cs ++ ['\r']) = { further := cs.length + 1, category } := by
  by_cases hd : d = comment
  · subst hd
    rcases commentRun_append_return cs with hsame | ⟨hall, hrun⟩
    · exact .inl (by simp only [readBody, hsame])
    · exact .inr ⟨.comment, by decide, by simp only [readBody, hall], by simp only [readBody, hrun]⟩
  · rw [readBody_eq hd, readBody_eq hd]
    rcases Token.read_append_return c cs with hsame | ⟨hall, hrun⟩
    · exact .inl (by rw [hsame])
    · exact .inr ⟨.plain, by decide, by rw [hall]; rfl, by rw [hrun]; rfl⟩

end Template

end ConfigAssist
