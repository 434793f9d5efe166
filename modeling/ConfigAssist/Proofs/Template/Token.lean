import ConfigAssist.Proofs.Color.Extent

/-! What the tokens of a template consist of. A literal in quotes runs to the first mark
of its own that no backslash takes. In no other token is there a character with which a
closer begins, except as the first one. -/

namespace ConfigAssist.Template

namespace Token

/-- What may stand between the marks of a literal. -/
inductive Body (quote : Char) : Text → Prop
  | nil : Body quote []
  | plain {c : Char} {cs : Text} (hquote : c ≠ quote) (hslash : c ≠ '\\')
      (hline : isLineEnd c = false) (hrest : Body quote cs) : Body quote (c :: cs)
  | escaped {c : Char} {cs : Text} (hline : isLineEnd c = false) (hrest : Body quote cs) :
      Body quote ('\\' :: c :: cs)

def IsLiteral (t : Text) : Prop :=
  ∃ quote body, (quote = '"' ∨ quote = '\'') ∧ Body quote body ∧ t = quote :: (body ++ [quote])

theorem closingQuote?_cons {quote c : Char} (hc : c ≠ '\\') (cs : Text) :
    closingQuote? quote (c :: cs) =
      if c = quote then some 1
      else if isLineEnd c then none else (closingQuote? quote cs).map (· + 1) := by
  rw [closingQuote?]
  · exact fun heq _ => hc heq
  · exact fun _ _ heq _ => hc heq

theorem closingQuote?_escape (quote c : Char) (cs : Text) :
    closingQuote? quote ('\\' :: c :: cs) =
      if isLineEnd c then none else (closingQuote? quote cs).map (· + 2) := by
  rw [closingQuote?]

/-- A text begins with a backslash in front of another character, or it is one backslash, or it
does not begin with one. -/
theorem ne_backslash {c : Char} {cs : Text} (hlast : c = '\\' → cs = [] → False)
    (hslash : ∀ d ds, c = '\\' → cs = d :: ds → False) : c ≠ '\\' := by
  rintro rfl
  cases cs with
  | nil => exact hlast rfl rfl
  | cons d ds => exact hslash d ds rfl rfl

theorem body_of_closingQuote? {quote : Char} {cs : Text} {n : Nat}
    (h : closingQuote? quote cs = some n) : ∃ body, Body quote body ∧ cs.take n = body ++ [quote] := by
  fun_induction closingQuote? quote cs generalizing n with
  | case1 => cases h
  | case2 => cases h
  | case3 => cases h
  | case4 c cs hline ih =>
    obtain ⟨m, hm, rfl⟩ := Option.map_eq_some_iff.mp h
    obtain ⟨body, hbody, htake⟩ := ih hm
    exact ⟨'\\' :: c :: body, .escaped (by simpa using hline) hbody, by simp [htake]⟩
  | case5 cs =>
    cases h
    exact ⟨[], .nil, rfl⟩
  | case6 => cases h
  | case7 c cs hlast hslash hquote hline ih =>
    obtain ⟨m, hm, rfl⟩ := Option.map_eq_some_iff.mp h
    obtain ⟨body, hbody, htake⟩ := ih hm
    exact ⟨c :: body, .plain hquote (ne_backslash hlast hslash) (by simpa using hline) hbody,
      by simp [htake]⟩

/-- Characters of a number behind its first digit, up to a point. -/
def isNumeral (c : Char) : Bool := c.isDigit || c == '_'

/-- What a number takes behind its first digit. The point belongs to it if a digit follows. -/
inductive Numeral (cs : Text) : Text → Prop
  | whole (hpoint : ∀ d ds, cs.dropWhile isNumeral = '.' :: d :: ds → d.isDigit = false) :
      Numeral cs (cs.takeWhile isNumeral)
  | fraction {d : Char} {ds : Text} (hpoint : cs.dropWhile isNumeral = '.' :: d :: ds)
      (hd : d.isDigit = true) :
      Numeral cs (cs.takeWhile isNumeral ++ '.' :: d :: ds.takeWhile Char.isDigit)

theorem numeral_take (cs : Text) : Numeral cs (cs.take (numberTail cs)) := by
  have hwhole : cs.take (cs.takeWhile fun c => c.isDigit || c == '_').length =
      cs.takeWhile isNumeral := take_length_takeWhile isNumeral cs
  have hrest : cs.drop (cs.takeWhile fun c => c.isDigit || c == '_').length =
      cs.dropWhile isNumeral := drop_length_takeWhile isNumeral cs
  unfold numberTail
  dsimp only
  rw [hrest]
  generalize (cs.takeWhile fun c => c.isDigit || c == '_').length = n at hwhole hrest ⊢
  split
  · rename_i ds hpoint
    split
    · rename_i hnone
      rw [hwhole]
      refine .whole fun d es heq => ?_
      obtain rfl : ds = d :: es := (List.cons.inj (hpoint.symm.trans heq)).2
      simpa [List.takeWhile_cons] using hnone
    · rename_i m hsome
      cases ds with
      | nil => cases hsome
      | cons d ds =>
        have hrun := take_length_takeWhile Char.isDigit (d :: ds)
        rw [hsome] at hrun
        rw [List.takeWhile_cons] at hrun
        split at hrun
        · rename_i hd
          rw [Nat.add_assoc, List.take_add, hwhole, hrest, hpoint, Nat.add_comm 1,
            List.take_succ_cons, hrun]
          exact .fraction hpoint hd
        · cases hrun
  · rename_i hnone
    rw [hwhole]
    exact .whole fun d ds heq => absurd heq (hnone _)

theorem mem_take_numberTail {cs : Text} {d : Char} (h : d ∈ cs.take (numberTail cs)) :
    d.isDigit = true ∨ d = '_' ∨ d = '.' := by
  have hwhole {d : Char} (hd : d ∈ cs.takeWhile isNumeral) : d.isDigit = true ∨ d = '_' ∨ d = '.' := by
    have hclass := List.mem_takeWhile_imp hd
    rw [isNumeral, Bool.or_eq_true, beq_iff_eq] at hclass
    exact hclass.imp_right .inl
  have hnumeral := numeral_take cs
  generalize cs.take (numberTail cs) = t at h hnumeral
  cases hnumeral with
  | whole => exact hwhole h
  | fraction _ he =>
    rw [List.mem_append, List.mem_cons, List.mem_cons] at h
    rcases h with h | rfl | rfl | h
    · exact hwhole h
    · exact .inr (.inr rfl)
    · exact .inl he
    · exact .inl (List.mem_takeWhile_imp h)

theorem mem_tail_operators {op : Text} {d : Char} (h : op ∈ operators) (hd : d ∈ op.tail) :
    d = '=' ∨ d = '*' ∨ d = '/' := by
  have htails : operators.flatMap List.tail = ['=', '=', '=', '=', '*', '/'] := by decide
  have hmem : d ∈ operators.flatMap List.tail := List.mem_flatMap.mpr ⟨op, h, hd⟩
  rw [htails] at hmem
  simpa using hmem

/-- The characters with which a closer of a value or a statement begins. -/
def closerStarts : Text := ['-', '+', '%', '\x7d']

theorem forall_closerStarts_iff {P : Char → Prop} :
    (∀ d ∈ closerStarts, P d) ↔ P '-' ∧ P '+' ∧ P '%' ∧ P '\x7d' := by
  simp [closerStarts]

/-- The token that a character can begin. Words begin alike, and so do all that is left over. -/
def start (c : Char) : Token :=
  if isSpace c then space
  else if isWordStart c then identifier
  else if c.isDigit then number
  else if c = '"' ∨ c = '\'' then quoted
  else operator

inductive Form (c : Char) (cs : Text) : Token × Nat → Prop
  | space (hc : isSpace c = true) : Form c cs (space, (cs.takeWhile isSpace).length)
  | word (hc : isWordStart c = true) :
      Form c cs (ofWord (c :: cs.takeWhile isWordChar), (cs.takeWhile isWordChar).length)
  | number (hc : c.isDigit = true) : Form c cs (number, numberTail cs)
  | quoted {n : Nat} (hc : c = '"' ∨ c = '\'') (hclose : closingQuote? c cs = some n) :
      Form c cs (quoted, n)
  | unclosed (hc : c = '"' ∨ c = '\'') (hclose : closingQuote? c cs = none) :
      Form c cs (unknown, 0)
  | operator {op : Text} (hc : start c = operator)
      (hop : operators.find? (·.isPrefixOf (c :: cs)) = some op) :
      Form c cs (operator, op.length - 1)
  | unknown (hc : start c = operator)
      (hop : operators.find? (·.isPrefixOf (c :: cs)) = none) : Form c cs (unknown, 0)

theorem read_form (c : Char) (cs : Text) : Form c cs (read c cs) := by
  unfold read
  split
  · exact .space ‹_›
  split
  · exact .word ‹_›
  split
  · exact .number ‹_›
  split
  · split
    · exact .quoted ‹_› ‹_›
    · exact .unclosed ‹_› ‹_›
  · have hstart : start c = operator := by simp [start, *]
    split
    · exact .operator hstart ‹_›
    · exact .unknown hstart ‹_›

/-- A token with one of them behind its first character is a literal in quotes. -/
theorem isLiteral_of_read {c d : Char} {cs : Text} (hd : d ∈ closerStarts)
    (h : d ∈ cs.take (read c cs).2) :
    (read c cs).1 = quoted ∧ IsLiteral (c :: cs.take (read c cs).2) := by
  -- no class of characters that make up a run has one of these in it
  have hrun {p : Char → Bool} (hp : ∀ d ∈ closerStarts, p d = false) :
      d ∉ cs.take (cs.takeWhile p).length := by
    intro hmem
    have htrue := mem_take_length_takeWhile hmem
    rw [hp d hd] at htrue
    cases htrue
  have hform := read_form c cs
  generalize read c cs = r at h hform ⊢
  cases hform with
  | space => exact absurd h (hrun (forall_closerStarts_iff.mpr (by decide)))
  | word => exact absurd h (hrun (forall_closerStarts_iff.mpr (by decide)))
  | number =>
    have hnone : ∀ d ∈ closerStarts, ¬ (d.isDigit = true ∨ d = '_' ∨ d = '.') :=
      forall_closerStarts_iff.mpr (by decide)
    exact absurd (mem_take_numberTail h) (hnone d hd)
  | quoted hquote hclose =>
    obtain ⟨body, hbody, htake⟩ := body_of_closingQuote? hclose
    exact ⟨rfl, c, body, hquote, hbody, by rw [htake]⟩
  | unclosed => simp at h
  | @operator op _ hop =>
    have hprefix : op <+: c :: cs := by simpa using List.find?_some hop
    have hmem := List.mem_of_find?_eq_some hop
    have hnone : ∀ d ∈ closerStarts, ¬ (d = '=' ∨ d = '*' ∨ d = '/') :=
      forall_closerStarts_iff.mpr (by decide)
    cases op with
    | nil => simp at h
    | cons x xs =>
      obtain ⟨-, hxs⟩ := List.cons_prefix_cons.mp hprefix
      rw [List.length_cons, Nat.add_sub_cancel, ← List.prefix_iff_eq_take.mp hxs] at h
      exact absurd (mem_tail_operators hmem h) (hnone d hd)
  | unknown => simp at h

end Token

theorem Delimiter.readBody_eq {d : Delimiter} (hd : d ≠ comment) (c : Char) (cs : Text) :
    d.readBody c cs =
      { further := (Token.read c cs).2, category := (Token.read c cs).1.category } := by
  cases d with
  | comment => exact absurd rfl hd
  | value | statement => rfl

theorem Delimiter.isLiteral_of_readBody {d : Delimiter} (hd : d ≠ comment) {c x : Char} {cs : Text}
    (hx : x ∈ Token.closerStarts) (h : x ∈ cs.take (d.readBody c cs).further) :
    (d.readBody c cs).category = .literal ∧
      Token.IsLiteral (c :: cs.take (d.readBody c cs).further) := by
  rw [readBody_eq hd] at h ⊢
  obtain ⟨hquoted, hliteral⟩ := Token.isLiteral_of_read hx h
  rw [hquoted]
  exact ⟨rfl, hliteral⟩

theorem Delimiter.head_of_closes {d : Delimiter} (hd : d ≠ comment) {t : Text} (h : d.Closes t) :
    ∃ c cs, t = c :: cs ∧ c ∈ Token.closerStarts := by
  rcases h with rfl | ⟨_, rfl | rfl⟩
  · cases d with
    | comment => exact absurd rfl hd
    | value => exact ⟨_, _, rfl, by decide⟩
    | statement => exact ⟨_, _, rfl, by decide⟩
  · exact ⟨_, _, rfl, by decide⟩
  · exact ⟨_, _, rfl, by decide⟩

theorem not_closer_of_commentRun {cs u v : Text} (hcs : cs = u ++ v)
    (hlt : u.length < commentRun cs) : ¬ Delimiter.comment.closer <+: v := by
  fun_induction commentRun cs generalizing u with
  | case1 => simp at hlt
  | case2 => simp at hlt
  | case3 c cs hclose ih =>
    cases u with
    | nil =>
      rintro ⟨rest, hrest⟩
      rw [List.nil_append] at hcs
      obtain ⟨rfl, rfl⟩ := List.cons.inj (hrest.trans hcs.symm)
      exact hclose rest rfl rfl
    | cons a u =>
      obtain ⟨rfl, rfl⟩ := List.cons.inj hcs
      exact ih rfl (by simpa using hlt)

/-- A closer that begins inside the body of a template is hidden in a literal. -/
theorem Delimiter.closer_in_body {d : Delimiter} {c : Char} {u v rest t : Text}
    (hfits : (u ++ v).length = (d.readBody c (u ++ v ++ rest)).further) (hv : v ≠ [])
    (hcloses : d.Closes t) (hcloser : t <+: v ++ rest) :
    d ≠ comment ∧ (d.readBody c (u ++ v ++ rest)).category = .literal ∧
      Token.IsLiteral (c :: (u ++ v)) := by
  by_cases hd : d = comment
  · subst hd
    have hplain : t = comment.closer := by simpa [Closes] using hcloses
    have hlt : u.length < commentRun (u ++ v ++ rest) := by
      have hpos := List.length_pos_of_ne_nil hv
      have hrun : (u ++ v).length = commentRun (u ++ v ++ rest) := hfits
      rw [List.length_append] at hrun
      omega
    rw [hplain] at hcloser
    exact absurd hcloser (not_closer_of_commentRun (List.append_assoc u v rest) hlt)
  · obtain ⟨x, t, rfl, hx⟩ := head_of_closes hd hcloses
    obtain ⟨y, v, rfl⟩ := List.exists_cons_of_ne_nil hv
    have hxy : x = y := (List.cons_prefix_cons.mp hcloser).1
    have htake : (u ++ y :: v ++ rest).take (d.readBody c (u ++ y :: v ++ rest)).further = u ++ y :: v :=
      List.take_left' hfits
    have hmem : x ∈ (u ++ y :: v ++ rest).take (d.readBody c (u ++ y :: v ++ rest)).further := by
      rw [htake, hxy]
      exact List.mem_append_right u List.mem_cons_self
    have hliteral := isLiteral_of_readBody hd hx hmem
    rw [htake] at hliteral
    exact ⟨hd, hliteral⟩

end ConfigAssist.Template
