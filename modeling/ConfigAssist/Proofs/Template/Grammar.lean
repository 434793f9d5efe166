import ConfigAssist.Proofs.Template.Token
import Mathlib.Computability.Language

/-! The grammar of the tokens of a template, as languages. A text in one of them is not
empty, and its first character tells which of them it can be in, up to words: whether a
word is reserved takes all of it. -/

namespace ConfigAssist.Template.Token

open scoped Computability

/-- Texts of one character of a class. -/
def one (p : Char → Bool) : Language Char := {t | ∃ c, p c = true ∧ t = [c]}

/-- What stands between the marks of a literal, cut into characters and escapes. -/
def literalPart (mark : Char) : Language Char :=
  one (fun c => c != mark && c != '\\' && !isLineEnd c) +
    one (· == '\\') * one (fun c => !isLineEnd c)

def literal (mark : Char) : Language Char :=
  one (· == mark) * ((literalPart mark)∗ * one (· == mark))

def fraction : Language Char := one (· == '.') * (one Char.isDigit * (one Char.isDigit)∗)

def language : Token → Language Char
  | space => one isSpace * (one isSpace)∗
  | keyword => {t | t ∈ keywords}
  | constant => {t | t ∈ constants}
  | quoted => literal '\'' + literal '"'
  | number => one Char.isDigit * ((one isNumeral)∗ * (1 + fraction))
  | identifier => one isWordStart * (one isWordChar)∗
  | operator => {t | t ∈ operators}
  | unknown => 0

section

variable {p : Char → Bool} {l : Language Char} {c mark : Char} {cs t u : Text}

theorem cons_mem_one_mul : c :: cs ∈ one p * l ↔ p c = true ∧ cs ∈ l := by
  rw [Language.mem_mul]
  constructor
  · rintro ⟨_, ⟨d, hd, rfl⟩, u, hu, heq⟩
    obtain ⟨rfl, rfl⟩ := List.cons.inj heq
    exact ⟨hd, hu⟩
  · rintro ⟨hc, hcs⟩
    exact ⟨[c], ⟨c, hc, rfl⟩, cs, hcs, rfl⟩

theorem exists_cons_of_mem_one_mul (h : t ∈ one p * l) : ∃ c cs, t = c :: cs := by
  obtain ⟨_, ⟨c, -, rfl⟩, u, -, rfl⟩ := Language.mem_mul.mp h
  exact ⟨c, u, rfl⟩

theorem append_mem_kstar (ht : t ∈ l) (hu : u ∈ l∗) : t ++ u ∈ l∗ := by
  obtain ⟨ts, rfl, hts⟩ := Language.mem_kstar.mp hu
  exact Language.join_mem_kstar (L := t :: ts) (List.forall_mem_cons.mpr ⟨ht, hts⟩)

theorem mem_kstar_one_iff : t ∈ (one p)∗ ↔ ∀ c ∈ t, p c = true := by
  constructor
  · rintro ⟨ts, rfl, hts⟩ c hc
    obtain ⟨u, hu, hcu⟩ := List.mem_flatten.mp hc
    obtain ⟨d, hd, rfl⟩ := hts u hu
    rwa [List.mem_singleton.mp hcu]
  · intro h
    induction t with
    | nil => exact Language.nil_mem_kstar _
    | cons c cs ih =>
      obtain ⟨hc, hcs⟩ := List.forall_mem_cons.mp h
      exact append_mem_kstar (t := [c]) ⟨c, hc, rfl⟩ (ih hcs)

theorem mem_kstar_literalPart_iff : t ∈ (literalPart mark)∗ ↔ Body mark t := by
  constructor
  · rintro ⟨ts, rfl, hts⟩
    induction ts with
    | nil => exact .nil
    | cons u ts ih =>
      obtain ⟨hu, hrest⟩ := List.forall_mem_cons.mp hts
      rcases hu with ⟨c, hc, rfl⟩ | ⟨_, ⟨s, hs, rfl⟩, _, ⟨c, hc, rfl⟩, rfl⟩
      · simp only [Bool.and_eq_true, bne_iff_ne, Bool.not_eq_true'] at hc
        exact .plain hc.1.1 hc.1.2 hc.2 (ih hrest)
      · rw [beq_iff_eq] at hs
        subst hs
        exact .escaped (by simpa using hc) (ih hrest)
  · intro h
    induction h with
    | nil => exact Language.nil_mem_kstar _
    | @plain c cs hquote hslash hline _ ih =>
      exact append_mem_kstar (t := [c]) (.inl ⟨c, by simp [hquote, hslash, hline], rfl⟩) ih
    | @escaped c cs hline _ ih =>
      have hpart : ['\\', c] ∈ literalPart mark :=
        .inr (cons_mem_one_mul.mpr ⟨rfl, c, by simpa using hline, rfl⟩)
      exact append_mem_kstar hpart ih

theorem cons_mem_literal_iff :
    c :: cs ∈ literal mark ↔ c = mark ∧ ∃ body, Body mark body ∧ cs = body ++ [mark] := by
  rw [literal, cons_mem_one_mul, beq_iff_eq, Language.mem_mul]
  refine and_congr_right fun _ => ⟨?_, ?_⟩
  · rintro ⟨body, hbody, _, ⟨d, hd, rfl⟩, rfl⟩
    obtain rfl := beq_iff_eq.mp hd
    exact ⟨body, mem_kstar_literalPart_iff.mp hbody, rfl⟩
  · rintro ⟨body, hbody, rfl⟩
    exact ⟨body, mem_kstar_literalPart_iff.mpr hbody, [mark], ⟨mark, beq_self_eq_true mark, rfl⟩, rfl⟩

theorem cons_mem_quoted_iff : c :: cs ∈ quoted.language ↔
    (c = '"' ∨ c = '\'') ∧ ∃ body, Body c body ∧ cs = body ++ [c] := by
  rw [language, Language.mem_add, cons_mem_literal_iff, cons_mem_literal_iff]
  constructor
  · rintro (⟨rfl, hbody⟩ | ⟨rfl, hbody⟩)
    · exact ⟨.inr rfl, hbody⟩
    · exact ⟨.inl rfl, hbody⟩
  · rintro ⟨rfl | rfl, hbody⟩
    · exact .inr ⟨rfl, hbody⟩
    · exact .inl ⟨rfl, hbody⟩

theorem mem_fraction_iff :
    t ∈ fraction ↔ ∃ d ds, t = '.' :: d :: ds ∧ ∀ x ∈ d :: ds, x.isDigit = true := by
  constructor
  · intro h
    obtain ⟨_, u, rfl⟩ := exists_cons_of_mem_one_mul h
    obtain ⟨hpoint, hu⟩ := cons_mem_one_mul.mp h
    obtain rfl := beq_iff_eq.mp hpoint
    obtain ⟨d, ds, rfl⟩ := exists_cons_of_mem_one_mul hu
    obtain ⟨hd, hds⟩ := cons_mem_one_mul.mp hu
    exact ⟨d, ds, rfl, List.forall_mem_cons.mpr ⟨hd, mem_kstar_one_iff.mp hds⟩⟩
  · rintro ⟨d, ds, rfl, h⟩
    obtain ⟨hd, hds⟩ := List.forall_mem_cons.mp h
    exact cons_mem_one_mul.mpr ⟨rfl, cons_mem_one_mul.mpr ⟨hd, mem_kstar_one_iff.mpr hds⟩⟩

theorem cons_mem_number_iff : c :: cs ∈ number.language ↔ c.isDigit = true ∧
    ∃ whole part, cs = whole ++ part ∧ (∀ d ∈ whole, isNumeral d = true) ∧
      (part = [] ∨ part ∈ fraction) := by
  rw [language, cons_mem_one_mul, Language.mem_mul]
  refine and_congr_right fun _ => ⟨?_, ?_⟩
  · rintro ⟨whole, hwhole, part, hpart, rfl⟩
    exact ⟨whole, part, rfl, mem_kstar_one_iff.mp hwhole, hpart⟩
  · rintro ⟨whole, part, rfl, hwhole, hpart⟩
    exact ⟨whole, mem_kstar_one_iff.mpr hwhole, part, hpart, rfl⟩

end

/-- Reserved words are spelled like identifiers. -/
theorem spelled_of_reserved {t : Text} (h : t ∈ keywords ++ constants) :
    ∃ c cs, t = c :: cs ∧ isWordStart c = true ∧ ∀ d ∈ cs, isWordChar d = true := by
  have hspelled : ∀ t ∈ keywords ++ constants,
      t.head?.any isWordStart = true ∧ t.tail.all isWordChar = true := by decide
  obtain ⟨hhead, htail⟩ := hspelled t h
  cases t with
  | nil => cases hhead
  | cons c cs => exact ⟨c, cs, rfl, hhead, List.all_eq_true.mp htail⟩

theorem isSpace_iff {c : Char} : isSpace c = true ↔ c = ' ' ∨ c = '\t' ∨ c = '\r' ∨ c = '\n' := by
  simp [isSpace, or_assoc]

theorem isSpace_of_isWordStart {c : Char} (h : isWordStart c = true) : isSpace c = false := by
  rw [← Bool.not_eq_true, isSpace_iff]
  rintro (rfl | rfl | rfl | rfl) <;> cases h

theorem isSpace_of_isDigit {c : Char} (h : c.isDigit = true) : isSpace c = false := by
  rw [← Bool.not_eq_true, isSpace_iff]
  rintro (rfl | rfl | rfl | rfl) <;> cases h

theorem isWordStart_of_isDigit {c : Char} (h : c.isDigit = true) : isWordStart c = false := by
  have hdigit : 48 ≤ c.toNat ∧ c.toNat ≤ 57 := by
    simpa [Char.isDigit, UInt32.le_iff_toNat_le] using h
  rw [Bool.eq_false_iff]
  intro hstart
  change ((decide ('A'.val ≤ c.val ∧ c.val ≤ 'Z'.val) ||
    (decide ('a'.val ≤ c.val) && decide (c.val ≤ 'z'.val))) || c == '_') = true at hstart
  simp only [UInt32.le_iff_toNat_le, Bool.or_eq_true, Bool.and_eq_true, decide_eq_true_eq,
    beq_iff_eq, ← Char.toNat_inj] at hstart
  change ((65 ≤ c.toNat ∧ c.toNat ≤ 90) ∨ (97 ≤ c.toNat ∧ c.toNat ≤ 122)) ∨ c.toNat = 95 at hstart
  omega

theorem start_of_isSpace {c : Char} (h : isSpace c = true) : start c = space := by
  simp [start, h]

theorem start_of_isWordStart {c : Char} (h : isWordStart c = true) : start c = identifier := by
  simp [start, h, isSpace_of_isWordStart h]

theorem start_of_isDigit {c : Char} (h : c.isDigit = true) : start c = number := by
  simp [start, h, isSpace_of_isDigit h, isWordStart_of_isDigit h]

theorem start_of_mark {c : Char} (h : c = '"' ∨ c = '\'') : start c = quoted := by
  rcases h with rfl | rfl <;> rfl

theorem start_of_mem_operators {c : Char} {cs : Text} (h : c :: cs ∈ operators) :
    start c = operator := by
  have hheads : ∀ op ∈ operators, op.head?.map start = some operator := by decide
  exact Option.some.inj (hheads _ h)

/-- Reserved words begin like identifiers. -/
def kind : Token → Token
  | keyword | constant => identifier
  | token => token

theorem exists_cons_of_mem_language {token : Token} {t : Text} (h : t ∈ token.language) :
    ∃ c cs, t = c :: cs := by
  cases token with
  | space | number | identifier => exact exists_cons_of_mem_one_mul h
  | keyword =>
    obtain ⟨c, cs, ht, -⟩ := spelled_of_reserved (List.mem_append_left _ h)
    exact ⟨c, cs, ht⟩
  | constant =>
    obtain ⟨c, cs, ht, -⟩ := spelled_of_reserved (List.mem_append_right _ h)
    exact ⟨c, cs, ht⟩
  | quoted => rcases h with h | h <;> exact exists_cons_of_mem_one_mul h
  | operator =>
    have hne : [] ∉ operators := by decide
    exact List.exists_cons_of_ne_nil fun ht => hne (ht ▸ h)
  | unknown => exact absurd h (Language.notMem_zero t)

theorem start_of_mem_language {token : Token} {c : Char} {cs : Text}
    (h : c :: cs ∈ token.language) : start c = token.kind := by
  have hreserved (h : c :: cs ∈ keywords ++ constants) : start c = identifier := by
    obtain ⟨d, ds, heq, hd, -⟩ := spelled_of_reserved h
    rw [(List.cons.inj heq).1]
    exact start_of_isWordStart hd
  cases token with
  | space => exact start_of_isSpace (cons_mem_one_mul.mp h).1
  | keyword => exact hreserved (List.mem_append_left _ h)
  | constant => exact hreserved (List.mem_append_right _ h)
  | quoted => exact start_of_mark (cons_mem_quoted_iff.mp h).1
  | number => exact start_of_isDigit (cons_mem_one_mul.mp h).1
  | identifier => exact start_of_isWordStart (cons_mem_one_mul.mp h).1
  | operator => exact start_of_mem_operators h
  | unknown => exact absurd h (Language.notMem_zero _)

end ConfigAssist.Template.Token
