import ConfigAssist.Proofs.Color.Extent
import ConfigAssist.Proofs.Template.Delimiter
import ConfigAssist.Proofs.Text.Bytes

/-! Readings counted in bytes. On bytes, runs of text end where a search finds a brace or
a closer, quoted text is walked byte by byte, the colon of a key is one byte more than
its word, and a delimiter has two or three bytes. Each count is the size of the
characters that are read, so it ends between two characters and is never zero. -/

namespace ConfigAssist

open Text Template

namespace Template

/-- Comment text up to a closer behind its first byte, or to the end of the line. -/
def commentWidth (t : Text) : Nat :=
  ((find? (bytes Delimiter.comment.closer) (bytes t)).filter (0 < ·)).getD (bytes t).length

def Delimiter.bodyWidth (d : Delimiter) (c : Char) (cs : Text) : Nat :=
  match d with
  | comment => commentWidth (c :: cs)
  | value | statement => size utf8 (c :: cs.take (Token.read c cs).2)

end Template

namespace Yaml

def blockWidth (c : Char) (cs : Text) : Nat :=
  match find? (bytes ['\x7b']) (bytes cs) with
  | some offset => utf8 c + offset
  | none => (bytes (c :: cs)).length

/-- The bytes that are walked up to a closing mark or a brace. A backslash in double
quotes takes the next byte with it if that is ASCII. -/
def quotedWalk (q : Quote) : Bool → Bool → List UInt8 → Nat
  | _, _, [] => 0
  | first, escaped, b :: bs =>
    if escaped ∧ b.toNat < 128 then quotedWalk q false false bs + 1
    else if b = byte q.mark ∨ (b = byte '\x7b' ∧ first = false) then 0
    else quotedWalk q false (q == .double && b == byte '\\') bs + 1

def quotedWidth (q : Quote) (c : Char) (cs : Text) : Nat :=
  let bs := bytes (c :: cs)
  if bs.head? = some (byte q.mark) then
    if q = .single ∧ bs[1]? = some (byte '\'') then 2 else 1
  else max (quotedWalk q true false bs) (utf8 c)

/-- The longest token that stands at a character. -/
def longest (c : Char) (cs : Text) : Text :=
  c :: if isIndent c then cs.takeWhile isIndent
    else if isWordStart c then cs.takeWhile isWordChar
    else match c with
      | '#' => cs.takeWhile fun c => c != '\r' && c != '\n'
      | '!' => cs.takeWhile isTagChar
      | '&' | '*' => cs.takeWhile isNameChar
      | '|' | '>' => cs.take (headerTail cs)
      | _ => []

def openWidth (p : Place) (c : Char) (cs : Text) : Nat :=
  let token := longest c cs
  if c = '#' ∧ p.previous.all isIndent = false then 1
  else if isWordStart c ∧ closesKey ((c :: cs).drop token.length) then size utf8 token + 1
  else size utf8 token

def width (p : Place) (s : Scalars) (c : Char) (cs : Text) : Nat :=
  if s.block.isSome then blockWidth c cs
  else match s.quote with
    | some q => quotedWidth q c cs
    | none => openWidth p c cs

end Yaml

/-- The number of bytes of what stands at a place. -/
def State.width (p : Yaml.Place) (s : State) (c : Char) (cs : Text) : Nat :=
  match s.template with
  | none =>
    match Template.Delimiter.opening? (c :: cs) with
    | some d => d.openerLength (c :: cs)
    | none => Yaml.width p s.scalars c cs
  | some d =>
    match d.closerLength? (c :: cs) with
    | some n => n
    | none => d.bodyWidth c cs

namespace Template

theorem Delimiter.size_of_opens {d : Delimiter} {t : Text} (h : d.Opens t) :
    size utf8 t = t.length := by
  rcases h with rfl | ⟨_, rfl | rfl⟩ <;> cases d <;> rfl

theorem Delimiter.size_of_closes {d : Delimiter} {t : Text} (h : d.Closes t) :
    size utf8 t = t.length := by
  rcases h with rfl | ⟨_, rfl | rfl⟩ <;> cases d <;> rfl

theorem commentRun_cons (c : Char) (cs : Text) :
    commentRun (c :: cs) =
      if Delimiter.comment.closer.isPrefixOf (c :: cs) then 0 else commentRun cs + 1 := by
  by_cases hcloser : Delimiter.comment.closer.isPrefixOf (c :: cs) = true
  · obtain ⟨rest, hrest⟩ := List.isPrefixOf_iff_prefix.mp hcloser
    rw [if_pos hcloser, ← hrest]
    rfl
  · rw [if_neg hcloser, commentRun]
    rintro rest rfl rfl
    exact hcloser rfl

theorem find?_closer_cons (c : Char) (cs : Text) :
    find? (bytes Delimiter.comment.closer) (bytes (c :: cs)) =
      if Delimiter.comment.closer.isPrefixOf (c :: cs) then some 0
      else (find? (bytes Delimiter.comment.closer) (bytes cs)).map (· + utf8 c) := by
  apply find?_bytes_cons
  intro a ha
  rcases List.mem_pair.mp ha with rfl | rfl <;> decide

theorem find?_commentRun (t : Text) :
    (find? (bytes Delimiter.comment.closer) (bytes t)).getD (size utf8 t) =
      size utf8 (t.take (commentRun t)) := by
  induction t with
  | nil => rfl
  | cons c cs ih =>
    rw [find?_closer_cons, commentRun_cons]
    split
    · rfl
    · rw [List.take_succ_cons, size_cons, size_cons, ← ih]
      cases find? (bytes Delimiter.comment.closer) (bytes cs) with
      | none => rfl
      | some offset => exact Nat.add_comm offset (utf8 c)

theorem Delimiter.bodyWidth_eq {d : Delimiter} {c : Char} {cs : Text}
    (h : d.closerLength? (c :: cs) = none) :
    d.bodyWidth c cs = size utf8 (c :: cs.take (d.readBody c cs).further) := by
  cases d with
  | value => rfl
  | statement => rfl
  | comment =>
    have hcloser : ¬ comment.closer.isPrefixOf (c :: cs) = true := by
      intro hprefix
      rw [closerLength?, if_pos hprefix] at h
      cases h
    have hfind := find?_closer_cons c cs
    rw [if_neg hcloser] at hfind
    have hrun := find?_commentRun cs
    simp only [bodyWidth, commentWidth, readBody, hfind, length_bytes, size_cons, ← hrun]
    cases find? (bytes comment.closer) (bytes cs) with
    | none => rfl
    | some offset =>
      have hpos : 0 < offset + utf8 c := Nat.add_pos_right offset (utf8_pos c)
      simp only [Option.map_some, Option.filter_some, decide_eq_true hpos, if_true, Option.getD_some]
      exact Nat.add_comm offset (utf8 c)

end Template

namespace Yaml

theorem find?_blockRun (cs : Text) :
    (find? (bytes ['\x7b']) (bytes cs)).getD (size utf8 cs) = size utf8 (cs.take (blockRun cs)) := by
  have hascii : ∀ a ∈ ['\x7b'], IsAscii a := List.forall_mem_singleton.mpr (by decide)
  induction cs with
  | nil => rfl
  | cons c cs ih =>
    rw [find?_bytes_cons hascii]
    by_cases hc : c = '\x7b'
    · subst hc
      rfl
    · have hprefix : ¬ ['\x7b'].isPrefixOf (c :: cs) = true := by
        simp only [List.isPrefixOf_cons_cons, Bool.and_eq_true, beq_iff_eq]
        exact fun heq => hc heq.1.symm
      have hrun : blockRun (c :: cs) = blockRun cs + 1 := by simp [blockRun, hc]
      rw [if_neg hprefix, hrun, List.take_succ_cons, size_cons, size_cons, ← ih]
      cases find? (bytes ['\x7b']) (bytes cs) with
      | none => rfl
      | some offset => exact Nat.add_comm offset (utf8 c)

theorem blockWidth_eq (c : Char) (cs : Text) :
    blockWidth c cs = size utf8 (c :: cs.take (blockRun cs)) := by
  have hrun := find?_blockRun cs
  rw [size_cons, ← hrun, blockWidth, length_bytes]
  cases find? (bytes ['\x7b']) (bytes cs) <;> rfl

theorem isAscii_mark (q : Quote) : IsAscii q.mark := by cases q <;> decide

/-- Bytes beyond ASCII are all taken, also behind a backslash. -/
theorem quotedWalk_append {q : Quote} {first escaped : Bool} {passed : List UInt8}
    (hne : passed ≠ []) (h : ∀ b ∈ passed, 128 ≤ b.toNat) (bs : List UInt8) :
    quotedWalk q first escaped (passed ++ bs) = passed.length + quotedWalk q false false bs := by
  have hbyte {a : Char} (ha : IsAscii a) {b : UInt8} (hb : 128 ≤ b.toNat) : ¬ b = byte a := by
    rintro rfl
    rw [toNat_byte ha] at hb
    exact absurd ha (Nat.not_lt_of_le hb)
  induction passed generalizing first escaped with
  | nil => exact absurd rfl hne
  | cons b passed ih =>
    have hb : 128 ≤ b.toNat := h b List.mem_cons_self
    have hmark := hbyte (isAscii_mark q) hb
    have hbrace := hbyte (a := '\x7b') (by decide) hb
    have hslash := hbyte (a := '\\') (by decide) hb
    have hrest : quotedWalk q false false (passed ++ bs) =
        passed.length + quotedWalk q false false bs := by
      cases passed with
      | nil => simp
      | cons b' passed' => exact ih (by simp) fun x hx => h x (List.mem_cons_of_mem b hx)
    rw [List.cons_append, quotedWalk, if_neg (fun hlow => by omega), if_neg (by simp [hmark, hbrace]),
      beq_false_of_ne hslash, Bool.and_false, hrest, List.length_cons]
    omega

theorem quotedWalk_cons (q : Quote) (first escaped : Bool) (c : Char) (cs : Text) :
    quotedWalk q first escaped (bytes (c :: cs)) =
      if escaped then utf8 c + quotedWalk q false false (bytes cs)
      else if c = q.mark ∨ (c = '\x7b' ∧ first = false) then 0
      else utf8 c + quotedWalk q false (q.escapes c) (bytes cs) := by
  by_cases hc : IsAscii c
  · have hlow : (byte c).toNat < 128 := by
      rw [toNat_byte hc]
      exact hc
    have hmark : byte c = byte q.mark ↔ c = q.mark := byte_eq_iff hc (isAscii_mark q)
    have hbrace : byte c = byte '\x7b' ↔ c = '\x7b' := byte_eq_iff hc (by decide)
    have hslash : (byte c == byte '\\') = (c == '\\') := by
      rw [Bool.eq_iff_iff, beq_iff_eq, beq_iff_eq]
      exact byte_eq_iff hc (by decide)
    rw [bytes_cons_ascii hc, quotedWalk, hslash, utf8_ascii hc]
    simp only [hmark, hbrace, hlow, and_true, Quote.escapes, Nat.add_comm 1]
  · have hne {a : Char} (ha : IsAscii a) : c ≠ a := fun heq => hc (heq ▸ ha)
    have hmark : c ≠ q.mark := hne (isAscii_mark q)
    have hbrace : c ≠ '\x7b' := hne (by decide)
    have hescapes : q.escapes c = false := by
      rw [Quote.escapes, beq_false_of_ne (hne (by decide)), Bool.and_false]
    rw [bytes_cons, quotedWalk_append String.utf8EncodeChar_ne_nil (fun b => le_of_mem_encode hc),
      length_encode]
    simp only [hmark, hbrace, false_and, or_self, if_false, hescapes, ite_self]

theorem quotedWalk_bytes (q : Quote) (escaped : Bool) (cs : Text) :
    quotedWalk q false escaped (bytes cs) = size utf8 (cs.take (quotedRun q escaped cs)) := by
  induction cs generalizing escaped with
  | nil => cases escaped <;> rfl
  | cons c cs ih =>
    rw [quotedWalk_cons]
    cases escaped with
    | true => rw [if_pos rfl, ih, quotedRun, List.take_succ_cons, size_cons]
    | false =>
      rw [if_neg Bool.false_ne_true, quotedRun]
      simp only [and_true]
      split
      · rfl
      · rw [ih, List.take_succ_cons, size_cons]

theorem head?_bytes_eq_iff {a : Char} (ha : IsAscii a) (t : Text) :
    (bytes t).head? = some (byte a) ↔ t.head? = some a := by
  cases t with
  | nil => simp [bytes]
  | cons c cs =>
    by_cases hc : IsAscii c
    · rw [bytes_cons_ascii hc, List.head?_cons, List.head?_cons, Option.some_inj, Option.some_inj]
      exact byte_eq_iff hc ha
    · have hne : c ≠ a := fun heq => hc (heq ▸ ha)
      have hnot := byte_not_mem_encode ha hc
      obtain ⟨b, bs, hencode⟩ := List.exists_cons_of_ne_nil (String.utf8EncodeChar_ne_nil (c := c))
      rw [hencode] at hnot
      have hbyte := List.ne_of_not_mem_cons hnot
      simp [bytes_cons, hencode, hne, hbyte.symm]

theorem quotedWidth_eq (s : Scalars) (q : Quote) (c : Char) (cs : Text) :
    quotedWidth q c cs = size utf8 (c :: cs.take (readQuoted s q c cs).1.further) := by
  have hmark := head?_bytes_eq_iff (isAscii_mark q) (c :: cs)
  rw [List.head?_cons, Option.some_inj] at hmark
  by_cases hc : c = q.mark
  · have hascii : IsAscii c := hc ▸ isAscii_mark q
    have hquote := head?_bytes_eq_iff (a := '\'') (by decide) cs
    have hsecond : (bytes (c :: cs))[1]? = some (byte '\'') ↔ cs.head? = some '\'' := by
      rw [bytes_cons_ascii hascii, List.getElem?_cons_succ, ← List.head?_eq_getElem?]
      exact hquote
    simp only [quotedWidth, hmark, readQuoted, if_pos hc, hsecond]
    by_cases hpair : q = .single ∧ cs.head? = some '\''
    · obtain ⟨rfl, hhead⟩ := hpair
      obtain ⟨rest, rfl⟩ := List.head?_eq_some_iff.mp hhead
      rw [hc]
      rfl
    · have hpair' : ¬ (q = .single ∧ cs.head? = some q.mark) := by
        rintro ⟨rfl, hhead⟩
        exact hpair ⟨rfl, hhead⟩
      rw [if_neg hpair, if_neg hpair', Reading.plain, List.take_zero, size_cons, size_nil,
        utf8_ascii hascii]
  · have hwalk := quotedWalk_cons q true false c cs
    rw [if_neg Bool.false_ne_true, if_neg (by simp [hc]), quotedWalk_bytes] at hwalk
    simp only [quotedWidth, hmark, readQuoted, if_neg hc, hwalk]
    exact Nat.max_eq_left (Nat.le_add_right _ _)

/-- The colon behind a key is the one byte that is added to its word. -/
theorem size_readWord (p : Place) (c : Char) (cs : Text) :
    size utf8 (c :: cs.take (readWord p c cs).further) =
      size utf8 (c :: cs.takeWhile isWordChar) +
        if closesKey (cs.dropWhile isWordChar) then 1 else 0 := by
  unfold readWord
  by_cases hkey : closesKey (cs.dropWhile isWordChar) = true
  · obtain ⟨rest, hrest⟩ := colon_of_closesKey hkey
    have htake : cs.take ((cs.takeWhile isWordChar).length + 1) = cs.takeWhile isWordChar ++ [':'] := by
      rw [List.take_add, take_length_takeWhile, drop_length_takeWhile, hrest]
      rfl
    rw [if_pos hkey, if_pos hkey]
    dsimp only
    rw [htake, size_cons, size_append, size_cons, ← Nat.add_assoc]
    rfl
  · rw [if_neg hkey, if_neg hkey, Reading.plain, take_length_takeWhile, Nat.add_zero]

theorem openWidth_eq (p : Place) (s : Scalars) (c : Char) (cs : Text) :
    openWidth p c cs = size utf8 (c :: cs.take (readOpen p s c cs).1.further) := by
  by_cases hindent : isIndent c = true
  · have hc : c = ' ' ∨ c = '\t' := by simpa [isIndent] using hindent
    have hhash : c ≠ '#' := by rcases hc with rfl | rfl <;> decide
    have hword : isWordStart c = false := by rcases hc with rfl | rfl <;> decide
    simp [openWidth, readOpen, longest, hindent, hhash, hword, Reading.plain, take_length_takeWhile]
  by_cases hword : isWordStart c = true
  · have hhash : c ≠ '#' := by
      rintro rfl
      exact absurd hword (by decide)
    have hsize := size_readWord p c cs
    simp only [openWidth, readOpen, longest, hindent, hword, hhash, if_true, false_and, if_false,
      List.length_cons, List.drop_succ_cons, drop_length_takeWhile, true_and, Bool.false_eq_true, hsize]
    split <;> rfl
  by_cases hhash : c = '#'
  · subst hhash
    by_cases hprevious : p.previous.all isIndent = true
    · simp [openWidth, readOpen, longest, hindent, hword, hprevious, take_length_takeWhile]
    · have hone : utf8 '#' = 1 := rfl
      simp [openWidth, readOpen, hindent, hword, hprevious, Reading.plain, hone]
  · simp only [openWidth, readOpen, longest, hindent, hword, hhash, if_false, false_and,
      Bool.false_eq_true]
    split
    · exact absurd rfl hhash
    · simp [readTag, take_length_takeWhile]
    · simp [Reading.plain, take_length_takeWhile]
    · simp [Reading.plain, take_length_takeWhile]
    · rfl
    · rfl
    · split <;> simp_all [Reading.plain]

theorem width_eq (p : Place) (s : Scalars) (c : Char) (cs : Text) :
    width p s c cs = size utf8 (c :: cs.take (read p s c cs).1.further) := by
  unfold width read
  split
  · exact blockWidth_eq c cs
  · cases s.quote with
    | some q => exact quotedWidth_eq s q c cs
    | none => exact openWidth_eq p s c cs

end Yaml

/-- What is read at a place has as many bytes as are counted there. -/
theorem State.width_eq (p : Yaml.Place) (s : State) (c : Char) (cs : Text) :
    s.width p c cs = size utf8 (c :: cs.take (s.read p c cs).1.further) := by
  have hdelimiter {n : Nat} (htwo : 2 ≤ n) (hle : n ≤ (c :: cs).length)
      (hsize : size utf8 ((c :: cs).take n) = ((c :: cs).take n).length) :
      n = size utf8 (c :: cs.take (n - 1)) := by
    rw [← List.take_succ_cons, Nat.sub_add_cancel (by omega), hsize, List.length_take,
      Nat.min_eq_left hle]
  cases htemplate : s.template with
  | none =>
    cases hopening : Delimiter.opening? (c :: cs) with
    | some d =>
      simp only [State.width, State.read, htemplate, hopening]
      exact hdelimiter (d.two_le_openerLength _) (Delimiter.openerLength_le hopening)
        (Delimiter.size_of_opens (Delimiter.opens_take_openerLength hopening))
    | none =>
      simp only [State.width, State.read, htemplate, hopening]
      exact Yaml.width_eq p s.scalars c cs
  | some d =>
    cases hcloser : d.closerLength? (c :: cs) with
    | some n =>
      simp only [State.width, State.read, htemplate, hcloser]
      exact hdelimiter (Delimiter.two_le_of_closerLength? hcloser) (Delimiter.closerLength?_le hcloser)
        (Delimiter.size_of_closes (Delimiter.closes_take_of_closerLength? hcloser))
    | none =>
      simp only [State.width, State.read, htemplate, hcloser]
      exact Delimiter.bodyWidth_eq hcloser

end ConfigAssist
