import ConfigAssist.Text.Basic

/-! Texts as bytes. An ASCII character is a single byte, and the other characters have
no such byte in them. So a search for ASCII among the bytes of a text finds what a
search among its characters finds, and it ends between two characters. -/

namespace ConfigAssist.Text

/-- The bytes of a text in UTF-8. -/
def bytes (t : Text) : List UInt8 := t.flatMap String.utf8EncodeChar

def IsAscii (c : Char) : Prop := c.toNat < 128

instance (c : Char) : Decidable (IsAscii c) := inferInstanceAs (Decidable (c.toNat < 128))

theorem isLower_iff {c : Char} : c.isLower = true ↔ 'a' ≤ c ∧ c ≤ 'z' :=
  Bool.and_eq_true_iff.trans (and_congr decide_eq_true_iff decide_eq_true_iff)

theorem isUpper_iff {c : Char} : c.isUpper = true ↔ 'A' ≤ c ∧ c ≤ 'Z' :=
  decide_eq_true_iff

theorem isDigit_iff {c : Char} : c.isDigit = true ↔ '0' ≤ c ∧ c ≤ '9' :=
  Bool.and_eq_true_iff.trans (and_congr decide_eq_true_iff decide_eq_true_iff)

def byte (c : Char) : UInt8 := UInt8.ofNat c.toNat

theorem toNat_byte {c : Char} (h : IsAscii c) : (byte c).toNat = c.toNat := by
  have hc : c.toNat < 128 := h
  rw [byte, UInt8.toNat_ofNat']
  omega

theorem byte_eq_iff {c d : Char} (hc : IsAscii c) (hd : IsAscii d) : byte c = byte d ↔ c = d := by
  rw [← UInt8.toNat_inj, toNat_byte hc, toNat_byte hd]
  exact Char.toNat_inj

theorem encode_ascii {c : Char} (h : IsAscii c) : String.utf8EncodeChar c = [byte c] := by
  have hc : c.val.toNat ≤ 0x7f := Nat.le_of_lt_succ h
  simp only [String.utf8EncodeChar, if_pos hc]
  rfl

theorem le_of_mem_encode {c : Char} (h : ¬ IsAscii c) {b : UInt8}
    (hb : b ∈ String.utf8EncodeChar c) : 128 ≤ b.toNat := by
  have hc : ¬ c.val.toNat ≤ 0x7f := fun hle => h (Nat.lt_succ_of_le hle)
  simp only [String.utf8EncodeChar, if_neg hc] at hb
  split at hb
  · simp only [List.mem_cons, List.not_mem_nil, or_false] at hb
    rcases hb with rfl | rfl <;> rw [UInt8.toNat_ofNat'] <;> omega
  · split at hb
    · simp only [List.mem_cons, List.not_mem_nil, or_false] at hb
      rcases hb with rfl | rfl | rfl <;> rw [UInt8.toNat_ofNat'] <;> omega
    · simp only [List.mem_cons, List.not_mem_nil, or_false] at hb
      rcases hb with rfl | rfl | rfl | rfl <;> rw [UInt8.toNat_ofNat'] <;> omega

theorem byte_not_mem_encode {a c : Char} (ha : IsAscii a) (hc : ¬ IsAscii c) :
    byte a ∉ String.utf8EncodeChar c := by
  intro hmem
  have hle := le_of_mem_encode hc hmem
  rw [toNat_byte ha] at hle
  exact absurd ha (Nat.not_lt_of_le hle)

theorem bytes_cons (c : Char) (cs : Text) :
    bytes (c :: cs) = String.utf8EncodeChar c ++ bytes cs := List.flatMap_cons ..

theorem bytes_nil : bytes [] = [] := rfl

theorem bytes_append (s t : Text) : bytes (s ++ t) = bytes s ++ bytes t := List.flatMap_append ..

theorem bytes_cons_ascii {c : Char} (h : IsAscii c) (cs : Text) :
    bytes (c :: cs) = byte c :: bytes cs := by
  rw [bytes_cons, encode_ascii h, List.singleton_append]

theorem length_encode (c : Char) : (String.utf8EncodeChar c).length = utf8 c :=
  String.length_utf8EncodeChar c

theorem utf8_ascii {c : Char} (h : IsAscii c) : utf8 c = 1 := by
  rw [← length_encode, encode_ascii h, List.length_singleton]

theorem length_bytes (t : Text) : (bytes t).length = size utf8 t := by
  induction t with
  | nil => rfl
  | cons c cs ih => rw [bytes_cons, List.length_append, length_encode, ih, size_cons]

/-- ASCII texts begin the same texts, read as characters or as bytes. -/
theorem isPrefixOf_bytes {needle : Text} (h : ∀ a ∈ needle, IsAscii a) (t : Text) :
    (bytes needle).isPrefixOf (bytes t) = needle.isPrefixOf t := by
  induction needle generalizing t with
  | nil => simp [bytes]
  | cons a needle ih =>
    have ha : IsAscii a := h a List.mem_cons_self
    have hneedle := ih (fun x hx => h x (List.mem_cons_of_mem a hx))
    rw [bytes_cons_ascii ha]
    cases t with
    | nil => rfl
    | cons c cs =>
      by_cases hc : IsAscii c
      · rw [bytes_cons_ascii hc, List.isPrefixOf_cons_cons, List.isPrefixOf_cons_cons, hneedle]
        congr 1
        rw [Bool.eq_iff_iff, beq_iff_eq, beq_iff_eq]
        exact byte_eq_iff ha hc
      · obtain ⟨b, bs, hencode⟩ :=
          List.exists_cons_of_ne_nil (String.utf8EncodeChar_ne_nil (c := c))
        have hne : byte a ≠ b := by
          have hnot := byte_not_mem_encode ha hc
          rw [hencode] at hnot
          exact List.ne_of_not_mem_cons hnot
        have hchar : a ≠ c := fun heq => hc (heq ▸ ha)
        rw [bytes_cons, hencode, List.cons_append, List.isPrefixOf_cons_cons, List.isPrefixOf_cons_cons,
          beq_false_of_ne hne, beq_false_of_ne hchar, Bool.false_and, Bool.false_and]

/-- The offset of the first place at which some bytes stand. -/
def find? (needle : List UInt8) : List UInt8 → Option Nat
  | [] => none
  | b :: bs => if needle.isPrefixOf (b :: bs) then some 0 else (find? needle bs).map (· + 1)

theorem find?_eq_some {needle bs : List UInt8} {n : Nat} (h : find? needle bs = some n) :
    n < bs.length ∧ needle <+: bs.drop n ∧ ∀ m, m < n → ¬ needle <+: bs.drop m := by
  induction bs generalizing n with
  | nil => cases h
  | cons b bs ih =>
    rw [find?] at h
    split at h
    · rename_i hprefix
      cases h
      have hfirst : ∀ m, m < 0 → ¬ needle <+: (b :: bs).drop m := fun m hm => absurd hm (Nat.not_lt_zero m)
      exact ⟨Nat.succ_pos _, List.isPrefixOf_iff_prefix.mp hprefix, hfirst⟩
    · rename_i hprefix
      obtain ⟨k, hk, rfl⟩ := Option.map_eq_some_iff.mp h
      obtain ⟨hlt, hat, hfirst⟩ := ih hk
      refine ⟨Nat.succ_lt_succ hlt, hat, fun m hm => ?_⟩
      cases m with
      | zero => exact fun hzero => hprefix (List.isPrefixOf_iff_prefix.mpr hzero)
      | succ m => exact hfirst m (Nat.lt_of_succ_lt_succ hm)

theorem find?_eq_none {a : UInt8} {needle bs : List UInt8} (h : find? (a :: needle) bs = none)
    (m : Nat) :
    ¬ a :: needle <+: bs.drop m := by
  induction bs generalizing m with
  | nil => simp
  | cons b bs ih =>
    rw [find?] at h
    split at h
    · cases h
    · rename_i hprefix
      cases m with
      | zero => exact fun hzero => hprefix (List.isPrefixOf_iff_prefix.mpr hzero)
      | succ m => exact ih (Option.map_eq_none_iff.mp h) m

theorem find?_append {a : UInt8} {needle passed : List UInt8} (h : a ∉ passed) (bs : List UInt8) :
    find? (a :: needle) (passed ++ bs) = (find? (a :: needle) bs).map (· + passed.length) := by
  induction passed with
  | nil => simp
  | cons b passed ih =>
    have hne : a ≠ b := fun heq => h (heq ▸ List.mem_cons_self)
    have hrest := ih (fun hmem => h (List.mem_cons_of_mem b hmem))
    rw [List.cons_append, find?, List.isPrefixOf_cons_cons, beq_false_of_ne hne, Bool.false_and,
      if_neg Bool.false_ne_true, hrest, Option.map_map]
    rfl

/-- A search for ASCII among bytes goes on character by character. -/
theorem find?_bytes_cons {a : Char} {needle : Text} (h : ∀ x ∈ a :: needle, IsAscii x) (c : Char)
    (cs : Text) :
    find? (bytes (a :: needle)) (bytes (c :: cs)) =
      if (a :: needle).isPrefixOf (c :: cs) then some 0
      else (find? (bytes (a :: needle)) (bytes cs)).map (· + utf8 c) := by
  have hprefix := isPrefixOf_bytes h (c :: cs)
  have ha : IsAscii a := h a List.mem_cons_self
  by_cases hc : IsAscii c
  · rw [bytes_cons_ascii hc] at hprefix ⊢
    rw [find?, hprefix, utf8_ascii hc]
  · have hchar : a ≠ c := fun heq => hc (heq ▸ ha)
    rw [bytes_cons c, bytes_cons_ascii ha, find?_append (byte_not_mem_encode ha hc),
      length_encode, List.isPrefixOf_cons_cons, beq_false_of_ne hchar,
      Bool.false_and, if_neg Bool.false_ne_true]

/-- Some characters stand in a line, from a byte offset on. -/
def StandsAt (needle line : Text) (offset : Nat) : Prop := bytes needle <+: (bytes line).drop offset

/-- ASCII stands only where a character begins. -/
theorem append_of_standsAt {needle : Text} (hne : needle ≠ []) (h : ∀ x ∈ needle, IsAscii x)
    {line : Text} {offset : Nat} (hat : StandsAt needle line offset) :
    ∃ before after, line = before ++ after ∧ size utf8 before = offset ∧ needle <+: after := by
  obtain ⟨a, needle, rfl⟩ := List.exists_cons_of_ne_nil hne
  have ha : IsAscii a := h a List.mem_cons_self
  induction line generalizing offset with
  | nil => simp [StandsAt, bytes] at hat
  | cons c cs ih =>
    by_cases hstart : offset = 0
    · subst hstart
      have hprefix := isPrefixOf_bytes h (c :: cs)
      have hbytes : bytes (a :: needle) <+: bytes (c :: cs) := hat
      rw [List.isPrefixOf_iff_prefix.mpr hbytes] at hprefix
      exact ⟨[], c :: cs, rfl, rfl, List.isPrefixOf_iff_prefix.mp hprefix.symm⟩
    rw [StandsAt, bytes_cons_ascii ha, bytes_cons, List.drop_append, length_encode] at hat
    by_cases hinside : offset < utf8 c
    · -- inside a character there are only high bytes
      have hc : ¬ IsAscii c := by
        intro hc
        rw [utf8_ascii hc] at hinside
        omega
      have hdrop : (String.utf8EncodeChar c).drop offset ≠ [] := by
        rw [ne_eq, List.drop_eq_nil_iff, length_encode]
        omega
      obtain ⟨b, bs, hdrop⟩ := List.exists_cons_of_ne_nil hdrop
      rw [hdrop, List.cons_append, List.cons_prefix_cons] at hat
      have hmem : b ∈ String.utf8EncodeChar c := List.mem_of_mem_drop (hdrop ▸ List.mem_cons_self)
      exact absurd (hat.1 ▸ hmem) (byte_not_mem_encode ha hc)
    · have hle : (String.utf8EncodeChar c).length ≤ offset := by
        rw [length_encode]
        omega
      rw [List.drop_eq_nil_of_le hle, List.nil_append, ← bytes_cons_ascii ha] at hat
      obtain ⟨before, after, rfl, hsize, hneedle⟩ := ih hat
      refine ⟨c :: before, after, rfl, ?_, hneedle⟩
      rw [size_cons, hsize]
      omega

end ConfigAssist.Text
