import ConfigAssist.Proofs.Text.Bytes
import ConfigAssist.Proofs.Text.Offset
import ConfigAssist.Suggest.Scope
import Mathlib.Data.List.Induction

/-! Markers on a line, told by its bytes: a name with a colon behind it, and no letter,
digit or underscore of ASCII before it. The markers that are read off the characters of a
line are these, from left to right. -/

namespace ConfigAssist.Scope

open Text

def isWordByte (b : UInt8) : Bool :=
  (48 ≤ b.toNat && b.toNat ≤ 57) || (65 ≤ b.toNat && b.toNat ≤ 90) || (97 ≤ b.toNat && b.toNat ≤ 122)
    || b.toNat == 95

def beginsWord (bs : List UInt8) : Nat → Bool
  | 0 => true
  | i + 1 => bs[i]?.all fun b => !isWordByte b

/-- A name stands in a line from a byte offset on, as a whole word before a colon. -/
structure MarkerAt (name line : Text) (offset : Nat) : Prop where
  stands : StandsAt (name ++ [':']) line offset
  whole : beginsWord (bytes line) offset = true

def IsName (name : Text) : Prop := name ≠ [] ∧ ∀ c ∈ name, isWordChar c = true

instance (name : Text) : Decidable (IsName name) :=
  decidable_of_iff (name ≠ [] ∧ name.all isWordChar = true) (and_congr_right' List.all_eq_true)

theorem isWordChar_iff {c : Char} : isWordChar c = true ↔
    (48 ≤ c.toNat ∧ c.toNat ≤ 57) ∨ (65 ≤ c.toNat ∧ c.toNat ≤ 90) ∨ (97 ≤ c.toNat ∧ c.toNat ≤ 122) ∨
      c.toNat = 95 := by
  change (((decide ('A'.val ≤ c.val ∧ c.val ≤ 'Z'.val) ||
    (decide ('a'.val ≤ c.val) && decide (c.val ≤ 'z'.val))) ||
    (decide ('0'.val ≤ c.val) && decide (c.val ≤ '9'.val))) || c == '_') = true ↔ _
  simp only [UInt32.le_iff_toNat_le, Bool.or_eq_true, Bool.and_eq_true, decide_eq_true_eq, beq_iff_eq,
    ← Char.toNat_inj]
  change (((65 ≤ c.toNat ∧ c.toNat ≤ 90) ∨ (97 ≤ c.toNat ∧ c.toNat ≤ 122)) ∨
    (48 ≤ c.toNat ∧ c.toNat ≤ 57)) ∨ c.toNat = 95 ↔ _
  omega

theorem isAscii_of_isWordChar {c : Char} (h : isWordChar c = true) : IsAscii c := by
  have hrange := isWordChar_iff.mp h
  change c.toNat < 128
  omega

theorem isWordByte_byte {c : Char} (h : IsAscii c) : isWordByte (byte c) = isWordChar c := by
  rw [Bool.eq_iff_iff, isWordChar_iff, isWordByte, toNat_byte h]
  simp only [Bool.or_eq_true, Bool.and_eq_true, decide_eq_true_eq, beq_iff_eq, or_assoc]

theorem isWordByte_getLast? (c : Char) :
    ∃ b ∈ (String.utf8EncodeChar c).getLast?, isWordByte b = isWordChar c := by
  by_cases hc : IsAscii c
  · rw [encode_ascii hc]
    exact ⟨byte c, rfl, isWordByte_byte hc⟩
  · have hlast := List.getLast?_eq_some_getLast (String.utf8EncodeChar_ne_nil (c := c))
    have hle := le_of_mem_encode hc (List.mem_of_getLast? hlast)
    refine ⟨_, hlast, ?_⟩
    have hchar : isWordChar c = false := by
      rw [Bool.eq_false_iff]
      exact fun h => hc (isAscii_of_isWordChar h)
    rw [hchar, Bool.eq_false_iff]
    intro hword
    simp only [isWordByte, Bool.or_eq_true, Bool.and_eq_true, decide_eq_true_eq, beq_iff_eq] at hword
    omega

/-- The byte before a character is told by the character before it. -/
theorem beginsWord_size (before after : Text) :
    beginsWord (bytes (before ++ after)) (size utf8 before) = !before.getLast?.any isWordChar := by
  cases before using List.reverseRecOn with
  | nil => rfl
  | append_singleton front c =>
    obtain ⟨b, hb, hword⟩ := isWordByte_getLast? c
    have hlast : (bytes (front ++ [c])).getLast? = some b := by
      rw [bytes_append, bytes_cons, bytes_nil, List.append_nil, List.getLast?_append, hb]
      rfl
    have hpos := size_pos_of_ne_nil utf8_pos (t := front ++ [c]) (by simp)
    obtain ⟨i, hi⟩ := Nat.exists_eq_add_one_of_ne_zero (Nat.ne_of_gt hpos)
    have hget : (bytes (front ++ [c] ++ after))[i]? = some b := by
      rw [bytes_append, List.getElem?_append_left (by rw [length_bytes]; omega)]
      rw [List.getLast?_eq_getElem?, length_bytes, hi] at hlast
      exact hlast
    rw [hi, beginsWord, hget, List.getLast?_concat, Option.all_some, Option.any_some, hword]

theorem markerAt_iff {name : Text} (hname : IsName name) {line : Text} {offset : Nat} :
    MarkerAt name line offset ↔ ∃ before after, line = before ++ after ∧ size utf8 before = offset ∧
      name ++ [':'] <+: after ∧ before.getLast?.any isWordChar = false := by
  have hascii : ∀ c ∈ name ++ [':'], IsAscii c := by
    intro c hc
    rcases List.mem_append.mp hc with hc | hc
    · exact isAscii_of_isWordChar (hname.2 c hc)
    · rw [List.mem_singleton.mp hc]
      decide
  constructor
  · intro h
    obtain ⟨before, after, rfl, rfl, hprefix⟩ := append_of_standsAt (by simp) hascii h.stands
    have hwhole := h.whole
    rw [beginsWord_size, Bool.not_eq_true'] at hwhole
    exact ⟨before, after, rfl, rfl, hprefix, hwhole⟩
  · rintro ⟨before, after, rfl, rfl, ⟨rest, rfl⟩, hwhole⟩
    constructor
    · rw [StandsAt, bytes_append before, List.drop_left' (length_bytes before), bytes_append _ rest]
      exact List.prefix_append _ _
    · rw [beginsWord_size, hwhole]
      rfl

theorem takeWhile_isWordChar {name after : Text} (hname : IsName name) (h : name ++ [':'] <+: after) :
    after.takeWhile isWordChar = name := by
  obtain ⟨rest, rfl⟩ := h
  have hcolon : isWordChar ':' = false := by decide
  rw [List.append_assoc, List.takeWhile_append_of_pos hname.2, List.singleton_append,
    List.takeWhile_cons_of_neg (by rw [hcolon]; decide), List.append_nil]

theorem MarkerAt.name_unique {name other line : Text} {offset : Nat} (h : MarkerAt name line offset)
    (h' : MarkerAt other line offset) (hname : IsName name) (hother : IsName other) : name = other := by
  obtain ⟨before, after, hline, hsize, hprefix, -⟩ := (markerAt_iff hname).mp h
  obtain ⟨before', after', hline', hsize', hprefix', -⟩ := (markerAt_iff hother).mp h'
  have hbefore : before = before' := by
    rw [← fit_append utf8_pos before after, ← fit_append utf8_pos before' after', hsize, hsize',
      ← hline, ← hline']
  subst hbefore
  have hafter : after = after' := List.append_cancel_left (hline.symm.trans hline')
  subst hafter
  rw [← takeWhile_isWordChar hname hprefix, takeWhile_isWordChar hother hprefix']

section

variable {α : Type} {names : List (Text × α)}

/-- The markers in the rest of a line with their byte offsets. -/
def placedAfter (names : List (Text × α)) (previous : Option Char) (offset : Nat) :
    Text → List (Nat × α)
  | [] => []
  | c :: cs =>
    let here := if previous.any isWordChar then [] else (namesAt names (c :: cs)).map (offset, ·)
    here ++ placedAfter names (some c) (offset + utf8 c) cs

theorem map_snd_placedAfter (previous : Option Char) (offset : Nat) (t : Text) :
    (placedAfter names previous offset t).map Prod.snd = markersAfter names previous t := by
  induction t generalizing previous offset with
  | nil => rfl
  | cons c cs ih =>
    rw [placedAfter, markersAfter, List.map_append, ih]
    congr 1
    split
    · rfl
    · rw [List.map_map]
      exact List.map_id _

theorem mem_namesAt {a : α} {t : Text} :
    a ∈ namesAt names t ↔ ∃ name, (name, a) ∈ names ∧ name ++ [':'] <+: t := by
  simp only [namesAt, List.mem_map, List.mem_filter, startsWith_iff]
  constructor
  · rintro ⟨⟨name, b⟩, ⟨hmem, hprefix⟩, rfl⟩
    exact ⟨name, hmem, hprefix⟩
  · rintro ⟨name, hmem, hprefix⟩
    exact ⟨(name, a), ⟨hmem, hprefix⟩, rfl⟩

theorem getLast?_cons_or (c : Char) (cs : Text) (previous : Option Char) :
    (c :: cs).getLast?.or previous = cs.getLast?.or (some c) := by
  rw [List.getLast?_cons, Option.some_or, Option.or_some]

theorem mem_placedAfter {previous : Option Char} {offset n : Nat} {a : α} {t : Text} :
    (n, a) ∈ placedAfter names previous offset t ↔ ∃ name before after, (name, a) ∈ names ∧
      t = before ++ after ∧ offset + size utf8 before = n ∧ name ++ [':'] <+: after ∧
      (before.getLast?.or previous).any isWordChar = false := by
  induction t generalizing previous offset with
  | nil =>
    simp only [placedAfter, List.not_mem_nil, false_iff]
    rintro ⟨name, before, after, -, happend, -, hprefix, -⟩
    obtain ⟨-, rfl⟩ := List.append_eq_nil_iff.mp happend.symm
    simp at hprefix
  | cons c cs ih =>
    rw [placedAfter, List.mem_append, ih]
    constructor
    · rintro (hhere | ⟨name, before, after, hmem, rfl, rfl, hprefix, hwhole⟩)
      · split at hhere
        · cases hhere
        · rename_i hprevious
          obtain ⟨b, hb, heq⟩ := List.mem_map.mp hhere
          cases heq
          obtain ⟨name, hmem, hprefix⟩ := mem_namesAt.mp hb
          exact ⟨name, [], c :: cs, hmem, rfl, rfl, hprefix, by simpa using hprevious⟩
      · refine ⟨name, c :: before, after, hmem, rfl, ?_, hprefix, ?_⟩
        · rw [size_cons, Nat.add_assoc]
        · rw [getLast?_cons_or, hwhole]
    · rintro ⟨name, before, after, hmem, happend, rfl, hprefix, hwhole⟩
      cases before with
      | nil =>
        left
        have hprevious : ¬ previous.any isWordChar = true := by simpa using hwhole
        rw [if_neg hprevious]
        rw [List.nil_append] at happend
        subst happend
        exact List.mem_map.mpr ⟨a, mem_namesAt.mpr ⟨name, hmem, hprefix⟩, rfl⟩
      | cons d before =>
        rw [List.cons_append] at happend
        obtain ⟨rfl, rfl⟩ := List.cons.inj happend
        rw [getLast?_cons_or] at hwhole
        refine .inr ⟨name, before, after, hmem, rfl, ?_, hprefix, hwhole⟩
        rw [size_cons, Nat.add_assoc]

theorem pairwise_placedAfter (previous : Option Char) (offset : Nat) (t : Text) :
    (placedAfter names previous offset t).Pairwise fun e f => e.1 ≤ f.1 := by
  induction t generalizing previous offset with
  | nil => exact List.Pairwise.nil
  | cons c cs ih =>
    have hhere : ∀ e ∈ (if previous.any isWordChar then [] else
        (namesAt names (c :: cs)).map (offset, ·)), e.1 = offset := by
      intro e he
      split at he
      · cases he
      · obtain ⟨a, -, rfl⟩ := List.mem_map.mp he
        rfl
    rw [placedAfter, List.pairwise_append]
    refine ⟨List.pairwise_of_forall_mem_list fun e he f hf => ?_, ih _ _, ?_⟩
    · exact Nat.le_of_eq ((hhere e he).trans (hhere f hf).symm)
    · rintro e he ⟨n, a⟩ hf
      obtain ⟨name, before, after, -, -, hoffset, -⟩ := mem_placedAfter.mp hf
      rw [hhere e he]
      simp only
      omega

/-- Different names that are words. -/
structure IsTable (names : List (Text × α)) : Prop where
  isName : ∀ e ∈ names, IsName e.1
  unique : ∀ e ∈ names, ∀ f ∈ names, e.1 = f.1 → e = f

theorem mem_placed_iff (h : IsTable names) {line : Text} {n : Nat} {a : α} :
    (n, a) ∈ placedAfter names none 0 line ↔ ∃ name, (name, a) ∈ names ∧ MarkerAt name line n := by
  simp only [mem_placedAfter, Nat.zero_add, Option.or_none]
  constructor
  · rintro ⟨name, before, after, hmem, hline, hsize, hprefix, hwhole⟩
    have hat := (markerAt_iff (h.isName _ hmem)).mpr ⟨before, after, hline, hsize, hprefix, hwhole⟩
    exact ⟨name, hmem, hat⟩
  · rintro ⟨name, hmem, hmarker⟩
    obtain ⟨before, after, hat⟩ := (markerAt_iff (h.isName _ hmem)).mp hmarker
    exact ⟨name, before, after, hmem, hat⟩

theorem mem_markers_iff (h : IsTable names) {line : Text} {a : α} :
    a ∈ markers names line ↔ ∃ name n, (name, a) ∈ names ∧ MarkerAt name line n := by
  rw [markers, ← map_snd_placedAfter none 0, List.mem_map]
  constructor
  · rintro ⟨⟨n, b⟩, hplaced, rfl⟩
    obtain ⟨name, hmem, hmarker⟩ := (mem_placed_iff h).mp hplaced
    exact ⟨name, n, hmem, hmarker⟩
  · rintro ⟨name, n, hmem, hmarker⟩
    exact ⟨(n, a), (mem_placed_iff h).mpr ⟨name, hmem, hmarker⟩, rfl⟩

theorem getLast?_markers_iff (h : IsTable names) {line : Text} {a : α} :
    (markers names line).getLast? = some a ↔ ∃ name n, (name, a) ∈ names ∧ MarkerAt name line n ∧
      ∀ e ∈ names, ∀ m, MarkerAt e.1 line m → m ≤ n := by
  have hpairwise : (placedAfter names none 0 line).Pairwise fun e f => e.1 ≤ f.1 :=
    pairwise_placedAfter none 0 line
  have hlast : ∀ n b, (placedAfter names none 0 line).getLast? = some (n, b) →
      (n, b) ∈ placedAfter names none 0 line ∧ ∀ e ∈ names, ∀ m, MarkerAt e.1 line m → m ≤ n := by
    intro n b hlast
    refine ⟨List.mem_of_getLast? hlast, fun e he m hmarker => ?_⟩
    have hplaced := (mem_placed_iff h).mpr ⟨e.1, he, hmarker⟩
    obtain ⟨front, hfront⟩ := List.getLast?_eq_some_iff.mp hlast
    rw [hfront] at hplaced hpairwise
    rcases List.mem_append.mp hplaced with hmem | hmem
    · exact (List.pairwise_append.mp hpairwise).2.2 _ hmem _ List.mem_cons_self
    · exact Nat.le_of_eq (congrArg Prod.fst (List.mem_singleton.mp hmem))
  rw [markers, ← map_snd_placedAfter none 0, List.getLast?_map, Option.map_eq_some_iff]
  constructor
  · rintro ⟨⟨n, b⟩, heq, rfl⟩
    obtain ⟨hmem, hgreatest⟩ := hlast n b heq
    obtain ⟨name, hname, hmarker⟩ := (mem_placed_iff h).mp hmem
    exact ⟨name, n, hname, hmarker, hgreatest⟩
  · rintro ⟨name, n, hname, hmarker, hgreatest⟩
    have hmem := (mem_placed_iff h).mpr ⟨name, hname, hmarker⟩
    have hsome := List.getLast?_eq_some_getLast (List.ne_nil_of_mem hmem)
    refine ⟨_, hsome, ?_⟩
    generalize (placedAfter names none 0 line).getLast _ = last at hsome
    obtain ⟨m, b⟩ := last
    obtain ⟨hplaced, hbound⟩ := hlast m b hsome
    obtain ⟨other, hother, hmarker'⟩ := (mem_placed_iff h).mp hplaced
    have hle : m ≤ n := hgreatest _ hother m hmarker'
    have hge : n ≤ m := hbound _ hname n hmarker
    -- at one offset there is only one name, so this is the value that was asked for
    obtain rfl : m = n := Nat.le_antisymm hle hge
    have heq := hmarker'.name_unique hmarker (h.isName _ hother) (h.isName _ hname)
    exact congrArg Prod.snd (h.unique _ hother _ hname heq)

end

end ConfigAssist.Scope
