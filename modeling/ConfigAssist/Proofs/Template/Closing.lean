import ConfigAssist.Proofs.Template.Token
import ConfigAssist.Proofs.Yaml.Brace

/-! Where a literal in quotes closes: at the first mark of its own, on the same line, that no
backslash takes. -/

namespace ConfigAssist.Template.Token

section

variable {mark c : Char} {cs u : Text}

/-- Behind a text the mark stands again, on the same line and not taken by a backslash. -/
structure Closing (mark : Char) (cs u : Text) : Prop where
  again : u ++ [mark] <+: cs
  onLine : ∀ d ∈ u, isLineEnd d = false
  free : ¬ Yaml.Escaping u

theorem Closing.nil_iff : Closing mark (c :: cs) [] ↔ mark = c := by
  constructor
  · intro h
    exact (List.cons_prefix_cons.mp h.again).1
  · rintro rfl
    exact ⟨List.cons_prefix_cons.mpr ⟨rfl, List.nil_prefix⟩, by simp, by decide⟩

theorem Closing.append_iff {p : Text} (hfree : ¬ Yaml.Escaping p) :
    Closing mark (p ++ cs) (p ++ u) ↔ (∀ d ∈ p, isLineEnd d = false) ∧ Closing mark cs u := by
  have hescaping : Yaml.Escaping (p ++ u) ↔ Yaml.Escaping u := Yaml.escaping_append_iff hfree
  constructor
  · rintro ⟨hagain, hline, hu⟩
    rw [List.append_assoc, List.prefix_append_right_inj] at hagain
    obtain ⟨hp, hrest⟩ := List.forall_mem_append.mp hline
    exact ⟨hp, hagain, hrest, fun h => hu (hescaping.mpr h)⟩
  · rintro ⟨hp, hagain, hrest, hu⟩
    refine ⟨?_, List.forall_mem_append.mpr ⟨hp, hrest⟩, fun h => hu (hescaping.mp h)⟩
    rwa [List.append_assoc, List.prefix_append_right_inj]

theorem Closing.exists_append {p : Text} (h : Closing mark (p ++ cs) u)
    (hle : p.length ≤ u.length) : ∃ v, u = p ++ v := by
  have hu : u <+: p ++ cs := (List.prefix_append u [mark]).trans h.again
  obtain ⟨v, rfl⟩ := List.prefix_of_prefix_length_le (List.prefix_append p cs) hu hle
  exact ⟨v, rfl⟩

/-- Where a literal closes: behind the shortest text, if there is one. -/
inductive Closed (mark : Char) (cs : Text) : Option Nat → Prop
  | first {u : Text} (h : Closing mark cs u)
      (hfirst : ∀ v, Closing mark cs v → u.length ≤ v.length) :
      Closed mark cs (some (u.length + 1))
  | never (h : ∀ u, ¬ Closing mark cs u) : Closed mark cs none

section

variable {p : Text} (hfree : ¬ Yaml.Escaping p)
  (hbehind : ∀ u, Closing mark (p ++ cs) u → p.length ≤ u.length)

include hfree hbehind

theorem Closed.append {o : Option Nat} (hline : ∀ d ∈ p, isLineEnd d = false)
    (h : Closed mark cs o) : Closed mark (p ++ cs) (o.map (· + p.length)) := by
  cases h with
  | @first u h hfirst =>
    have hlength : (p ++ u).length = u.length + p.length := by
      rw [List.length_append, Nat.add_comm]
    have hsome : (some (u.length + 1)).map (· + p.length) = some ((p ++ u).length + 1) := by
      rw [Option.map_some, hlength, Nat.add_right_comm]
    rw [hsome]
    refine .first ((Closing.append_iff hfree).mpr ⟨hline, h⟩) ?_
    intro w hw
    obtain ⟨v, rfl⟩ := hw.exists_append (hbehind w hw)
    have hle := hfirst v ((Closing.append_iff hfree).mp hw).2
    rw [hlength, List.length_append, Nat.add_comm p.length]
    exact Nat.add_le_add_right hle _
  | never h =>
    refine .never fun w hw => ?_
    obtain ⟨v, rfl⟩ := hw.exists_append (hbehind w hw)
    exact h v ((Closing.append_iff hfree).mp hw).2

theorem Closed.of_line_end (hline : ∃ d ∈ p, isLineEnd d = true) :
    Closed mark (p ++ cs) none := by
  refine .never fun w hw => ?_
  obtain ⟨v, rfl⟩ := hw.exists_append (hbehind w hw)
  obtain ⟨d, hd, hend⟩ := hline
  exact Bool.false_ne_true ((((Closing.append_iff hfree).mp hw).1 d hd).symm.trans hend)

end

theorem Closing.length_pos (hc : c ≠ mark) (u : Text) (h : Closing mark (c :: cs) u) :
    1 ≤ u.length := by
  cases u with
  | nil => exact absurd (Closing.nil_iff.mp h).symm hc
  | cons => simp

theorem Closing.two_le_length (hmark : mark ≠ '\\') (u : Text)
    (h : Closing mark ('\\' :: c :: cs) u) : 2 ≤ u.length := by
  rcases u with _ | ⟨d, _ | ⟨e, u⟩⟩
  · exact absurd (Closing.nil_iff.mp h) hmark
  · obtain rfl : d = '\\' := (List.cons_prefix_cons.mp h.again).1
    exact absurd (Yaml.escaping_singleton_iff.mpr rfl) h.free
  · simp

theorem not_escaping_escape (c : Char) : ¬ Yaml.Escaping ['\\', c] := by
  have hslash : Yaml.Escaping ['\\'] := Yaml.escaping_singleton_iff.mpr rfl
  exact fun h => (Yaml.escaping_concat_iff (c := c).mp h).2 hslash

theorem closed_closingQuote? (hmark : mark ≠ '\\') (cs : Text) :
    Closed mark cs (closingQuote? mark cs) := by
  have hfree {c : Char} (hc : c ≠ '\\') : ¬ Yaml.Escaping [c] :=
    fun h => hc (Yaml.escaping_singleton_iff.mp h)
  -- an escape is passed as a whole, every other character alone
  fun_induction closingQuote? mark cs with
  | case1 => exact .never fun u hu => by simpa using hu.again
  | case2 =>
    refine .never fun u hu => ?_
    cases u with
    | nil => exact hmark (Closing.nil_iff.mp hu)
    | cons d u => simpa using (List.cons_prefix_cons.mp hu.again).2
  | case3 c cs hline =>
    exact Closed.of_line_end (not_escaping_escape c) (Closing.two_le_length hmark)
      ⟨c, by simp, hline⟩
  | case4 c cs hline ih =>
    have hslash : isLineEnd '\\' = false := by decide
    exact ih.append (not_escaping_escape c) (Closing.two_le_length hmark) (by simp [hslash, hline])
  | case5 cs =>
    exact .first (u := []) (Closing.nil_iff.mpr rfl) fun v _ => Nat.zero_le _
  | case6 c cs hlast hslash hc hline =>
    exact Closed.of_line_end (hfree (ne_backslash hlast hslash)) (Closing.length_pos hc)
      ⟨c, by simp, hline⟩
  | case7 c cs hlast hslash hc hline ih =>
    exact ih.append (hfree (ne_backslash hlast hslash)) (Closing.length_pos hc) (by simp [hline])

end

end ConfigAssist.Template.Token
