import ConfigAssist.Text.Basic
import Mathlib.Data.List.Basic

/-! The order of texts by the code points of their characters. It is a total order, and
a text stands before all those that it begins. -/

namespace ConfigAssist.Text

/-- A text stands before another one if it is a proper beginning of it or has the lower
code point where the two differ first. -/
def Before (s t : Text) : Prop := List.Lex (fun c d => c.toNat < d.toNat) s t

theorem atMost_cons_iff {c d : Char} {cs ds : Text} :
    atMost (c :: cs) (d :: ds) = true ↔ c.toNat < d.toNat ∨ c = d ∧ atMost cs ds = true := by
  simp [atMost]

theorem atMost_trans {s t u : Text} (hst : atMost s t = true) (htu : atMost t u = true) :
    atMost s u = true := by
  induction s generalizing t u with
  | nil => rfl
  | cons c cs ih =>
    cases t with
    | nil => cases hst
    | cons d ds =>
      cases u with
      | nil => cases htu
      | cons e es =>
        rw [atMost_cons_iff] at *
        rcases hst with hst | ⟨rfl, hst⟩
        · rcases htu with htu | ⟨rfl, -⟩
          · exact .inl (Nat.lt_trans hst htu)
          · exact .inl hst
        · exact htu.imp_right fun ⟨heq, htu⟩ => ⟨heq, ih hst htu⟩

theorem atMost_total (s t : Text) : (atMost s t || atMost t s) = true := by
  rw [Bool.or_eq_true]
  induction s generalizing t with
  | nil => exact .inl rfl
  | cons c cs ih =>
    cases t with
    | nil => exact .inr rfl
    | cons d ds =>
      rw [atMost_cons_iff, atMost_cons_iff]
      rcases Nat.lt_trichotomy c.toNat d.toNat with hlt | heq | hgt
      · exact .inl (.inl hlt)
      · have hcd : c = d := Char.toNat_inj.mp heq
        exact (ih ds).imp (fun h => .inr ⟨hcd, h⟩) fun h => .inr ⟨hcd.symm, h⟩
      · exact .inr (.inl hgt)

theorem atMost_antisymm {s t : Text} (hst : atMost s t = true) (hts : atMost t s = true) : s = t := by
  induction s generalizing t with
  | nil =>
    cases t with
    | nil => rfl
    | cons d ds => cases hts
  | cons c cs ih =>
    cases t with
    | nil => cases hst
    | cons d ds =>
      rw [atMost_cons_iff] at hst hts
      rcases hst with hlt | ⟨rfl, hst⟩
      · rcases hts with hgt | ⟨rfl, -⟩
        · exact absurd hgt (Nat.lt_asymm hlt)
        · exact absurd hlt (Nat.lt_irrefl _)
      · rcases hts with hlt | ⟨-, hts⟩
        · exact absurd hlt (Nat.lt_irrefl _)
        · rw [ih hst hts]

theorem atMost_of_begins {s t : Text} (h : s <+: t) : atMost s t = true := by
  obtain ⟨rest, rfl⟩ := h
  induction s with
  | nil => rfl
  | cons c cs ih => exact atMost_cons_iff.mpr (.inr ⟨rfl, ih⟩)

theorem before_of_atMost {s t : Text} (h : atMost s t = true) (hne : s ≠ t) : Before s t := by
  induction s generalizing t with
  | nil =>
    obtain ⟨d, ds, rfl⟩ := List.exists_cons_of_ne_nil (Ne.symm hne)
    exact .nil
  | cons c cs ih =>
    cases t with
    | nil => cases h
    | cons d ds =>
      rcases atMost_cons_iff.mp h with hlt | ⟨rfl, hrest⟩
      · exact .rel hlt
      · exact .cons (ih hrest fun heq => hne (congrArg (c :: ·) heq))

theorem atMost_of_before {s t : Text} (h : Before s t) : atMost s t = true ∧ s ≠ t := by
  induction h with
  | nil => exact ⟨rfl, List.cons_ne_nil _ _ |>.symm⟩
  | rel hlt =>
    refine ⟨atMost_cons_iff.mpr (.inl hlt), ?_⟩
    intro heq
    rw [(List.cons.inj heq).1] at hlt
    exact Nat.lt_irrefl _ hlt
  | cons _ ih => exact ⟨atMost_cons_iff.mpr (.inr ⟨rfl, ih.1⟩), fun heq => ih.2 (List.cons.inj heq).2⟩

theorem atMost_iff {s t : Text} : atMost s t = true ↔ Before s t ∨ s = t := by
  constructor
  · intro h
    by_cases heq : s = t
    · exact .inr heq
    · exact .inl (before_of_atMost h heq)
  · rintro (h | rfl)
    · exact (atMost_of_before h).1
    · exact atMost_of_begins List.prefix_rfl

theorem before_asymm {s t : Text} (h : Before s t) : ¬ Before t s := by
  intro h'
  have hst := atMost_of_before h
  exact hst.2 (atMost_antisymm hst.1 (atMost_of_before h').1)

end ConfigAssist.Text
