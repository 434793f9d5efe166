import ConfigAssist.Text.Basic

/-!
Searching for one text in another.
-/

namespace ConfigAssist.Text

def startsWith (needle t : Text) : Bool := needle.isPrefixOf t

/-- Whether a text stands somewhere in another. -/
def occursIn (needle : Text) : Text → Bool
  | [] => needle.isEmpty
  | c :: cs => needle.isPrefixOf (c :: cs) || occursIn needle cs

theorem startsWith_iff {needle t : Text} : startsWith needle t = true ↔ needle <+: t :=
  List.isPrefixOf_iff_prefix

theorem startsWith_eq_decide (needle t : Text) : startsWith needle t = decide (needle <+: t) := by
  rw [Bool.eq_iff_iff, startsWith_iff, decide_eq_true_eq]

theorem occursIn_iff {needle t : Text} : occursIn needle t = true ↔ needle <:+: t := by
  induction t with
  | nil => simp [occursIn]
  | cons c cs ih => simp [occursIn, ih, List.infix_cons_iff]

end ConfigAssist.Text
