import ConfigAssist.Text.Basic

/-! Cutting a text at offsets in some unit. A cut inside a character or past the
end does not exist, so the cuts that exist are those at character boundaries. -/

namespace ConfigAssist.Text

/-- The text before an offset and the text from there on. -/
def cut? (unit : Char → Nat) : Nat → Text → Option (Text × Text)
  | 0, t => some ([], t)
  | _ + 1, [] => none
  | n + 1, c :: cs =>
    if unit c ≤ n + 1 then
      (cut? unit (n + 1 - unit c) cs).map fun parts => (c :: parts.1, parts.2)
    else none

/-- The text between two offsets. -/
def slice? (unit : Char → Nat) (start stop : Nat) (t : Text) : Option Text := do
  let (_, rest) ← cut? unit start t
  let (inner, _) ← cut? unit (stop - start) rest
  if start ≤ stop then some inner else none

/-- A text with what is between two offsets replaced. -/
def splice? (unit : Char → Nat) (start stop : Nat) (inserted t : Text) : Option Text := do
  let (before, rest) ← cut? unit start t
  let (_, after) ← cut? unit (stop - start) rest
  if start ≤ stop then some (before ++ (inserted ++ after)) else none

/-- An offset between two characters, at the start or at the end. -/
def IsBoundary (unit : Char → Nat) (t : Text) (offset : Nat) : Prop :=
  ∃ before after, t = before ++ after ∧ size unit before = offset

variable {unit : Char → Nat}

theorem size_pos_of_ne_nil (hu : ∀ c, 0 < unit c) {t : Text} (h : t ≠ []) : 0 < size unit t := by
  cases t with
  | nil => exact absurd rfl h
  | cons c cs => exact Nat.add_pos_left (hu c) _

theorem length_le_size (hu : ∀ c, 0 < unit c) (t : Text) : t.length ≤ size unit t := by
  induction t with
  | nil => exact Nat.le_refl 0
  | cons c cs ih =>
    have hpos := hu c
    simp only [List.length_cons, size_cons]
    omega

theorem cut?_append (hu : ∀ c, 0 < unit c) (before after : Text) :
    cut? unit (size unit before) (before ++ after) = some (before, after) := by
  induction before with
  | nil => cases after <;> rfl
  | cons c cs ih =>
    obtain ⟨n, hn⟩ : ∃ n, size unit (c :: cs) = n + 1 :=
      Nat.exists_eq_add_one.2 (Nat.add_pos_left (hu c) _)
    have hc : unit c + size unit cs = n + 1 := hn
    have hrest : n + 1 - unit c = size unit cs := by omega
    rw [hn, List.cons_append]
    simp only [cut?, hrest, ih, Option.map_some]
    rw [if_pos (by omega)]

theorem append_of_cut? {n : Nat} {t before after : Text}
    (h : cut? unit n t = some (before, after)) :
    t = before ++ after ∧ size unit before = n := by
  induction t generalizing n before with
  | nil =>
    cases n with
    | zero => simp_all [cut?]
    | succ n => simp [cut?] at h
  | cons c cs ih =>
    cases n with
    | zero => simp_all [cut?]
    | succ n =>
      simp only [cut?, Option.ite_none_right_eq_some, Option.map_eq_some_iff, Prod.mk.injEq] at h
      obtain ⟨hc, ⟨u, v⟩, hcut, rfl, rfl⟩ := h
      obtain ⟨rfl, hsize⟩ := ih hcut
      refine ⟨rfl, ?_⟩
      simp only [size_cons, hsize]
      omega

theorem cut?_eq_some_iff (hu : ∀ c, 0 < unit c) {n : Nat} {t before after : Text} :
    cut? unit n t = some (before, after) ↔ t = before ++ after ∧ size unit before = n := by
  constructor
  · exact append_of_cut?
  · rintro ⟨rfl, rfl⟩
    exact cut?_append hu before after

theorem isSome_cut?_iff (hu : ∀ c, 0 < unit c) {n : Nat} {t : Text} :
    (cut? unit n t).isSome ↔ IsBoundary unit t n := by
  simp only [Option.isSome_iff_exists, Prod.exists, cut?_eq_some_iff hu, IsBoundary]

theorem slice?_append (hu : ∀ c, 0 < unit c) (before inner after : Text) :
    slice? unit (size unit before) (size unit before + size unit inner)
      (before ++ (inner ++ after)) = some inner := by
  have hstop : size unit before + size unit inner - size unit before = size unit inner := by omega
  simp [slice?, cut?_append hu, hstop]

theorem splice?_append (hu : ∀ c, 0 < unit c) (before inner inserted after : Text) :
    splice? unit (size unit before) (size unit before + size unit inner) inserted
      (before ++ (inner ++ after)) = some (before ++ (inserted ++ after)) := by
  have hstop : size unit before + size unit inner - size unit before = size unit inner := by omega
  simp [splice?, cut?_append hu, hstop]

theorem isBoundary_fit (budget : Nat) (t : Text) :
    IsBoundary unit t (size unit (fit unit budget t)) := by
  obtain ⟨rest, hrest⟩ := fit_prefix unit budget t
  exact ⟨fit unit budget t, rest, hrest.symm, rfl⟩

theorem prefix_fit {budget : Nat} {front t : Text} (h : front <+: t) (hle : size unit front ≤ budget) :
    front <+: fit unit budget t := by
  obtain ⟨back, rfl⟩ := h
  induction front generalizing budget with
  | nil => exact List.nil_prefix
  | cons c cs ih =>
    rw [size_cons] at hle
    have hrest : cs <+: fit unit (budget - unit c) (cs ++ back) := ih (by omega)
    rw [List.cons_append, fit, if_pos (by omega)]
    exact List.cons_prefix_cons.mpr ⟨rfl, hrest⟩

theorem size_le_of_prefix {s t : Text} (h : s <+: t) : size unit s ≤ size unit t := by
  obtain ⟨rest, rfl⟩ := h
  rw [size_append]
  exact Nat.le_add_right _ _

/-- No boundary within the budget lies behind the longest beginning that fits. -/
theorem le_size_fit {budget offset : Nat} {t : Text} (h : IsBoundary unit t offset)
    (hle : offset ≤ budget) : offset ≤ size unit (fit unit budget t) := by
  obtain ⟨before, after, rfl, rfl⟩ := h
  exact size_le_of_prefix (prefix_fit (List.prefix_append before after) hle)

/-- What does not fit begins with a character that goes past the budget. -/
theorem exists_fit_append (budget : Nat) (t : Text) :
    ∃ after, t = fit unit budget t ++ after ∧
      ∀ c ∈ after.head?, budget < size unit (fit unit budget t) + unit c := by
  induction t generalizing budget with
  | nil => exact ⟨[], rfl, by simp⟩
  | cons c cs ih =>
    by_cases hc : unit c ≤ budget
    · obtain ⟨after, hafter, hhead⟩ := ih (budget - unit c)
      rw [fit, if_pos hc]
      refine ⟨after, congrArg (c :: ·) hafter, ?_⟩
      intro d hd
      have hd := hhead d hd
      rw [size_cons]
      omega
    · rw [fit, if_neg hc]
      refine ⟨c :: cs, rfl, ?_⟩
      intro d hd
      obtain rfl : c = d := Option.some.inj hd
      simpa using hc

theorem fit_append (hu : ∀ c, 0 < unit c) (before after : Text) :
    fit unit (size unit before) (before ++ after) = before := by
  induction before with
  | nil =>
    cases after with
    | nil => rfl
    | cons c cs =>
      have hc : ¬ unit c ≤ 0 := Nat.not_le_of_lt (hu c)
      simp [fit, hc]
  | cons c cs ih =>
    have hrest : unit c + size unit cs - unit c = size unit cs := by omega
    rw [List.cons_append, size_cons, fit, if_pos (Nat.le_add_right _ _), hrest, ih]

theorem append_inj_of_size (hu : ∀ c, 0 < unit c) {front back front' back' : Text}
    (h : front ++ back = front' ++ back') (hsize : size unit front = size unit front') :
    front = front' ∧ back = back' := by
  obtain rfl : front = front' := by
    rw [← fit_append hu front back, ← fit_append hu front' back', hsize, h]
  exact ⟨rfl, List.append_cancel_left h⟩

/-- A place inside one of three parts cuts that part in two. -/
theorem split_inside (hu : ∀ c, 0 < unit c) {before inner after front back : Text}
    (h : before ++ (inner ++ after) = front ++ back) (hge : size unit before ≤ size unit front)
    (hlt : size unit front < size unit before + size unit inner) :
    ∃ u v, inner = u ++ v ∧ v ≠ [] ∧ front = before ++ u ∧ back = v ++ after := by
  obtain ⟨u, rfl, hrest⟩ : ∃ u, front = before ++ u ∧ inner ++ after = u ++ back := by
    rcases List.append_eq_append_iff.mp h with ⟨u, hfront, hinner⟩ | ⟨x, hbefore, hback⟩
    · exact ⟨u, hfront, hinner⟩
    · cases x with
      | nil => exact ⟨[], by simpa using hbefore.symm, by simpa using hback.symm⟩
      | cons c cs =>
        have hpos := size_pos_of_ne_nil hu (List.cons_ne_nil c cs)
        rw [hbefore, size_append] at hge
        omega
  rw [size_append, Nat.add_lt_add_iff_left] at hlt
  rcases List.append_eq_append_iff.mp hrest with ⟨x, hu', _⟩ | ⟨v, hinner, hback⟩
  · rw [hu', size_append] at hlt
    omega
  · refine ⟨u, v, hinner, ?_, rfl, hback⟩
    rintro rfl
    rw [hinner, List.append_nil] at hlt
    exact Nat.lt_irrefl _ hlt

end ConfigAssist.Text
