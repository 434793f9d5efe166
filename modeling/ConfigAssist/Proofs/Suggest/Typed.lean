import ConfigAssist.Proofs.Suggest.Marker
import ConfigAssist.Suggest.Typed
import Mathlib.Data.List.TakeWhile

/-! What is being typed stands at the end of the text before the cursor: an id whole, and
everything else as the last word. So no space, quote, bracket, brace or comma is in it. -/

namespace ConfigAssist

theorem beforeWord_append_lastWord (before : Text) : beforeWord before ++ lastWord before = before := by
  rw [beforeWord, lastWord, ← List.reverse_append, List.takeWhile_append_dropWhile, List.reverse_reverse]

theorem lastWord_suffix (before : Text) : lastWord before <:+ before :=
  ⟨beforeWord before, beforeWord_append_lastWord before⟩

theorem endsWord_of_mem_lastWord {before : Text} {c : Char} (h : c ∈ lastWord before) :
    endsWord c = false := by
  rw [lastWord, List.mem_reverse] at h
  simpa using List.mem_takeWhile_imp h

theorem after?_eq_some_iff {start t rest : Text} : after? start t = some rest ↔ t = start ++ rest := by
  induction start generalizing t with
  | nil => simp [after?]
  | cons c cs ih =>
    cases t with
    | nil => simp [after?]
    | cons d ds =>
      by_cases hc : c = d
      · simp [after?, hc, ih]
      · have hd : ¬ d = c := fun h => hc h.symm
        simp [after?, hc, hd]

/-- The beginning of an id up to some place behind its point. -/
def IsIdStart (t : Text) : Prop :=
  ∃ domain object, t = domain ++ '.' :: object ∧ domain ≠ [] ∧
    (∀ c ∈ domain, Entity.isIdChar c = true) ∧ ∀ c ∈ object, Entity.isIdChar c = true

/-- The characters that no id begins behind. -/
def continuesId (c : Char) : Bool := c.isAlphanum || c == '_' || c == '.'

theorem isWordChar_of_isIdChar {c : Char} (h : Entity.isIdChar c = true) :
    Scope.isWordChar c = true := by
  rw [Entity.isIdChar, Bool.or_eq_true, Bool.or_eq_true] at h
  rcases h with (hlower | hdigit) | hunder
  · have halpha : c.isAlpha = true := Bool.or_eq_true _ _ |>.mpr (.inr hlower)
    simp [Scope.isWordChar, Char.isAlphanum, halpha]
  · simp [Scope.isWordChar, Char.isAlphanum, hdigit]
  · simp [Scope.isWordChar, hunder]

theorem continuesId_of_isIdChar {c : Char} (h : Entity.isIdChar c = true) : continuesId c = true := by
  have hword : (c.isAlphanum || c == '_') = true := isWordChar_of_isIdChar h
  rw [continuesId, hword, Bool.true_or]

theorem isIdStart_of_typedId? {before id : Text} (h : typedId? before = some id) :
    ∃ front, before = front ++ id ∧ IsIdStart id ∧ ∀ c ∈ front.getLast?, continuesId c = false := by
  unfold typedId? at h
  dsimp only at h
  split at h
  · rename_i rest hpoint
    rw [Option.ite_none_left_eq_some, Option.some.injEq, Bool.not_eq_true, Bool.or_eq_false_iff] at h
    obtain ⟨⟨hnonempty, hfront⟩, rfl⟩ := h
    have hobject := List.takeWhile_append_dropWhile (p := Entity.isIdChar) (l := before.reverse)
    have hdomain := List.takeWhile_append_dropWhile (p := Entity.isIdChar) (l := rest)
    refine ⟨(rest.dropWhile Entity.isIdChar).reverse, ?_, ⟨(rest.takeWhile Entity.isIdChar).reverse,
      (before.reverse.takeWhile Entity.isIdChar).reverse, ?_, ?_, ?_, ?_⟩, ?_⟩
    · rw [← List.reverse_append, ← List.reverse_inj, List.reverse_reverse, List.append_assoc,
        List.cons_append, hdomain, ← hpoint, hobject]
    · simp
    · intro hempty
      simp [List.reverse_eq_nil_iff.mp hempty] at hnonempty
    · intro c hc
      exact List.mem_takeWhile_imp (List.mem_reverse.mp hc)
    · intro c hc
      exact List.mem_takeWhile_imp (List.mem_reverse.mp hc)
    · intro c hc
      rw [List.getLast?_reverse] at hc
      exact (Option.any_eq_false _ _).mp hfront c hc
  · cases h

theorem typedId?_append {front id : Text} (hid : IsIdStart id)
    (hfront : ∀ c ∈ front.getLast?, continuesId c = false) : typedId? (front ++ id) = some id := by
  obtain ⟨domain, object, rfl, hne, hdomain, hobject⟩ := hid
  have hbackward : (front ++ (domain ++ '.' :: object)).reverse =
      object.reverse ++ '.' :: (domain.reverse ++ front.reverse) := by simp
  have hobject' : ∀ c ∈ object.reverse, Entity.isIdChar c = true := fun c hc =>
    hobject c (List.mem_reverse.mp hc)
  have hdomain' : ∀ c ∈ domain.reverse, Entity.isIdChar c = true := fun c hc =>
    hdomain c (List.mem_reverse.mp hc)
  have hpoint : Entity.isIdChar '.' = false := by decide
  have hstop : front.reverse.takeWhile Entity.isIdChar = [] ∧
      front.reverse.dropWhile Entity.isIdChar = front.reverse := by
    rw [List.getLast?_eq_head?_reverse] at hfront
    cases hreverse : front.reverse with
    | nil => exact ⟨rfl, rfl⟩
    | cons c cs =>
      have hc : ¬ Entity.isIdChar c = true := by
        intro hc
        have hcontinues := hfront c (by rw [hreverse]; rfl)
        rw [continuesId_of_isIdChar hc] at hcontinues
        cases hcontinues
      exact ⟨List.takeWhile_cons_of_neg hc, List.dropWhile_cons_of_neg hc⟩
  have htake : (object.reverse ++ '.' :: (domain.reverse ++ front.reverse)).takeWhile Entity.isIdChar =
      object.reverse := by
    rw [List.takeWhile_append_of_pos hobject', List.takeWhile_cons_of_neg (by simp [hpoint]),
      List.append_nil]
  have hdrop : (object.reverse ++ '.' :: (domain.reverse ++ front.reverse)).dropWhile Entity.isIdChar =
      '.' :: (domain.reverse ++ front.reverse) := by
    rw [List.dropWhile_append_of_pos hobject', List.dropWhile_cons_of_neg (by simp [hpoint])]
  have htake' : (domain.reverse ++ front.reverse).takeWhile Entity.isIdChar = domain.reverse := by
    rw [List.takeWhile_append_of_pos hdomain', hstop.1, List.append_nil]
  have hdrop' : (domain.reverse ++ front.reverse).dropWhile Entity.isIdChar = front.reverse := by
    rw [List.dropWhile_append_of_pos hdomain', hstop.2]
  have hlast : front.getLast?.any (fun c => c.isAlphanum || c == '_' || c == '.') = false :=
    (Option.any_eq_false _ _).mpr hfront
  simp only [typedId?, hbackward, hdrop, htake, htake', hdrop', List.head?_reverse, hlast]
  simp [hne]

/-- What is typed is the beginning of an id, with nothing before it that goes on to it. -/
theorem typedId?_eq_some_iff {before id : Text} :
    typedId? before = some id ↔
      ∃ front, before = front ++ id ∧ IsIdStart id ∧ ∀ c ∈ front.getLast?, continuesId c = false := by
  constructor
  · exact isIdStart_of_typedId?
  · rintro ⟨front, rfl, hid, hfront⟩
    exact typedId?_append hid hfront

/-- The characters of the names that are typed behind a sentinel. -/
def IsNameChar (c : Char) : Prop := c.isAlphanum = true ∨ c = '_' ∨ c = '-'

instance : DecidablePred IsNameChar := fun c =>
  inferInstanceAs (Decidable (c.isAlphanum = true ∨ c = '_' ∨ c = '-'))

theorem isNameChar_of_all {name : Text} (h : name.all (decide <| IsNameChar ·) = true) :
    ∀ c ∈ name, IsNameChar c := by
  intro c hc
  exact of_decide_eq_true (List.all_eq_true.mp h c hc)

theorem isNameChar_iff {c : Char} : IsNameChar c ↔ Scope.isWordChar c = true ∨ c = '-' := by
  simp [IsNameChar, Scope.isWordChar, or_assoc]

theorem endsWord_of_isNameChar {c : Char} (h : IsNameChar c) : endsWord c = false := by
  rw [← Bool.not_eq_true]
  intro hends
  simp only [endsWord, Bool.or_eq_true, beq_iff_eq, or_assoc] at hends
  rcases hends with hspace | rfl | rfl | rfl | rfl | rfl | rfl | rfl
  · simp only [Text.isSpace, Bool.or_eq_true, Bool.and_eq_true, decide_eq_true_eq, beq_iff_eq] at hspace
    rcases isNameChar_iff.mp h with hword | rfl
    · have hrange := Scope.isWordChar_iff.mp hword
      omega
    · revert hspace
      decide
  all_goals exact absurd h (by decide)

theorem endsWord_of_isIdChar {c : Char} (h : Entity.isIdChar c = true) : endsWord c = false :=
  endsWord_of_isNameChar (isNameChar_iff.mpr (.inl (isWordChar_of_isIdChar h)))

theorem triggerName?_eq_some {sentinel before name : Text} (h : triggerName? sentinel before = some name) :
    lastWord before = sentinel ++ ':' :: name := by
  unfold triggerName? at h
  split at h
  · rename_i name' hafter
    dsimp only at h
    rw [Option.ite_none_right_eq_some, Option.some.injEq] at h
    obtain ⟨-, rfl⟩ := h
    rw [after?_eq_some_iff] at hafter
    simpa using hafter
  · cases h

namespace Typed

/-- What was typed, with what it says about the text before the cursor. -/
inductive Recognized (sentinel before : Text) : Typed → Prop
  | entity {id : Text} (hid : typedId? before = some id) : Recognized sentinel before (.entity id)
  | tag {name : Text} (hword : lastWord before = '!' :: name) : Recognized sentinel before (.tag name)
  | snippet {name : Text} (hword : lastWord before = sentinel ++ ':' :: name) :
      Recognized sentinel before (.snippet (lastWord before) name)
  | other : Recognized sentinel before (.other (lastWord before))

theorem recognized_ofText (sentinel before : Text) :
    Recognized sentinel before (ofText sentinel before) := by
  unfold ofText
  split
  · rename_i id hid
    exact .entity hid
  · split
    · rename_i name hword
      exact .tag hword
    · split
      · rename_i name hname
        exact .snippet (triggerName?_eq_some hname)
      · exact .other

theorem replaced_suffix {sentinel before : Text} {t : Typed} (h : Recognized sentinel before t) :
    t.replaced <:+ before := by
  cases h with
  | entity hid =>
    obtain ⟨front, hbefore, -⟩ := typedId?_eq_some_iff.mp hid
    exact ⟨front, hbefore.symm⟩
  | tag hword =>
    rw [replaced, ← hword]
    exact lastWord_suffix before
  | snippet => exact lastWord_suffix before
  | other => exact lastWord_suffix before

theorem endsWord_of_mem_replaced {sentinel before : Text} {t : Typed}
    (h : Recognized sentinel before t) {c : Char} (hc : c ∈ t.replaced) : endsWord c = false := by
  cases h with
  | entity hid =>
    obtain ⟨-, -, ⟨domain, object, rfl, -, hdomain, hobject⟩, -⟩ := typedId?_eq_some_iff.mp hid
    rw [replaced, List.mem_append, List.mem_cons] at hc
    rcases hc with hc | rfl | hc
    · exact endsWord_of_isIdChar (hdomain c hc)
    · rfl
    · exact endsWord_of_isIdChar (hobject c hc)
  | tag hword =>
    rw [replaced, ← hword] at hc
    exact endsWord_of_mem_lastWord hc
  | snippet => exact endsWord_of_mem_lastWord hc
  | other => exact endsWord_of_mem_lastWord hc

end Typed

end ConfigAssist
