import ConfigAssist.Proofs.Text.Blank
import ConfigAssist.Suggest.Offer

/-! Which pools there are for a word. Behind a mode key it is the pool of modes, and
elsewhere the markers above the line decide. -/

namespace ConfigAssist

open Text

/-- A mode key, the first of a list item or not, with white space around it. -/
def IsModeKey (front : Text) : Prop :=
  ∃ lead gap tail, isBlank lead = true ∧ isBlank gap = true ∧ isBlank tail = true ∧
    (front = lead ++ ("mode:".toList ++ tail) ∨
      front = lead ++ ('-' :: (gap ++ "mode:".toList) ++ tail))

theorem isModeValue_iff {before : Text} :
    Offer.isModeValue before = true ↔ IsModeKey (beforeWord before) := by
  unfold Offer.isModeValue
  generalize beforeWord before = front
  constructor
  · intro h
    obtain ⟨⟨lead, tail, hsplit, hlead, htail⟩, -, -⟩ := isCore_trim front
    dsimp only at h
    split at h
    · rename_i rest hhead
      have hrest : rest.takeWhile isSpace ++ "mode:".toList = rest := by
        rw [← beq_iff_eq.mp h, trimStart, List.takeWhile_append_dropWhile]
      have hgap : isBlank (rest.takeWhile isSpace) = true :=
        isBlank_iff.mpr fun c => List.mem_takeWhile_imp
      refine ⟨lead, rest.takeWhile isSpace, tail, hlead, hgap, htail, .inr ?_⟩
      rw [hrest, ← hhead]
      exact hsplit
    · refine ⟨lead, [], tail, hlead, rfl, htail, .inl ?_⟩
      rw [← beq_iff_eq.mp h]
      exact hsplit
  · have hfirst : ∀ c ∈ "mode:".toList.head?, isSpace c = false := by
      rintro c ⟨⟩
      rfl
    have hlast : ∀ c ∈ "mode:".toList.getLast?, isSpace c = false := by
      rintro c ⟨⟩
      rfl
    rintro ⟨lead, gap, tail, hlead, hgap, htail, hfront | hfront⟩
    · have hcore : IsCore front "mode:".toList :=
        ⟨⟨lead, tail, hfront, hlead, htail⟩, hfirst, hlast⟩
      simp only [hcore.trim_eq]
      decide
    · have hdash : ∀ c ∈ ('-' :: (gap ++ "mode:".toList)).head?, isSpace c = false := by
        rintro c ⟨⟩
        rfl
      have hcore : IsCore front ('-' :: (gap ++ "mode:".toList)) := by
        refine ⟨⟨lead, tail, hfront, hlead, htail⟩, hdash, ?_⟩
        rwa [← List.cons_append, List.getLast?_append_of_ne_nil _ (by decide)]
      have hkey : trimStart (gap ++ "mode:".toList) = "mode:".toList :=
        dropWhile_append_of_blank hgap hfirst
      simp only [hcore.trim_eq, hkey]
      decide

namespace Offer

/-- The pools for a word, by the scope of its line and by the text before it. Each case holds
where none before it does. -/
inductive Serves (scope : Scope) (front : Text) : List Pool → Prop
  | mode (hsection : scope.enclosing = some .automation) (hmode : IsModeKey front) :
      Serves scope front [.automationModes]
  | trigger (hsection : scope.enclosing = some .automation) (hmode : ¬ IsModeKey front)
      (hin : scope.inTrigger = true) : Serves scope front [.triggers]
  | condition (hsection : scope.enclosing = some .automation) (hmode : ¬ IsModeKey front)
      (htrigger : scope.inTrigger = false) (hin : scope.inCondition = true) :
      Serves scope front [.conditions]
  | action (hsection : scope.enclosing = some .automation) (hmode : ¬ IsModeKey front)
      (htrigger : scope.inTrigger = false) (hcondition : scope.inCondition = false)
      (hin : scope.inAction = true) : Serves scope front [.services, .actionKeys]
  | automation (hsection : scope.enclosing = some .automation) (hmode : ¬ IsModeKey front)
      (htrigger : scope.inTrigger = false) (hcondition : scope.inCondition = false)
      (haction : scope.inAction = false) : Serves scope front [.automationKeys]
  | platform (hsection : scope.enclosing = some .sensor ∨ scope.enclosing = some .binarySensor)
      (hin : scope.inPlatform = true) : Serves scope front [.sensorPlatforms]
  | sensor (hsection : scope.enclosing = some .sensor ∨ scope.enclosing = some .binarySensor)
      (hplatform : scope.inPlatform = false) : Serves scope front [.commonKeys]
  | other (hsection : scope.enclosing = some .script ∨ scope.enclosing = none) :
      Serves scope front [.commonKeys, .domains]

theorem Serves.ne_domains {scope : Scope} {front : Text} {ps : List Pool} (h : Serves scope front ps) :
    ps ≠ [.domains] := by
  cases h <;> simp

variable {scope : Scope} {before word : Text}

theorem pools_of_start (hstart : trim before = word ∧ scope.indent = 0) :
    pools scope before word = [.domains] := if_pos hstart

theorem serves_pools (hstart : ¬ (trim before = word ∧ scope.indent = 0)) :
    Serves scope (beforeWord before) (pools scope before word) := by
  rw [pools, if_neg hstart]
  split
  · rename_i hsection
    by_cases hmode : isModeValue before = true
    · rw [if_pos hmode]
      exact .mode hsection (isModeValue_iff.mp hmode)
    rw [if_neg hmode]
    have hkey := mt isModeValue_iff.mpr hmode
    cases htrigger : scope.inTrigger with
    | true => exact .trigger hsection hkey htrigger
    | false =>
      cases hcondition : scope.inCondition with
      | true => exact .condition hsection hkey htrigger hcondition
      | false =>
        cases haction : scope.inAction with
        | true => exact .action hsection hkey htrigger hcondition haction
        | false => exact .automation hsection hkey htrigger hcondition haction
  · rename_i hsection
    cases hplatform : scope.inPlatform with
    | true => exact .platform (.inl hsection) hplatform
    | false => exact .sensor (.inl hsection) hplatform
  · rename_i hsection
    cases hplatform : scope.inPlatform with
    | true => exact .platform (.inr hsection) hplatform
    | false => exact .sensor (.inr hsection) hplatform
  · rename_i hsection
    exact .other (.inl hsection)
  · rename_i hsection
    exact .other (.inr hsection)

/-- Only one case holds, and it gives the pools that are looked through. -/
theorem Serves.pools_eq {ps : List Pool} (hstart : ¬ (trim before = word ∧ scope.indent = 0))
    (h : Serves scope (beforeWord before) ps) : pools scope before word = ps := by
  rw [pools, if_neg hstart]
  cases h with
  | mode hsection hmode => simp [hsection, isModeValue_iff.mpr hmode]
  | trigger hsection hmode hin => simp [hsection, mt isModeValue_iff.mp hmode, hin]
  | condition hsection hmode htrigger hin =>
    simp [hsection, mt isModeValue_iff.mp hmode, htrigger, hin]
  | action hsection hmode htrigger hcondition hin =>
    simp [hsection, mt isModeValue_iff.mp hmode, htrigger, hcondition, hin]
  | automation hsection hmode htrigger hcondition haction =>
    simp [hsection, mt isModeValue_iff.mp hmode, htrigger, hcondition, haction]
  | platform hsection hin => rcases hsection with hsection | hsection <;> simp [hsection, hin]
  | sensor hsection hplatform =>
    rcases hsection with hsection | hsection <;> simp [hsection, hplatform]
  | other hsection => rcases hsection with hsection | hsection <;> simp [hsection]

end Offer

end ConfigAssist
