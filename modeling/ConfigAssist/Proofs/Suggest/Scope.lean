import ConfigAssist.Proofs.Suggest.Ancestors
import ConfigAssist.Proofs.Suggest.MarkerSearch

/-! The scope of a line is what the markers on its ancestors say. It is also what a single
pass upwards gathers, which stops at the first line that is not indented, keeps the first
section it meets and drops no part once it has met it. -/

namespace ConfigAssist.Scope

open Text

def partWords : Part → List String
  | .trigger => ["trigger", "triggers"]
  | .condition => ["condition", "conditions"]
  | .action => ["action", "actions"]
  | .platform => ["platform"]

theorem mem_sectionNames {name : Text} {sec : Section} :
    (name, sec) ∈ sectionNames ↔ name = sec.name.toList := by
  cases sec <;> simp [sectionNames, Section.name]

theorem mem_partNames {name : Text} {part : Part} :
    (name, part) ∈ partNames ↔ ∃ word ∈ partWords part, name = word.toList := by
  cases part <;> simp [partNames, partWords]

theorem isTable_sectionNames : IsTable sectionNames := ⟨by decide, by decide⟩

theorem isTable_partNames : IsTable partNames := ⟨by decide, by decide⟩

/-- Some ancestor has a marker with one of the names. -/
def IsWithin (lines : List Text) (indent target : Nat) (names : List String) : Prop :=
  ∃ i line, IsAncestor lines indent target i line ∧ ∃ name ∈ names, ∃ n, MarkerAt name.toList line n

/-- The nearest of the ancestors with a section marker has its last one at a section. -/
def IsEnclosing (lines : List Text) (indent target : Nat) (sec : Section) : Prop :=
  ∃ i line n, IsAncestor lines indent target i line ∧ MarkerAt sec.name.toList line n ∧
    (∀ (other : Section) m, MarkerAt other.name.toList line m → m ≤ n) ∧
    ∀ j nearer, IsAncestor lines indent target j nearer → i < j →
      ∀ (other : Section) m, ¬ MarkerAt other.name.toList nearer m

structure Tells (lines : List Text) (indent target : Nat) (s : Scope) : Prop where
  depth : s.indent = indent
  enclosing : ∀ sec, s.enclosing = some sec ↔ IsEnclosing lines indent target sec
  no_section : s.enclosing = none ↔ ∀ i line, IsAncestor lines indent target i line →
    ∀ (sec : Section) n, ¬ MarkerAt sec.name.toList line n
  trigger : s.inTrigger = true ↔ IsWithin lines indent target ["trigger", "triggers"]
  condition : s.inCondition = true ↔ IsWithin lines indent target ["condition", "conditions"]
  action : s.inAction = true ↔ IsWithin lines indent target ["action", "actions"]
  platform : s.inPlatform = true ↔ IsWithin lines indent target ["platform"]

theorem getLast?_sections_iff {line : Text} {sec : Section} :
    (markers sectionNames line).getLast? = some sec ↔ ∃ n, MarkerAt sec.name.toList line n ∧
      ∀ (other : Section) m, MarkerAt other.name.toList line m → m ≤ n := by
  rw [getLast?_markers_iff isTable_sectionNames]
  constructor
  · rintro ⟨name, n, hmem, hmarker, hgreatest⟩
    obtain rfl := mem_sectionNames.mp hmem
    refine ⟨n, hmarker, fun other m hother => ?_⟩
    exact hgreatest (other.name.toList, other) (mem_sectionNames.mpr rfl) m hother
  · rintro ⟨n, hmarker, hgreatest⟩
    refine ⟨_, n, mem_sectionNames.mpr rfl, hmarker, ?_⟩
    rintro ⟨name, other⟩ hmem m hother
    obtain rfl := mem_sectionNames.mp hmem
    exact hgreatest other m hother

theorem getLast?_sections_eq_none {line : Text} :
    (markers sectionNames line).getLast? = none ↔
      ∀ (sec : Section) n, ¬ MarkerAt sec.name.toList line n := by
  rw [List.getLast?_eq_none_iff, List.eq_nil_iff_forall_not_mem]
  simp only [mem_markers_iff isTable_sectionNames, mem_sectionNames]
  constructor
  · intro h sec n hmarker
    exact h sec ⟨_, n, rfl, hmarker⟩
  · rintro h sec ⟨name, n, rfl, hmarker⟩
    exact h sec n hmarker

theorem tells_below {lines : List Text} {target : Nat} (htarget : target ≤ lines.length)
    (indent : Nat) :
    Tells lines indent target (below indent (ancestors indent (lines.take target).reverse)) := by
  have hwithin : ∀ part, ((ancestors indent (lines.take target).reverse).any fun line =>
      (markers partNames line).contains part) = true ↔
        IsWithin lines indent target (partWords part) := by
    intro part
    simp only [List.any_eq_true, mem_ancestors_iff htarget, List.contains_iff_mem,
      mem_markers_iff isTable_partNames, mem_partNames]
    constructor
    · rintro ⟨line, ⟨i, h⟩, _, n, ⟨word, hword, rfl⟩, hmarker⟩
      exact ⟨i, line, h, word, hword, n, hmarker⟩
    · rintro ⟨i, line, h, word, hword, n, hmarker⟩
      exact ⟨line, ⟨i, h⟩, _, n, ⟨word, hword, rfl⟩, hmarker⟩
  refine ⟨rfl, fun sec => ?_, ?_, hwithin .trigger, hwithin .condition, hwithin .action,
    hwithin .platform⟩
  · simp only [below, findSome?_ancestors_iff htarget, getLast?_sections_iff, getLast?_sections_eq_none]
    constructor
    · rintro ⟨i, line, h, ⟨n, hmarker, hgreatest⟩, hnearer⟩
      exact ⟨i, line, n, h, hmarker, hgreatest, hnearer⟩
    · rintro ⟨i, line, n, h, hmarker, hgreatest, hnearer⟩
      exact ⟨i, line, h, ⟨n, hmarker, hgreatest⟩, hnearer⟩
  · simp only [below, List.findSome?_eq_none_iff, mem_ancestors_iff htarget, getLast?_sections_eq_none]
    constructor
    · intro h i line hancestor
      exact h line ⟨i, hancestor⟩
    · rintro h line ⟨i, hancestor⟩
      exact h i line hancestor

def observe (s : Scope) (line : Text) : Scope :=
  let holds (part : Part) : Bool := partNames.any fun e => (lastMarker? e.1 line).isSome && e.2 == part
  { s with
    enclosing := s.enclosing.or (lastOf sectionNames line)
    inTrigger := s.inTrigger || holds .trigger
    inCondition := s.inCondition || holds .condition
    inAction := s.inAction || holds .action
    inPlatform := s.inPlatform || holds .platform }

def walk (limit : Nat) (s : Scope) : List Text → Scope
  | [] => s
  | line :: above =>
    if isBlank line || limit ≤ Yaml.indentation line then walk limit s above
    else if Yaml.indentation line = 0 then observe s line
    else walk (Yaml.indentation line) (observe s line) above

/-- The scope of a line as a single pass over the lines above it gathers it. -/
def gathered (lines : List Text) (target : Nat) : Scope :=
  match lines[target]? with
  | none => {}
  | some line =>
    if Yaml.indentation line = 0 then {}
    else walk (Yaml.indentation line) { indent := Yaml.indentation line } (lines.take target).reverse

theorem walk_eq (limit : Nat) (s : Scope) (above : List Text) :
    walk limit s above = (ancestors limit above).foldl observe s := by
  induction above generalizing limit s with
  | nil => rfl
  | cons line above ih =>
    rw [walk, ancestors]
    by_cases hskip : (isBlank line || decide (limit ≤ Yaml.indentation line)) = true
    · rw [if_pos hskip, if_pos hskip]
      exact ih limit s
    rw [if_neg hskip, if_neg hskip, List.foldl_cons]
    by_cases hzero : Yaml.indentation line = 0
    · rw [if_pos hzero, hzero, ancestors_zero]
      rfl
    · rw [if_neg hzero]
      exact ih _ _

theorem below_concat (indent : Nat) (near : List Text) (line : Text) :
    below indent (near ++ [line]) = observe (below indent near) line := by
  simp only [below, observe, List.findSome?_append, List.findSome?_singleton, List.any_append,
    List.any_cons, List.any_nil, Bool.or_false, lastOf_eq isTable_sectionNames, contains_markers isTable_partNames]

theorem foldl_observe (indent : Nat) (ancestors : List Text) :
    ancestors.foldl observe { indent } = below indent ancestors := by
  induction ancestors using List.reverseRecOn with
  | nil => rfl
  | append_singleton near line ih =>
    rw [List.foldl_append, ih, below_concat, List.foldl_cons, List.foldl_nil]

theorem gathered_eq (lines : List Text) (target : Nat) :
    gathered lines target = ofLine lines target := by
  unfold gathered ofLine
  cases hline : lines[target]? with
  | none => rfl
  | some line =>
    simp only [walk_eq, foldl_observe]
    split
    · rename_i hzero
      rw [hzero, ancestors_zero]
      rfl
    · rfl

/-- The scope that a pass over the lines above gathers is what the markers on the ancestors
say. A line that is not indented has no section and no part, and there is no scope past
the end. -/
theorem ofLine_tells (lines : List Text) (target : Nat) :
    ofLine lines target = gathered lines target ∧
      (∀ line, lines[target]? = some line →
        Tells lines (Yaml.indentation line) target (ofLine lines target)) ∧
      ((∀ line, lines[target]? = some line → Yaml.indentation line = 0) → ofLine lines target = {}) := by
  refine ⟨(gathered_eq lines target).symm, ?_, ?_⟩
  · intro line hline
    have htarget := (List.getElem?_eq_some_iff.mp hline).1
    rw [ofLine, hline]
    exact tells_below (Nat.le_of_lt htarget) _
  · intro hzero
    rw [ofLine]
    cases hline : lines[target]? with
    | none => rfl
    | some line =>
      simp only [hzero line hline, ancestors_zero]
      rfl

/-- The word before the condition's name is part of a longer one, and the triggers are not
indented less than the line. -/
theorem ofLine_tells_action :
    let lines := ["automation:".toList, "  script: \x7bbinary_sensor: x".toList, "      triggers:".toList,
      "    é: my_condition: action:".toList, " ".toList, "      at: 5".toList]
    let s := ofLine lines 5
    s = gathered lines 5 ∧ Tells lines 6 5 s ∧ IsEnclosing lines 6 5 .binarySensor ∧
      IsWithin lines 6 5 ["action", "actions"] ∧ ¬ IsWithin lines 6 5 ["trigger", "triggers"] ∧
      ¬ IsWithin lines 6 5 ["condition", "conditions"] ∧ ofLine lines 0 = {} ∧ ofLine lines 6 = {} := by
  intro lines s
  obtain ⟨hgathered, htells, -⟩ := ofLine_tells lines 5
  have hline : lines[5]? = some "      at: 5".toList := rfl
  have h : Tells lines 6 5 s := htells _ hline
  have hvalues : s = { indent := 6, enclosing := some .binarySensor, inAction := true } := by decide
  have htop : ofLine lines 0 = {} := by
    refine (ofLine_tells lines 0).2.2 fun line hline => ?_
    obtain rfl := Option.some.inj hline
    rfl
  have hpast : ofLine lines 6 = {} := by
    refine (ofLine_tells lines 6).2.2 fun line hline => ?_
    cases hline
  refine ⟨hgathered, h, (h.enclosing _).mp (by rw [hvalues]), h.action.mp (by rw [hvalues]), ?_, ?_,
    htop, hpast⟩
  · rw [← h.trigger, hvalues]
    decide
  · rw [← h.condition, hvalues]
    decide

end ConfigAssist.Scope
