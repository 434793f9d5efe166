import ConfigAssist.Proofs.Color.Entry
import ConfigAssist.Proofs.Text.Blank
import Mathlib.Data.List.Induction

/-! The life of a block scalar. A header announces a block for the next line, and the
block lasts as long as the lines are blank or indented deeper than the header's line.
No line changes the block it is entered in, and inside of one nothing is announced, so
the block of a line goes back to one header. -/

namespace ConfigAssist

open Text

namespace Yaml

theorem read_of_block {s : Scalars} (h : s.block.isSome) (p : Place) (c : Char) (cs : Text) :
    read p s c cs = (.plain (blockRun cs), s) := if_pos h

theorem Opened.scalars {p : Place} {s : Scalars} {c : Char} {cs : Text} {r : Reading × Scalars}
    (h : Opened p s c cs r) :
    r.2.block = s.block ∧ (r.2.announced = s.announced ∨ r.2.announced = some p.indent) := by
  cases h with
  | mark =>
    dsimp only
    split
    · exact ⟨rfl, .inl rfl⟩
    · exact ⟨rfl, .inl rfl⟩
  | header =>
    dsimp only
    split
    · exact ⟨rfl, .inr rfl⟩
    · exact ⟨rfl, .inl rfl⟩
  | indent | word | comment | hash | tag | anchor | other => exact ⟨rfl, .inl rfl⟩

/-- A reading opens and closes no block. -/
theorem Read.scalars {p : Place} {s : Scalars} {c : Char} {cs : Text} {r : Reading × Scalars}
    (h : Read p s c cs r) :
    r.2.block = s.block ∧ (r.2.announced = s.announced ∨ r.2.announced = some p.indent) := by
  cases h with
  | block => exact ⟨rfl, .inl rfl⟩
  | quoted _ _ hform => cases hform <;> exact ⟨rfl, .inl rfl⟩
  | opened _ _ hform => exact hform.scalars

end Yaml

/-- Scalars change only outside of templates. -/
theorem State.scalars_of_read {p : Yaml.Place} {s next : State} {c : Char} {cs : Text}
    {reading : Reading} (h : s.read p c cs = (reading, next)) :
    next.scalars = s.scalars ∨ next.scalars = (Yaml.read p s.scalars c cs).2 := by
  have hform := s.read_form p c cs
  rw [h] at hform
  cases hform with
  | opening | closing | inside => exact .inl rfl
  | outside => exact .inr rfl

section

variable {p : Yaml.Place} {s exit : State} {t : Text} {ps : List Piece}

theorem scalars_of_steps (h : Steps p s t ps exit) :
    exit.scalars.block = s.scalars.block ∧
      (exit.scalars.announced = s.scalars.announced ∨ exit.scalars.announced = some p.indent) := by
  induction h with
  | done => exact ⟨rfl, .inl rfl⟩
  | @step p s next exit c token rest reading ps hread hfits _ ih =>
    obtain ⟨hblock, hannounced⟩ := ih
    change _ ∨ exit.scalars.announced = some p.indent at hannounced
    have hstep := (Yaml.read_form p s.scalars c (token ++ rest)).scalars
    rcases State.scalars_of_read hread with hsame | hnext
    · rw [hsame] at hblock hannounced
      exact ⟨hblock, hannounced⟩
    · rw [← hnext] at hstep
      refine ⟨hblock.trans hstep.1, ?_⟩
      rcases hannounced with hkept | hnew
      · rw [hkept]
        exact hstep.2
      · exact .inr hnew

/-- Inside of a block scalar nothing else is opened. -/
theorem scalars_of_steps_of_block (h : Steps p s t ps exit) (hblock : s.scalars.block.isSome) :
    exit.scalars = s.scalars ∧ ∀ piece ∈ ps, piece.entry.scalars = s.scalars := by
  induction h with
  | done => exact ⟨rfl, by simp⟩
  | @step p s next exit c token rest reading ps hread hfits _ ih =>
    have hnext : next.scalars = s.scalars := by
      rcases State.scalars_of_read hread with hsame | hread
      · exact hsame
      · rw [hread, Yaml.read_of_block hblock]
    rw [hnext] at ih
    obtain ⟨hexit, hpieces⟩ := ih hblock
    refine ⟨hexit, ?_⟩
    intro piece hmem
    rcases List.mem_cons.mp hmem with rfl | hmem
    · rfl
    · exact hpieces piece hmem

end

theorem block_classify (line : Text) (s : State) :
    (classify line s).2.scalars.block = (s.enter line).scalars.block :=
  (scalars_of_steps (steps_pieces line s)).1

theorem announced_classify {line : Text} {s : State} {indent : Nat}
    (h : (classify line s).2.scalars.announced = some indent) : indent = Yaml.indentation line := by
  rcases (scalars_of_steps (steps_pieces line s)).2 with hkept | hnew
  · have hnone := hkept.symm.trans h
    cases hnone
  · exact Option.some.inj (h.symm.trans hnew)

theorem scalars_classify_of_block {line : Text} {s : State}
    (h : (classify line s).2.scalars.block.isSome) :
    (classify line s).2.scalars.announced = none ∧ (classify line s).2.scalars.quote = none := by
  rw [block_classify] at h
  have hscalars := (scalars_of_steps_of_block (steps_pieces line s) h).1
  exact ⟨congrArg Yaml.Scalars.announced hscalars, congrArg Yaml.Scalars.quote hscalars⟩

theorem plain_of_block {line : Text} {s : State} (h : (classify line s).2.scalars.block.isSome)
    {x : State × Span} (hx : x ∈ entrySpans line s) (htemplate : x.1.template = none)
    (hcategory : x.2.category ≠ .delimiter) : x.2.category = .plain ∧ x.2.marker = none := by
  rw [block_classify] at h
  obtain ⟨s', span⟩ := x
  have hscalars : s'.scalars = (s.enter line).scalars := by
    obtain ⟨piece, hpiece, rfl⟩ := List.mem_map.mp (List.of_mem_zip hx).1
    exact (scalars_of_steps_of_block (steps_pieces line s) h).2 piece hpiece
  cases readIn_of_mem hx with
  | @step before token rest c _ next reading _ hread _ =>
    rw [← hscalars] at h
    obtain ⟨-, hyaml⟩ := State.read_of_outside htemplate hread hcategory
    rw [Yaml.read_of_block h] at hyaml
    obtain ⟨rfl, -⟩ := Prod.mk.inj hyaml
    exact ⟨rfl, rfl⟩

theorem classify_congr {line : Text} {s s' : State} (h : s.enter line = s'.enter line) :
    classify line s = classify line s' := by
  unfold classify pieces
  rw [h]

theorem classify_of_no_block {line : Text} {s : State}
    (h : (classify line s).2.scalars.block = none) (quote : Option Yaml.Quote) :
    classify line s = classify line { s with scalars := { quote } } := by
  rw [block_classify] at h
  have hentered : s.scalars.enter line = {} := by
    have hfields : s.scalars.enter line = { block := (s.enter line).scalars.block } := rfl
    rw [hfields, h]
  apply classify_congr
  rw [State.enter, hentered]
  rfl

theorem stateAfter_concat (s : State) (lines : List Text) (line : Text) :
    stateAfter s (lines ++ [line]) = (classify line (stateAfter s lines)).2 := by
  simp [stateAfter]

theorem block_stateAfter_concat (lines : List Text) (line : Text) :
    (stateAfter .initial (lines ++ [line])).scalars.block =
      ((stateAfter .initial lines).scalars.announced.or
        (stateAfter .initial lines).scalars.block).filter (Yaml.Scalars.continues · line) := by
  rw [stateAfter_concat, block_classify]
  exact congrArg (Option.filter _) Option.orElse_eq_or

theorem announced_stateAfter_of_block {lines : List Text}
    (h : (stateAfter .initial lines).scalars.block.isSome) :
    (stateAfter .initial lines).scalars.announced = none := by
  rcases List.eq_nil_or_concat' lines with rfl | ⟨above, line, rfl⟩
  · rfl
  · rw [stateAfter_concat] at h ⊢
    exact (scalars_classify_of_block h).1

/-- A block goes back to the header that announced it. -/
theorem block_stateAfter_iff {lines : List Text} {indent : Nat} :
    (stateAfter .initial lines).scalars.block = some indent ↔
      ∃ above header between, lines = above ++ header :: between ∧ between ≠ [] ∧
        (stateAfter .initial (above ++ [header])).scalars.announced = some indent ∧
        ∀ line ∈ between, Yaml.Scalars.continues indent line = true := by
  -- from the last line back, since its block is the announced one or the one before it
  induction lines using List.reverseRecOn with
  | nil =>
    constructor
    · intro h
      cases h
    · rintro ⟨above, header, between, h, -⟩
      simp at h
  | append_singleton lines line ih =>
    rw [block_stateAfter_concat, Option.filter_eq_some_iff]
    constructor
    · rintro ⟨hbefore, hline⟩
      cases hannounced : (stateAfter .initial lines).scalars.announced with
      | some header =>
        rw [hannounced] at hbefore
        obtain rfl : header = indent := Option.some.inj hbefore
        rcases List.eq_nil_or_concat' lines with rfl | ⟨above, header', rfl⟩
        · cases hannounced
        · exact ⟨above, header', [line], by simp, by simp, hannounced, by simpa using hline⟩
      | none =>
        rw [hannounced, Option.none_or] at hbefore
        obtain ⟨above, header, between, rfl, -, hheader, hbetween⟩ := ih.mp hbefore
        refine ⟨above, header, between ++ [line], by simp, by simp, hheader, ?_⟩
        intro l hl
        rcases List.mem_append.mp hl with hl | hl
        · exact hbetween l hl
        · rw [List.mem_singleton.mp hl]
          exact hline
    · rintro ⟨above, header, between, hsplit, hne, hheader, hbetween⟩
      rcases List.eq_nil_or_concat' between with rfl | ⟨between, last, rfl⟩
      · exact absurd rfl hne
      obtain ⟨rfl, hlast⟩ : lines = above ++ header :: between ∧ [line] = [last] :=
        List.append_inj' (by simpa using hsplit) rfl
      obtain rfl := List.singleton_inj.mp hlast
      refine ⟨?_, hbetween line (by simp)⟩
      by_cases hfirst : between = []
      · rw [hfirst, hheader]
        rfl
      · -- the block before goes on only if no header has announced another one
        have hblock := ih.mpr ⟨above, header, between, rfl, hfirst, hheader,
          fun l hl => hbetween l (List.mem_append_left _ hl)⟩
        rw [announced_stateAfter_of_block (by simp [hblock]), Option.none_or]
        exact hblock

theorem continues_iff {header : Nat} {line : Text} :
    Yaml.Scalars.continues header line = true ↔
      trim line = [] ∨ header < Yaml.indentation line := by
  rw [Yaml.Scalars.continues, Bool.or_eq_true, trim_eq_nil_iff, decide_eq_true_eq]

theorem inBlockScalar_iff (lines : List Text) (line : Text) :
    (stateAfter .initial (lines ++ [line])).inBlockScalar = true ↔
      ∃ above header between, lines = above ++ header :: between ∧
        (stateAfter .initial (above ++ [header])).scalars.announced.isSome ∧
        ∀ l ∈ between ++ [line], trim l = [] ∨ Yaml.indentation header < Yaml.indentation l := by
  rw [State.inBlockScalar, Option.isSome_iff_exists]
  simp only [block_stateAfter_iff]
  constructor
  · rintro ⟨indent, above, header, between, hsplit, hne, hheader, hbetween⟩
    rcases List.eq_nil_or_concat' between with rfl | ⟨between, last, rfl⟩
    · exact absurd rfl hne
    obtain ⟨rfl, hlast⟩ : lines = above ++ header :: between ∧ [line] = [last] :=
      List.append_inj' (by simpa using hsplit) rfl
    rw [stateAfter_concat] at hheader
    have hindent := announced_classify hheader
    refine ⟨above, header, between, rfl, ?_, ?_⟩
    · rw [stateAfter_concat, hheader]
      rfl
    · intro l hl
      rw [hlast] at hl
      have hcontinues := continues_iff.mp (hbetween l hl)
      rwa [hindent] at hcontinues
  · rintro ⟨above, header, between, rfl, hheader, hbetween⟩
    obtain ⟨indent, hindent⟩ := Option.isSome_iff_exists.mp hheader
    refine ⟨indent, above, header, between ++ [line], by simp, by simp, hindent, ?_⟩
    rw [stateAfter_concat] at hindent
    intro l hl
    rw [continues_iff, announced_classify hindent]
    exact hbetween l hl

/-- A line is in a block scalar if and only if a line before it announced one, and all
lines since then are blank or indented deeper. Such a line is plain outside of templates
and leaves nothing announced and no quotes open. On every other line block scalars play
no part. What is announced behind a line was announced on it. -/
theorem block_scalar_life (lines : List Text) (line : Text) :
    let entry := stateAfter .initial lines
    let exit := stateAfter .initial (lines ++ [line])
    (exit.inBlockScalar = true ↔
      ∃ above header between, lines = above ++ header :: between ∧
        (stateAfter .initial (above ++ [header])).scalars.announced.isSome ∧
        ∀ l ∈ between ++ [line], trim l = [] ∨ Yaml.indentation header < Yaml.indentation l) ∧
      (exit.inBlockScalar = true →
        (∀ x ∈ entrySpans line entry, x.1.template = none → x.2.category ≠ .delimiter →
          x.2.category = .plain ∧ x.2.marker = none) ∧
        exit.scalars.announced = none ∧ exit.scalars.quote = none) ∧
      (exit.inBlockScalar = false → ∀ quote,
        classify line entry = classify line { entry with scalars := { quote } }) ∧
      (exit.scalars.announced = none ∨ exit.scalars.block = none) ∧
      ∀ indent ∈ exit.scalars.announced, indent = Yaml.indentation line := by
  intro entry exit
  have hexit : exit = (classify line entry).2 := stateAfter_concat _ lines line
  refine ⟨inBlockScalar_iff lines line, ?_, ?_, ?_, ?_⟩
  · intro hblock
    rw [hexit] at hblock ⊢
    exact ⟨fun x hx => plain_of_block hblock hx, scalars_classify_of_block hblock⟩
  · intro hblock quote
    exact classify_of_no_block (by simpa [hexit, State.inBlockScalar] using hblock) quote
  · cases hblock : exit.scalars.block with
    | none => exact .inr rfl
    | some indent =>
      rw [hexit] at hblock ⊢
      exact .inl (scalars_classify_of_block (by simp [hblock])).1
  · intro indent hindent
    rw [hexit] at hindent
    exact announced_classify hindent

/-- The block of `x: |` goes on over a blank line and one that opens a template. -/
theorem block_scalar_life_over_blank :
    let header := "  x: |- # y".toList
    let between := ["\t".toList, "    \x7b\x7b a:".toList]
    let line := "   'b': \x7d\x7d |".toList
    (stateAfter .initial (["- z".toList] ++ [header])).scalars.announced.isSome ∧
      (∀ l ∈ between ++ [line], trim l = [] ∨ Yaml.indentation header < Yaml.indentation l) ∧
      (stateAfter .initial ("- z".toList :: header :: between ++ [line])).inBlockScalar = true := by
  intro header between line
  have hheader : (stateAfter .initial (["- z".toList] ++ [header])).scalars.announced.isSome := by
    decide
  have hlines : ∀ l ∈ between ++ [line],
      trim l = [] ∨ Yaml.indentation header < Yaml.indentation l := by decide
  exact ⟨hheader, hlines, (block_scalar_life _ line).1.mpr
    ⟨["- z".toList], header, between, rfl, hheader, hlines⟩⟩

end ConfigAssist
