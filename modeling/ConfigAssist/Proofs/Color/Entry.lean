import ConfigAssist.Proofs.Color.Tiling

/-! The spans of a line together with the states they were read in. Each of them comes
from one step: it starts where the scanner stood, and ends where the reading ended. -/

namespace ConfigAssist

open Text

def entrySpans (line : Text) (s : State) : List (State × Span) :=
  ((pieces line s).1.map Piece.entry).zip (classify line s).1

/-- No span is left out. -/
theorem map_snd_entrySpans (line : Text) (s : State) :
    (entrySpans line s).map Prod.snd = (classify line s).1 := by
  have hlen (offset : Nat) (ps : List Piece) : (spansFrom utf8 offset ps).length = ps.length := by
    induction ps generalizing offset with
    | nil => rfl
    | cons p ps ih => exact congrArg (· + 1) (ih _)
  apply List.map_snd_zip
  rw [List.length_map]
  exact Nat.le_of_eq (hlen 0 _)

/-- A span that was read in a state, at the place behind the text before it. -/
inductive ReadIn (line : Text) : State → Span → Prop
  | step {before token rest : Text} {c : Char} {s next : State} {reading : Reading}
      (hline : before ++ (c :: token ++ rest) = line)
      (hread : s.read (.behind line before) c (token ++ rest) = (reading, next))
      (hfits : token.length = reading.further) :
      ReadIn line s ⟨size utf8 before, size utf8 before + size utf8 (c :: token),
        reading.category, reading.marker⟩

theorem readIn_of_steps {line t : Text} {s exit : State} {ps : List Piece} (before : Text)
    (hline : before ++ t = line) (h : Steps (.behind line before) s t ps exit) :
    ∀ x ∈ (ps.map Piece.entry).zip (spansFrom utf8 (size utf8 before) ps), ReadIn line x.1 x.2 := by
  -- the text before grows with the place, so the place has to become a variable first
  generalize hp : Yaml.Place.behind line before = p at h
  induction h generalizing before with
  | done => simp
  | @step p s next exit c token rest reading ps hread hfits _ ih =>
    subst hp
    have hnext := ih (before ++ c :: token) (by simpa using hline)
      (Yaml.Place.advance_behind line before (c :: token)).symm
    rw [size_append] at hnext
    intro x hx
    rcases List.mem_cons.mp hx with rfl | hx
    · exact .step hline hread hfits
    · exact hnext x hx

theorem readIn_of_mem {line : Text} {s : State} {x : State × Span} (hx : x ∈ entrySpans line s) :
    ReadIn line x.1 x.2 :=
  readIn_of_steps [] rfl (steps_pieces line s) x hx

/-- The spans of pieces with the states they were read in. -/
def entriesFrom (offset : Nat) (ps : List Piece) : List (State × Span) :=
  (ps.map Piece.entry).zip (spansFrom utf8 offset ps)

theorem entriesFrom_append (offset : Nat) (ps qs : List Piece) :
    entriesFrom offset (ps ++ qs) =
      entriesFrom offset ps ++ entriesFrom (offset + size utf8 (ps.map Piece.text).flatten) qs := by
  induction ps generalizing offset with
  | nil => rfl
  | cons p ps ih =>
    rw [List.map_cons, List.flatten_cons, size_append, ← Nat.add_assoc]
    exact congrArg (_ :: ·) (ih _)

theorem exists_of_mem_entriesFrom {offset : Nat} {ps : List Piece} {x : State × Span}
    (h : x ∈ entriesFrom offset ps) :
    ∃ before piece after, ps = before ++ piece :: after ∧ x.1 = piece.entry ∧
      x.2.start = offset + size utf8 (before.map Piece.text).flatten ∧
      x.2 = ⟨x.2.start, x.2.start + size utf8 piece.text, piece.category, piece.marker⟩ ∧
      entriesFrom offset ps = entriesFrom offset before ++ x :: entriesFrom x.2.stop after := by
  induction ps generalizing offset with
  | nil => simp [entriesFrom] at h
  | cons p ps ih =>
    rcases List.mem_cons.mp h with rfl | h
    · exact ⟨[], p, ps, rfl, rfl, by simp, rfl, rfl⟩
    · obtain ⟨before, piece, after, rfl, hentry, hstart, hspan, hsplit⟩ := ih h
      refine ⟨p :: before, piece, after, rfl, hentry, by simp [hstart, Nat.add_assoc], hspan, ?_⟩
      exact congrArg (_ :: ·) hsplit

/-- The steps from the start of a span on. -/
theorem steps_of_mem_entrySpans {line before t : Text} {s : State} {x : State × Span}
    (hx : x ∈ entrySpans line s) (hline : before ++ t = line)
    (hstart : size utf8 before = x.2.start) :
    ∃ front piece behind, Steps (.behind line before) x.1 t (piece :: behind) (classify line s).2 ∧
      x.2 = ⟨size utf8 before, size utf8 (before ++ piece.text), piece.category, piece.marker⟩ ∧
      entrySpans line s =
        entriesFrom 0 front ++ x :: entriesFrom (size utf8 (before ++ piece.text)) behind := by
  obtain ⟨front, piece, behind, hpieces, hentry, hfront, hspan, hspans⟩ :=
    exists_of_mem_entriesFrom hx
  have hsteps := steps_pieces line s
  rw [hpieces] at hsteps
  obtain ⟨mid, rest, hrest, hsteps⟩ := hsteps.split
  -- the sizes tell that the pieces in front are the text in front
  obtain ⟨hbefore, rfl⟩ := append_inj_of_size utf8_pos (hrest.symm.trans hline.symm)
    (by rw [hstart, hfront, Nat.zero_add])
  have hplace : (Yaml.Place.start line).advance before = .behind line before :=
    Yaml.Place.advance_behind line [] before
  rw [hbefore, hplace] at hsteps
  have hmid : mid = x.1 := by
    cases hsteps
    exact hentry.symm
  subst hmid
  rw [← hstart, ← size_append] at hspan
  rw [hspan] at hspans
  exact ⟨front, piece, behind, hsteps, hspan, hspans⟩

section

variable {p : Yaml.Place} {s next : State} {c : Char} {cs : Text} {reading : Reading}

theorem State.read_of_outside (htemplate : s.template = none)
    (hread : s.read p c cs = (reading, next)) (hcategory : reading.category ≠ .delimiter) :
    Template.Delimiter.opening? (c :: cs) = none ∧
      Yaml.read p s.scalars c cs = (reading, next.scalars) := by
  have hform := s.read_form p c cs
  rw [hread] at hform
  cases hform with
  | opening | closing => exact absurd rfl hcategory
  | outside _ hopening => exact ⟨hopening, rfl⟩
  | inside hinside =>
    rw [htemplate] at hinside
    cases hinside

theorem State.read_of_inside {d : Template.Delimiter} (htemplate : s.template = some d)
    (hread : s.read p c cs = (reading, next)) (hcategory : reading.category ≠ .delimiter) :
    d.closerLength? (c :: cs) = none ∧ d.readBody c cs = reading ∧ next = s := by
  have hform := s.read_form p c cs
  rw [hread] at hform
  cases hform with
  | opening | closing => exact absurd rfl hcategory
  | outside houtside =>
    rw [htemplate] at houtside
    cases houtside
  | inside hinside hcloser =>
    obtain rfl := Option.some.inj (htemplate.symm.trans hinside)
    exact ⟨hcloser, rfl, rfl⟩

end

/-- Nothing is open: no template, no block scalar and no quotes. -/
structure State.IsBare (s : State) : Prop where
  template : s.template = none
  block : s.scalars.block = none
  quote : s.scalars.quote = none

theorem State.IsBare.read_eq {s : State} (h : s.IsBare) {p : Yaml.Place} {c : Char} {cs : Text}
    (hopening : Template.Delimiter.opening? (c :: cs) = none) :
    s.read p c cs = ((Yaml.readOpen p s.scalars c cs).1,
      { s with scalars := (Yaml.readOpen p s.scalars c cs).2 }) := by
  simp [State.read, Yaml.read, h.template, h.block, h.quote, hopening]

end ConfigAssist
