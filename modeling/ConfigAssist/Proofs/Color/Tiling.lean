import ConfigAssist.Proofs.Color.Width
import ConfigAssist.Proofs.Text.Offset

/-! The spans of a line tile it. They are computed from pieces of text; the loop over
byte offsets below counts what it takes in bytes and cuts the line anew in every round,
and a cut off a character boundary or past the end would stop it. On lines with 32-bit
offsets it never stops, whatever the state, and it finds the same spans. -/

namespace ConfigAssist

/-- What a span covers of a line, with its offsets counted in some unit. -/
def Span.text? (unit : Char → Nat) (line : Text) (span : Span) : Option Text :=
  Text.slice? unit span.start span.stop line

/-- Spans that lie end to end on a line, from its first byte to its last. -/
structure Tiles (line : Text) (spans : List Span) : Prop where
  nonempty : ∀ span ∈ spans, span.start < span.stop
  first : ∀ span ∈ spans.head?, span.start = 0
  joined : spans.IsChain (fun a b => a.stop = b.start)
  last : (spans.getLast?.map Span.stop).getD 0 = Text.size Text.utf8 line
  aligned : ∀ span ∈ spans, Text.IsBoundary Text.utf8 line span.start ∧
    Text.IsBoundary Text.utf8 line span.stop
  rebuilt : ∃ texts : List Text,
    spans.map (Span.text? Text.utf8 line) = texts.map some ∧ texts.flatten = line

def Yaml.Place.behind (line before : Text) : Yaml.Place where
  indent := Yaml.indentation line
  offset := Text.size Text.utf8 before
  previous := before.getLast?

/-- An offset as it is stored, in 32 bits. -/
def stored (offset : Nat) : Nat := offset % UInt32.size

/-- The spans of a line from a byte offset on, in at most so many rounds. In every round
the line is cut at the offset, and its rest behind the bytes that stand there. There is
no answer if one of the cuts fails, if a stored span ends before it starts, or if the
rounds are used up before the end of the line. -/
def sliceSpans? (line : Text) : Nat → Nat → State → Option (List Span × State)
  | rounds, offset, s =>
    if Text.size Text.utf8 line ≤ offset then some ([], s)
    else match rounds, Text.cut? Text.utf8 offset line with
      | rounds + 1, some (before, c :: cs) =>
        let p := Yaml.Place.behind line before
        let stop := offset + s.width p c cs
        let (reading, next) := s.read p c cs
        let token? := Text.cut? Text.utf8 (s.width p c cs) (c :: cs)
        if token?.isSome ∧ stored offset ≤ stored stop then
          (sliceSpans? line rounds stop next).map fun (spans, exit) =>
            (⟨stored offset, stored stop, reading.category, reading.marker⟩ :: spans, exit)
        else none
      | _, _ => none

theorem Yaml.Place.advance_behind (line before passed : Text) :
    (Yaml.Place.behind line before).advance passed = Yaml.Place.behind line (before ++ passed) := by
  simp [Yaml.Place.advance, Yaml.Place.behind]

/-- The loop does not stop before the end of the line, as every round takes at least one
character and all that it takes is there. -/
theorem sliceSpans?_of_steps {line t : Text} {s exit : State} {ps : List Piece}
    (hshort : Text.size Text.utf8 line < UInt32.size) (before : Text) (hline : line = before ++ t)
    (h : Steps (Yaml.Place.behind line before) s t ps exit)
    (rounds : Nat) (hrounds : t.length ≤ rounds) :
    sliceSpans? line rounds (Text.size Text.utf8 before) s =
      some (spansFrom Text.utf8 (Text.size Text.utf8 before) ps, exit) := by
  generalize hp : Yaml.Place.behind line before = p at h
  induction h generalizing before rounds with
  | done =>
    have hend : line = before := by simpa using hline
    unfold sliceSpans?
    rw [hend, if_pos (Nat.le_refl _)]
    rfl
  | @step p s next exit c token rest reading ps hread hfits hrest ih =>
    subst hp
    have hcut := Text.cut?_append Text.utf8_pos before (c :: (token ++ rest))
    rw [← hline] at hcut
    have hsize := congrArg (Text.size Text.utf8) hline
    rw [← List.cons_append, Text.size_append, Text.size_append] at hsize
    have htoken : 0 < Text.size Text.utf8 (c :: token) := Nat.add_pos_left (Text.utf8_pos c) _
    simp only [List.length_cons, List.length_append] at hrounds
    obtain ⟨rounds, rfl⟩ : ∃ r, rounds = r + 1 := ⟨rounds - 1, by omega⟩
    have hnext := ih (before ++ c :: token) (by simpa using hline) rounds (by omega)
      (Yaml.Place.advance_behind line before (c :: token)).symm
    rw [Text.size_append] at hnext
    have hwidth := State.width_eq (Yaml.Place.behind line before) s c (token ++ rest)
    rw [hread, List.take_left' hfits] at hwidth
    have hinner : (Text.cut? Text.utf8 (Text.size Text.utf8 (c :: token))
        (c :: (token ++ rest))).isSome :=
      (Text.isSome_cut?_iff Text.utf8_pos).mpr ⟨c :: token, rest, rfl, rfl⟩
    have hstart : stored (Text.size Text.utf8 before) = Text.size Text.utf8 before :=
      Nat.mod_eq_of_lt (by omega)
    have hstop : stored (Text.size Text.utf8 before + Text.size Text.utf8 (c :: token)) =
        Text.size Text.utf8 before + Text.size Text.utf8 (c :: token) :=
      Nat.mod_eq_of_lt (by omega)
    unfold sliceSpans?
    rw [if_neg (by omega)]
    simp only [hcut, hread, hwidth, hstart, hstop]
    rw [if_pos ⟨hinner, Nat.le_add_right _ _⟩, hnext]
    rfl

theorem sliceSpans?_eq_classify {line : Text} (hshort : Text.size Text.utf8 line < UInt32.size)
    (s : State) : sliceSpans? line line.length 0 (s.enter line) = some (classify line s) :=
  sliceSpans?_of_steps hshort [] rfl (steps_pieces line s) _ (Nat.le_refl _)

theorem text_ne_nil_of_steps {p : Yaml.Place} {s exit : State} {t : Text} {ps : List Piece}
    (h : Steps p s t ps exit) : ∀ piece ∈ ps, piece.text ≠ [] := by
  induction h with
  | done => simp
  | step _ _ _ ih => simpa using ih

section

variable {unit : Char → Nat}

theorem map_category_spansFrom {offset : Nat} {ps : List Piece} :
    (spansFrom unit offset ps).map Span.category = ps.map Piece.category := by
  induction ps generalizing offset with
  | nil => rfl
  | cons p ps ih => exact congrArg (p.category :: ·) ih

theorem mem_spansFrom {offset : Nat} {ps : List Piece} {span : Span}
    (h : span ∈ spansFrom unit offset ps) :
    ∃ before piece after, ps = before ++ piece :: after ∧
      span.start = offset + Text.size unit (before.map Piece.text).flatten ∧
      span.stop = span.start + Text.size unit piece.text ∧
      span.category = piece.category ∧ span.marker = piece.marker := by
  induction ps generalizing offset with
  | nil => simp [spansFrom] at h
  | cons p ps ih =>
    rcases List.mem_cons.mp h with rfl | h
    · exact ⟨[], p, ps, rfl, by simp, rfl, rfl, rfl⟩
    · obtain ⟨before, piece, after, rfl, hstart, hspan⟩ := ih h
      exact ⟨p :: before, piece, after, rfl, by simp [hstart, Nat.add_assoc], hspan⟩

theorem start_lt_stop_of_mem_spansFrom (hu : ∀ c, 0 < unit c) {offset : Nat} {ps : List Piece}
    (hne : ∀ piece ∈ ps, piece.text ≠ []) {span : Span} (h : span ∈ spansFrom unit offset ps) :
    span.start < span.stop := by
  obtain ⟨before, piece, after, hps, -, hstop, -⟩ := mem_spansFrom h
  have hpos := Text.size_pos_of_ne_nil hu (hne piece (by simp [hps]))
  omega

theorem start_head_spansFrom (unit : Char → Nat) (offset : Nat) (ps : List Piece) :
    ∀ span ∈ (spansFrom unit offset ps).head?, span.start = offset := by
  cases ps <;> simp [spansFrom]

theorem isChain_spansFrom (unit : Char → Nat) (offset : Nat) (ps : List Piece) :
    (spansFrom unit offset ps).IsChain (fun a b => a.stop = b.start) := by
  induction ps generalizing offset with
  | nil => simp [spansFrom]
  | cons p ps ih =>
    cases ps with
    | nil => simp [spansFrom]
    | cons q qs => exact List.IsChain.cons_cons rfl (ih _)

theorem last_spansFrom (unit : Char → Nat) (offset : Nat) (ps : List Piece) :
    ((spansFrom unit offset ps).getLast?.map Span.stop).getD offset =
      offset + Text.size unit (ps.map Piece.text).flatten := by
  induction ps generalizing offset with
  | nil => simp [spansFrom]
  | cons p ps ih =>
    have hrest := ih (offset + Text.size unit p.text)
    simp only [List.map_cons, List.flatten_cons, Text.size_append, ← Nat.add_assoc]
    rw [← hrest]
    cases ps <;> simp [spansFrom, List.getLast?_cons]

/-- The spans of pieces cut the texts of the pieces out of their line. -/
theorem map_spansFrom {α : Type} (f : Option Text → Category → Option Marker → α)
    (hu : ∀ c, 0 < unit c) (before : Text) (ps : List Piece) :
    (spansFrom unit (Text.size unit before) ps).map (fun span =>
        f (span.text? unit (before ++ (ps.map Piece.text).flatten)) span.category span.marker) =
      ps.map fun p => f (some p.text) p.category p.marker := by
  induction ps generalizing before with
  | nil => rfl
  | cons p ps ih =>
    have hhead := Text.slice?_append hu before p.text (ps.map Piece.text).flatten
    have htail := ih (before ++ p.text)
    rw [Text.size_append, List.append_assoc] at htail
    simp only [spansFrom, List.map_cons, List.flatten_cons, Span.text?] at htail ⊢
    rw [htail, hhead]

theorem texts_spansFrom (hu : ∀ c, 0 < unit c) (ps : List Piece) :
    (spansFrom unit 0 ps).map (Span.text? unit (ps.map Piece.text).flatten) =
      (ps.map Piece.text).map some := by
  rw [List.map_map]
  exact map_spansFrom (fun text? _ _ => text?) hu [] ps

end

theorem tiles_spansFrom {ps : List Piece} (hne : ∀ piece ∈ ps, piece.text ≠ []) :
    Tiles (ps.map Piece.text).flatten (spansFrom Text.utf8 0 ps) := by
  have hlast := last_spansFrom Text.utf8 0 ps
  rw [Nat.zero_add] at hlast
  refine ⟨fun span => start_lt_stop_of_mem_spansFrom Text.utf8_pos hne,
    start_head_spansFrom Text.utf8 0 ps, isChain_spansFrom Text.utf8 0 ps, hlast, ?_,
    ps.map Piece.text, texts_spansFrom Text.utf8_pos ps, rfl⟩
  intro span hspan
  obtain ⟨before, piece, after, hps, hstart, hstop, -⟩ := mem_spansFrom hspan
  have hline : (ps.map Piece.text).flatten = (before.map Piece.text).flatten ++
      (piece.text ++ (after.map Piece.text).flatten) := by simp [hps]
  rw [Nat.zero_add] at hstart
  refine ⟨⟨_, _, hline, hstart.symm⟩, (before.map Piece.text).flatten ++ piece.text, _,
    by rw [hline, List.append_assoc], ?_⟩
  rw [Text.size_append]
  omega

theorem tiles_classify (line : Text) (s : State) : Tiles line (classify line s).1 := by
  have htiles := tiles_spansFrom (text_ne_nil_of_steps (steps_pieces line s))
  rwa [flatten_pieces] at htiles

/-- Every line is cut into spans that tile it, whatever state it is entered in. -/
theorem classify_tiles_line (line : Text) (s : State)
    (hshort : Text.size Text.utf8 line < UInt32.size) :
    sliceSpans? line line.length 0 (s.enter line) = some (classify line s) ∧
      Tiles line (classify line s).1 :=
  ⟨sliceSpans?_eq_classify hshort s, tiles_classify line s⟩

/-- An escape stands before a character of two bytes, and a lone brace before an opener. -/
theorem classify_tiles_line_escaped :
    let line := "é: \"\\é\x7b\x7b\x7b 'ü\\''-\x7d\x7dß".toList
    let s : State := { scalars := { announced := some 7, block := some 3, quote := some .single } }
    Text.size Text.utf8 line < UInt32.size ∧
      sliceSpans? line line.length 0 (s.enter line) = some (classify line s) ∧
      Tiles line (classify line s).1 ∧
      (classify line s).1.map (fun span => (span.start, span.stop)) =
        [(0, 2), (2, 3), (3, 4), (4, 5), (5, 8), (8, 10), (10, 11), (11, 12), (12, 18), (18, 21),
          (21, 23)] := by
  intro line s
  have hshort : Text.size Text.utf8 line < UInt32.size := by decide
  obtain ⟨hslice, htiles⟩ := classify_tiles_line line s hshort
  exact ⟨hshort, hslice, htiles, by decide⟩

end ConfigAssist
