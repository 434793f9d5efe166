import ConfigAssist.Proofs.Color.Tiling

/-! The colour of each byte of a line. Lines are compared byte by byte where they may be cut into
spans at different places. -/

namespace ConfigAssist

open Text

abbrev Color := Category × Option Marker

/-- The colour of the byte at an offset, if a span covers it. -/
def colorAt (spans : List Span) (offset : Nat) : Option Color :=
  (spans.find? fun span => span.start ≤ offset && offset < span.stop).map fun span =>
    (span.category, span.marker)

def Piece.color (p : Piece) : Color := (p.category, p.marker)

/-- The colours of the bytes of some pieces. -/
def paint (ps : List Piece) : List Color :=
  ps.flatMap fun p => List.replicate (size utf8 p.text) p.color

@[simp] theorem paint_nil : paint [] = [] := rfl

@[simp] theorem paint_cons (p : Piece) (ps : List Piece) :
    paint (p :: ps) = List.replicate (size utf8 p.text) p.color ++ paint ps := List.flatMap_cons ..

theorem paint_append (ps qs : List Piece) : paint (ps ++ qs) = paint ps ++ paint qs :=
  List.flatMap_append ..

/-- A piece that goes on has the same colour on what it takes in. -/
theorem paint_longer (s : State) (c : Char) (token tail : Text) (category : Category)
    (marker : Option Marker) (ps : List Piece) :
    paint (⟨s, c :: (token ++ tail), category, marker⟩ :: ps) =
      paint [⟨s, c :: token, category, marker⟩] ++
        (List.replicate (size utf8 tail) (category, marker) ++ paint ps) := by
  have hsize : size utf8 (c :: (token ++ tail)) = size utf8 (c :: token) + size utf8 tail := by
    rw [← List.cons_append, size_append]
  simp only [paint_cons, hsize, List.replicate_add, List.append_assoc]
  rfl

theorem length_paint (ps : List Piece) :
    (paint ps).length = size utf8 (ps.map Piece.text).flatten := by
  induction ps with
  | nil => rfl
  | cons p ps ih => simp [ih]

/-- The bytes of a piece have its colour. -/
theorem getElem?_paint {before after : List Piece} {piece : Piece} {offset : Nat}
    (hle : size utf8 (before.map Piece.text).flatten ≤ offset)
    (hlt : offset < size utf8 (before.map Piece.text).flatten + size utf8 piece.text) :
    (paint (before ++ piece :: after))[offset]? = some piece.color := by
  rw [paint_append, List.getElem?_append_right (by rw [length_paint]; exact hle), length_paint,
    paint_cons, List.getElem?_append_left (by rw [List.length_replicate]; omega)]
  exact List.getElem?_replicate_of_lt (by omega)

theorem colorAt_spansFrom (start : Nat) (ps : List Piece) (offset : Nat) :
    colorAt (spansFrom utf8 start ps) (start + offset) = (paint ps)[offset]? := by
  induction ps generalizing start offset with
  | nil => simp [colorAt, spansFrom]
  | cons p ps ih =>
    by_cases hlt : offset < size utf8 p.text
    · simp [colorAt, spansFrom, hlt, List.getElem?_append_left, Piece.color]
    · obtain ⟨more, rfl⟩ := Nat.exists_eq_add_of_le (Nat.le_of_not_lt hlt)
      have hrest := ih (start + size utf8 p.text) more
      rw [Nat.add_assoc] at hrest
      rw [paint_cons, List.getElem?_append_right (by simp), List.length_replicate,
        Nat.add_sub_cancel_left, ← hrest]
      simp [colorAt, spansFrom]

theorem colorAt_classify (line : Text) (s : State) (offset : Nat) :
    colorAt (classify line s).1 offset = (paint (pieces line s).1)[offset]? := by
  have h := colorAt_spansFrom 0 (pieces line s).1 offset
  rwa [Nat.zero_add] at h

theorem length_paint_pieces (line : Text) (s : State) :
    (paint (pieces line s).1).length = size utf8 line := by
  rw [length_paint, flatten_pieces]

end ConfigAssist
