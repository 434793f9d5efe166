import ConfigAssist.Color.Document

/-! Edited documents are coloured as if they were read from their start. An edit reads
the inserted lines and stops behind them at the first line whose entry state is the
one it was read in; all lines after that one are right already, wherever they have
been moved to. -/

namespace ConfigAssist

namespace Document

theorem texts_readLines (s : State) (texts : List Text) :
    (readLines s texts).map ColoredLine.text = texts := by
  induction texts generalizing s with
  | nil => rfl
  | cons t ts ih => exact congrArg (t :: ·) (ih _)

theorem spans_readLines (s : State) (texts : List Text) :
    (readLines s texts).map ColoredLine.spans = classifyFrom s texts := by
  induction texts generalizing s with
  | nil => rfl
  | cons t ts ih => exact congrArg ((classify t s).1 :: ·) (ih _)

theorem exitOf_cons (s : State) (line : ColoredLine) (lines : List ColoredLine) :
    exitOf s (line :: lines) = exitOf line.exit lines := by
  cases h : lines.getLast? <;> simp [exitOf, List.getLast?_cons, h]

theorem exitOf_readLines (s : State) (texts : List Text) :
    exitOf s (readLines s texts) = stateAfter s texts := by
  induction texts generalizing s with
  | nil => rfl
  | cons t ts ih =>
    rw [readLines, exitOf_cons, ih]
    rfl

theorem readLines_append (s : State) (ts us : List Text) :
    readLines s (ts ++ us) = readLines s ts ++ readLines (stateAfter s ts) us := by
  induction ts generalizing s with
  | nil => rfl
  | cons t ts ih => exact congrArg (ColoredLine.read s t :: ·) (ih _)

theorem take_readLines (s : State) (texts : List Text) (n : Nat) :
    (readLines s texts).take n = readLines s (texts.take n) := by
  induction texts generalizing s n with
  | nil => simp [readLines]
  | cons t ts ih =>
    cases n with
    | zero => rfl
    | succ n => exact congrArg (ColoredLine.read s t :: ·) (ih _ n)

theorem drop_readLines (s : State) (texts : List Text) (n : Nat) :
    (readLines s texts).drop n = readLines (stateAfter s (texts.take n)) (texts.drop n) := by
  induction texts generalizing s n with
  | nil => simp [readLines]
  | cons t ts ih =>
    cases n with
    | zero => rfl
    | succ n => exact ih _ n

/-- Lines that were read in another state come out as if they were read in this one. The
first line with the right entry state was read in it, and so were all lines after it. -/
theorem refresh_readLines (r s : State) (texts : List Text) :
    (refresh s (readLines r texts)).1 = readLines s texts := by
  induction texts generalizing r s with
  | nil => rfl
  | cons t ts ih =>
    by_cases hsame : r = s
    · subst hsame
      simp [readLines, refresh, ColoredLine.read]
    · have hrest := ih (ColoredLine.read r t).exit (ColoredLine.read s t).exit
      have hentry : ¬ (ColoredLine.read r t).entry = s := hsame
      simp only [readLines, refresh, if_neg hentry]
      exact congrArg (ColoredLine.read s t :: ·) hrest

/-- Every line is coloured as if the document were read from its start. -/
def Coherent (d : Document) : Prop := d.lines = readLines .initial d.texts

theorem coherent_empty : empty.Coherent := rfl

theorem Coherent.stateBefore_eq {d : Document} (h : d.Coherent) (n : Nat) :
    d.stateBefore n = stateAfter .initial (d.texts.take n) := by
  rw [stateBefore, h, take_readLines, exitOf_readLines]

theorem Coherent.lines_edit {d : Document} (h : d.Coherent) (start removed : Nat)
    (inserted : List Text) :
    (d.edit start removed inserted).1.lines = readLines .initial
      (d.texts.take start ++ inserted ++ (d.texts.drop start).drop removed) := by
  have hkept : d.lines.take start = readLines .initial (d.texts.take start) := by
    rw [h, take_readLines]
  have hrest : ∃ r, (d.lines.drop start).drop removed =
      readLines r ((d.texts.drop start).drop removed) := by
    rw [h, drop_readLines, drop_readLines]
    exact ⟨_, rfl⟩
  obtain ⟨r, hrest⟩ := hrest
  simp only [edit, hkept, hrest, h.stateBefore_eq, exitOf_readLines, refresh_readLines]
  rw [readLines_append, readLines_append]
  simp only [stateAfter, List.foldl_append]

end Document

structure Edit where
  start : Nat
  removed : Nat
  inserted : List Text

/-- The lines with those in a range replaced by others. A range that reaches past the
end is cut off there. -/
def Edit.replace (e : Edit) (texts : List Text) : List Text :=
  let start := min e.start texts.length
  let removed := min e.removed (texts.length - start)
  texts.take start ++ e.inserted ++ texts.drop (start + removed)

theorem take_min_length {α : Type} (l : List α) (n : Nat) : l.take (min n l.length) = l.take n := by
  simp [List.take_eq_take_iff]

theorem drop_min_length {α : Type} (l : List α) (start removed : Nat) :
    l.drop (min start l.length + min removed (l.length - min start l.length)) =
      (l.drop start).drop removed := by
  rw [List.drop_drop]
  by_cases hin : start + removed ≤ l.length
  · rw [show min start l.length + min removed (l.length - min start l.length) =
      start + removed by omega]
  · rw [List.drop_eq_nil_of_le (by omega), List.drop_eq_nil_of_le (by omega)]

theorem Edit.replace_eq (e : Edit) (texts : List Text) :
    e.replace texts = texts.take e.start ++ e.inserted ++ (texts.drop e.start).drop e.removed := by
  simp only [replace, take_min_length, drop_min_length]

namespace Document

def opened (source : Option Text) : Document := source.elim empty ofText

def edited (d : Document) (edits : List Edit) : Document :=
  edits.foldl (fun d e => (d.edit e.start e.removed e.inserted).1) d

theorem Coherent.texts_edit {d : Document} (h : d.Coherent) (e : Edit) :
    (d.edit e.start e.removed e.inserted).1.texts = e.replace d.texts := by
  rw [texts, h.lines_edit, texts_readLines, e.replace_eq]

theorem Coherent.edit {d : Document} (h : d.Coherent) (e : Edit) :
    (d.edit e.start e.removed e.inserted).1.Coherent := by
  rw [Coherent, h.texts_edit, h.lines_edit, e.replace_eq]

theorem Coherent.edited {d : Document} (h : d.Coherent) (edits : List Edit) :
    (d.edited edits).Coherent ∧
      (d.edited edits).texts = edits.foldl (fun texts e => e.replace texts) d.texts := by
  induction edits generalizing d with
  | nil => exact ⟨h, rfl⟩
  | cons e edits ih =>
    have hrest := ih (h.edit e)
    rw [h.texts_edit] at hrest
    exact hrest

theorem coherent_opened (source : Option Text) : (opened source).Coherent ∧
    (opened source).texts = (source.map (Text.splitOn '\n')).getD [] := by
  cases source with
  | none => exact ⟨coherent_empty, rfl⟩
  | some text =>
    let e : Edit := { start := 0, removed := 0, inserted := Text.splitOn '\n' text }
    refine ⟨coherent_empty.edit e, (coherent_empty.texts_edit e).trans ?_⟩
    simp [e, Edit.replace, texts, empty]

theorem lines_ofText (t : Text) : (ofText t).lines = readLines .initial (Text.splitOn '\n' t) := by
  obtain ⟨hcoherent, htexts⟩ := coherent_opened (some t)
  exact hcoherent.trans (congrArg _ htexts)

theorem Coherent.ext {d d' : Document} (h : d.Coherent) (h' : d'.Coherent)
    (htexts : d.texts = d'.texts) : d = d' := by
  have hlines : d.lines = d'.lines := by rw [h, h', htexts]
  cases d
  cases d'
  simpa using hlines

/-- Whatever edits led to a document, its texts are those of the edits and it is coloured
as if it were read from its start. So it depends on its texts only. -/
theorem edited_eq_reread (source : Option Text) (edits : List Edit) :
    let d := (opened source).edited edits
    d.texts = edits.foldl (fun texts e => e.replace texts)
        ((source.map (Text.splitOn '\n')).getD []) ∧
      (∀ i : Nat, d.lines[i]?.map ColoredLine.spans = (classifyLines d.texts)[i]?) ∧
      (∀ n : Nat, d.stateBefore n = stateAfter .initial (d.texts.take (min n d.lineCount))) ∧
      ∀ source' edits', ((opened source').edited edits').texts = d.texts →
        (opened source').edited edits' = d := by
  intro d
  obtain ⟨hopened, htexts⟩ := coherent_opened source
  obtain ⟨hd, hreplaced⟩ := hopened.edited edits
  refine ⟨hreplaced.trans (by rw [htexts]), ?_, ?_, ?_⟩
  · intro i
    rw [← List.getElem?_map, hd, spans_readLines]
    rfl
  · intro n
    have hcount : d.lineCount = d.texts.length := (List.length_map _).symm
    rw [hcount, take_min_length]
    exact hd.stateBefore_eq n
  · intro source' edits' hsame
    exact ((coherent_opened source').1.edited edits').1.ext hd hsame

/-- An edit past the end opens a template and one at the start takes it back. -/
theorem edited_eq_reread_two_ways :
    let edits : List Edit :=
      [⟨9, UInt64.size, ["c \x7d\x7d".toList]⟩, ⟨0, 1, ["a: \"\x7b\x7b x".toList]⟩,
        ⟨0, 1, ["a: |".toList]⟩]
    ((opened none).edited [⟨0, 0, ["a: |".toList, " b".toList, "c \x7d\x7d".toList]⟩]).texts =
        ((opened (some "a: 1\n b".toList)).edited edits).texts ∧
      (opened none).edited [⟨0, 0, ["a: |".toList, " b".toList, "c \x7d\x7d".toList]⟩] =
        (opened (some "a: 1\n b".toList)).edited edits :=
  ⟨by decide, (edited_eq_reread _ _).2.2.2 none _ (by decide)⟩

end Document

end ConfigAssist
