import ConfigAssist.Proofs.Color.Coherence

/-! Edits as one loop. Inserted lines are put into the list of lines like all others, marked as
not read yet, and the loop goes over both from the start of the edit until it can stop. What it
leaves behind is the edited document, with no line marked. -/

namespace ConfigAssist

/-- A line in the list, and whether it has still to be read. -/
structure Slot where
  line : ColoredLine
  dirty : Bool
deriving DecidableEq

namespace Slot

def unread (text : Text) : Slot where
  line := { text, entry := .initial, spans := [], exit := .initial }
  dirty := true

def clean (line : ColoredLine) : Slot where
  line := line
  dirty := false

/-- The state in which a line is entered. Past the end it is that after the last line. -/
def stateBefore (slots : List Slot) : Nat → State
  | 0 => .initial
  | previous + 1 =>
    ((slots[previous]?.or slots.getLast?).map fun slot => slot.line.exit).getD .initial

/-- The loop. It stops at a line that has been read in the state in which it is entered. -/
def relex (s : State) : List Slot → List Slot × Nat
  | [] => ([], 0)
  | slot :: rest =>
    if slot.dirty = false ∧ slot.line.entry = s then (slot :: rest, 0)
    else
      let line := ColoredLine.read s slot.line.text
      let (slots, count) := relex line.exit rest
      (clean line :: slots, count + 1)

def edit (slots : List Slot) (start removed : Nat) (inserted : List Text) : List Slot × Nat :=
  let start := min start slots.length
  let removed := min removed (slots.length - start)
  let spliced := slots.take start ++ (inserted.map unread ++ slots.drop (start + removed))
  let (relexed, count) := relex (stateBefore spliced start) (spliced.drop start)
  (spliced.take start ++ relexed, count)

theorem relex_clean (s : State) (lines : List ColoredLine) :
    relex s (lines.map clean) =
      ((Document.refresh s lines).1.map clean, (Document.refresh s lines).2) := by
  induction lines generalizing s with
  | nil => rfl
  | cons line lines ih =>
    by_cases hentry : line.entry = s
    · simp [relex, Document.refresh, clean, hentry]
    · simp [relex, Document.refresh, clean, hentry, ih]

/-- Lines that have not been read are read whatever stands in them, and the loop goes on behind
them in the state after the last one. -/
theorem relex_unread (s : State) (texts : List Text) (rest : List Slot) :
    relex s (texts.map unread ++ rest) =
      ((Document.readLines s texts).map clean ++ (relex (stateAfter s texts) rest).1,
        texts.length + (relex (stateAfter s texts) rest).2) := by
  induction texts generalizing s with
  | nil => simp [Document.readLines, stateAfter]
  | cons t ts ih =>
    have hexit : (ColoredLine.read s t).exit = (classify t s).2 := rfl
    simp [relex, unread, ih, hexit, Document.readLines, stateAfter, Nat.add_right_comm]

theorem stateBefore_eq (slots : List Slot) (n : Nat) :
    stateBefore slots n =
      ((slots.take n).getLast?.map fun slot => slot.line.exit).getD .initial := by
  cases n with
  | zero => rfl
  | succ previous =>
    rw [List.getLast?_take, if_neg (Nat.succ_ne_zero previous)]
    rfl

theorem stateBefore_clean (d : Document) (n : Nat) :
    stateBefore (d.lines.map clean) n = d.stateBefore n := by
  rw [stateBefore_eq, ← List.map_take, List.getLast?_map, Option.map_map]
  rfl

/-- The loop gives the lines of the edited document, none of them marked, and their count. -/
theorem edit_clean (d : Document) (start removed : Nat) (inserted : List Text) :
    edit (d.lines.map clean) start removed inserted =
      ((d.edit start removed inserted).1.lines.map clean, (d.edit start removed inserted).2) := by
  let first := min start d.lines.length
  let kept := (d.lines.take start).map clean
  let rest := ((d.lines.drop start).drop removed).map clean
  have hkept : (d.lines.map clean).take first = kept := by
    rw [← List.map_take, take_min_length]
  have hrest : (d.lines.map clean).drop (first + min removed (d.lines.length - first)) = rest := by
    rw [← List.map_drop, drop_min_length]
  have hlength : kept.length = first := by
    rw [List.length_map, List.length_take]
  have htake : (kept ++ (inserted.map unread ++ rest)).take first = kept := by
    rw [← hlength, List.take_left]
  have hdrop : (kept ++ (inserted.map unread ++ rest)).drop first = inserted.map unread ++ rest := by
    rw [← hlength, List.drop_left]
  have hentry : stateBefore (kept ++ (inserted.map unread ++ rest)) first = d.stateBefore start := by
    rw [stateBefore_eq, htake, ← hkept, ← stateBefore_eq, stateBefore_clean, Document.stateBefore,
      take_min_length]
    rfl
  have hedit : edit (d.lines.map clean) start removed inserted =
      (kept ++ (relex (d.stateBefore start) (inserted.map unread ++ rest)).1,
        (relex (d.stateBefore start) (inserted.map unread ++ rest)).2) := by
    simp only [edit, List.length_map]
    rw [hkept, hrest, htake, hdrop, hentry]
  rw [hedit, relex_unread, relex_clean]
  simp [Document.edit, Document.exitOf_readLines, kept]

def edited (slots : List Slot) (edits : List Edit) : List Slot :=
  edits.foldl (fun slots e => (edit slots e.start e.removed e.inserted).1) slots

theorem edited_clean (d : Document) (edits : List Edit) :
    edited (d.lines.map clean) edits = (d.edited edits).lines.map clean := by
  induction edits generalizing d with
  | nil => rfl
  | cons e edits ih =>
    have hstep := congrArg Prod.fst (edit_clean d e.start e.removed e.inserted)
    simp only [edited, List.foldl_cons, hstep]
    exact ih _

end Slot

end ConfigAssist
