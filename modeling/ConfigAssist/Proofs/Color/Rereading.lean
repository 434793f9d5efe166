import ConfigAssist.Proofs.Color.Coherence

/-! What an edit reads again. Reading goes on behind the inserted lines as long as a line is
entered in another state than before the edit. Once the states agree they agree at all
later lines too, so no line is read again that was right, and none is left that was not. -/

namespace ConfigAssist

theorem stateAfter_take_add (s : State) (texts : List Text) (n k : Nat) :
    stateAfter s (texts.take (n + k)) =
      stateAfter (stateAfter s (texts.take n)) ((texts.drop n).take k) := by
  rw [List.take_add]
  exact List.foldl_append

theorem stateAfter_take_succ (s : State) (texts : List Text) (n : Nat) :
    stateAfter s (texts.take (n + 1)) = texts[n]?.elim (stateAfter s (texts.take n))
      fun line => (classify line (stateAfter s (texts.take n))).2 := by
  rw [List.take_add_one]
  cases texts[n]? with
  | none => simp
  | some line => simp [stateAfter]

theorem filter_range_lt {n count : Nat} (h : count ≤ n) :
    (List.range n).filter (· < count) = List.range count := by
  obtain ⟨m, rfl⟩ := Nat.exists_eq_add_of_le h
  have hleft : (List.range count).filter (· < count) = List.range count :=
    List.filter_eq_self.mpr fun k hk => decide_eq_true (List.mem_range.mp hk)
  have hright : ((List.range m).map (count + ·)).filter (· < count) = [] := by
    rw [List.filter_eq_nil_iff]
    intro k hk
    obtain ⟨i, -, rfl⟩ := List.mem_map.mp hk
    simp
  rw [List.range_add, List.filter_append, hleft, hright, List.append_nil]

namespace Edit

/-- The first row that is replaced. -/
def first (e : Edit) (texts : List Text) : Nat := min e.start texts.length

/-- The first row behind those that are replaced. -/
def stop (e : Edit) (texts : List Text) : Nat :=
  e.first texts + min e.removed (texts.length - e.first texts)

/-- The state in which a line behind the replaced ones is entered before the edit. -/
def entryBefore (e : Edit) (texts : List Text) (k : Nat) : State :=
  stateAfter .initial (texts.take (e.stop texts + k))

/-- The state in which that line is entered after the edit. -/
def entryAfter (e : Edit) (texts : List Text) (k : Nat) : State :=
  stateAfter .initial ((e.replace texts).take (e.first texts + e.inserted.length + k))

/-- The lines behind the replaced ones that are entered in another state than before. -/
def changed (e : Edit) (texts : List Text) : List Nat :=
  (List.range (texts.length - e.stop texts)).filter fun k =>
    e.entryBefore texts k ≠ e.entryAfter texts k

variable (e : Edit) (texts : List Text)

theorem take_first : texts.take (e.first texts) = texts.take e.start := take_min_length texts e.start

theorem length_take_first : (texts.take (e.first texts)).length = e.first texts := by
  rw [List.length_take, first]
  omega

theorem take_stop : texts.take (e.stop texts) = texts.take (e.start + e.removed) := by
  rw [List.take_eq_take_iff, stop, first]
  omega

theorem drop_stop : texts.drop (e.stop texts) = (texts.drop e.start).drop e.removed :=
  drop_min_length texts e.start e.removed

theorem replace_eq_append :
    e.replace texts = texts.take (e.first texts) ++ e.inserted ++ texts.drop (e.stop texts) := rfl

theorem getElem?_replace_of_lt {i : Nat} (hi : i < e.first texts) :
    (e.replace texts)[i]? = texts[i]? := by
  rw [replace_eq_append, List.append_assoc,
    List.getElem?_append_left (by rwa [length_take_first]), List.getElem?_take_of_lt hi]

theorem take_replace_of_lt {i : Nat} (hi : i < e.first texts) :
    (e.replace texts).take i = texts.take i := by
  rw [replace_eq_append, List.append_assoc,
    List.take_append_of_le_length (by rw [length_take_first]; omega), List.take_take,
    Nat.min_eq_left (Nat.le_of_lt hi)]

theorem getElem?_replace_behind (k : Nat) :
    (e.replace texts)[e.first texts + e.inserted.length + k]? = texts[e.stop texts + k]? := by
  have hlength : (texts.take (e.first texts) ++ e.inserted).length =
      e.first texts + e.inserted.length := by rw [List.length_append, length_take_first]
  rw [replace_eq_append, List.getElem?_append_right (by omega), hlength, Nat.add_sub_cancel_left,
    List.getElem?_drop]

theorem entryBefore_eq (k : Nat) : e.entryBefore texts k =
    stateAfter (stateAfter .initial (texts.take (e.start + e.removed)))
      ((texts.drop (e.stop texts)).take k) := by
  rw [entryBefore, stateAfter_take_add, take_stop]

theorem entryAfter_eq (k : Nat) : e.entryAfter texts k =
    stateAfter (stateAfter (stateAfter .initial (texts.take e.start)) e.inserted)
      ((texts.drop (e.stop texts)).take k) := by
  have hlength : (texts.take (e.first texts) ++ e.inserted).length =
      e.first texts + e.inserted.length := by rw [List.length_append, length_take_first]
  rw [entryAfter, stateAfter_take_add, replace_eq_append, List.take_left' hlength,
    List.drop_left' hlength, take_first]
  simp only [stateAfter, List.foldl_append]

end Edit

namespace Document

theorem getElem?_readLines (s : State) (texts : List Text) (i : Nat) :
    (readLines s texts)[i]? =
      texts[i]?.map (ColoredLine.read (stateAfter s (texts.take i))) := by
  induction texts generalizing s i with
  | nil => rfl
  | cons t ts ih =>
    cases i with
    | zero => rfl
    | succ i => exact ih _ i

theorem count_refresh_le (s : State) (lines : List ColoredLine) :
    (refresh s lines).2 ≤ lines.length := by
  induction lines generalizing s with
  | nil => exact Nat.le_refl 0
  | cons line lines ih =>
    rw [refresh]
    split
    · exact Nat.zero_le _
    · exact Nat.succ_le_succ (ih _)

/-- The lines that are read again are those at which the states differ. -/
theorem lt_count_refresh_iff (r s : State) {texts : List Text} {k : Nat} (hk : k < texts.length) :
    k < (refresh s (readLines r texts)).2 ↔
      stateAfter r (texts.take k) ≠ stateAfter s (texts.take k) := by
  induction texts generalizing r s k with
  | nil => exact absurd hk (Nat.not_lt_zero k)
  | cons t ts ih =>
    by_cases hsame : r = s
    · subst hsame
      have hcount : (refresh r (readLines r (t :: ts))).2 = 0 := by
        simp [readLines, refresh, ColoredLine.read]
      simp [hcount]
    · have hcount : (refresh s (readLines r (t :: ts))).2 =
          (refresh (ColoredLine.read s t).exit (readLines (ColoredLine.read r t).exit ts)).2 + 1 := by
        have hentry : ¬ (ColoredLine.read r t).entry = s := hsame
        simp only [readLines, refresh, if_neg hentry]
        rfl
      rw [hcount]
      cases k with
      | zero => exact iff_of_true (Nat.succ_pos _) hsame
      | succ k =>
        rw [Nat.succ_lt_succ_iff]
        exact ih _ _ (Nat.lt_of_succ_lt_succ hk)

/-- A line of a document is a line of another one, with the states before and after it. -/
structure Keeps (d d' : Document) (i j : Nat) : Prop where
  line : d'.lines[j]? = d.lines[i]?
  before : d'.stateBefore j = d.stateBefore i
  after : d'.stateBefore (j + 1) = d.stateBefore (i + 1)

theorem Coherent.keeps {d d' : Document} (h : d.Coherent) (h' : d'.Coherent) {i j : Nat}
    (htext : d'.texts[j]? = d.texts[i]?)
    (hentry : stateAfter .initial (d'.texts.take j) = stateAfter .initial (d.texts.take i)) :
    Keeps d d' i j where
  line := by rw [h, h', getElem?_readLines, getElem?_readLines, htext, hentry]
  before := by rw [h.stateBefore_eq, h'.stateBefore_eq, hentry]
  after := by
    rw [h.stateBefore_eq, h'.stateBefore_eq, stateAfter_take_succ, stateAfter_take_succ, htext,
      hentry]

theorem Coherent.count_edit {d : Document} (h : d.Coherent) (e : Edit) :
    (d.edit e.start e.removed e.inserted).2 = e.inserted.length +
      (refresh (stateAfter (stateAfter .initial (d.texts.take e.start)) e.inserted)
        (readLines (stateAfter .initial (d.texts.take (e.start + e.removed)))
          (d.texts.drop (e.stop d.texts)))).2 := by
  have hrest : (d.lines.drop e.start).drop e.removed =
      readLines (stateAfter .initial (d.texts.take (e.start + e.removed)))
        (d.texts.drop (e.stop d.texts)) := by
    rw [h, drop_readLines, drop_readLines, stateAfter_take_add, e.drop_stop]
  simp only [Document.edit, hrest, h.stateBefore_eq, exitOf_readLines]

/-- The lines with another entry state come first among those behind the replaced ones. -/
theorem Coherent.changed_eq {d : Document} (h : d.Coherent) (e : Edit) :
    ∃ count, (d.edit e.start e.removed e.inserted).2 = e.inserted.length + count ∧
      e.changed d.texts = List.range count := by
  refine ⟨_, h.count_edit e, ?_⟩
  have hle := count_refresh_le
    (stateAfter (stateAfter .initial (d.texts.take e.start)) e.inserted)
    (readLines (stateAfter .initial (d.texts.take (e.start + e.removed)))
      (d.texts.drop (e.stop d.texts)))
  have hlength := congrArg List.length (texts_readLines
    (stateAfter .initial (d.texts.take (e.start + e.removed))) (d.texts.drop (e.stop d.texts)))
  rw [List.length_map] at hlength
  rw [hlength, List.length_drop] at hle
  rw [← filter_range_lt hle, Edit.changed]
  refine List.filter_congr fun k hk => decide_eq_decide.mpr ?_
  have hk' : k < (d.texts.drop (e.stop d.texts)).length := by
    rw [List.length_drop]
    exact List.mem_range.mp hk
  rw [e.entryBefore_eq, e.entryAfter_eq]
  exact (lt_count_refresh_iff _ _ hk').symm

/-- An edit reads the inserted lines and, directly behind them, the lines that are entered in
another state than before. All other lines are kept with the states before and after them. -/
theorem edit_rereads_changed (source : Option Text) (edits : List Edit) (e : Edit) :
    let d := (opened source).edited edits
    let d' := (d.edit e.start e.removed e.inserted).1
    let changed := e.changed d.texts
    (d.edit e.start e.removed e.inserted).2 = e.inserted.length + changed.length ∧
      changed = List.range changed.length ∧
      (∀ i, i < e.first d.texts → Keeps d d' i i) ∧
      ∀ k, e.stop d.texts + k < d.lineCount → k ∉ changed →
        Keeps d d' (e.stop d.texts + k) (e.first d.texts + e.inserted.length + k) := by
  intro d d' changed
  have hd : d.Coherent := ((coherent_opened source).1.edited edits).1
  have hd' : d'.Coherent := hd.edit e
  have htexts : d'.texts = e.replace d.texts := hd.texts_edit e
  obtain ⟨count, hcount, hchanged⟩ := hd.changed_eq e
  have hlength : changed.length = count := by
    rw [show changed = List.range count from hchanged, List.length_range]
  rw [hlength]
  refine ⟨hcount, hchanged, ?_, ?_⟩
  · intro i hi
    apply hd.keeps hd'
    · rw [htexts, e.getElem?_replace_of_lt _ hi]
    · rw [htexts, e.take_replace_of_lt _ hi]
  · intro k hk hsame
    have hrow : k < d.texts.length - e.stop d.texts := by
      have hlines : d.lineCount = d.texts.length := (List.length_map _).symm
      omega
    have hentry : e.entryBefore d.texts k = e.entryAfter d.texts k := by
      refine Decidable.byContradiction fun hne => ?_
      exact hsame (List.mem_filter.mpr ⟨List.mem_range.mpr hrow, decide_eq_true hne⟩)
    apply hd.keeps hd'
    · rw [htexts, e.getElem?_replace_behind]
    · rw [htexts]
      exact hentry.symm

/-- A template that is opened reaches the next two lines and is closed by the third. -/
theorem edit_rereads_changed_three :
    let d := opened (some "a: 1\nb: 2\nc: 3\n d \x7d\x7d\ne: 4".toList)
    let e : Edit := ⟨0, 1, ["x: 0".toList, "a: \x7b\x7b".toList]⟩
    let d' := (d.edit e.start e.removed e.inserted).1
    e.changed d.texts = [0, 1, 2] ∧ (d.edit e.start e.removed e.inserted).2 = 5 ∧
      e.stop d.texts + 3 < d.lineCount ∧ Keeps d d' 4 5 := by
  intro d e d'
  obtain ⟨hcount, -, -, hkept⟩ := edit_rereads_changed
    (some "a: 1\nb: 2\nc: 3\n d \x7d\x7d\ne: 4".toList) [] e
  have hchanged : e.changed d.texts = [0, 1, 2] := by decide
  have hrow : e.stop d.texts + 3 < d.lineCount := by decide
  refine ⟨hchanged, ?_, hrow, ?_⟩
  · rw [show (d.edit e.start e.removed e.inserted).2 = e.inserted.length +
      (e.changed d.texts).length from hcount, hchanged]
    rfl
  · exact hkept 3 hrow (by decide)

end Document

end ConfigAssist
