import ConfigAssist.Proofs.Color.Entry
import ConfigAssist.Proofs.Color.Lookahead
import ConfigAssist.Proofs.Color.Pairing

/-! What stands inside a template has no part in the rest of its line. No reading in front of
its opener sees past the brace, and behind its closer the scanner stands where it would
stand behind any other closer, with the scalars that were open at the opener. -/

namespace ConfigAssist

open Text Template

/-- The pieces in front of a brace are those of the text that is cut off behind the brace. -/
theorem scan_before_brace {p : Yaml.Place} {s exit : State} {front back t : Text}
    {before after : List Piece} (ht : t = front ++ '\x7b' :: back)
    (hfront : (before.map Piece.text).flatten = front) (h : Steps p s t (before ++ after) exit) :
    ∃ brace : Piece, (scan p s 0 (front ++ ['\x7b'])).1 = before ++ [brace] ∧
      Steps (p.advance front) brace.entry ('\x7b' :: back) after exit := by
  induction before generalizing p s front t with
  | nil =>
    obtain rfl : front = [] := hfront.symm
    subst ht
    exact ⟨_, rfl, h⟩
  | cons piece before ih =>
    cases h with
    | @step _ _ next _ c token rest reading _ hread hfits hrest =>
      rw [List.map_cons, List.flatten_cons] at hfront
      subst hfront
      have hsplit : c :: (token ++ rest) =
          c :: (token ++ ((before.map Piece.text).flatten ++ '\x7b' :: back)) := by
        simpa using ht
      obtain rfl : rest = (before.map Piece.text).flatten ++ '\x7b' :: back :=
        List.append_cancel_left (List.cons.inj hsplit).2
      obtain ⟨brace, hscan, hsteps⟩ := ih rfl rfl hrest
      -- the piece ends in front of the brace, so it is read the same without what follows
      have hread' := State.read_before_brace (token ++ (before.map Piece.text).flatten) back p s c
        (by simp only [List.append_assoc, hread, List.length_append]; omega)
      rw [List.append_assoc, hread, List.append_assoc] at hread'
      refine ⟨brace, ?_, ?_⟩
      · have hdrop : (token ++ ((before.map Piece.text).flatten ++ ['\x7b'])).drop reading.further =
            (before.map Piece.text).flatten ++ ['\x7b'] := List.drop_left' hfits
        simp only [List.cons_append, List.append_assoc, scan, ← hread', scan_skip _ _ reading.further,
          hdrop, List.take_left' hfits, hscan]
      · rw [Yaml.Place.advance_append]
        exact hsteps

/-- Two places on lines of equal indentation, both behind it and behind the same character. -/
structure Yaml.Place.Alike (p p' : Yaml.Place) : Prop where
  indent : p.indent = p'.indent
  previous : p.previous = p'.previous
  behind : p.indent < p.offset
  behind' : p'.indent < p'.offset

theorem Yaml.Place.Alike.advance {p p' : Yaml.Place} (h : p.Alike p') (passed : Text) :
    (p.advance passed).Alike (p'.advance passed) where
  indent := h.indent
  previous := by simp only [Yaml.Place.advance, h.previous]
  behind := Nat.lt_of_lt_of_le h.behind (Nat.le_add_right _ _)
  behind' := Nat.lt_of_lt_of_le h.behind' (Nat.le_add_right _ _)

theorem Yaml.Place.Alike.read_eq {p p' : Yaml.Place} (h : p.Alike p') (s : State) (c : Char)
    (cs : Text) : s.read p c cs = s.read p' c cs := by
  have hfirst : (p.offset == p.indent) = (p'.offset == p'.indent) := by
    rw [beq_false_of_ne (Nat.ne_of_gt h.behind), beq_false_of_ne (Nat.ne_of_gt h.behind')]
  have hword : Yaml.readWord p c cs = Yaml.readWord p' c cs := by rw [Yaml.readWord, hfirst]; rfl
  have hopen : Yaml.readOpen p s.scalars c cs = Yaml.readOpen p' s.scalars c cs := by
    simp only [Yaml.readOpen, hword, h.indent, h.previous]
  simp only [State.read, Yaml.read, hopen]

theorem Yaml.Place.Alike.steps {p p' : Yaml.Place} (h : p.Alike p') {s exit : State} {t : Text}
    {ps : List Piece} (hsteps : Steps p s t ps exit) : Steps p' s t ps exit := by
  induction hsteps generalizing p' with
  | done => exact .done _ _
  | step hread hfits _ ih => exact .step (h.read_eq _ _ _ ▸ hread) hfits (ih (h.advance _))

theorem Template.Delimiter.exists_cons_of_opens {d : Delimiter} {t : Text} (h : d.Opens t) :
    ∃ cs, t = '\x7b' :: cs := by
  rcases h with rfl | ⟨_, rfl | rfl⟩ <;> cases d <;> exact ⟨_, rfl⟩

theorem Template.Delimiter.getLast?_of_closes {d : Delimiter} {t : Text} (h : d.Closes t) :
    t.getLast? = some '\x7d' := by
  rcases h with rfl | ⟨_, rfl | rfl⟩ <;> cases d <;> rfl

theorem Template.Delimiter.not_closes_of_opens {d d' : Delimiter} {t : Text} (h : d.Opens t) :
    ¬ d'.Closes t := by
  obtain ⟨cs, rfl⟩ := exists_cons_of_opens h
  intro hcloses
  have hhead : ('\x7b' :: cs).head? ∈ [some '\x7d', some '%', some '#', some '-', some '+'] := by
    rcases hcloses with heq | ⟨_, heq | heq⟩ <;> rw [heq] <;> cases d' <;> decide
  simp at hhead

/-- Only text outside of templates changes the open scalars. -/
theorem State.Form.scalars_eq {p : Yaml.Place} {s : State} {c : Char} {cs : Text}
    {r : Reading × State} (h : State.Form p s c cs r)
    (hr : s.template ≠ none ∨ r.1.category = .delimiter) : r.2.scalars = s.scalars := by
  cases h with
  | opening | closing | inside => rfl
  | outside htemplate =>
    rcases hr with hne | hdelimiter
    · exact absurd htemplate hne
    · have hmem := (Yaml.read_form p s.scalars c cs).category_mem
      rw [hdelimiter] at hmem
      exact absurd hmem (by decide)

/-- The rest of a template that is open is taken up to its closer, and then it is as if there
had been no template. -/
theorem steps_behind_closer {p : Yaml.Place} {s exit : State} {t : Text} {d : Delimiter}
    {inner after : List Piece} {closer : Piece} (h : Steps p s t (inner ++ closer :: after) exit)
    (htemplate : s.template = some d) (hinner : ∀ x ∈ inner, x.category ≠ .delimiter)
    (hcloser : closer.category = .delimiter) :
    ∃ rest, t = (inner.map Piece.text).flatten ++ closer.text ++ rest ∧ d.Closes closer.text ∧
      Steps (p.advance ((inner.map Piece.text).flatten ++ closer.text)) { s with template := none }
        rest after exit := by
  induction inner generalizing p t with
  | nil =>
    cases h with
    | @step _ _ next _ c token rest reading _ hread hfits hrest =>
      have hscalars := (s.read_form p c (token ++ rest)).scalars_eq (.inl (by simp [htemplate]))
      rw [hread] at hscalars
      have hmove := moves_read hread hfits
      rw [htemplate] at hmove
      generalize ho : next.template = o at hmove
      cases hmove with
      | inside hx =>
        have hcategory : reading.category = .delimiter := hcloser
        have hnot := hx.not_isDelimiter
        rw [Stretch.isDelimiter, hcategory] at hnot
        cases hnot
      | closes _ _ hcloses =>
        have hnext : next = { s with template := none } := by
          cases next
          exact congr (congrArg State.mk hscalars) ho
        exact ⟨rest, rfl, hcloses, hnext ▸ hrest⟩
  | cons x inner ih =>
    cases h with
    | @step _ _ next _ c token rest reading _ hread hfits hrest =>
      obtain ⟨-, -, rfl⟩ := State.read_of_inside htemplate hread (hinner _ List.mem_cons_self)
      obtain ⟨back, rfl, hcloses, hsteps⟩ :=
        ih hrest fun y hy => hinner y (List.mem_cons_of_mem _ hy)
      refine ⟨back, by simp, hcloses, ?_⟩
      rw [List.map_cons, List.flatten_cons, List.append_assoc, Yaml.Place.advance_append]
      exact hsteps

/-- Between an opener and the next delimiter the scalars do not change. -/
theorem steps_behind_template {p : Yaml.Place} {s exit : State} {t : Text} {d : Delimiter}
    {inner after : List Piece} {opener closer : Piece}
    (h : Steps p s t (opener :: (inner ++ closer :: after)) exit)
    (hopener : opener.category = .delimiter) (hopens : d.Opens opener.text)
    (hinner : ∀ x ∈ inner, x.category ≠ .delimiter) (hcloser : closer.category = .delimiter) :
    ∃ rest passed, t = passed ++ rest ∧
      passed = opener.text ++ ((inner.map Piece.text).flatten ++ closer.text) ∧
      passed.getLast? = some '\x7d' ∧ Steps (p.advance passed) s rest after exit := by
  cases h with
  | @step _ _ next _ c token rest reading _ hread hfits hrest =>
    have hcategory : reading.category = .delimiter := hopener
    have hscalars := (s.read_form p c (token ++ rest)).scalars_eq
    rw [hread] at hscalars
    have hmove := moves_read hread hfits
    generalize ho : s.template = o at hmove
    generalize ho' : next.template = o' at hmove
    cases hmove with
    | outside hx =>
      have hnot := hx.not_isDelimiter
      rw [Stretch.isDelimiter, hcategory] at hnot
      cases hnot
    | inside hx =>
      have hnot := hx.not_isDelimiter
      rw [Stretch.isDelimiter, hcategory] at hnot
      cases hnot
    | closes _ _ hcloses => exact absurd hcloses (Delimiter.not_closes_of_opens hopens)
    | opens =>
      obtain ⟨back, rfl, hcloses, hsteps⟩ := steps_behind_closer hrest ho' hinner hcloser
      have hsame : { next with template := none } = s := by
        cases s
        exact congr (congrArg State.mk (hscalars (.inr hcategory))) ho.symm
      rw [hsame, ← Yaml.Place.advance_append] at hsteps
      refine ⟨back, _, ?_, rfl, ?_, hsteps⟩
      · simp
      · rw [List.getLast?_append, List.getLast?_append, Delimiter.getLast?_of_closes hcloses]
        rfl

section

variable {unit : Char → Nat} {offset : Nat} {ps : List Piece}

theorem spansFrom_eq_cons {x : Span} {xs : List Span} (h : spansFrom unit offset ps = x :: xs) :
    ∃ q qs, ps = q :: qs ∧ x = ⟨offset, offset + size unit q.text, q.category, q.marker⟩ ∧
      spansFrom unit (offset + size unit q.text) qs = xs := by
  cases ps with
  | nil => cases h
  | cons q qs =>
    obtain ⟨hx, hxs⟩ := List.cons.inj h
    exact ⟨q, qs, rfl, hx.symm, hxs⟩

theorem spansFrom_eq_append {xs ys : List Span} (h : spansFrom unit offset ps = xs ++ ys) :
    ∃ qs rs, ps = qs ++ rs ∧ spansFrom unit offset qs = xs ∧
      spansFrom unit (offset + size unit (qs.map Piece.text).flatten) rs = ys := by
  induction xs generalizing offset ps with
  | nil => exact ⟨[], ps, rfl, rfl, h⟩
  | cons x xs ih =>
    obtain ⟨q, qs, rfl, rfl, hxs⟩ := spansFrom_eq_cons h
    obtain ⟨rs, us, rfl, hrs, hus⟩ := ih hxs
    refine ⟨q :: rs, us, rfl, by rw [spansFrom, hrs], ?_⟩
    rw [List.map_cons, List.flatten_cons, size_append, ← Nat.add_assoc]
    exact hus

def Span.forward (n : Nat) (span : Span) : Span :=
  { span with start := n + span.start, stop := n + span.stop }

theorem spansFrom_add (n offset : Nat) :
    spansFrom unit (n + offset) ps = (spansFrom unit offset ps).map (Span.forward n) := by
  induction ps generalizing offset with
  | nil => rfl
  | cons p ps ih =>
    rw [spansFrom, spansFrom, List.map_cons, Nat.add_assoc, ih]
    rfl

end

/-- A template stands on a line between two texts: right behind the first of them a span opens
it, and the next delimiter closes it right in front of the second. -/
inductive Encloses (s : State) (front template back : Text) : List Span → List Span → Prop
  | intro {before inner after : List Span} {opener closer : Span} {d : Delimiter} {text : Text}
      (hspans : (classify (front ++ (template ++ back)) s).1 =
        before ++ opener :: (inner ++ closer :: after))
      (hstart : opener.start = size utf8 front) (hopener : opener.category = .delimiter)
      (htext : opener.text? utf8 (front ++ (template ++ back)) = some text) (hopens : d.Opens text)
      (hinner : ∀ span ∈ inner, span.category ≠ .delimiter)
      (hcloser : closer.category = .delimiter)
      (hstop : closer.stop = size utf8 (front ++ template)) :
      Encloses s front template back before after

theorem Yaml.indentation_before_brace (front back : Text) :
    indentation (front ++ '\x7b' :: back) = indentation (front ++ ['\x7b']) := by
  rw [indentation, indentation, takeWhile_before_brace front back (by decide)]

theorem Yaml.indentation_le (front back : Text) :
    indentation (front ++ '\x7b' :: back) ≤ front.length := by
  have hbrace : ('\x7b' :: back).takeWhile isIndent = [] := rfl
  rw [indentation, List.takeWhile_append, hbrace]
  split
  · rw [List.append_nil]
  · exact length_takeWhile_le isIndent front

theorem State.enter_before_brace (s : State) (front back : Text) :
    s.enter (front ++ '\x7b' :: back) = s.enter (front ++ ['\x7b']) := by
  have hblank (t : Text) : isBlank (front ++ '\x7b' :: t) = false := by
    have hbrace : isSpace '\x7b' = false := by decide
    rw [isBlank, List.all_append, List.all_cons, hbrace, Bool.false_and, Bool.and_false]
  simp only [enter, Yaml.Scalars.enter, Yaml.Scalars.continues, hblank,
    Yaml.indentation_before_brace front back]

/-- The pieces of a line with a template between two texts. -/
structure Enclosed (s : State) (front template back : Text) (ps : List Piece) (opener : Piece)
    (inner : List Piece) (closer : Piece) (qs : List Piece) : Prop where
  pieces_eq : (pieces (front ++ (template ++ back)) s).1 = ps ++ opener :: (inner ++ closer :: qs)
  front_eq : (ps.map Piece.text).flatten = front
  template_eq : opener.text ++ ((inner.map Piece.text).flatten ++ closer.text) = template
  opener_delimiter : opener.category = .delimiter
  opens : ∃ d : Delimiter, d.Opens opener.text
  inner_body : ∀ x ∈ inner, x.category ≠ .delimiter
  closer_delimiter : closer.category = .delimiter

theorem Encloses.enclosed {s : State} {front template back : Text} {before after : List Span}
    (h : Encloses s front template back before after) :
    ∃ ps opener inner closer qs, Enclosed s front template back ps opener inner closer qs ∧
      before = spansFrom utf8 0 ps ∧ after = spansFrom utf8 (size utf8 (front ++ template)) qs := by
  obtain ⟨hspans, hstart, hopener, htext, hopens, hinner, hcloser, hstop⟩ := h
  rename_i d text
  have hpieces : spansFrom utf8 0 (pieces (front ++ (template ++ back)) s).1 = _ := hspans
  obtain ⟨ps, rest, hps, hbefore, hrest⟩ := spansFrom_eq_append hpieces
  obtain ⟨o, tail, rfl, rfl, htail⟩ := spansFrom_eq_cons hrest
  obtain ⟨is, rest, rfl, hinners, hrest⟩ := spansFrom_eq_append htail
  obtain ⟨c, qs, rfl, rfl, hafter⟩ := spansFrom_eq_cons hrest
  have hline := flatten_pieces (front ++ (template ++ back)) s
  rw [hps] at hline
  simp only [List.map_append, List.map_cons, List.flatten_append, List.flatten_cons] at hline
  -- the sizes of the spans tell which pieces are in front, in the template and behind it
  obtain ⟨hfront, hrest⟩ := append_inj_of_size utf8_pos hline (by simpa using hstart)
  simp only [Nat.zero_add, hfront] at hstop hafter htext
  rw [size_append, Nat.add_assoc, Nat.add_assoc, Nat.add_left_cancel_iff] at hstop
  obtain ⟨htemplate, -⟩ : o.text ++ ((is.map Piece.text).flatten ++ c.text) = template ∧
      (qs.map Piece.text).flatten = back :=
    append_inj_of_size utf8_pos (by simpa using hrest) (by simpa [Nat.add_assoc] using hstop)
  have hopenerText : o.text = text := by
    have hslice := slice?_append utf8_pos front o.text
      ((is.map Piece.text).flatten ++ (c.text ++ (qs.map Piece.text).flatten))
    rw [hrest] at hslice
    exact Option.some.inj (hslice.symm.trans htext)
  have hbody : ∀ x ∈ is, x.category ≠ .delimiter := by
    intro x hx
    have hmem : x.category ∈ is.map Piece.category := List.mem_map_of_mem hx
    rw [← map_category_spansFrom, hinners] at hmem
    obtain ⟨span, hspan, hcategory⟩ := List.mem_map.mp hmem
    exact hcategory ▸ hinner span hspan
  have hafter' : after = spansFrom utf8 (size utf8 (front ++ template)) qs := by
    rw [size_append, ← hstop, ← hafter]
    simp only [Nat.add_assoc]
  exact ⟨ps, o, is, c, qs,
    ⟨hps, hfront, htemplate, hopener, ⟨d, hopenerText ▸ hopens⟩, hbody, hcloser⟩,
    hbefore.symm, hafter'⟩

/-- The pieces in front of a template are those in front of its first brace, and behind it the
scanner goes on in the state it had there. -/
theorem Enclosed.steps {s : State} {front template back : Text} {ps inner qs : List Piece}
    {opener closer : Piece} (h : Enclosed s front template back ps opener inner closer qs) :
    ∃ (brace : Piece) (p : Yaml.Place), (pieces (front ++ ['\x7b']) s).1 = ps ++ [brace] ∧
      p.indent = Yaml.indentation (front ++ ['\x7b']) ∧ p.previous = some '\x7d' ∧
      p.indent < p.offset ∧
      Steps p brace.entry back qs (classify (front ++ (template ++ back)) s).2 := by
  obtain ⟨d, hopens⟩ := h.opens
  obtain ⟨more, hmore⟩ := Delimiter.exists_cons_of_opens hopens
  obtain ⟨rest, hrest⟩ : ∃ rest, template ++ back = '\x7b' :: rest := by
    rw [← h.template_eq, hmore]
    exact ⟨_, rfl⟩
  have hsteps := steps_pieces (front ++ (template ++ back)) s
  rw [h.pieces_eq, hrest] at hsteps
  obtain ⟨brace, hscan, hbehind⟩ := scan_before_brace rfl h.front_eq hsteps
  obtain ⟨rest', passed, hpassed, htemplate, hlast, hback⟩ :=
    steps_behind_template hbehind h.opener_delimiter hopens h.inner_body h.closer_delimiter
  rw [h.template_eq] at htemplate
  subst htemplate
  obtain rfl : back = rest' := List.append_cancel_left (hrest.trans hpassed)
  have hindent : Yaml.indentation (front ++ (passed ++ back)) =
      Yaml.indentation (front ++ ['\x7b']) := by
    rw [hrest, Yaml.indentation_before_brace front rest]
  refine ⟨brace, _, ?_, hindent, ?_, ?_, hrest ▸ hback⟩
  · rw [pieces, ← State.enter_before_brace s front rest, Yaml.Place.start,
      ← Yaml.indentation_before_brace front rest]
    exact hscan
  · rw [Yaml.Place.advance, hlast]
    rfl
  · have hle := Yaml.indentation_le front rest
    rw [← hrest] at hle
    have hsize := length_le_size utf8_pos front
    have hpos := size_pos_of_ne_nil utf8_pos (t := passed) (by rintro rfl; cases hlast)
    simp only [Yaml.Place.advance, Yaml.Place.start]
    omega

/-- Two lines that differ in what stands between the delimiters of one template, or in those
delimiters, have the same spans in front of it and, moved, behind it, and leave the same
state. -/
theorem spans_around_template {s : State} {front template template' back : Text}
    {before before' after after' : List Span}
    (h : Encloses s front template back before after)
    (h' : Encloses s front template' back before' after') :
    before = before' ∧
      (∃ spans : List Span, after = spans.map (Span.forward (size utf8 (front ++ template))) ∧
        after' = spans.map (Span.forward (size utf8 (front ++ template')))) ∧
      (classify (front ++ (template ++ back)) s).2 =
        (classify (front ++ (template' ++ back)) s).2 := by
  obtain ⟨ps, opener, inner, closer, qs, hpieces, rfl, rfl⟩ := h.enclosed
  obtain ⟨ps', opener', inner', closer', qs', hpieces', rfl, rfl⟩ := h'.enclosed
  obtain ⟨brace, p, hfront, hindent, hprevious, hbehind, hsteps⟩ := hpieces.steps
  obtain ⟨brace', p', hfront', hindent', hprevious', hbehind', hsteps'⟩ := hpieces'.steps
  obtain ⟨rfl, hbrace⟩ := List.append_inj' (hfront.symm.trans hfront') rfl
  obtain rfl : brace = brace' := List.singleton_inj.mp hbrace
  have halike : p.Alike p' :=
    ⟨hindent.trans hindent'.symm, hprevious.trans hprevious'.symm, hbehind, hbehind'⟩
  have hscan := (scan_eq_of_steps (halike.steps hsteps)).symm.trans (scan_eq_of_steps hsteps')
  obtain ⟨rfl, hexit⟩ := Prod.mk.inj hscan
  exact ⟨rfl, ⟨spansFrom utf8 0 qs, spansFrom_add _ 0, spansFrom_add _ 0⟩,
    hexit⟩

/-- Behind a quote that the line opens itself, a value with that quote in a literal and a comment
with the quote in its text. -/
theorem spans_around_template_in_quotes :
    let s : State := .initial
    let front := "a: \"x ".toList
    let value := "\x7b\x7b '\"' -\x7d\x7d".toList
    let note := "\x7b#- \" #\x7d".toList
    let back := "\" # b".toList
    let before : List Span :=
      [⟨0, 2, .key, none⟩, ⟨2, 3, .plain, none⟩, ⟨3, 4, .plain, none⟩, ⟨4, 6, .plain, none⟩]
    let behind : List Span := [⟨0, 1, .plain, none⟩, ⟨1, 2, .plain, none⟩, ⟨2, 5, .comment, none⟩]
    (classify front s).2.scalars.quote = some .double ∧
    Encloses s front value back before (behind.map (Span.forward 16)) ∧
    Encloses s front note back before (behind.map (Span.forward 14)) ∧
    (classify (front ++ (value ++ back)) s).2 = (classify (front ++ (note ++ back)) s).2 := by
  intro s front value note back before behind
  have hvalue : Encloses s front value back before (behind.map (Span.forward 16)) :=
    .intro (show _ = _ ++ (⟨6, 8, .delimiter, none⟩ : Span) :: ([⟨8, 9, .plain, none⟩,
      ⟨9, 12, .literal, none⟩, ⟨12, 13, .plain, none⟩] ++ ⟨13, 16, .delimiter, none⟩ :: _) by decide)
      rfl rfl (show _ = some Template.Delimiter.value.opener by decide) (.inl rfl) (by decide) rfl rfl
  have hnote : Encloses s front note back before (behind.map (Span.forward 14)) :=
    .intro (show _ = _ ++ (⟨6, 8, .delimiter, none⟩ : Span) :: ([⟨8, 12, .comment, none⟩] ++
      ⟨12, 14, .delimiter, none⟩ :: _) by decide)
      rfl rfl (show _ = some Template.Delimiter.comment.opener by decide) (.inl rfl) (by decide) rfl rfl
  exact ⟨by decide, hvalue, hnote, (spans_around_template hvalue hnote).2.2⟩

end ConfigAssist
