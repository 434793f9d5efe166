import ConfigAssist.Proofs.Color.Entry
import ConfigAssist.Proofs.Yaml.ScalarEnd

/-! A quoted scalar on a line without templates. It is plain up to the mark that ends it, or up
to the end of the line, and behind that mark the scanner stands where it stood in front of the
scalar, with nothing open. -/

namespace ConfigAssist

open Text Yaml

/-- Neither a key, a comment nor a tag, and without a meaning of its own. -/
def Piece.IsPlain (piece : Piece) : Prop := piece.category = .plain ∧ piece.marker = none

/-- The pieces of a text that stands in quotes, up to the mark that ends the scalar, and those
behind it. -/
inductive QuotedSteps (q : Quote) (p : Place) (s : State) (t : Text) : List Piece → State → Prop
  | closed {u after : Text} {inside behind : List Piece} {exit : State}
      (hend : ScalarEnd q t (some u)) (htext : t = u ++ q.mark :: after)
      (hinside : (inside.map Piece.text).flatten = u ++ [q.mark])
      (hplain : ∀ piece ∈ inside, piece.IsPlain)
      (hbehind : Steps (p.advance (u ++ [q.mark]))
        { s with scalars := { s.scalars with quote := none } } after behind exit) :
      QuotedSteps q p s t (inside ++ behind) exit
  | unclosed {inside : List Piece} (hend : ScalarEnd q t none)
      (hplain : ∀ piece ∈ inside, piece.IsPlain) : QuotedSteps q p s t inside s

theorem QuotedSteps.passed {q : Quote} {p : Place} {s exit : State} {t : Text} {ps : List Piece}
    {piece : Piece} (hpasses : Passes q piece.text t) (hpiece : piece.IsPlain)
    (h : QuotedSteps q (p.advance piece.text) s t ps exit) :
    QuotedSteps q p s (piece.text ++ t) (piece :: ps) exit := by
  have hplain {inside : List Piece} (h : ∀ x ∈ inside, x.IsPlain) :
      ∀ x ∈ piece :: inside, x.IsPlain := List.forall_mem_cons.mpr ⟨hpiece, h⟩
  cases h with
  | @closed u after inside behind _ hend htext hinside hinsidePlain hbehind =>
    rw [← Place.advance_append, ← List.append_assoc] at hbehind
    show QuotedSteps q p s (piece.text ++ t) ((piece :: inside) ++ behind) exit
    exact .closed (hend.append hpasses) (by simp [htext]) (by simp [hinside]) (hplain hinsidePlain)
      hbehind
  | unclosed hend hinsidePlain => exact .unclosed (hend.append hpasses) (hplain hinsidePlain)

/-- Induction over the chunks that the quoted scalar is read in. -/
theorem quotedSteps_of_steps {q : Quote} {p : Place} {s exit : State} {t : Text} {ps : List Piece}
    (h : Steps p s t ps exit) (htemplate : s.template = none) (hblock : s.scalars.block = none)
    (hquote : s.scalars.quote = some q) (hopener : ∀ d : Template.Delimiter, ¬ d.opener <:+: t) :
    QuotedSteps q p s t ps exit := by
  induction h with
  | done =>
    refine .unclosed (.never fun u hu => ?_) (by simp)
    simpa using hu.again
  | @step p s next exit c token rest reading ps hread hfits hrest ih =>
    have hopening := Template.Delimiter.opening?_eq_none hopener
    have hyaml : s.read p c (token ++ rest) =
        ((readQuoted s.scalars q c (token ++ rest)).1,
          { s with scalars := (readQuoted s.scalars q c (token ++ rest)).2 }) := by
      simp [State.read, Yaml.read, htemplate, hblock, hquote, hopening]
    have hform := readQuoted_form s.scalars c (token ++ rest) q
    generalize readQuoted s.scalars q c (token ++ rest) = r at hyaml hform
    obtain ⟨rfl, rfl⟩ := Prod.mk.inj (hread.symm.trans hyaml)
    have hpiece : Piece.IsPlain ⟨s, c :: token, r.1.category, r.1.marker⟩ := by
      rw [hform.eq_plain]
      exact ⟨rfl, rfl⟩
    have hopener' : ∀ d : Template.Delimiter, ¬ d.opener <:+: rest := by
      intro d hstands
      have hsuffix : rest <:+ c :: (token ++ rest) := List.suffix_append (c :: token) rest
      exact hopener d (hstands.trans hsuffix.isInfix)
    have hadvance := hform.advances hfits
    generalize hnext : r.2 = scalars at hadvance hrest ih
    cases hadvance with
    | passes hpasses => exact (ih htemplate hblock hquote hopener').passed hpasses hpiece
    | ends hend hc htoken =>
      subst hc htoken
      show QuotedSteps q p s _ ([_] ++ ps) exit
      exact .closed hend rfl (by simp) (by simpa using hpiece) hrest
    | cut hend hcut =>
      subst hcut
      cases hrest with
      | done =>
        rw [List.append_nil]
        exact .unclosed hend (by simpa using hpiece)

theorem readOpen_mark {p : Place} (hprevious : p.previous.all opensScalar = true) (s : Scalars)
    (q : Quote) (cs : Text) : readOpen p s q.mark cs = (.plain 0, { s with quote := some q }) := by
  cases q <;> simp [readOpen, Quote.mark, isIndent, isWordStart, Quote.ofMark?, hprevious]

theorem steps_behind_mark {p : Place} {s exit : State} {q : Quote} {cs : Text} {piece : Piece}
    {behind : List Piece} (hbare : s.IsBare) (hprevious : p.previous.all opensScalar = true)
    (hopening : Template.Delimiter.opening? (q.mark :: cs) = none)
    (h : Steps p s (q.mark :: cs) (piece :: behind) exit) :
    piece.text = [q.mark] ∧ piece.IsPlain ∧ Steps (p.advance [q.mark])
      { s with scalars := { s.scalars with quote := some q } } cs behind exit := by
  generalize hcs : q.mark :: cs = t at h
  cases h with
  | @step _ _ next _ c token rest reading _ hread hfits hbehind =>
    obtain ⟨rfl, rfl⟩ := List.cons.inj hcs
    have hopen := hbare.read_eq (p := p) hopening
    rw [readOpen_mark hprevious] at hopen
    obtain ⟨rfl, rfl⟩ := Prod.mk.inj (hread.symm.trans hopen)
    obtain rfl := List.eq_nil_of_length_eq_zero hfits
    exact ⟨rfl, ⟨rfl, rfl⟩, hbehind⟩

/-- The spans of a line with a quoted scalar on it, from the span of its opening mark on. Behind
the mark that ends it the line goes on as it would behind any other text, in the state it had in
front of the scalar. -/
inductive ScalarSpans (line : Text) (s : State) (before : Text) (q : Quote) (cs : Text)
    (x : State × Span) : Prop
  | closed {u after passed : Text} {front inside : List (State × Span)}
      (hend : ScalarEnd q cs (some u)) (htext : cs = u ++ q.mark :: after)
      (hpassed : passed = before ++ q.mark :: (u ++ [q.mark]))
      (hspans : entrySpans line s = front ++ x :: (inside ++
        entriesFrom (size utf8 passed) (scan (.behind line passed) x.1 0 after).1))
      (hexit : (classify line s).2 = (scan (.behind line passed) x.1 0 after).2)
      (hplain : ∀ y ∈ x :: inside, y.2.category = .plain ∧ y.2.marker = none)
  | unclosed {front inside : List (State × Span)} (hend : ScalarEnd q cs none)
      (hspans : entrySpans line s = front ++ x :: inside)
      (hplain : ∀ y ∈ x :: inside, y.2.category = .plain ∧ y.2.marker = none)

theorem plain_of_mem_entriesFrom {offset : Nat} {x : State × Span} {ps : List Piece}
    (hx : x.2.category = .plain ∧ x.2.marker = none) (h : ∀ piece ∈ ps, piece.IsPlain) :
    ∀ y ∈ x :: entriesFrom offset ps, y.2.category = .plain ∧ y.2.marker = none := by
  induction ps generalizing offset x with
  | nil => simpa [entriesFrom] using hx
  | cons p ps ih =>
    rw [List.forall_mem_cons] at h
    exact List.forall_mem_cons.mpr ⟨hx, ih h.1 h.2⟩

/-- A mark in the open, at the start of a line or behind a blank, a bracket or a comma, opens a
scalar that is plain up to its end, if no template opens behind it. -/
theorem scalar_spans_of_quote {line : Text} {s : State} {x : State × Span} {before cs : Text}
    {q : Quote} (hx : x ∈ entrySpans line s) (hbare : x.1.IsBare)
    (hline : before ++ q.mark :: cs = line) (hstart : size utf8 before = x.2.start)
    (hprevious : ∀ c ∈ before.getLast?, c ∈ [' ', '\t', '[', '\x7b', ','])
    (hopener : ∀ d : Template.Delimiter, ¬ d.opener <:+: q.mark :: cs) :
    ScalarSpans line s before q cs x := by
  obtain ⟨front, piece, behind, hsteps, hspan, hspans⟩ := steps_of_mem_entrySpans hx hline hstart
  have hopens : (Place.behind line before).previous.all opensScalar = true := by
    have hall : ∀ c ∈ [' ', '\t', '[', '\x7b', ','], opensScalar c = true := by
      simp [opensScalar, isIndent]
    rw [Option.all_eq_true]
    exact fun c hc => hall c (hprevious c hc)
  obtain ⟨htext, hpiece, hbehind⟩ :=
    steps_behind_mark hbare hopens (Template.Delimiter.opening?_eq_none hopener) hsteps
  have hx' : x.2.category = .plain ∧ x.2.marker = none := by
    rw [hspan]
    exact hpiece
  have hopener' : ∀ d : Template.Delimiter, ¬ d.opener <:+: cs :=
    fun d hstands => hopener d (hstands.trans (List.suffix_cons q.mark cs).isInfix)
  have hquoted := quotedSteps_of_steps hbehind hbare.template hbare.block rfl hopener'
  rw [htext] at hspans
  generalize hexit : (classify line s).2 = exit at hquoted
  cases hquoted with
  | @closed u after inside behind _ hend hcs hinside hplain hbehind =>
    have hpassed : before ++ [q.mark] ++ (u ++ [q.mark]) = before ++ q.mark :: (u ++ [q.mark]) := by
      simp
    have hsame : { x.1 with scalars := { x.1.scalars with quote := none } } = x.1 := by
      rw [← hbare.quote]
    have hscan : scan (.behind line (before ++ q.mark :: (u ++ [q.mark]))) x.1 0 after =
        (behind, exit) := by
      rw [← hpassed, ← Place.advance_behind, ← Place.advance_behind, ← hsame]
      exact scan_eq_of_steps hbehind
    rw [entriesFrom_append, hinside, ← size_append, hpassed] at hspans
    exact .closed hend hcs rfl (by rw [hscan, hspans]) (by rw [hscan, hexit])
      (plain_of_mem_entriesFrom hx' hplain)
  | unclosed hend hplain => exact .unclosed hend hspans (plain_of_mem_entriesFrom hx' hplain)

/-- A doubled mark in single quotes, two backslashes in double quotes, and a comment behind them. -/
theorem scalar_spans_of_quote_sequence :
    let line := "- ['it''s', \"a\\\\\"]: # b".toList
    let s : State := { scalars := { block := some 4 } }
    let x : State × Span := (.initial, ⟨3, 4, .plain, none⟩)
    let y : State × Span := (.initial, ⟨12, 13, .plain, none⟩)
    x ∈ entrySpans line s ∧ y ∈ entrySpans line s ∧
      ScalarSpans line s "- [".toList .single "it''s', \"a\\\\\"]: # b".toList x ∧
      ScalarSpans line s "- ['it''s', ".toList .double "a\\\\\"]: # b".toList y ∧
      (⟨20, 23, .comment, none⟩ : Span) ∈ (classify line s).1 := by
  intro line s x y
  have hx : x ∈ entrySpans line s := by decide
  have hy : y ∈ entrySpans line s := by decide
  have hbare : State.initial.IsBare := ⟨rfl, rfl, rfl⟩
  have hopener {t : Text} (ht : '\x7b' ∉ t) (d : Template.Delimiter) : ¬ d.opener <:+: t := by
    intro hstands
    have hbrace : '\x7b' ∈ d.opener := by cases d <;> decide
    exact ht (hstands.subset hbrace)
  have hbracket : ∀ c ∈ "- [".toList.getLast?, c ∈ [' ', '\t', '[', '\x7b', ','] := by
    simp
  have hspace : ∀ c ∈ "- ['it''s', ".toList.getLast?, c ∈ [' ', '\t', '[', '\x7b', ','] := by
    simp
  exact ⟨hx, hy,
    scalar_spans_of_quote hx hbare (by decide) (by decide) hbracket (hopener (by decide)),
    scalar_spans_of_quote hy hbare (by decide) (by decide) hspace (hopener (by decide)),
    by decide⟩

end ConfigAssist
