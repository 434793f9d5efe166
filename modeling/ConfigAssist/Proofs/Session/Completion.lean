import ConfigAssist.Proofs.Session.Wire
import ConfigAssist.Proofs.Suggest.WellFormed
import ConfigAssist.Proofs.Text.Column
import ConfigAssist.Proofs.Text.Lines
import ConfigAssist.Session.Call

/-! Completion over the wire. An answer has the items of the offer at the place that the
column of the request stands for, and its range takes the same text out of the line. -/

namespace ConfigAssist

open Json Text

/-- An answer beside the offer that it passes on. A host reads the seven fields of every
suggestion of the offer in it, in the order of the offer, and its range. -/
structure PassesOn (line : Text) (o : Offer) (a : Answer) : Prop where
  items : a.items = o.items.map fun item => { item with range := a.replace }
  written : ∃ sent, Wire.completion? (Reply.answer a).toText = some sent ∧
    List.Forall₂ Wire.Item.IsFor o.items sent.items ∧ sent.replace = a.replace ∧
    sent.sequence = a.sequence ∧ sent.stale = a.stale
  rows : a.replace.start.line = o.replace.start.line ∧ a.replace.stop.line = o.replace.stop.line
  selected : ∃ replaced,
    slice? utf8 o.replace.start.column o.replace.stop.column line = some replaced ∧
    slice? utf16 a.replace.start.column a.replace.stop.column line = some replaced
  stored : ∀ p ∈ [o.replace.start, o.replace.stop, a.replace.start, a.replace.stop],
    saturated p.column = p.column

theorem unitRange_append (row : Nat) (front replaced after : Text) :
    Session.unitRange (front ++ (replaced ++ after))
        { start := { line := row, column := size utf8 front }
          stop := { line := row, column := size utf8 front + size utf8 replaced } } =
      { start := { line := row, column := size utf16 front }
        stop := { line := row, column := size utf16 front + size utf16 replaced } } := by
  have hstart := unitColumn_append front (replaced ++ after)
  have hstop := unitColumn_append (front ++ replaced) after
  simp only [size_append, List.append_assoc] at hstop
  simp only [Session.unitRange, Session.unitPosition, hstart, hstop]

/-- The range that the items of an answer carry is sent once, beside them. -/
theorem exists_completion?_place {items : List Suggestion} {a : Answer}
    (hitems : a.items = items.map fun item => { item with range := a.replace }) :
    ∃ sent, Wire.completion? (Reply.answer a).toText = some sent ∧
      List.Forall₂ Wire.Item.IsFor items sent.items ∧ sent.replace = a.replace ∧
      sent.sequence = a.sequence ∧ sent.stale = a.stale := by
  obtain ⟨sent, hsent, hfor, hrest⟩ := Wire.exists_completion?_answer a
  rw [hitems, List.forall₂_map_left_iff] at hfor
  refine ⟨sent, hsent, hfor.imp fun item shown h => ?_, hrest⟩
  exact ⟨h.insertText, h.displayText, h.kind, h.description, h.detail, h.icon⟩

namespace Session

theorem passesOn_answer {s : Session} {r : Request} {lines : List Text} {line : Text}
    (hline : lines[r.line]? = some line) (hshort : size utf8 line < UInt32.size) :
    let o := offer s.schema lines { line := r.line, column := byteColumn line r.character }
      s.registry.entities
    (s.answer r lines line).replace.stop =
        { line := r.line, column := size utf16 (fit utf16 r.character line) } ∧
      PassesOn line o (s.answer r lines line) := by
  intro o
  let cursor : Position := { line := r.line, column := byteColumn line r.character }
  have hline : lines[cursor.line]? = some line := hline
  obtain ⟨front, after, hsplit, hfit, hreplace⟩ := replace_of_line s.schema s.registry.entities hline
  generalize (Typed.ofText s.schema.sentinel (fit utf8 cursor.column line)).replaced = replaced at *
  have hbefore : fit utf8 cursor.column line = fit utf16 r.character line := by
    obtain ⟨rest, hrest⟩ := fit_prefix utf16 r.character line
    have hplace := fit_append utf8_pos (fit utf16 r.character line) rest
    rwa [hrest] at hplace
  have hunits : size utf16 front + size utf16 replaced = size utf16 (fit utf16 r.character line) := by
    rw [← hbefore, hfit, size_append]
  have hanswer : (s.answer r lines line).replace =
      { start := { line := r.line, column := size utf16 front }
        stop := { line := r.line, column := size utf16 front + size utf16 replaced } } := by
    have hrange := unitRange_append r.line front replaced after
    rw [← hsplit, ← hreplace] at hrange
    exact hrange
  have hline16 := size_utf16_le line
  have hsize16 := congrArg (size utf16) hsplit
  have hsize8 := congrArg (size utf8) hsplit
  simp only [size_append] at hsize16 hsize8
  refine ⟨by rw [hanswer, hunits], ?_⟩
  have hitems : (s.answer r lines line).items =
      o.items.map fun item => { item with range := (s.answer r lines line).replace } := rfl
  refine ⟨hitems, exists_completion?_place hitems, ?_, ⟨replaced, ?_, ?_⟩, ?_⟩
  · rw [hanswer, hreplace]
    exact ⟨rfl, rfl⟩
  · have hslice := slice?_append utf8_pos front replaced after
    rw [← hsplit] at hslice
    rw [hreplace]
    exact hslice
  · have hslice := slice?_append utf16_pos front replaced after
    rw [← hsplit] at hslice
    rw [hanswer]
    exact hslice
  · rw [hreplace, hanswer]
    simp only [List.forall_mem_cons, List.not_mem_nil, false_imp_iff, implies_true, and_true]
    exact ⟨saturated_of_lt (by omega), saturated_of_lt (by omega), saturated_of_lt (by omega),
      saturated_of_lt (by omega)⟩

theorem complete_of_line {s : Session} {r : Request} {line : Text}
    (hline : (Text.lines r.text)[r.line]? = some line) (htime : s.isStale r = false) :
    s.complete r =
      .ok (s.answer r (Text.lines r.text) line, { s with latest := r.sequence <|> s.latest }) := by
  simp only [complete, hline, htime]
  rfl

theorem call_completion {s next : Session} {t : Text} {r : Request} {a : Answer}
    (hr : Request.ofText? t = some r) (hcomplete : s.complete r = .ok (a, next)) :
    s.call (.completion t) = (.ok (.answer a), next) := by
  simp only [call, perform, hr, hcomplete, Except.map]

/-- A request that points at a line and does not come too late is answered with the offer
at the place that its column stands for. A column inside a surrogate pair is lowered to
its start, and one behind the line to its end. -/
theorem complete_passesOn_offer (s : Session) (r : Request) {line : Text}
    (hline : (Text.lines r.text)[r.line]? = some line)
    (hshort : ∀ l ∈ Text.lines r.text, size utf8 l < UInt32.size) (htime : s.isStale r = false) :
    let lines := Text.lines r.text
    let column := byteColumn line r.character
    let o := offer s.schema lines { line := r.line, column } s.registry.entities
    LinesOf r.text lines ∧ ∃ a units,
      s.complete r = .ok (a, { s with latest := r.sequence <|> s.latest }) ∧
      (∀ t, Request.ofText? t = some r → (s.call (.completion t)).1 = .ok (.answer a)) ∧
      a.sequence = r.sequence ∧ a.stale = false ∧ IsPlace line r.character column units ∧
      a.replace.stop = { line := r.line, column := units } ∧ PassesOn line o a := by
  intro lines column o
  obtain ⟨hstop, hpasses⟩ := passesOn_answer (s := s) hline (hshort line (List.mem_of_getElem? hline))
  have hcomplete := complete_of_line hline htime
  have hcall : ∀ t, Request.ofText? t = some r → (s.call (.completion t)).1 = .ok (.answer _) :=
    fun t ht => congrArg Prod.fst (call_completion ht hcomplete)
  exact ⟨linesOf_lines r.text, _, _, hcomplete, hcall, rfl, rfl,
    isPlace_byteColumn line r.character, hstop, hpasses⟩

/-- The column falls between the two units of a character, on a line that ended in a
carriage return. -/
theorem complete_passesOn_offer_inside :
    let r : Request :=
      { text := "a:\r\n  é light.k😀x\r\n".toList, line := 1, character := 12, sequence := some 7 }
    let s : Session :=
      { registry := { entities := [{ id := "light.kitchen".toList, icon := some "mdi:lamp".toList }] }
        latest := some 5 }
    let line := "  é light.k😀x".toList
    let range : Range := { start := { line := 1, column := 4 }, stop := { line := 1, column := 11 } }
    let answer : Answer :=
      { items :=
          [{ insert := "light.kitchen".toList, kind := .entity, icon := some "mdi:lamp".toList, range }]
        replace := range
        sequence := some 7 }
    let item : Wire.Item :=
      { insertText := "light.kitchen".toList, displayText := "light.kitchen".toList
        kind := "entity".toList, className := "ha-hint-entity".toList, description := none
        detail := none, icon := some "mdi:lamp".toList }
    let lines := ["a:".toList, line, []]
    let o := offer s.schema lines { line := 1, column := 12 } s.registry.entities
    lines[r.line]? = some line ∧ (∀ l ∈ lines, size utf8 l < UInt32.size) ∧ s.isStale r = false ∧
      LinesOf r.text lines ∧ InsidePair line r.character ∧
      s.complete r = .ok (answer, { s with latest := some 7 }) ∧
      IsPlace line r.character 12 11 ∧ PassesOn line o answer ∧
      Wire.completion? (Reply.answer answer).toText =
        some { items := [item], replace := range, sequence := some 7, stale := false } := by
  intro r s line range answer item lines o
  have hlines : Text.lines r.text = lines := by decide
  have hline : lines[r.line]? = some line := rfl
  have hshort : ∀ l ∈ lines, size utf8 l < UInt32.size := by decide
  have htime : s.isStale r = false := by decide
  have hinside : InsidePair line r.character :=
    ⟨"  é light.k".toList, '😀', ['x'], rfl, by decide, by decide⟩
  obtain ⟨hcut, a, units, hcomplete, -, -, -, hplace, -, hpasses⟩ :=
    complete_passesOn_offer s r (hlines ▸ hline) (hlines ▸ hshort) htime
  have hunits : units = 11 := Nat.succ.inj (hplace.lowered hinside)
  have hcolumn : byteColumn line r.character = 12 := by decide
  have hanswer : (s.complete r).toOption.map Prod.fst = some answer := by decide +kernel
  rw [hcomplete] at hanswer
  obtain rfl : a = answer := Option.some.inj hanswer
  rw [hlines] at hcut hpasses
  rw [hunits, hcolumn] at hplace
  rw [hcolumn] at hpasses
  exact ⟨hline, hshort, htime, hcut, hinside, hcomplete, hplace, hpasses, by decide +kernel⟩

end Session

end ConfigAssist
