import ConfigAssist.Proofs.Color.Coherence
import ConfigAssist.Proofs.Color.Paint
import ConfigAssist.Proofs.Color.Vocabulary
import ConfigAssist.Proofs.Template.LineEnd
import ConfigAssist.Proofs.Text.Lines

/-! A carriage return behind a line. The line is read as it is read alone, but for one case: a word
with a colon at the end of the line is a key, and in front of a carriage return it is none. -/

namespace ConfigAssist

open Text Yaml

/-- A reading at a place of a line, and the reading at the same place with a carriage return behind
the line. Both leave the same state. -/
inductive Returns (cs : Text) (next : State) : Reading → Reading → Prop
  | same {r : Reading} (hkey : r.category = .key → r.further ≠ cs.length) : Returns cs next r r
  | taken {category : Category} (hcategory : category ≠ .key) :
      Returns cs next { further := cs.length, category } { further := cs.length + 1, category }
  | colon {word : Text} {marker : Option Marker} (hline : cs = word ++ [':']) (hbare : next.IsBare) :
      Returns cs next { further := cs.length, category := .key, marker } (.plain word.length)

theorem Returns.of_ne_key {cs : Text} {next : State} {r : Reading} (h : r.category ≠ .key) :
    Returns cs next r r := .same fun hkey => absurd hkey h

theorem Yaml.Reaches.returns {cs : Text} {next : State} {r r' : Reading}
    (h : Reaches ['\r'] cs (r, next.scalars) (r', next.scalars)) (htemplate : next.template = none) :
    Returns cs next r r' := by
  generalize hscalars : next.scalars = scalars at h
  cases h with
  | same hkey => exact .same fun hcategory hend => Bool.false_ne_true (hkey hcategory hend)
  | blanks => exact .of_ne_key (by simp [Reading.plain])
  | comment => exact .of_ne_key (by simp)
  | @scalar n _ _ hn =>
    rcases Nat.le_one_iff_eq_zero_or_eq_one.mp hn with rfl | rfl
    · exact .of_ne_key (by simp [Reading.plain])
    · exact .taken (by decide)
  | colon hline _ hblock hquote =>
    subst hscalars
    exact .colon hline ⟨htemplate, hblock, hquote⟩

theorem State.read_append_return {p : Place} {s next : State} {c : Char} {cs : Text}
    {reading : Reading} (hread : s.read p c cs = (reading, next)) :
    ∃ longer, s.read p c (cs ++ ['\r']) = (longer, next) ∧ Returns cs next reading longer := by
  have hform := s.read_form p c cs
  rw [hread] at hform
  have hopens := tail_return.opening?_append cs c
  cases hform with
  | @opening d htemplate hopening =>
    refine ⟨_, ?_, .of_ne_key (by simp)⟩
    simp only [State.read, htemplate, hopens, hopening, d.openerLength_append_return]
  | outside htemplate hopening =>
    obtain ⟨longer, hlonger, hreaches⟩ :=
      State.read_append_tail tail_return htemplate hopening hread
    exact ⟨longer, hlonger, hreaches.returns rfl⟩
  | @closing d n htemplate hcloser =>
    refine ⟨_, ?_, .of_ne_key (by simp)⟩
    simp only [State.read, htemplate, d.closerLength?_append_return, hcloser]
  | @inside d htemplate hcloser =>
    have hlonger : s.read p c (cs ++ ['\r']) = (d.readBody c (cs ++ ['\r']), s) := by
      simp only [State.read, htemplate, d.closerLength?_append_return, hcloser]
    refine ⟨_, hlonger, ?_⟩
    rcases d.readBody_append_return c cs with hsame | ⟨category, hcategory, hall, hrun⟩
    · rw [hsame]
      exact .of_ne_key (d.isUnnamed_readBody c cs).not_key
    · rw [hall, hrun]
      exact .taken hcategory

theorem Yaml.scalars_read_return (p : Place) (s : Scalars) : (read p s '\r' []).2 = s := by
  unfold read
  split
  · rfl
  · split
    · rename_i q _
      have hmark : '\r' ≠ q.mark := by cases q <;> decide
      rw [readQuoted, if_neg hmark]
    · simp [readOpen, isIndent, isWordStart]

theorem State.read_return (p : Place) (s : State) :
    ∃ reading : Reading, s.read p '\r' [] = (reading, s) ∧ reading.further = 0 := by
  have hform := s.read_form p '\r' []
  have hfurther := Nat.le_zero.mp hform.further_le
  refine ⟨(s.read p '\r' []).1, ?_, hfurther⟩
  generalize s.read p '\r' [] = r at hform
  cases hform with
  | opening _ hopening => exact absurd (Template.Delimiter.eq_brace_of_opening? hopening) (by decide)
  | outside htemplate =>
    rw [scalars_read_return, ← htemplate]
  | closing _ hcloser =>
    have htwo := Template.Delimiter.two_le_of_closerLength? hcloser
    have hone := Template.Delimiter.closerLength?_le hcloser
    exact absurd (htwo.trans hone) (by decide)
  | inside => rfl

/-- Nothing in front of it takes the carriage return, and it changes nothing. -/
theorem scan_return (p : Place) (s : State) :
    ∃ piece : Piece, scan p s 0 ['\r'] = ([piece], s) ∧ piece.text = ['\r'] := by
  obtain ⟨reading, hread, hfurther⟩ := s.read_return p
  have hread' : s.read p '\r' ([] ++ []) = (reading, s) := hread
  exact ⟨_, scan_of_read hread' hfurther.symm, rfl⟩

/-- A key that is none. -/
def Piece.unkeyed (p : Piece) : Piece :=
  if p.category = .key then { p with category := .plain, marker := none } else p

/-- Pieces with the last one plain, if it is a key. -/
def unkeyLast : List Piece → List Piece
  | [] => []
  | p :: ps => (if ps = [] then p.unkeyed else p) :: unkeyLast ps

theorem unkeyLast_cons {piece : Piece} {ps : List Piece} (h : piece.category = .key → ps ≠ []) :
    unkeyLast (piece :: ps) = piece :: unkeyLast ps := by
  by_cases hps : ps = []
  · have hkey : piece.category ≠ .key := fun hkey => h hkey hps
    rw [unkeyLast, if_pos hps, Piece.unkeyed, if_neg hkey]
  · rw [unkeyLast, if_neg hps]

theorem unkeyLast_append (before : List Piece) (piece : Piece) (after : List Piece) :
    unkeyLast (before ++ piece :: after) = before ++ unkeyLast (piece :: after) := by
  induction before with
  | nil => rfl
  | cons p before ih =>
    rw [List.cons_append, unkeyLast, if_neg (by simp), ih, List.cons_append]

theorem getElem?_paint_unkeyLast {before : List Piece} {piece : Piece} {offset : Nat}
    (after : List Piece)
    (hle : size utf8 (before.map Piece.text).flatten ≤ offset)
    (hlt : offset < size utf8 (before.map Piece.text).flatten + size utf8 piece.text) :
    (paint (unkeyLast (before ++ piece :: after)))[offset]? =
      some (if piece.category = .key ∧ after = [] then (.plain, none) else piece.color) := by
  by_cases hlast : piece.category = .key ∧ after = []
  · rw [if_pos hlast, unkeyLast_append, unkeyLast, if_pos hlast.2, Piece.unkeyed, if_pos hlast.1]
    exact getElem?_paint hle hlt
  · have hkeep : unkeyLast (piece :: after) = piece :: unkeyLast after :=
      unkeyLast_cons fun hkey hnil => hlast ⟨hkey, hnil⟩
    rw [if_neg hlast, unkeyLast_append, hkeep]
    exact getElem?_paint hle hlt

/-- The text with a carriage return behind it has the colours it has alone, without those of a key at
its end, and then one for the carriage return. -/
structure Returned (alone longer : List Piece × State) : Prop where
  exit : longer.2 = alone.2
  colors : ∃ color : Color, paint longer.1 = paint (unkeyLast alone.1) ++ [color]

theorem Returned.cons {alone longer : List Piece × State} (h : Returned alone longer) {piece : Piece}
    (hkey : piece.category = .key → alone.1 ≠ []) :
    Returned (piece :: alone.1, alone.2) (piece :: longer.1, longer.2) := by
  obtain ⟨hexit, color, hcolors⟩ := h
  exact ⟨hexit, color, by rw [unkeyLast_cons hkey, paint_cons, hcolors, paint_cons, List.append_assoc]⟩

theorem returned_return (p : Place) (s : State) : Returned ([], s) (scan p s 0 ['\r']) := by
  obtain ⟨piece, hscan, htext⟩ := scan_return p s
  rw [hscan]
  refine ⟨rfl, piece.color, ?_⟩
  rw [paint_cons, htext]
  rfl

section

variable {p : Place} {s next : State} {c : Char} {token word : Text}

/-- A token that takes the carriage return. -/
theorem returned_of_taken {category : Category} (hcategory : category ≠ .key)
    (hread : s.read p c (token ++ ['\r']) = ({ further := token.length + 1, category }, next)) :
    Returned ([⟨s, c :: token, category, none⟩], next) (scan p s 0 (c :: (token ++ ['\r']))) := by
  rw [← List.append_nil (token ++ ['\r'])] at hread ⊢
  have hunkeyed : unkeyLast [⟨s, c :: token, category, none⟩] = [⟨s, c :: token, category, none⟩] :=
    unkeyLast_cons fun hkey => absurd hkey hcategory
  rw [scan_of_read hread (by rw [List.length_append]; rfl)]
  refine ⟨rfl, (category, none), ?_⟩
  rw [hunkeyed, paint_longer]
  rfl

/-- The colon of a word stands alone in front of the carriage return. -/
theorem returned_of_colon {marker : Option Marker} (hbare : next.IsBare)
    (hread : s.read p c (word ++ [':', '\r']) = (.plain word.length, next)) :
    Returned ([⟨s, c :: (word ++ [':']), .key, marker⟩], next)
      (scan p s 0 (c :: (word ++ [':', '\r']))) := by
  have hcolon (p : Place) : next.read p ':' ([] ++ ['\r']) = (.plain 0, next) := by
    rw [hbare.read_eq rfl]
    simp [readOpen, isIndent, isWordStart]
  rw [scan_of_read hread rfl, ← List.nil_append ['\r'], scan_of_read (hcolon _) rfl]
  obtain ⟨hexit, color, hcolors⟩ :=
    returned_return ((p.advance (c :: word)).advance (':' :: [])) next
  have hunkeyed : unkeyLast [⟨s, c :: (word ++ [':']), .key, marker⟩] =
      [⟨s, c :: (word ++ [':']), .plain, none⟩] := rfl
  refine ⟨hexit, color, ?_⟩
  rw [hunkeyed, paint_longer]
  simp only [paint_cons, hcolors, List.append_assoc, paint_nil, List.nil_append, unkeyLast]
  rfl

end

theorem returned_of_steps {p : Place} {s exit : State} {t : Text} {ps : List Piece}
    (h : Steps p s t ps exit) : Returned (ps, exit) (scan p s 0 (t ++ ['\r'])) := by
  induction h with
  | done p s => exact returned_return p s
  | @step p s next exit c token rest reading ps hread hfits hrest ih =>
    obtain ⟨longer, hlonger, hreturns⟩ := State.read_append_return hread
    -- a token that is not the same is the last one
    cases hreturns with
    | same hkey =>
      rw [List.append_assoc] at hlonger
      rw [List.cons_append, List.append_assoc, scan_of_read hlonger hfits]
      refine ih.cons fun hcategory hps => ?_
      obtain rfl : ps = [] := hps
      cases hrest with
      | done => exact hkey hcategory (by rw [List.append_nil, hfits])
    | taken hcategory =>
      obtain ⟨rfl, rfl, rfl⟩ := hrest.eq_of_last hfits rfl
      rw [List.append_nil] at hlonger ⊢
      exact returned_of_taken hcategory hlonger
    | @colon word marker hline hbare =>
      obtain ⟨rfl, rfl, rfl⟩ := hrest.eq_of_last hfits rfl
      rw [List.append_nil] at hline hlonger ⊢
      subst hline
      rw [List.append_assoc] at hlonger
      rw [List.cons_append, List.append_assoc]
      exact returned_of_colon hbare hlonger

theorem indentation_append_return (line : Text) :
    indentation (line ++ ['\r']) = indentation line := by
  rcases length_takeWhile_append isIndent line ['\r'] with hsame | ⟨hall, hrun⟩
  · exact hsame
  · exact hrun.trans hall.symm

theorem State.enter_append_return (s : State) (line : Text) :
    s.enter (line ++ ['\r']) = s.enter line := by
  have hblank : isBlank (line ++ ['\r']) = isBlank line := by
    have hreturn : isBlank ['\r'] = true := by decide
    rw [isBlank, List.all_append, ← isBlank, ← isBlank, hreturn, Bool.and_true]
  simp only [enter, Scalars.enter, Scalars.continues, hblank, indentation_append_return]

theorem returned_pieces (line : Text) (s : State) :
    Returned (pieces line s) (pieces (line ++ ['\r']) s) := by
  have hreturned := returned_of_steps (steps_pieces line s)
  rwa [← s.enter_append_return, Place.start, ← indentation_append_return line] at hreturned

/-- A line, and the line with a carriage return behind it. Both are entered and left in the same
states and have the same colours, but a key at the end of the first is plain in the second. -/
structure Recolored (line line' : ColoredLine) : Prop where
  text : line'.text = line.text ++ ['\r']
  entry : line'.entry = line.entry
  exit : line'.exit = line.exit
  colors : ∀ x ∈ line.spans, ∀ offset, x.start ≤ offset → offset < x.stop →
    colorAt line'.spans offset =
      some (if x.category = .key ∧ x.stop = size utf8 line.text then (.plain, none)
        else (x.category, x.marker))

/-- The pieces that reach the end of their line are the last ones. -/
theorem after_eq_nil_iff {line : Text} {s : State} {before after : List Piece} {piece : Piece}
    (h : (pieces line s).1 = before ++ piece :: after) :
    after = [] ↔ size utf8 (before.map Piece.text).flatten + size utf8 piece.text = size utf8 line := by
  have hsize := congrArg (size utf8) (flatten_pieces line s)
  simp only [h, List.map_append, List.map_cons, List.flatten_append, List.flatten_cons,
    size_append] at hsize
  cases after with
  | nil => simpa using hsize
  | cons next after =>
    have hne := text_ne_nil_of_steps (steps_pieces line s) next (by simp [h])
    have hpos := size_pos_of_ne_nil utf8_pos hne
    simp only [List.map_cons, List.flatten_cons, size_append] at hsize
    refine iff_of_false (by simp) (by omega)

theorem recolored_read (s : State) (line : Text) :
    Recolored (.read s line) (.read s (line ++ ['\r'])) where
  text := rfl
  entry := rfl
  exit := (returned_pieces line s).exit
  colors := by
    intro x hx offset hstart hstop
    change x ∈ spansFrom utf8 0 (pieces line s).1 at hx
    change colorAt (classify (line ++ ['\r']) s).1 offset =
      some (if _ ∧ x.stop = size utf8 line then _ else _)
    obtain ⟨before, piece, after, hpieces, hbefore, hpiece, hcategory, hmarker⟩ := mem_spansFrom hx
    obtain ⟨color, hcolors⟩ := (returned_pieces line s).colors
    rw [Nat.zero_add] at hbefore
    rw [hpiece, hbefore] at hstop ⊢
    rw [hbefore] at hstart
    have hbyte := getElem?_paint_unkeyLast after hstart hstop
    rw [← hpieces] at hbyte
    simp only [after_eq_nil_iff hpieces] at hbyte
    rw [colorAt_classify, hcolors, hcategory, hmarker, List.getElem?_append_left, hbyte]
    · rfl
    · exact (List.getElem?_eq_some_iff.mp hbyte).1

theorem recolored_readLines (s : State) (front : List Text) (last : Text) :
    ∃ lines lines' line, Document.readLines s (front ++ [last]) = lines ++ [line] ∧
      Document.readLines s (front.map (· ++ ['\r']) ++ [last]) = lines' ++ [line] ∧
      List.Forall₂ Recolored lines lines' := by
  induction front generalizing s with
  | nil => exact ⟨[], [], _, rfl, rfl, .nil⟩
  | cons text front ih =>
    have hline := recolored_read s text
    obtain ⟨lines, lines', line, hlines, hlines', hall⟩ := ih (ColoredLine.read s text).exit
    rw [← hline.exit] at hlines'
    refine ⟨.read s text :: lines, .read s (text ++ ['\r']) :: lines', line, ?_, ?_, .cons hline hall⟩
    · exact congrArg (_ :: ·) hlines
    · exact congrArg (_ :: ·) hlines'

/-- A carriage return behind a line changes no colour in front of it but that of a key at the end
of the line, and not the state behind it. So a text with carriage returns in front of its line feeds
has, line by line, the colours it has without. -/
theorem return_behind_line (line : Text) (s : State) (t : Text) :
    Recolored (.read s line) (.read s (line ++ ['\r'])) ∧
      ∃ lines lines' last, (Document.ofText t).lines = lines ++ [last] ∧
        (Document.ofText (withReturns t)).lines = lines' ++ [last] ∧
        List.Forall₂ Recolored lines lines' := by
  obtain ⟨front, last, hsplit, hreturns⟩ := splitOn_withReturns t
  rw [Document.lines_ofText, Document.lines_ofText, hsplit, hreturns]
  exact ⟨recolored_read s line, recolored_readLines .initial front last⟩

/-- A key at the end of a line. -/
theorem key_in_front_of_return :
    ¬ ∀ (line : Text) (s : State), (∀ c ∈ line, c ≠ '\r' ∧ c ≠ '\n') →
      ∀ offset, offset < size utf8 line →
        colorAt (classify (line ++ ['\r']) s).1 offset = colorAt (classify line s).1 offset := by
  intro h
  have hkey := h "key:".toList .initial (ne_line_end (by decide) (by decide)) 0 (by decide)
  revert hkey
  decide

end ConfigAssist
