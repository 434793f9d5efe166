import ConfigAssist.Proofs.Color.BlockScalar
import ConfigAssist.Proofs.Color.Tiling
import ConfigAssist.Proofs.Session.Wire
import ConfigAssist.Proofs.Text.Column
import ConfigAssist.Session.Call

/-! Colouring over the wire. A host sends one line after the other, each with the state
out of the reply to the line before. No reply is an error, and line by line they hold
what colouring in memory finds, with UTF-16 units for bytes. -/

namespace ConfigAssist

open Json Text

/-- A span of a line with its columns changed to UTF-16 units. -/
def Span.inUnits (line : Text) (span : Span) : Span where
  start := unitColumn line span.start
  stop := unitColumn line span.stop
  category := span.category
  marker := span.marker

/-- Spans of a line in UTF-16 units, beside those in bytes. They tile the line, and each
has the text of the span that it stands for. -/
structure Wired (line : Text) (spans wire : List Span) : Prop where
  converted : wire = spans.map (Span.inUnits line)
  nonempty : ∀ span ∈ wire, span.start < span.stop
  first : ∀ span ∈ wire.head?, span.start = 0
  joined : wire.IsChain (fun a b => a.stop = b.start)
  last : (wire.getLast?.map Span.stop).getD 0 = size utf16 line
  selected : ∃ texts : List Text, spans.map (Span.text? utf8 line) = texts.map some ∧
    wire.map (Span.text? utf16 line) = texts.map some
  stored : ∀ span ∈ wire, span.stop < UInt32.size

theorem spansFrom_utf16 (before : Text) (ps : List Piece) :
    spansFrom utf16 (size utf16 before) ps =
      (spansFrom utf8 (size utf8 before) ps).map
        (Span.inUnits (before ++ (ps.map Piece.text).flatten)) := by
  induction ps generalizing before with
  | nil => rfl
  | cons p ps ih =>
    have hrest := ih (before ++ p.text)
    simp only [size_append, List.append_assoc] at hrest
    have hstart := unitColumn_append before (p.text ++ (ps.map Piece.text).flatten)
    have hstop := unitColumn_append (before ++ p.text) (ps.map Piece.text).flatten
    simp only [size_append, List.append_assoc] at hstop
    simp only [spansFrom, List.map_cons, List.flatten_cons, Span.inUnits, hstart, hstop, hrest]

theorem wired_spansFrom {ps : List Piece} (hne : ∀ piece ∈ ps, piece.text ≠ [])
    (hshort : size utf8 (ps.map Piece.text).flatten < UInt32.size) :
    Wired (ps.map Piece.text).flatten (spansFrom utf8 0 ps) (spansFrom utf16 0 ps) := by
  have hlast := last_spansFrom utf16 0 ps
  rw [Nat.zero_add] at hlast
  refine ⟨spansFrom_utf16 [] ps, fun span => start_lt_stop_of_mem_spansFrom utf16_pos hne,
    start_head_spansFrom utf16 0 ps, isChain_spansFrom utf16 0 ps, hlast,
    ⟨ps.map Piece.text, texts_spansFrom utf8_pos ps, texts_spansFrom utf16_pos ps⟩, ?_⟩
  intro span hspan
  obtain ⟨before, piece, after, hps, hstart, hstop, -⟩ := mem_spansFrom hspan
  have hunits := size_utf16_le (ps.map Piece.text).flatten
  have hsize : size utf16 (ps.map Piece.text).flatten =
      size utf16 (before.map Piece.text).flatten + size utf16 piece.text +
        size utf16 (after.map Piece.text).flatten := by
    simp [hps, Nat.add_assoc]
  omega

theorem wired_classifyUnits {line : Text} (hshort : size utf8 line < UInt32.size) (s : State) :
    Wired line (classify line s).1 (classifyUnits line s).1 := by
  have hwired := wired_spansFrom (text_ne_nil_of_steps (steps_pieces line s))
  rw [flatten_pieces] at hwired
  exact hwired hshort

theorem indentation_le_size (line : Text) : Yaml.indentation line ≤ size utf8 line :=
  Nat.le_trans (length_takeWhile_le _ line) (length_le_size utf8_pos line)

/-- A line that is not too long leaves no number behind that is too large. -/
theorem State.Bounded.classify {line : Text} {s : State} (hs : s.Bounded)
    (hshort : size utf8 line < UInt32.size) : (ConfigAssist.classify line s).2.Bounded := by
  constructor
  · intro n hn
    have hindent := announced_classify (Option.mem_def.mp hn)
    have hle := indentation_le_size line
    rw [hindent, bound32]
    omega
  · intro n hn
    rw [block_classify] at hn
    have hopen : n ∈ (s.scalars.announced <|> s.scalars.block) := (Option.mem_filter_iff.mp hn).1
    cases hannounced : s.scalars.announced with
    | none =>
      rw [hannounced] at hopen
      exact hs.block n hopen
    | some m =>
      rw [hannounced] at hopen
      exact hs.announced n (hannounced ▸ hopen)

namespace Session

/-- The state in a reply, as it is sent back. -/
def stateText? (reply : Text) : Option Text :=
  (Value.parse? reply >>= Value.field? "state").map Value.render

/-- Replies to lines that are sent one after the other, each with the state out of the
reply to the line before it. -/
def converse? (s : Session) (state : Text) : List Text → Option (List Text)
  | [] => some []
  | line :: rest =>
    match s.call (.classify line state) with
    | (.ok reply, next) => do
      return reply.toText :: (← next.converse? (← stateText? reply.toText) rest)
    | (.error _, _) => none

theorem stateText?_coloring (spans : List Span) (exit : State) :
    stateText? (Reply.coloring spans exit).toText = some exit.toText := by
  have hparse := Value.parse?_render (Reply.exact_coloring spans exit)
  simp only [stateText?, Reply.toText, hparse]
  rfl

/-- The reply to a line, with what a host reads in it: the spans in UTF-16 units with their
categories and markers, and the state after the line. -/
structure IsReply (line : Text) (spans : List Span) (exit : State) (reply : Text) : Prop where
  wire : ∃ wire, Wired line spans wire ∧ reply = (Reply.coloring wire exit).toText ∧
    Wire.spans? reply = some wire
  state : stateText? reply = some exit.toText
  resumed : stateText? reply >>= State.ofText? = some exit

theorem isReply_classifyUnits {line : Text} {s : State} (hshort : size utf8 line < UInt32.size)
    (hs : s.Bounded) :
    IsReply line (classify line s).1 (classify line s).2
      (Reply.coloring (classifyUnits line s).1 (classifyUnits line s).2).toText where
  wire := ⟨_, wired_classifyUnits hshort s, rfl, Wire.spans?_coloring _ _⟩
  state := stateText?_coloring _ _
  resumed := by
    rw [stateText?_coloring]
    exact State.ofText?_toText (hs.classify hshort)

theorem converse?_eq_some (s : Session) {state : Text} {entry : State} {lines : List Text}
    (hstate : State.ofText? state = some entry) (hentry : entry.Bounded)
    (hshort : ∀ line ∈ lines, size utf8 line < UInt32.size) :
    ∃ replies, s.converse? state lines = some replies ∧ replies.length = lines.length ∧
      ∀ (i : Nat) (line : Text), lines[i]? = some line → ∃ spans reply,
        (classifyFrom entry lines)[i]? = some spans ∧ replies[i]? = some reply ∧
        IsReply line spans (stateAfter entry (lines.take (i + 1))) reply := by
  -- what is sent with the next line is the state out of this reply
  induction lines generalizing state entry with
  | nil => exact ⟨[], rfl, rfl, by simp⟩
  | cons line rest ih =>
    have hline := hshort line List.mem_cons_self
    have hexit := hentry.classify hline
    obtain ⟨replies, hreplies, hlength, hrest⟩ := ih (State.ofText?_toText hexit) hexit
      (fun l hl => hshort l (List.mem_cons_of_mem line hl))
    have hcall : s.call (.classify line state) =
        (.ok (.coloring (classifyUnits line entry).1 (classifyUnits line entry).2), s) := by
      simp only [call, perform, hstate]
    refine ⟨
      (Reply.coloring (classifyUnits line entry).1 (classifyUnits line entry).2).toText :: replies,
      ?_, congrArg (· + 1) hlength, ?_⟩
    · have hnext := stateText?_coloring (classifyUnits line entry).1 (classifyUnits line entry).2
      simp only [converse?, hcall, hnext]
      change (s.converse? (classify line entry).2.toText rest >>= _) = _
      rw [hreplies]
      rfl
    · intro i l hl
      cases i with
      | zero =>
        obtain rfl : line = l := Option.some.inj hl
        exact ⟨_, _, rfl, rfl, isReply_classifyUnits hline hentry⟩
      | succ i => exact hrest i l hl

/-- A conversation about lines is colouring them in memory. A state that is written is
read as it was; so a host that begins with a blank state gets a reply to every line,
with the state and the spans of that line, in UTF-16 units. -/
theorem converse_eq_classifyLines :
    (∀ state : State, state.Bounded → State.ofText? state.toText = some state) ∧
      ∀ (s : Session) (start : Text) (lines : List Text), isBlank start = true →
        (∀ line ∈ lines, size utf8 line < UInt32.size) →
        ∃ replies, s.converse? start lines = some replies ∧ replies.length = lines.length ∧
          ∀ (i : Nat) (line : Text), lines[i]? = some line → ∃ spans reply,
            (classifyLines lines)[i]? = some spans ∧ replies[i]? = some reply ∧
            IsReply line spans (stateAfter .initial (lines.take (i + 1))) reply := by
  refine ⟨fun state => State.ofText?_toText, ?_⟩
  intro s start lines hstart hshort
  have hstate : State.ofText? start = some .initial := by simp [State.ofText?, hstart]
  have hbounded : State.Bounded .initial := by
    constructor <;> intro n hn <;> cases hn
  exact converse?_eq_some s hstate hbounded hshort

/-- A template stays open over the line break, and a character before it takes two units. -/
theorem converse_eq_classifyLines_open :
    let lines := ["zone: \"😀\x7b\x7b 'é' ~".toList, "x \x7d\x7d\"".toList]
    let start := "\u00a0\n".toList
    let held : State :=
      { scalars := { block := some bound32, quote := some .double }, template := some .comment }
    isBlank start = true ∧ (∀ line ∈ lines, size utf8 line < UInt32.size) ∧
      State.ofText? held.toText = some held ∧
      (stateAfter .initial (lines.take 1)).template = some .value ∧
      ∃ replies spans reply, initial.converse? start lines = some replies ∧ replies.length = 2 ∧
        (classifyLines lines)[0]? = some spans ∧ replies[0]? = some reply ∧
        IsReply lines[0] spans (stateAfter .initial (lines.take 1)) reply ∧
        spans.map (fun span => (span.start, span.stop)) =
          [(0, 5), (5, 6), (6, 7), (7, 11), (11, 13), (13, 14), (14, 18), (18, 19), (19, 20)] ∧
        Wire.spans? reply = some
          [⟨0, 5, .key, some .domain⟩, ⟨5, 6, .plain, none⟩, ⟨6, 7, .plain, none⟩,
            ⟨7, 9, .plain, none⟩, ⟨9, 11, .delimiter, none⟩, ⟨11, 12, .plain, none⟩,
            ⟨12, 15, .literal, none⟩, ⟨15, 16, .plain, none⟩, ⟨16, 17, .operator, none⟩] := by
  intro lines start held
  have hstart : isBlank start = true := by decide
  have hshort : ∀ line ∈ lines, size utf8 line < UInt32.size := by decide
  have hheld : held.Bounded := by
    constructor
    · intro n hn
      cases hn
    · intro n hn
      exact Nat.le_of_eq (Option.some.inj hn).symm
  obtain ⟨hread, hconverse⟩ := converse_eq_classifyLines
  obtain ⟨replies, hreplies, hlength, hlines⟩ := hconverse initial start lines hstart hshort
  obtain ⟨spans, reply, hspans, hreply, his⟩ := hlines 0 lines[0] rfl
  obtain ⟨wire, hwired, -, hwire⟩ := his.wire
  have hcolored : spans = (classify lines[0] .initial).1 := (Option.some.inj hspans).symm
  refine ⟨hstart, hshort, hread held hheld, by decide, replies, spans, reply, hreplies, hlength, hspans,
    hreply, his, ?_, ?_⟩
  · rw [hcolored]
    decide
  · rw [hwire, hwired.converted, hcolored]
    decide

end Session

end ConfigAssist
