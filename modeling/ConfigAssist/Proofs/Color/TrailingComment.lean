import ConfigAssist.Proofs.Color.BlockScalar
import ConfigAssist.Proofs.Color.Paint
import ConfigAssist.Proofs.Yaml.LineEnd

/-! A comment behind a line. The line is read as it is read alone: only its last token can go on into
the comment, and then it is a run of blanks, which takes the space, or a comment itself. -/

namespace ConfigAssist

open Text Yaml

theorem tail_comment (comment : Text) : Tail (' ' :: '#' :: comment) where
  head c hc := .inl (Option.some.inj hc).symm
  ends := by
    have hspace : isSpace ' ' = true := by decide
    have hsign : isSpace '#' = false := by decide
    simp [endsHeader, trimStart, hspace, hsign]

theorem takeWhile_comment {t : Text} (h : ∀ c ∈ t, c ≠ '\r' ∧ c ≠ '\n') :
    t.takeWhile (fun c => c != '\r' && c != '\n') = t := by
  rw [List.takeWhile_eq_self_iff]
  intro c hc
  simpa using h c hc

/-- The text with a comment behind it has the colours it has alone, then one for the space, and the
comment is a comment. -/
structure Commented (comment : Text) (alone longer : List Piece × State) : Prop where
  exit : longer.2 = alone.2
  colors : ∃ space : Color, paint longer.1 = paint alone.1 ++
    space :: List.replicate (size utf8 ('#' :: comment)) (.comment, none)

theorem Commented.cons {comment : Text} {alone longer : List Piece × State}
    (h : Commented comment alone longer) (piece : Piece) :
    Commented comment (piece :: alone.1, alone.2) (piece :: longer.1, longer.2) := by
  obtain ⟨hexit, space, hcolors⟩ := h
  exact ⟨hexit, space, by rw [paint_cons, hcolors, paint_cons, List.append_assoc]⟩

section

variable {comment token : Text} {p : Place} {s next : State} {c : Char}

/-- A comment at the end of the text goes on. -/
theorem commented_of_comment
    (hread : s.read p c (token ++ ' ' :: '#' :: comment) =
      ({ further := token.length + (' ' :: '#' :: comment).length, category := .comment }, next)) :
    Commented comment ([⟨s, c :: token, .comment, none⟩], next)
      (scan p s 0 (c :: (token ++ ' ' :: '#' :: comment))) := by
  rw [← List.append_nil (token ++ ' ' :: '#' :: comment)] at hread ⊢
  rw [scan_of_read hread (by rw [List.length_append])]
  refine ⟨rfl, (.comment, none), ?_⟩
  have hsize : size utf8 (' ' :: '#' :: comment) = size utf8 ('#' :: comment) + 1 := Nat.add_comm 1 _
  rw [paint_longer, hsize, List.replicate_succ]
  simp [scan]

variable (hcomment : ∀ c ∈ comment, c ≠ '\r' ∧ c ≠ '\n')

include hcomment

/-- Behind a blank a number sign opens a comment, to the end of the line. -/
theorem scan_comment (hbare : s.IsBare) (hprevious : p.previous = some ' ') :
    scan p s 0 ('#' :: comment) = ([⟨s, '#' :: comment, .comment, none⟩], s) := by
  have hread : s.read p '#' (comment ++ []) =
      ({ further := comment.length, category := .comment }, s) := by
    rw [List.append_nil, hbare.read_eq rfl]
    simp [readOpen, isIndent, isWordStart, hprevious, takeWhile_comment hcomment]
  have hscan := scan_of_read hread rfl
  rwa [List.append_nil] at hscan

theorem scan_space_comment (hbare : s.IsBare) :
    scan p s 0 (' ' :: '#' :: comment) =
      ([⟨s, [' '], .plain, none⟩, ⟨s, '#' :: comment, .comment, none⟩], s) := by
  have hread : s.read p ' ' ([] ++ '#' :: comment) = (.plain 0, s) := by
    rw [hbare.read_eq rfl]
    simp [readOpen, isIndent]
  have hscan := scan_of_read hread rfl
  rwa [scan_comment hcomment hbare rfl] at hscan

/-- A run of blanks at the end of the text takes the space. -/
theorem commented_of_blanks (hbare : next.IsBare)
    (hread : s.read p c (token ++ ' ' :: '#' :: comment) = (.plain (token.length + 1), next)) :
    Commented comment ([⟨s, c :: token, .plain, none⟩], next)
      (scan p s 0 (c :: (token ++ ' ' :: '#' :: comment))) := by
  rw [List.append_cons] at hread ⊢
  have hprevious : (p.advance (c :: token ++ [' '])).previous = some ' ' := by
    rw [Place.advance, List.getLast?_concat]
    rfl
  rw [scan_of_read hread (by rw [List.length_append]; rfl), ← List.cons_append,
    scan_comment hcomment hbare hprevious]
  refine ⟨rfl, (.plain, none), ?_⟩
  rw [List.cons_append, paint_longer]
  exact congrArg (_ ++ (Category.plain, none) :: ·) (List.append_nil _)

theorem commented_of_steps {exit : State} {t : Text} {ps : List Piece} (h : Steps p s t ps exit)
    (hdelimiter : ∀ piece ∈ ps, piece.category ≠ .delimiter) (hbare : exit.IsBare) :
    Commented comment (ps, exit) (scan p s 0 (t ++ ' ' :: '#' :: comment)) := by
  induction h with
  | done =>
    have hspace : size utf8 [' '] = 1 := rfl
    rw [List.nil_append, scan_space_comment hcomment hbare]
    refine ⟨rfl, (.plain, none), ?_⟩
    simp only [paint_cons, hspace]
    simp [Piece.color]
  | @step p s next exit c token rest reading ps hread hfits hrest ih =>
    have htemplate := (Steps.step hread hfits hrest).template_eq hdelimiter
    rw [hbare.template] at htemplate
    rw [List.forall_mem_cons] at hdelimiter
    obtain ⟨hopening, -⟩ := State.read_of_outside htemplate hread hdelimiter.1
    obtain ⟨longer, hread', hreaches⟩ :=
      State.read_append_tail (tail_comment comment) htemplate hopening hread
    generalize hscalars : next.scalars = scalars at hreaches
    -- a token that takes text of the tail in is the last one
    cases hreaches with
    | same =>
      rw [List.append_assoc] at hread'
      rw [List.cons_append, List.append_assoc, scan_of_read hread' hfits]
      exact (ih hdelimiter.2 hbare).cons _
    | blanks =>
      obtain ⟨rfl, rfl, rfl⟩ := hrest.eq_of_last hfits rfl
      rw [List.append_nil] at hread' ⊢
      exact commented_of_blanks hcomment hbare hread'
    | comment =>
      obtain ⟨rfl, rfl, rfl⟩ := hrest.eq_of_last hfits rfl
      have hrun : (' ' :: '#' :: comment).takeWhile (fun c => c != '\r' && c != '\n') =
          ' ' :: '#' :: comment :=
        takeWhile_comment (List.forall_mem_cons.mpr
          ⟨by decide, List.forall_mem_cons.mpr ⟨by decide, hcomment⟩⟩)
      rw [List.append_nil, hrun] at hread'
      rw [List.append_nil]
      exact commented_of_comment hread'
    | scalar hopen =>
      obtain ⟨rfl, rfl, rfl⟩ := hrest.eq_of_last hfits rfl
      simp [← hscalars, hbare.block, hbare.quote] at hopen
    | colon _ hcloses => cases hcloses

end

theorem isBlank_of_indents {t : Text} (h : ∀ c ∈ t, isIndent c = true) : isBlank t = true := by
  rw [isBlank_iff]
  intro c hc
  have hblank : c = ' ' ∨ c = '\t' := by simpa [isIndent] using h c hc
  rcases hblank with rfl | rfl <;> decide

/-- Only blanks to the end of a line let its indentation grow with it. -/
theorem indentation_append (line tail : Text) :
    indentation (line ++ tail) = indentation line ∨ ∀ c ∈ line, isIndent c = true := by
  rcases length_takeWhile_append isIndent line tail with hsame | ⟨hall, -⟩
  · exact .inl hsame
  · have hwhole := (List.takeWhile_prefix isIndent).eq_of_length hall
    exact .inr (List.takeWhile_eq_self_iff.mp hwhole)

theorem State.enter_append_comment {line comment : Text} {s : State}
    (hblock : (s.enter line).scalars.block = none) :
    s.enter (line ++ ' ' :: '#' :: comment) = s.enter line := by
  have hblank : isBlank (line ++ ' ' :: '#' :: comment) = false := by
    have hsign : isSpace '#' = false := by decide
    simp [isBlank, hsign]
  have hfilter : (s.scalars.announced <|> s.scalars.block).filter
      (Scalars.continues · (line ++ ' ' :: '#' :: comment)) = none := by
    rw [Option.filter_eq_none_iff]
    intro header hheader
    have hends := Option.filter_eq_none_iff.mp hblock header hheader
    rw [Scalars.continues, Bool.or_eq_true, not_or] at hends
    have hindent : indentation (line ++ ' ' :: '#' :: comment) = indentation line :=
      (indentation_append line _).resolve_right fun h => hends.1 (isBlank_of_indents h)
    rw [Scalars.continues, hblank, hindent, Bool.false_or]
    exact hends.2
  have hentered : (s.scalars.announced <|> s.scalars.block).filter (Scalars.continues · line) = none :=
    hblock
  simp only [enter, Scalars.enter, hfilter, hentered]

/-- Blanks are read the same whatever the indentation of their line. -/
theorem Steps.of_blanks {p : Place} {s exit : State} {t : Text} {ps : List Piece}
    (h : Steps p s t ps exit) (ht : ∀ c ∈ t, isIndent c = true) (hbare : s.IsBare) (p' : Place) :
    Steps p' s t ps exit := by
  induction h generalizing p' with
  | done => exact .done p' _
  | @step p s next exit c token rest reading ps hread hfits hrest ih =>
    rw [List.forall_mem_cons, List.forall_mem_append] at ht
    have hopening : Template.Delimiter.opening? (c :: (token ++ rest)) = none := by
      rw [Option.eq_none_iff_forall_ne_some]
      intro d hd
      obtain rfl := Template.Delimiter.eq_brace_of_opening? hd
      exact absurd ht.1 (by decide)
    have hblanks (p : Place) : s.read p c (token ++ rest) =
        (.plain ((token ++ rest).takeWhile isIndent).length, s) := by
      rw [hbare.read_eq hopening]
      simp only [readOpen, if_pos ht.1]
    have hread' := (hblanks p').trans ((hblanks p).symm.trans hread)
    obtain ⟨-, rfl⟩ := Prod.mk.inj ((hblanks p).symm.trans hread)
    exact .step hread' hfits (ih ht.2.2 hbare _)

/-- A comment behind a line changes nothing in front of it, if the line leaves nothing open and has
no template on it. -/
theorem comment_behind_line {line comment : Text} {s : State}
    (hcomment : ∀ c ∈ comment, c ≠ '\r' ∧ c ≠ '\n')
    (hdelimiter : ∀ span ∈ (classify line s).1, span.category ≠ .delimiter)
    (hbare : (classify line s).2.IsBare) :
    let longer := line ++ ' ' :: '#' :: comment
    (classify longer s).2 = (classify line s).2 ∧
      (∀ offset, offset < size utf8 line →
        colorAt (classify longer s).1 offset = colorAt (classify line s).1 offset) ∧
      ∀ offset, size utf8 line < offset → offset < size utf8 longer →
        colorAt (classify longer s).1 offset = some (.comment, none) := by
  intro longer
  have hblock := hbare.block
  rw [block_classify] at hblock
  have henter : s.enter longer = s.enter line := State.enter_append_comment hblock
  have hbody : ∀ piece ∈ (pieces line s).1, piece.category ≠ .delimiter := by
    intro piece hpiece
    have hmem : piece.category ∈ (pieces line s).1.map Piece.category := List.mem_map_of_mem hpiece
    rw [← map_category_spansFrom] at hmem
    obtain ⟨span, hspan, hcategory⟩ := List.mem_map.mp hmem
    exact hcategory ▸ hdelimiter span hspan
  have hsteps := steps_pieces line s
  have hentry : (s.enter line).IsBare :=
    ⟨(hsteps.template_eq hbody).trans hbare.template, hblock, rfl⟩
  have hsteps' : Steps (Place.start longer) (s.enter longer) line (pieces line s).1
      (pieces line s).2 := by
    rw [henter]
    rcases indentation_append line (' ' :: '#' :: comment) with hindent | hblanks
    · rw [Place.start, hindent]
      exact hsteps
    · exact hsteps.of_blanks hblanks hentry _
  obtain ⟨hexit, space, hcolors⟩ := commented_of_steps hcomment hsteps' hbody hbare
  change paint (pieces longer s).1 = paint (pieces line s).1 ++ _ at hcolors
  have hlength := length_paint_pieces line s
  refine ⟨hexit, fun offset hoffset => ?_, fun offset hbehind hoffset => ?_⟩
  · rw [colorAt_classify, colorAt_classify, hcolors,
      List.getElem?_append_left (by rw [hlength]; exact hoffset)]
  · obtain ⟨k, rfl⟩ : ∃ k, offset = size utf8 line + (k + 1) := ⟨offset - size utf8 line - 1, by omega⟩
    have hsize : size utf8 longer = size utf8 line + (1 + size utf8 ('#' :: comment)) :=
      size_append ..
    have hk : k < size utf8 ('#' :: comment) := by omega
    rw [colorAt_classify, hcolors, ← hlength, List.getElem?_append_right (Nat.le_add_right _ _),
      Nat.add_sub_cancel_left, List.getElem?_cons_succ, List.getElem?_replicate_of_lt hk]

/-- A line that ends with a header and a blank, in a state in which a block was announced, and a
comment with a key, a quote and an opener in it. -/
theorem comment_behind_line_header :
    let line := "é: > ".toList
    let comment := " a: '\x7b\x7b |".toList
    let s : State := { scalars := { announced := some 0, quote := some .double } }
    (∀ c ∈ comment, c ≠ '\r' ∧ c ≠ '\n') ∧
      (∀ span ∈ (classify line s).1, span.category ≠ .delimiter) ∧ (classify line s).2.IsBare ∧
      (classify (line ++ ' ' :: '#' :: comment) s).2 = { scalars := { announced := some 0 } } ∧
      colorAt (classify (line ++ ' ' :: '#' :: comment) s).1 7 = some (.comment, none) := by
  intro line comment s
  have hcomment : ∀ c ∈ comment, c ≠ '\r' ∧ c ≠ '\n' := ne_line_end (by decide) (by decide)
  have hdelimiter : ∀ span ∈ (classify line s).1, span.category ≠ .delimiter := by decide
  have hexit : (classify line s).2 = { scalars := { announced := some 0 } } := by decide
  have hbare : (classify line s).2.IsBare := by
    rw [hexit]
    exact ⟨rfl, rfl, rfl⟩
  obtain ⟨hsame, -, hbehind⟩ := comment_behind_line hcomment hdelimiter hbare
  exact ⟨hcomment, hdelimiter, hbare, hsame.trans hexit, hbehind 7 (by decide) (by decide)⟩

end ConfigAssist
