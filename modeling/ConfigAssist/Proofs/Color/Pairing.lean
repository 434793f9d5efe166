import ConfigAssist.Proofs.Color.Tiling
import ConfigAssist.Proofs.Template.Delimiter
import Mathlib.Data.List.Induction

/-! Template delimiters pair up. From the start of a document on, templates are opened
and closed in turn, over all line ends, and the state behind a line names the template
that is open there. -/

namespace ConfigAssist

open Template

/-- What a span of a line says, with the text that it covers. -/
structure Stretch where
  text : Text
  category : Category
  marker : Option Marker
deriving DecidableEq

namespace Stretch

def isDelimiter (x : Stretch) : Bool := x.category == .delimiter

def IsOutside (x : Stretch) : Prop := x.category ∈ [Category.comment, .key, .tag, .plain]

def IsInside (d : Delimiter) (x : Stretch) : Prop :=
  x.marker = none ∧
    if d = .comment then x.category = .comment
    else x.category ∈ [Category.keyword, .literal, .identifier, .operator, .plain]

theorem IsOutside.not_isDelimiter {x : Stretch} (h : x.IsOutside) : x.isDelimiter = false := by
  obtain ⟨text, category, marker⟩ := x
  cases category <;> simp_all [IsOutside, isDelimiter]

theorem IsInside.not_isDelimiter {d : Delimiter} {x : Stretch} (h : x.IsInside d) :
    x.isDelimiter = false := by
  obtain ⟨text, category, marker⟩ := x
  have hcategory := h.2
  split at hcategory <;> cases category <;> simp_all [isDelimiter]

end Stretch

def Span.stretch (line : Text) (span : Span) : Stretch where
  text := (span.text? Text.utf8 line).getD []
  category := span.category
  marker := span.marker

def Piece.stretch (p : Piece) : Stretch where
  text := p.text
  category := p.category
  marker := p.marker

/-- The spans of consecutive lines, the first one entered in a given state. -/
def stretchesFrom (s : State) (lines : List Text) : List Stretch :=
  (List.zipWith (fun line spans => spans.map (Span.stretch line)) lines (classifyFrom s lines)).flatten

def stretches (lines : List Text) : List Stretch := stretchesFrom .initial lines

theorem stretch_classify (line : Text) (s : State) :
    (classify line s).1.map (Span.stretch line) = (pieces line s).1.map Piece.stretch := by
  have h := map_spansFrom (fun text? category marker => Stretch.mk (text?.getD []) category marker)
    Text.utf8_pos [] (pieces line s).1
  rw [List.nil_append, flatten_pieces] at h
  exact h

/-- What a stretch does to the template that is open before it. -/
inductive Moves : Option Delimiter → Stretch → Option Delimiter → Prop
  | outside {x : Stretch} (hx : x.IsOutside) : Moves none x none
  | opens {d : Delimiter} {x : Stretch} (hx : x.isDelimiter = true) (hmarker : x.marker = none)
      (hopens : d.Opens x.text) : Moves none x (some d)
  | inside {d : Delimiter} {x : Stretch} (hx : x.IsInside d) : Moves (some d) x (some d)
  | closes {d : Delimiter} {x : Stretch} (hx : x.isDelimiter = true) (hmarker : x.marker = none)
      (hcloses : d.Closes x.text) : Moves (some d) x none

/-- Stretches one after the other, with the open template before and behind them. -/
inductive Paired : Option Delimiter → List Stretch → Option Delimiter → Prop
  | nil (o : Option Delimiter) : Paired o [] o
  | cons {o o' o'' : Option Delimiter} {x : Stretch} {xs : List Stretch} (hmove : Moves o x o')
      (hrest : Paired o' xs o'') : Paired o (x :: xs) o''

theorem Paired.append {o o' o'' : Option Delimiter} {xs ys : List Stretch} (h : Paired o xs o')
    (h' : Paired o' ys o'') : Paired o (xs ++ ys) o'' := by
  induction h with
  | nil => exact h'
  | cons hmove _ ih => exact .cons hmove (ih h')

theorem Paired.split {o o'' : Option Delimiter} {xs ys : List Stretch}
    (h : Paired o (xs ++ ys) o'') : ∃ o', Paired o xs o' ∧ Paired o' ys o'' := by
  induction xs generalizing o with
  | nil => exact ⟨o, .nil o, h⟩
  | cons x xs ih =>
    cases h with
    | cons hmove hrest =>
      obtain ⟨o', hxs, hys⟩ := ih hrest
      exact ⟨o', .cons hmove hxs, hys⟩

theorem Yaml.Opened.category_mem {p : Yaml.Place} {s : Yaml.Scalars} {c : Char} {cs : Text}
    {r : Reading × Yaml.Scalars} (h : Yaml.Opened p s c cs r) :
    r.1.category ∈ [Category.comment, .key, .tag, .plain] := by
  cases h with
  | word =>
    simp only [Yaml.readWord]
    split <;> simp [Reading.plain]
  | tag =>
    simp only [Yaml.readTag]
    split <;> simp
  | comment => simp
  | indent | hash | anchor | mark | header | other => simp [Reading.plain]

theorem Yaml.Read.category_mem {p : Yaml.Place} {s : Yaml.Scalars} {c : Char} {cs : Text}
    {r : Reading × Yaml.Scalars} (h : Yaml.Read p s c cs r) :
    r.1.category ∈ [Category.comment, .key, .tag, .plain] := by
  cases h with
  | block => simp [Reading.plain]
  | quoted _ _ hform => cases hform <;> simp [Reading.plain]
  | opened _ _ hform => exact hform.category_mem

theorem Template.Token.category_mem (t : Token) :
    t.category ∈ [Category.keyword, .literal, .identifier, .operator, .plain] := by
  cases t <;> decide

theorem isInside_readBody (d : Delimiter) (c : Char) (cs text : Text) :
    Stretch.IsInside d ⟨text, (d.readBody c cs).category, (d.readBody c cs).marker⟩ := by
  cases d with
  | comment => exact ⟨rfl, rfl⟩
  | value => exact ⟨rfl, (Token.read c cs).1.category_mem⟩
  | statement => exact ⟨rfl, (Token.read c cs).1.category_mem⟩

/-- A step opens or closes a template, or it stays on its side. -/
theorem moves_read {p : Yaml.Place} {s next : State} {c : Char} {token rest : Text}
    {reading : Reading} (hread : s.read p c (token ++ rest) = (reading, next))
    (hfits : token.length = reading.further) :
    Moves s.template ⟨c :: token, reading.category, reading.marker⟩ next.template := by
  have htake : (c :: (token ++ rest)).take (reading.further + 1) = c :: token := by
    rw [List.take_succ_cons, List.take_left' hfits]
  have hform := s.read_form p c (token ++ rest)
  rw [hread] at hform
  cases hform with
  | @opening d htemplate hopening =>
    have hlen := d.two_le_openerLength (c :: (token ++ rest))
    have hopens := Delimiter.opens_take_openerLength hopening
    rw [show d.openerLength (c :: (token ++ rest)) =
      d.openerLength (c :: (token ++ rest)) - 1 + 1 by omega, htake] at hopens
    rw [htemplate]
    exact .opens rfl rfl hopens
  | outside htemplate =>
    rw [htemplate]
    exact .outside (Yaml.read_form p s.scalars c (token ++ rest)).category_mem
  | @closing d n htemplate hcloser =>
    have hlen := Delimiter.two_le_of_closerLength? hcloser
    have hcloses := Delimiter.closes_take_of_closerLength? hcloser
    rw [show n = n - 1 + 1 by omega, htake] at hcloses
    rw [htemplate]
    exact .closes rfl rfl hcloses
  | @inside d htemplate =>
    rw [htemplate]
    exact .inside (isInside_readBody d c (token ++ rest) _)

theorem paired_of_steps {p : Yaml.Place} {s exit : State} {t : Text} {ps : List Piece}
    (h : Steps p s t ps exit) : Paired s.template (ps.map Piece.stretch) exit.template := by
  induction h with
  | done => exact .nil _
  | step hread hfits _ ih => exact .cons (moves_read hread hfits) ih

theorem paired_stretchesFrom (s : State) (lines : List Text) :
    Paired s.template (stretchesFrom s lines) (stateAfter s lines).template := by
  induction lines generalizing s with
  | nil => exact .nil _
  | cons line lines ih =>
    have hline := paired_of_steps (steps_pieces line s)
    rw [← stretch_classify] at hline
    exact hline.append (ih (classify line s).2)

def delimiters (xs : List Stretch) : List Stretch := xs.filter Stretch.isDelimiter

/-- The delimiters so far tell which template is open: none if their number is even, else
the one that the last of them opens. -/
def Tells (seen : List Stretch) : Option Delimiter → Prop
  | none => seen.length % 2 = 0
  | some d => seen.length % 2 = 1 ∧ ∃ y ∈ seen.getLast?, d.Opens y.text

theorem Moves.tells {o o' : Option Delimiter} {x : Stretch} (h : Moves o x o')
    {xs : List Stretch} (ho : Tells (delimiters xs) o) : Tells (delimiters (xs ++ [x])) o' := by
  unfold delimiters at ho ⊢
  rw [List.filter_append]
  cases h with
  | outside hx => simpa [hx.not_isDelimiter] using ho
  | inside hx => simpa [hx.not_isDelimiter] using ho
  | opens hx _ hopens =>
    simp only [Tells] at ho
    rw [List.filter_singleton, hx, cond_true]
    refine ⟨?_, x, by simp, hopens⟩
    rw [List.length_append, List.length_singleton]
    omega
  | closes hx _ _ =>
    have hodd := ho.1
    rw [List.filter_singleton, hx, cond_true]
    simp only [Tells, List.length_append, List.length_singleton]
    omega

theorem Paired.tells {o : Option Delimiter} {xs : List Stretch} (h : Paired none xs o) :
    Tells (delimiters xs) o := by
  induction xs using List.reverseRecOn generalizing o with
  | nil =>
    cases h
    rfl
  | append_singleton xs x ih =>
    obtain ⟨o', hxs, hx⟩ := h.split
    cases hx with
    | cons hmove hrest =>
      cases hrest
      exact hmove.tells (ih hxs)

theorem Paired.moves {o : Option Delimiter} {before after : List Stretch} {x : Stretch}
    (h : Paired none (before ++ x :: after) o) :
    ∃ o' o'', Tells (delimiters before) o' ∧ Moves o' x o'' := by
  obtain ⟨o', hbefore, hrest⟩ := h.split
  cases hrest with
  | cons hmove _ => exact ⟨o', _, hbefore.tells, hmove⟩

theorem split_of_getElem?_filter {α : Type} {p : α → Bool} {l : List α} {k : Nat} {x : α}
    (h : (l.filter p)[k]? = some x) :
    ∃ before after, l = before ++ x :: after ∧ before.filter p = (l.filter p).take k := by
  obtain ⟨hk, hx⟩ := List.getElem?_eq_some_iff.mp h
  have hsplit : l.filter p = (l.filter p).take k ++ x :: (l.filter p).drop (k + 1) := by
    rw [← hx, List.getElem_cons_drop, List.take_append_drop]
  obtain ⟨before, rest, hl, hbefore, hrest⟩ := List.filter_eq_append_iff.mp hsplit
  obtain ⟨between, after, hr, hbetween, _, _⟩ := List.filter_eq_cons_iff.mp hrest
  refine ⟨before ++ between, after, by rw [hl, hr, List.append_assoc], ?_⟩
  rw [List.filter_append, hbefore, List.filter_eq_nil_iff.mpr hbetween, List.append_nil]

theorem moves_of_stretches {lines : List Text} {before after : List Stretch} {x : Stretch}
    (h : stretches lines = before ++ x :: after) :
    ∃ o o', Tells (delimiters before) o ∧ Moves o x o' := by
  have hpaired := paired_stretchesFrom .initial lines
  rw [show stretchesFrom .initial lines = before ++ x :: after from h] at hpaired
  exact hpaired.moves

theorem delimiters_alternate {lines : List Text} {k : Nat} {x : Stretch}
    (hx : (delimiters (stretches lines))[k]? = some x) :
    (k % 2 = 0 → ∃ d : Delimiter, d.Opens x.text) ∧
      (k % 2 = 1 → ∃ (d : Delimiter) (y : Stretch),
        (delimiters (stretches lines))[k - 1]? = some y ∧ d.Opens y.text ∧ d.Closes x.text) := by
  obtain ⟨before, after, hsplit, hbefore⟩ := split_of_getElem?_filter hx
  change delimiters before = (delimiters (stretches lines)).take k at hbefore
  have hdelimiter : x.isDelimiter = true := (List.mem_filter.mp (List.mem_of_getElem? hx)).2
  have hlen : (delimiters before).length = k := by
    have hk := (List.getElem?_eq_some_iff.mp hx).1
    rw [hbefore, List.length_take]
    omega
  obtain ⟨o, o', htells, hmove⟩ := moves_of_stretches hsplit
  cases hmove with
  | outside hside => simp [hside.not_isDelimiter] at hdelimiter
  | inside hside => simp [hside.not_isDelimiter] at hdelimiter
  | opens _ _ hopens =>
    simp only [Tells, hlen] at htells
    exact ⟨fun _ => ⟨_, hopens⟩, fun hodd => by omega⟩
  | @closes d _ _ _ hcloses =>
    obtain ⟨hodd, y, hy, hopens⟩ := htells
    refine ⟨fun heven => by omega, fun _ => ⟨d, y, ?_, hopens, hcloses⟩⟩
    rw [List.getLast?_eq_getElem?, hlen, hbefore, List.getElem?_take_of_lt (by omega)] at hy
    exact hy

theorem stretch_of_delimiters {lines : List Text} {before after : List Stretch} {x : Stretch}
    (hsplit : stretches lines = before ++ x :: after) (hx : x.isDelimiter = false) :
    ((delimiters before).length % 2 = 0 → x.IsOutside) ∧
      ((delimiters before).length % 2 = 1 → ∃ (d : Delimiter) (y : Stretch),
        (delimiters before).getLast? = some y ∧ d.Opens y.text ∧ x.IsInside d) := by
  obtain ⟨o, o', htells, hmove⟩ := moves_of_stretches hsplit
  cases hmove with
  | outside hside =>
    simp only [Tells] at htells
    exact ⟨fun _ => hside, fun hodd => by omega⟩
  | inside hside =>
    obtain ⟨hodd, y, hy, hopens⟩ := htells
    exact ⟨fun heven => by omega, fun _ => ⟨_, y, hy, hopens, hside⟩⟩
  | opens hdelimiter => simp [hdelimiter] at hx
  | closes hdelimiter => simp [hdelimiter] at hx

theorem template_of_delimiters (lines : List Text) :
    ((stateAfter .initial lines).template = none ↔ (delimiters (stretches lines)).length % 2 = 0) ∧
      ∀ d, (stateAfter .initial lines).template = some d →
        ∃ y, (delimiters (stretches lines)).getLast? = some y ∧ d.Opens y.text := by
  have htells := (paired_stretchesFrom .initial lines).tells
  change Tells (delimiters (stretches lines)) _ at htells
  cases htemplate : (stateAfter .initial lines).template with
  | none =>
    rw [htemplate] at htells
    exact ⟨iff_of_true rfl htells, fun _ hd => nomatch hd⟩
  | some d =>
    rw [htemplate] at htells
    obtain ⟨hodd, y, hy, hopens⟩ := htells
    refine ⟨iff_of_false (Option.some_ne_none d) (by omega), fun d' hd => ?_⟩
    cases hd
    exact ⟨y, hy, hopens⟩

/-- The delimiters of a document are openers and closers in turn, and a closer is of the
kind of the opener before it. What stands between an opener and its closer belongs to
that kind of template, and the rest is outside. Behind every line the state tells the
open template. -/
theorem delimiters_pair (lines : List Text) :
    (∀ k x, (delimiters (stretches lines))[k]? = some x →
        (k % 2 = 0 → ∃ d : Delimiter, d.Opens x.text) ∧
        (k % 2 = 1 → ∃ (d : Delimiter) (y : Stretch),
          (delimiters (stretches lines))[k - 1]? = some y ∧ d.Opens y.text ∧ d.Closes x.text)) ∧
      (∀ before x after, stretches lines = before ++ x :: after → x.isDelimiter = false →
        let seen := delimiters before
        (seen.length % 2 = 0 → x.IsOutside) ∧
        (seen.length % 2 = 1 → ∃ (d : Delimiter) (y : Stretch),
          seen.getLast? = some y ∧ d.Opens y.text ∧ x.IsInside d)) ∧
      ∀ n, let seen := delimiters (stretches (lines.take n))
        let template := (stateAfter .initial (lines.take n)).template
        (template = none ↔ seen.length % 2 = 0) ∧
        ∀ d, template = some d → ∃ y, seen.getLast? = some y ∧ d.Opens y.text := by
  refine ⟨?_, ?_, ?_⟩
  · intro k x hx
    exact delimiters_alternate hx
  · intro before x after hsplit hx
    exact stretch_of_delimiters hsplit hx
  · intro n
    exact template_of_delimiters (lines.take n)

theorem delimiters_pair_across_lines :
    let lines := ["a: \x7b\x7b- x", "+\x7d\x7d \x7b# \x7b\x7b -#\x7d",
      "b: \x7b%+ if '%\x7d' -%\x7d"].map String.toList
    (delimiters (stretches lines)).map (fun x => String.ofList x.text) =
        ["\x7b\x7b-", "+\x7d\x7d", "\x7b#", "#\x7d", "\x7b%+", "-%\x7d"] ∧
      ∃ (d : Delimiter) (y : Stretch), (delimiters (stretches lines))[4]? = some y ∧
        d.Opens y.text ∧ d.Closes ['-', '%', '\x7d'] :=
  ⟨by decide, ((delimiters_pair _).1 5 ⟨['-', '%', '\x7d'], .delimiter, none⟩ (by decide)).2 rfl⟩

end ConfigAssist
