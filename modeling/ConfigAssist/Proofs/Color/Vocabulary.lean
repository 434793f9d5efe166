import ConfigAssist.Proofs.Color.Entry
import ConfigAssist.Proofs.Template.Token

/-! Keys and tags, and what they mean. A word is a key if a colon stands behind it that ends the
line or has a blank behind it, and a tag counts if it is one of the list. Nothing else is a key
or a tag, and markers belong to these two only. -/

namespace ConfigAssist

open Text

structure Reading.IsUnnamed (r : Reading) : Prop where
  not_key : r.category ≠ .key
  not_tag : r.category ≠ .tag
  unmarked : r.marker = none

theorem Reading.IsUnnamed.plain (further : Nat) : (Reading.plain further).IsUnnamed :=
  ⟨nofun, nofun, rfl⟩

namespace Template

theorem Delimiter.isUnnamed_readBody (d : Delimiter) (c : Char) (cs : Text) :
    (d.readBody c cs).IsUnnamed := by
  by_cases hd : d = comment
  · subst hd
    exact ⟨nofun, nofun, rfl⟩
  · rw [readBody_eq hd]
    cases (Token.read c cs).1 <;> exact ⟨nofun, nofun, rfl⟩

end Template

namespace Yaml

/-- A colon that makes a key of the word before it. -/
inductive EndsKey : Text → Prop
  | last : EndsKey [':']
  | blank {c : Char} (hc : c = ' ' ∨ c = '\t') (rest : Text) : EndsKey (':' :: c :: rest)

theorem isIndent_iff {c : Char} : isIndent c = true ↔ c = ' ' ∨ c = '\t' := by
  simp [isIndent]

theorem closesKey_iff {t : Text} : closesKey t = true ↔ EndsKey t := by
  constructor
  · intro h
    obtain ⟨rest, rfl⟩ := colon_of_closesKey h
    cases rest with
    | nil => exact .last
    | cons c rest => exact .blank (isIndent_iff.mp h) rest
  · rintro (_ | ⟨hc, rest⟩)
    · rfl
    · exact isIndent_iff.mpr hc

theorem not_mem_domainKeys_of_mem_controlKeys {name : Text} (h : name ∈ controlKeys) :
    name ∉ domainKeys := by
  have hdisjoint : ∀ name ∈ controlKeys, name ∉ domainKeys := by decide
  exact hdisjoint name h

theorem keyMarker_eq_some_iff {first : Bool} {name : Text} {m : Marker} :
    keyMarker first name = some m ↔
      m = .domain ∧ first = true ∧ name ∈ domainKeys ∨ m = .control ∧ name ∈ controlKeys := by
  unfold keyMarker
  split
  · rename_i hdomain
    rw [Bool.and_eq_true, List.contains_iff_mem] at hdomain
    have hcontrol : name ∉ controlKeys :=
      fun h => not_mem_domainKeys_of_mem_controlKeys h hdomain.2
    simp [hdomain, hcontrol, eq_comm]
  · rename_i hdomain
    rw [Bool.and_eq_true, List.contains_iff_mem] at hdomain
    split
    · rename_i hcontrol
      simp [hdomain, List.contains_iff_mem.mp hcontrol, eq_comm]
    · rename_i hcontrol
      rw [List.contains_iff_mem] at hcontrol
      simp [hdomain, hcontrol]

theorem lookup_eq_some_iff_mem {α β : Type} [BEq α] [LawfulBEq α] {entries : List (α × β)}
    (h : (entries.map Prod.fst).Nodup) {a : α} {b : β} :
    entries.lookup a = some b ↔ (a, b) ∈ entries := by
  rw [List.lookup_eq_some_iff]
  constructor
  · rintro ⟨before, after, rfl, -⟩
    exact List.mem_append_right before List.mem_cons_self
  · intro hmem
    obtain ⟨before, after, rfl⟩ := List.append_of_mem hmem
    refine ⟨before, after, rfl, fun entry hentry => ?_⟩
    rw [List.map_append, List.map_cons] at h
    have hne := (List.nodup_append.mp h).2.2 entry.1 (List.mem_map_of_mem hentry) a List.mem_cons_self
    exact bne_iff_ne.mpr hne.symm

theorem tagMarker_eq_some_iff {tag : Text} {m : Marker} :
    tagMarker tag = some m ↔ (tag, m) ∈ escapeTags :=
  lookup_eq_some_iff_mem (by decide)

end Yaml

open Yaml

inductive Told (p : Place) (s : State) (c : Char) (cs : Text) : Reading → Prop
  | word (hbare : s.IsBare) (hc : isWordStart c = true) : Told p s c cs (readWord p c cs)
  | tag (hbare : s.IsBare) (hc : c = '!') : Told p s c cs (readTag c cs)
  | unnamed {r : Reading} (hc : s.IsBare → isWordStart c = false ∧ c ≠ '!') (hr : r.IsUnnamed) :
      Told p s c cs r

theorem told_read (p : Place) (s : State) (c : Char) (cs : Text) :
    Told p s c cs (s.read p c cs).1 := by
  have hform := s.read_form p c cs
  generalize s.read p c cs = r at hform
  cases hform with
  | opening _ hopening =>
    obtain rfl := Template.Delimiter.eq_brace_of_opening? hopening
    exact .unnamed (fun _ => by decide) ⟨nofun, nofun, rfl⟩
  | closing htemplate =>
    refine .unnamed (fun hbare => ?_) ⟨nofun, nofun, rfl⟩
    exact absurd (htemplate.symm.trans hbare.template) nofun
  | @inside d htemplate =>
    refine .unnamed (fun hbare => ?_) (d.isUnnamed_readBody c cs)
    exact absurd (htemplate.symm.trans hbare.template) nofun
  | outside htemplate =>
    have hyaml := Yaml.read_form p s.scalars c cs
    generalize Yaml.read p s.scalars c cs = r at hyaml ⊢
    cases hyaml with
    | block hblock =>
      refine .unnamed (fun hbare => ?_) (.plain _)
      exact absurd hblock (by simp [hbare.block])
    | quoted _ hquote hquoted =>
      refine .unnamed (fun hbare => ?_) (by cases hquoted <;> exact .plain _)
      exact absurd (hquote.symm.trans hbare.quote) nofun
    | opened hblock hquote hopened =>
      have hbare : s.IsBare := ⟨htemplate, hblock, hquote⟩
      cases hopened with
      | word hc => exact .word hbare hc
      | tag hc => exact .tag hbare hc
      | indent hc =>
        rcases isIndent_iff.mp hc with rfl | rfl <;>
          exact .unnamed (fun _ => by decide) (.plain _)
      | comment hc =>
        subst hc
        exact .unnamed (fun _ => by decide) ⟨nofun, nofun, rfl⟩
      | hash hc =>
        subst hc
        exact .unnamed (fun _ => by decide) (.plain _)
      | anchor hc | mark hc | header hc =>
        rcases hc with rfl | rfl <;> exact .unnamed (fun _ => by decide) (.plain _)
      | other _ hword hc =>
        have htag : c ≠ '!' := fun heq => hc (by simp [heq])
        exact .unnamed (fun _ => ⟨hword, htag⟩) (.plain _)

theorem readWord_of_endsKey {p : Place} {c : Char} {cs : Text}
    (h : EndsKey (cs.dropWhile isWordChar)) :
    readWord p c cs =
        { further := (cs.takeWhile isWordChar).length + 1
          category := .key
          marker := keyMarker (p.offset == p.indent) (c :: cs.takeWhile isWordChar) } ∧
      cs.take ((cs.takeWhile isWordChar).length + 1) = cs.takeWhile isWordChar ++ [':'] := by
  have hcloses := closesKey_iff.mpr h
  obtain ⟨rest, hrest⟩ := colon_of_closesKey hcloses
  constructor
  · rw [readWord, if_pos hcloses]
  · rw [List.take_add, take_length_takeWhile, drop_length_takeWhile, hrest]
    rfl

theorem readWord_of_not_endsKey {p : Place} {c : Char} {cs : Text}
    (h : ¬ EndsKey (cs.dropWhile isWordChar)) :
    readWord p c cs = .plain (cs.takeWhile isWordChar).length := by
  rw [readWord, if_neg (fun hcloses => h (closesKey_iff.mp hcloses))]

/-- What a key or a tag means: a domain where it is the first thing on its line, a control key
everywhere, and a tag what the list says. -/
inductive Means (line : Text) (span : Span) (text : Text) : Marker → Prop
  | domain {name : Text} (hkey : span.category = .key) (htext : text = name ++ [':'])
      (hname : name ∈ domainKeys) (hfirst : span.start = indentation line) :
      Means line span text .domain
  | control {name : Text} (hkey : span.category = .key) (htext : text = name ++ [':'])
      (hname : name ∈ controlKeys) : Means line span text .control
  | escape {m : Marker} (htag : span.category = .tag) (hmem : (text, m) ∈ escapeTags) :
      Means line span text m

theorem not_means {line text : Text} {span : Span} (hkey : span.category ≠ .key)
    (htag : span.category ≠ .tag) (m : Marker) : ¬ Means line span text m := by
  intro h
  cases h with
  | domain h => exact hkey h
  | control h => exact hkey h
  | escape h => exact htag h

/-- What a span says about keys and tags, told by the text from its place on. -/
structure Named (line : Text) (entry : State) (span : Span) (c : Char) (cs text : Text) : Prop where
  word : entry.IsBare → isWordStart c = true →
    EndsKey (cs.dropWhile isWordChar) ∧ text = c :: (cs.takeWhile isWordChar ++ [':']) ∧
        span.category = .key ∨
      ¬ EndsKey (cs.dropWhile isWordChar) ∧ text = c :: cs.takeWhile isWordChar ∧
        span.category = .plain
  tag : entry.IsBare → c = '!' → text = c :: cs.takeWhile isTagChar ∧
    (text ∈ escapeTags.map Prod.fst ∧ span.category = .tag ∨
      text ∉ escapeTags.map Prod.fst ∧ span.category = .plain)
  only_key : span.category = .key → entry.IsBare ∧ isWordStart c = true
  only_tag : span.category = .tag → entry.IsBare ∧ c = '!'
  marked : ∀ m, span.marker = some m ↔ Means line span text m

section

variable {line before token rest : Text} {c : Char} {s : State} {r : Reading}
  (hfits : token.length = r.further) (stop : Nat)

theorem Reading.IsUnnamed.named {cs text : Text} {start : Nat} (hr : r.IsUnnamed)
    (hword : s.IsBare → isWordStart c = true → ¬ EndsKey (cs.dropWhile isWordChar) ∧
      text = c :: cs.takeWhile isWordChar ∧ r.category = .plain)
    (htag : s.IsBare → c = '!' → text = c :: cs.takeWhile isTagChar ∧
      text ∉ escapeTags.map Prod.fst ∧ r.category = .plain) :
    Named line s ⟨start, stop, r.category, r.marker⟩ c cs text where
  word hbare hc := .inr (hword hbare hc)
  tag hbare hc := ⟨(htag hbare hc).1, .inr (htag hbare hc).2⟩
  only_key h := absurd h hr.not_key
  only_tag h := absurd h hr.not_tag
  marked m := by
    rw [hr.unmarked]
    exact iff_of_false (Option.some_ne_none m).symm (not_means hr.not_key hr.not_tag m)

include hfits

theorem named_word (hbare : s.IsBare) (hc : isWordStart c = true)
    (hr : r = readWord (.behind line before) c (token ++ rest)) :
    Named line s ⟨size utf8 before, stop, r.category, r.marker⟩ c (token ++ rest) (c :: token) := by
  have htag : c ≠ '!' := by
    rintro rfl
    exact absurd hc (by decide)
  by_cases hends : EndsKey ((token ++ rest).dropWhile isWordChar)
  · obtain ⟨hread, htake⟩ := readWord_of_endsKey (p := .behind line before) (c := c) hends
    rw [hr.trans hread] at hfits ⊢
    have htext : c :: token = c :: (token ++ rest).takeWhile isWordChar ++ [':'] :=
      congrArg (c :: ·) ((List.take_left' hfits).symm.trans htake)
    refine ⟨fun _ _ => .inl ⟨hends, htext, rfl⟩, fun _ h => absurd h htag, fun _ => ⟨hbare, hc⟩,
      (by rintro ⟨⟩), fun m => ?_⟩
    dsimp only
    rw [keyMarker_eq_some_iff, beq_iff_eq]
    constructor
    · rintro (⟨rfl, hfirst, hname⟩ | ⟨rfl, hname⟩)
      · exact .domain rfl htext hname hfirst
      · exact .control rfl htext hname
    · rintro (⟨_, hname, hmem, hfirst⟩ | ⟨_, hname, hmem⟩ | ⟨htag, _⟩)
      · obtain rfl := List.append_cancel_right (htext.symm.trans hname)
        exact .inl ⟨rfl, hfirst, hmem⟩
      · obtain rfl := List.append_cancel_right (htext.symm.trans hname)
        exact .inr ⟨rfl, hmem⟩
      · cases htag
  · have hread := readWord_of_not_endsKey (p := .behind line before) (c := c) hends
    obtain rfl := hr.trans hread
    have htext : c :: token = c :: (token ++ rest).takeWhile isWordChar :=
      congrArg (c :: ·) ((List.take_left' hfits).symm.trans (take_length_takeWhile _ _))
    exact (Reading.IsUnnamed.plain _).named stop (fun _ _ => ⟨hends, htext, rfl⟩)
      (fun _ h => absurd h htag)

theorem named_tag (hbare : s.IsBare) (hc : c = '!') (hr : r = readTag c (token ++ rest)) :
    Named line s ⟨size utf8 before, stop, r.category, r.marker⟩ c (token ++ rest) (c :: token) := by
  have hword : isWordStart c ≠ true := by
    subst hc
    decide
  have hfits' : token.length = ((token ++ rest).takeWhile isTagChar).length := by rw [hfits, hr]; rfl
  have htoken : token = (token ++ rest).takeWhile isTagChar :=
    (List.take_left' hfits').symm.trans (take_length_takeWhile _ _)
  have htext := congrArg (c :: ·) htoken
  have hlisted : c :: token ∈ escapeTags.map Prod.fst ↔ ∃ m, tagMarker (c :: token) = some m := by
    simp [tagMarker_eq_some_iff]
  rw [readTag, ← htoken] at hr
  cases hmarker : tagMarker (c :: token) with
  | some m =>
    rw [hmarker] at hr
    subst hr
    refine ⟨fun _ h => absurd h hword, fun _ _ => ⟨htext, .inl ⟨hlisted.mpr ⟨m, hmarker⟩, rfl⟩⟩,
      (by rintro ⟨⟩), fun _ => ⟨hbare, hc⟩, fun m' => ?_⟩
    constructor
    · intro h
      exact .escape rfl (tagMarker_eq_some_iff.mp (hmarker.trans h))
    · rintro (⟨hkey, _⟩ | ⟨hkey, _⟩ | ⟨_, hmem⟩)
      · cases hkey
      · cases hkey
      · exact hmarker.symm.trans (tagMarker_eq_some_iff.mpr hmem)
  | none =>
    rw [hmarker] at hr
    subst hr
    have hnot : c :: token ∉ escapeTags.map Prod.fst := by simp [hlisted, hmarker]
    exact (Reading.IsUnnamed.plain _).named stop (fun _ h => absurd h hword)
      (fun _ _ => ⟨htext, hnot, rfl⟩)

end

theorem named_of_told {line before token rest : Text} {c : Char} {s : State} {r : Reading}
    (hfits : token.length = r.further) (stop : Nat)
    (h : Told (.behind line before) s c (token ++ rest) r) :
    Named line s ⟨size utf8 before, stop, r.category, r.marker⟩ c (token ++ rest) (c :: token) := by
  cases h with
  | word hbare hc => exact named_word hfits stop hbare hc rfl
  | tag hbare hc => exact named_tag hfits stop hbare hc rfl
  | unnamed hc hr =>
    exact hr.named stop
      (fun hbare hword => absurd ((hc hbare).1.symm.trans hword) Bool.false_ne_true)
      (fun hbare htag => absurd htag (hc hbare).2)

/-- A span in the open is a key or a tag as the text from its place on says, no other span is one,
and a span is marked as what it means. -/
theorem span_named_by_vocabulary {line : Text} {s : State} {x : State × Span}
    (hx : x ∈ entrySpans line s) :
    ∃ (before : Text) (c : Char) (cs text : Text), before ++ c :: cs = line ∧
      size utf8 before = x.2.start ∧ x.2.text? utf8 line = some text ∧
      Named line x.1 x.2 c cs text := by
  obtain ⟨entry, span⟩ := x
  cases readIn_of_mem hx with
  | @step before token rest c _ next reading hline hread hfits =>
    have htold := told_read (.behind line before) entry c (token ++ rest)
    rw [hread] at htold
    have hslice := slice?_append utf8_pos before (c :: token) rest
    rw [hline] at hslice
    exact ⟨before, c, token ++ rest, c :: token, hline, rfl, hslice, named_of_told hfits _ htold⟩

/-- Behind a template that an earlier line opened, and behind a character of two bytes. -/
theorem span_named_by_vocabulary_input :
    let line := "x \x7d\x7dü-platform:\t!input".toList
    let s : State := { template := some .value }
    let x : State × Span := (.initial, ⟨7, 16, .key, some .control⟩)
    let y : State × Span := (.initial, ⟨17, 23, .tag, some .input⟩)
    x ∈ entrySpans line s ∧ y ∈ entrySpans line s ∧
      (∃ text, x.2.text? utf8 line = some text ∧ Means line x.2 text .control) ∧
      ∃ text, y.2.text? utf8 line = some text ∧ Means line y.2 text .input := by
  intro line s x y
  have hx : x ∈ entrySpans line s := by decide
  have hy : y ∈ entrySpans line s := by decide
  obtain ⟨_, _, _, key, -, -, hkey, hnamed⟩ := span_named_by_vocabulary hx
  obtain ⟨_, _, _, tag, -, -, htag, hnamed'⟩ := span_named_by_vocabulary hy
  exact ⟨hx, hy, ⟨key, hkey, (hnamed.marked _).mp rfl⟩, tag, htag, (hnamed'.marked _).mp rfl⟩

end ConfigAssist
