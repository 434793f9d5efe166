import ConfigAssist.Proofs.Suggest.Pools
import ConfigAssist.Proofs.Suggest.Selection
import ConfigAssist.Proofs.Suggest.WellFormed
import ConfigAssist.Proofs.Text.Run

/-! What is typed is recognized by a grammar. An id comes first, then a tag, then a trigger of
a snippet, and every other word goes to the pools. Each rule is told by the text before the
cursor and the longest word at its end. -/

namespace ConfigAssist

open Text

/-- A character that does not end a word. -/
def InWord (c : Char) : Prop := isSpace c = false ∧ c ∉ "\"'[]\x7b\x7d,".toList

theorem inWord_iff {c : Char} : InWord c ↔ endsWord c = false := by
  simp [InWord, endsWord, and_assoc]

/-- The longest word at the end of a text. -/
structure IsLastWord (before w : Text) : Prop where
  suffix : w <:+ before
  unbroken : ∀ c ∈ w, InWord c
  longest : ∀ v, v <:+ before → (∀ c ∈ v, InWord c) → v <:+ w

theorem isLastWord_lastWord (before : Text) : IsLastWord before (lastWord before) where
  suffix := lastWord_suffix before
  unbroken _ hc := inWord_iff.mpr (endsWord_of_mem_lastWord hc)
  longest := by
    intro v hv hword
    have hrun : v.reverse.length ≤ (before.reverse.takeWhile (!endsWord ·)).length := by
      apply length_le_takeWhile (List.reverse_prefix.mpr hv)
      intro c hc
      rw [inWord_iff.mp (hword c (List.mem_reverse.mp hc))]
      rfl
    apply List.suffix_of_suffix_length_le hv (lastWord_suffix before)
    rw [List.length_reverse] at hrun
    rw [lastWord, List.length_reverse]
    exact hrun

theorem IsLastWord.unique {before w w' : Text} (h : IsLastWord before w) (h' : IsLastWord before w') :
    w = w' := by
  have hle := h'.longest w h.suffix h.unbroken
  have hge := h.longest w' h'.suffix h'.unbroken
  exact hle.eq_of_length (Nat.le_antisymm hle.length_le hge.length_le)

theorem isLastWord_append {front w : Text} (hw : ∀ c ∈ w, InWord c)
    (hfront : ∀ c ∈ front.getLast?, ¬ InWord c) : IsLastWord (front ++ w) w where
  suffix := List.suffix_append front w
  unbroken := hw
  longest := by
    intro v hv hword
    rcases List.suffix_or_suffix_of_suffix hv (List.suffix_append front w) with h | ⟨u, rfl⟩
    · exact h
    · rcases List.eq_nil_or_concat u with rfl | ⟨u, c, rfl⟩
      · exact List.suffix_rfl
      · obtain ⟨t, ht⟩ := hv
        have hlast : t ++ u ++ [c] = front := by
          have hsplit : (t ++ u ++ [c]) ++ w = front ++ w := by
            rw [← ht]
            simp
          exact List.append_cancel_right hsplit
        have hc : c ∈ front.getLast? := by
          rw [← hlast, List.getLast?_concat]
          rfl
        exact absurd (hword c (by simp)) (hfront c hc)

/-- The end of a text is the beginning of an id, and nothing before it goes on to it. -/
def EndsInId (before id : Text) : Prop :=
  ∃ front, before = front ++ id ∧ IsIdStart id ∧ ∀ c ∈ front.getLast?, continuesId c = false

/-- The last word is a sentinel, a colon and a name, and stands alone. -/
structure IsTrigger (sentinel before w name : Text) : Prop where
  word : w = sentinel ++ ':' :: name
  named : ∀ c ∈ name, IsNameChar c
  alone : ∀ front, before = front ++ w → ∀ c ∈ front.getLast?, isSpace c = true

theorem eq_beforeWord_iff {before front : Text} :
    before = front ++ lastWord before ↔ front = beforeWord before := by
  have hsplit := beforeWord_append_lastWord before
  constructor
  · intro h
    exact List.append_cancel_right (h.symm.trans hsplit.symm)
  · rintro rfl
    exact hsplit.symm

theorem triggerName?_eq_some_iff {sentinel before name : Text} :
    triggerName? sentinel before = some name ↔ IsTrigger sentinel before (lastWord before) name := by
  have hnamed : (name.all fun c => c.isAlphanum || c == '_' || c == '-') = true ↔
      ∀ c ∈ name, IsNameChar c := by
    simp [List.all_eq_true, or_assoc, IsNameChar]
  constructor
  · intro h
    have hword := triggerName?_eq_some h
    have hafter : after? (sentinel ++ [':']) (lastWord before) = some name := by
      rw [after?_eq_some_iff, hword, List.append_assoc, List.singleton_append]
    simp only [triggerName?, hafter] at h
    rw [Option.ite_none_right_eq_some, Bool.and_eq_true, hnamed, Option.all_eq_true] at h
    refine ⟨hword, h.1.2, ?_⟩
    intro front hfront c hc
    rw [eq_beforeWord_iff.mp hfront] at hc
    exact h.1.1 c hc
  · rintro ⟨hword, hchars, halone⟩
    have hafter : after? (sentinel ++ [':']) (lastWord before) = some name := by
      rw [after?_eq_some_iff, hword, List.append_assoc, List.singleton_append]
    simp only [triggerName?, hafter]
    rw [if_pos]
    rw [Bool.and_eq_true, hnamed, Option.all_eq_true]
    exact ⟨halone _ (beforeWord_append_lastWord before).symm, hchars⟩

namespace Typed

/-- The rules in the order in which they are tried. Each holds where none before it does. -/
inductive Spelled (sentinel before w : Text) : Typed → Prop
  | entity {id : Text} (hid : EndsInId before id) : Spelled sentinel before w (.entity id)
  | tag {name : Text} (hid : ∀ id, ¬ EndsInId before id) (hword : w = '!' :: name) :
      Spelled sentinel before w (.tag name)
  | snippet {name : Text} (hid : ∀ id, ¬ EndsInId before id) (htag : ¬ ['!'] <+: w)
      (htrigger : IsTrigger sentinel before w name) : Spelled sentinel before w (.snippet w name)
  | other (hid : ∀ id, ¬ EndsInId before id) (htag : ¬ ['!'] <+: w)
      (htrigger : ∀ name, ¬ IsTrigger sentinel before w name) : Spelled sentinel before w (.other w)

theorem spelled_ofText (sentinel before : Text) :
    Spelled sentinel before (lastWord before) (ofText sentinel before) := by
  unfold ofText
  split
  · rename_i id hid
    exact .entity (typedId?_eq_some_iff.mp hid)
  · rename_i hnone
    have hid : ∀ id, ¬ EndsInId before id := by
      intro id hid
      rw [typedId?_eq_some_iff.mpr hid] at hnone
      cases hnone
    split
    · rename_i name hword
      exact .tag hid hword
    · rename_i hword
      have htag : ¬ ['!'] <+: lastWord before := fun ⟨name, hname⟩ => hword name hname.symm
      split
      · rename_i name hname
        exact .snippet hid htag (triggerName?_eq_some_iff.mp hname)
      · rename_i hnone
        refine .other hid htag ?_
        intro name hname
        rw [triggerName?_eq_some_iff.mpr hname] at hnone
        cases hnone

/-- Only one rule holds, and for one text. -/
theorem Spelled.unique {sentinel before w : Text} {t t' : Typed} (h : Spelled sentinel before w t)
    (h' : Spelled sentinel before w t') : t = t' := by
  cases h with
  | entity hid =>
    cases h' with
    | entity hid' =>
      have hsome := typedId?_eq_some_iff.mpr hid
      rw [typedId?_eq_some_iff.mpr hid', Option.some.injEq] at hsome
      rw [hsome]
    | tag hnone | snippet hnone | other hnone => exact absurd hid (hnone _)
  | tag hnone hword =>
    have htag : ['!'] <+: w := ⟨_, hword.symm⟩
    cases h' with
    | entity hid => exact absurd hid (hnone _)
    | tag _ hword' => rw [List.cons.inj (hword.symm.trans hword') |>.2]
    | snippet _ hno | other _ hno => exact absurd htag hno
  | snippet hnone hno htrigger =>
    cases h' with
    | entity hid => exact absurd hid (hnone _)
    | tag _ hword => exact absurd ⟨_, hword.symm⟩ hno
    | snippet _ _ htrigger' =>
      have hname := List.append_cancel_left (htrigger.word.symm.trans htrigger'.word)
      rw [(List.cons.inj hname).2]
    | other _ _ hnot => exact absurd htrigger (hnot _)
  | other hnone hno hnot =>
    cases h' with
    | entity hid => exact absurd hid (hnone _)
    | tag _ hword => exact absurd ⟨_, hword.symm⟩ hno
    | snippet _ _ htrigger => exact absurd htrigger (hnot _)
    | other => rfl

theorem ofText_eq_iff {sentinel before : Text} {t : Typed} :
    ofText sentinel before = t ↔ Spelled sentinel before (lastWord before) t := by
  constructor
  · rintro rfl
    exact spelled_ofText sentinel before
  · exact (spelled_ofText sentinel before).unique

/-- All but an id take the place of the last word. -/
theorem Spelled.replaced_eq {sentinel before w : Text} {t : Typed} (h : Spelled sentinel before w t) :
    (∃ id, t = .entity id) ∨ t.replaced = w := by
  cases h with
  | entity => exact .inl ⟨_, rfl⟩
  | tag _ hword => exact .inr hword.symm
  | snippet => exact .inr rfl
  | other => exact .inr rfl

end Typed

namespace Offer

/-- The items that the rules give for what was typed. Entities, tags and words take the first
twenty candidates in an order of their keys, and snippets those of the table. -/
inductive Answers (schema : Schema) (lines : List Text) (row : Nat) (line before : Text)
    (known : List Entity) : Typed → List Suggestion → Prop
  | entity {id : Text} {chosen left : List Entity}
      (h : StableTop 20 Before Entity.id (known.filter fun e => id <+: e.id) chosen left) :
      Answers schema lines row line before known (.entity id) (chosen.map ofEntity)
  | tag {name : Text} {chosen left : List Suggestion}
      (h : StableTop 20 (Ranking.Precedes name) Ranking.tagKey
        (Ranking.fitting Ranking.tagKey name ((schema.pool .escapeTags).map Entry.suggestion))
        chosen left) :
      Answers schema lines row line before known (.tag name) chosen
  | snippet {w name : Text} : Answers schema lines row line before known (.snippet w name)
      (((schema.snippets.filter fun s => lower name <+: lower s.name).take 20).map
        (ofSnippet (line.takeWhile Yaml.isIndent)))
  | domains {w : Text} {chosen left : List Suggestion} (hstart : trim before = w)
      (hindent : Yaml.indentation line = 0)
      (h : StableTop 20 (Ranking.Precedes w) Suggestion.insert
        (Ranking.fitting Suggestion.insert w ((schema.pool .domains).map Entry.suggestion))
        chosen left) :
      Answers schema lines row line before known (.other w) chosen
  | pools {front w : Text} {ps : List Pool} {chosen left : List Suggestion}
      (hstart : ¬ (trim before = w ∧ Yaml.indentation line = 0)) (hfront : before = front ++ w)
      (hserves : Serves (Scope.ofLine lines row) front ps) (hother : ps ≠ [.domains])
      (h : StableTop 20 (Ranking.Precedes w) Suggestion.insert
        (Ranking.fitting Suggestion.insert w ((ps.flatMap schema.pool).map Entry.suggestion))
        chosen left) :
      Answers schema lines row line before known (.other w) chosen

theorem snippets_eq (schema : Schema) (indent name : Text) :
    snippets schema indent name =
      ((schema.snippets.filter fun s => lower name <+: lower s.name).take 20).map
        (ofSnippet indent) := by
  simp only [snippets, startsWith_eq_decide]
  rfl

theorem answers_other {schema : Schema} {lines : List Text} {row : Nat} {line : Text}
    (hline : lines[row]? = some line) (known : List Entity) (before : Text) :
    Answers schema lines row line before known (.other (lastWord before))
      (ranked schema (pools (Scope.ofLine lines row) before (lastWord before)) (lastWord before)) := by
  have hindent : (Scope.ofLine lines row).indent = Yaml.indentation line := by
    simp only [Scope.ofLine, hline]
    rfl
  by_cases hstart : trim before = lastWord before ∧ Yaml.indentation line = 0
  · have htop := Ranking.stableTop_best Suggestion.insert (lastWord before)
      ((schema.pool .domains).map Entry.suggestion)
    rw [pools_of_start (hindent ▸ hstart), ranked, List.flatMap_singleton]
    exact .domains hstart.1 hstart.2 htop
  · have hserves := serves_pools (hindent ▸ hstart)
    exact .pools hstart (beforeWord_append_lastWord before).symm hserves hserves.ne_domains
      (Ranking.stableTop_best Suggestion.insert _ _)

theorem answers_itemsFor {schema : Schema} {lines : List Text} {row : Nat} {line : Text}
    (hline : lines[row]? = some line) (known : List Entity) (sentinel before : Text) :
    Answers schema lines row line before known (Typed.ofText sentinel before)
      (itemsFor schema lines row line before known (Typed.ofText sentinel before)) := by
  generalize ht : Typed.ofText sentinel before = t
  cases Typed.ofText_eq_iff.mp ht with
  | entity =>
    simp only [itemsFor, entities, startsWith_eq_decide]
    exact .entity (Ranking.stableTop_sortBy Entity.id _ 20)
  | tag => exact .tag (Ranking.stableTop_best Ranking.tagKey _ _)
  | snippet =>
    rw [itemsFor, snippets_eq]
    exact .snippet
  | other => exact answers_other hline known before

end Offer

/-- The offer at a cursor takes for typed what the one rule that holds says, gives the items of
that rule, and replaces the text of it: an id, or else the last word. -/
theorem offer_by_grammar (schema : Schema) (known : List Entity) {lines : List Text}
    {cursor : Position} {line : Text} (hline : lines[cursor.line]? = some line) :
    let before := fit utf8 cursor.column line
    let typed := Typed.ofText schema.sentinel before
    ∃ w, IsLastWord before w ∧ (∀ t, typed = t ↔ Typed.Spelled schema.sentinel before w t) ∧
      ((∃ id, typed = .entity id) ∨ typed.replaced = w) ∧
      ∃ front items, before = front ++ typed.replaced ∧
        Offer.Answers schema lines cursor.line line before known typed items ∧
        offer schema lines cursor known = .place items
          { start := { line := cursor.line, column := size utf8 front }
            stop := { line := cursor.line, column := size utf8 before } } := by
  intro before typed
  have hspelled := Typed.spelled_ofText schema.sentinel before
  obtain ⟨front, hfront⟩ := Typed.replaced_suffix (Typed.recognized_ofText schema.sentinel before)
  refine ⟨lastWord before, isLastWord_lastWord before, fun t => Typed.ofText_eq_iff,
    hspelled.replaced_eq, front, _, hfront.symm,
    Offer.answers_itemsFor hline known schema.sentinel before, ?_⟩
  have hsize : size utf8 before = size utf8 front + size utf8 typed.replaced := by
    rw [← size_append, hfront]
  have hstart : size utf8 before - size utf8 typed.replaced = size utf8 front := by
    rw [hsize, Nat.add_sub_cancel]
  rw [offer_of_line hline, hstart]

/-- A word below a key for actions goes to two pools. What could be a trigger ends in an id, and of
two records with that id both are offered, in their order. -/
theorem offer_by_grammar_word_and_id :
    let pool (p : Pool) : List Entry :=
      match p with
      | .services => [{ text := "light.turn_on".toList, kind := .service }]
      | .actionKeys =>
        [{ text := "delay:".toList, kind := .key }, { text := "ON:".toList, kind := .key }]
      | _ => [{ text := "on:".toList, kind := p.kind }]
    let schema : Schema := { pool, snippets := [], sentinel := "snip".toList }
    let known : List Entity :=
      [{ id := "light.b".toList }, { id := "light.a".toList, icon := some "one".toList },
        { id := "fan.a".toList }, { id := "light.a".toList, icon := some "two".toList }]
    let key := "      - on".toList
    let line := "é snip:light.‰".toList
    let lines := ["automation:".toList, "  - action:".toList, key, line]
    let atKey : Position := { line := 2, column := 10 }
    let cursor : Position := { line := 3, column := 16 }
    let before := "é snip:light.".toList
    fit utf8 atKey.column key = key ∧ IsLastWord key "on".toList ∧
      Typed.Spelled schema.sentinel key "on".toList (.other "on".toList) ∧
      (offer schema lines atKey known).items.map Suggestion.insert =
        ["ON:".toList, "light.turn_on".toList] ∧
      (∃ chosen left,
        StableTop 20 (Ranking.Precedes "on".toList) Suggestion.insert
          (Ranking.fitting Suggestion.insert "on".toList
            ((pool .services ++ pool .actionKeys).map Entry.suggestion)) chosen left ∧
        offer schema lines atKey known = .place chosen
          { start := { line := 2, column := 8 }, stop := { line := 2, column := 10 } }) ∧
      fit utf8 cursor.column line = before ∧ IsLastWord before "snip:light.".toList ∧
      Typed.Spelled schema.sentinel before "snip:light.".toList (.entity "light.".toList) ∧
      (offer schema lines cursor known).items.map (fun item => (item.insert, item.icon)) =
        [("light.a".toList, some "one".toList), ("light.a".toList, some "two".toList),
          ("light.b".toList, none)] ∧
      ∃ chosen left,
        StableTop 20 Before Entity.id (known.filter fun e => "light.".toList <+: e.id) chosen left ∧
        offer schema lines cursor known = .place (chosen.map Offer.ofEntity)
          { start := { line := 3, column := 8 }, stop := { line := 3, column := 14 } } := by
  intro pool schema known key line lines atKey cursor before
  have hkeyLine : lines[atKey.line]? = some key := rfl
  have hline : lines[cursor.line]? = some line := rfl
  have hkey : fit utf8 atKey.column key = key := by decide
  have hbefore : fit utf8 cursor.column line = before := by decide
  have hkeyTyped : Typed.ofText schema.sentinel key = .other "on".toList := by decide
  have htyped : Typed.ofText schema.sentinel before = .entity "light.".toList := by decide
  have hkeyItems : (offer schema lines atKey known).items.map Suggestion.insert =
      ["ON:".toList, "light.turn_on".toList] := by
    decide +kernel
  have hitems : (offer schema lines cursor known).items.map (fun item => (item.insert, item.icon)) =
      [("light.a".toList, some "one".toList), ("light.a".toList, some "two".toList),
        ("light.b".toList, none)] := by
    have hfitting : (known.filter fun e => startsWith "light.".toList e.id) =
        [{ id := "light.b".toList }, { id := "light.a".toList, icon := some "one".toList },
          { id := "light.a".toList, icon := some "two".toList }] := by decide
    have hentities : (Offer.entities known "light.".toList).map (fun item => (item.insert, item.icon)) =
        [("light.a".toList, some "one".toList), ("light.a".toList, some "two".toList),
          ("light.b".toList, none)] := by
      rw [Offer.entities, hfitting]
      simp [Ranking.sortBy, List.mergeSort, List.MergeSort.Internal.splitInTwo, atMost,
        Suggestion.limit, Offer.ofEntity]
    rw [offer_of_line hline, hbefore, htyped, ← hentities, Offer.place, List.map_map]
    rfl
  obtain ⟨v, hv, hkeySpelled, -, lead, found, hlead, hfound, hkeyOffer⟩ :=
    offer_by_grammar schema known hkeyLine
  obtain ⟨w, hw, hspelled, -, front, items, hfront, hanswers, hoffer⟩ :=
    offer_by_grammar schema known hline
  rw [hkey] at hv hkeySpelled hlead hfound hkeyOffer
  rw [hbefore] at hw hspelled hfront hanswers hoffer
  rw [hkeyTyped] at hkeySpelled hlead hfound
  rw [htyped] at hspelled hfront hanswers
  obtain rfl : "on".toList = v := (isLastWord_lastWord key).unique hv
  obtain rfl : "snip:light.".toList = w := (isLastWord_lastWord before).unique hw
  obtain rfl : "      - ".toList = lead := by
    have hsplit : key = "      - ".toList ++ "on".toList := rfl
    exact List.append_cancel_right (hsplit.symm.trans hlead)
  obtain rfl : "é snip:".toList = front := by
    have hsplit : before = "é snip:".toList ++ "light.".toList := rfl
    exact List.append_cancel_right (hsplit.symm.trans hfront)
  refine ⟨hkey, hv, (hkeySpelled _).mp rfl, hkeyItems, ?_, hbefore, hw, (hspelled _).mp rfl, hitems, ?_⟩
  · cases hfound with
    | domains _ hindent => cases hindent
    | pools hstart hsplit hserves _ hchosen =>
      rw [eq_beforeWord_iff.mp hsplit] at hserves
      have hindent : ¬ (trim key = "on".toList ∧ (Scope.ofLine lines 2).indent = 0) := by decide
      have hpools : Offer.pools (Scope.ofLine lines 2) key "on".toList = [.services, .actionKeys] := by
        decide
      obtain rfl := hpools.symm.trans (hserves.pools_eq hindent)
      exact ⟨_, _, hchosen, hkeyOffer⟩
  · cases hanswers with
    | entity hchosen => exact ⟨_, _, hchosen, hoffer⟩

end ConfigAssist
