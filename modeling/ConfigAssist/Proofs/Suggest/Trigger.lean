import ConfigAssist.Proofs.Suggest.Block
import ConfigAssist.Proofs.Suggest.Recognition
import ConfigAssist.Proofs.Suggest.Table

/-! Triggers of snippets behind an indentation. None of them can be taken for an id or a
tag, so the snippets that they name are offered, and each is inserted as a block. -/

namespace ConfigAssist

open Text

theorem inWord_of_isNameChar {c : Char} (h : IsNameChar c) : InWord c :=
  inWord_iff.mpr (endsWord_of_isNameChar h)

theorem isSpace_of_isIndent {c : Char} (h : c = ' ' ∨ c = '\t') : isSpace c = true := by
  rcases h with rfl | rfl
  · rfl
  · rfl

section

variable {sentinel blanks name : Text} (hsentinel : Table.isIdentifier sentinel = true)
  (hblanks : ∀ c ∈ blanks, c = ' ' ∨ c = '\t') (hname : ∀ c ∈ name, IsNameChar c)

include hsentinel hname in
theorem inWord_of_mem_trigger {c : Char} (hc : c ∈ sentinel ++ ':' :: name) : InWord c := by
  rcases List.mem_append.mp hc with hc | hc
  · exact inWord_of_isNameChar ((Table.isNameChar_of_isIdentifier hsentinel).2 c hc)
  · rcases List.mem_cons.mp hc with rfl | hc
    · exact inWord_iff.mpr rfl
    · exact inWord_of_isNameChar (hname c hc)

include hsentinel hblanks hname in
theorem lastWord_trigger : lastWord (blanks ++ (sentinel ++ ':' :: name)) = sentinel ++ ':' :: name := by
  have hword : IsLastWord (blanks ++ (sentinel ++ ':' :: name)) (sentinel ++ ':' :: name) := by
    refine isLastWord_append (fun c hc => inWord_of_mem_trigger hsentinel hname hc) ?_
    intro c hc hinWord
    have hspace := isSpace_of_isIndent (hblanks c (List.mem_of_getLast? hc))
    cases hinWord.1.symm.trans hspace
  exact (isLastWord_lastWord _).unique hword

include hsentinel hblanks hname in
theorem not_endsInId_trigger (id : Text) : ¬ EndsInId (blanks ++ (sentinel ++ ':' :: name)) id := by
  -- an id has a point in it, and no part of a trigger does
  have hpoint : ¬ IsNameChar '.' := by decide
  rintro ⟨front, hbefore, ⟨domain, object, rfl, -⟩, -⟩
  have hmem : '.' ∈ blanks ++ (sentinel ++ ':' :: name) := by
    rw [hbefore]
    simp
  simp only [List.mem_append, List.mem_cons] at hmem
  rcases hmem with hmem | hmem | hcolon | hmem
  · exact absurd (hblanks _ hmem) (by decide)
  · exact hpoint ((Table.isNameChar_of_isIdentifier hsentinel).2 _ hmem)
  · exact absurd hcolon (by decide)
  · exact hpoint (hname _ hmem)

include hsentinel in
theorem exists_cons_trigger (name : Text) :
    ∃ c rest, sentinel ++ ':' :: name = c :: rest ∧ IsNameChar c := by
  obtain ⟨hne, hchars⟩ := Table.isNameChar_of_isIdentifier hsentinel
  obtain ⟨c, cs, rfl⟩ := List.exists_cons_of_ne_nil hne
  exact ⟨c, cs ++ ':' :: name, rfl, hchars c List.mem_cons_self⟩

include hsentinel hblanks hname in
theorem ofText_trigger : Typed.ofText sentinel (blanks ++ (sentinel ++ ':' :: name)) =
    .snippet (sentinel ++ ':' :: name) name := by
  rw [Typed.ofText_eq_iff, lastWord_trigger hsentinel hblanks hname]
  refine .snippet (not_endsInId_trigger hsentinel hblanks hname) ?_ ⟨rfl, hname, ?_⟩
  · obtain ⟨c, rest, hcons, hc⟩ := exists_cons_trigger hsentinel name
    rw [hcons, List.cons_prefix_cons]
    rintro ⟨rfl, -⟩
    exact absurd hc (by decide)
  · intro front hfront c hc
    rw [← List.append_cancel_right hfront] at hc
    exact isSpace_of_isIndent (hblanks c (List.mem_of_getLast? hc))

include hsentinel hblanks in
theorem takeWhile_isIndent_trigger (after : Text) :
    (blanks ++ (sentinel ++ ':' :: name) ++ after).takeWhile Yaml.isIndent = blanks := by
  obtain ⟨c, rest, hcons, hc⟩ := exists_cons_trigger hsentinel name
  have hindent : ∀ d ∈ blanks, Yaml.isIndent d = true := by
    intro d hd
    simpa [Yaml.isIndent] using hblanks d hd
  have hstop : ¬ Yaml.isIndent c = true := by
    intro h
    have hspace := isSpace_of_isIndent (by simpa [Yaml.isIndent] using h)
    cases (inWord_of_isNameChar hc).1.symm.trans hspace
  rw [hcons, List.append_assoc, List.takeWhile_append_of_pos hindent, List.cons_append,
    List.takeWhile_cons_of_neg hstop, List.append_nil]

end

theorem offer_of_trigger {schema : Schema} (hsentinel : Table.isIdentifier schema.sentinel = true)
    (known : List Entity) {lines : List Text} {cursor : Position} {line blanks name : Text}
    (hline : lines[cursor.line]? = some line) (hblanks : ∀ c ∈ blanks, c = ' ' ∨ c = '\t')
    (hname : ∀ c ∈ name, IsNameChar c)
    (hbefore : fit utf8 cursor.column line = blanks ++ (schema.sentinel ++ ':' :: name)) :
    offer schema lines cursor known = .place
      (((schema.snippets.filter fun s => lower name <+: lower s.name).take 20).map
        (Offer.ofSnippet blanks))
      { start := { line := cursor.line, column := size utf8 blanks }
        stop := { line := cursor.line
                  column := size utf8 blanks + size utf8 (schema.sentinel ++ ':' :: name) } } := by
  obtain ⟨after, hafter⟩ := fit_prefix utf8 cursor.column line
  have hindent : line.takeWhile Yaml.isIndent = blanks := by
    rw [← hafter, hbefore]
    exact takeWhile_isIndent_trigger hsentinel hblanks after
  rw [offer_of_line hline, hbefore, ofText_trigger hsentinel hblanks hname, Offer.itemsFor, hindent,
    Offer.snippets_eq, Typed.replaced, size_append, Nat.add_sub_cancel]

/-- An item that puts the body of a snippet in the place of what a line has between an indentation
and a rest. The line becomes the body moved in by the indentation, and the rest is behind it. -/
structure InsertsBlock (line indent after : Text) (replace : Range) (s : Snippet)
    (item : Suggestion) : Prop where
  shown : item.kind = .snippet ∧ item.display = s.label ∧ item.detail = some s.name ∧
    item.description = s.description ∧ item.icon = none
  range : item.range = replace
  inserted : ∃ accepted front last,
    splice? utf8 replace.start.column replace.stop.column item.insert line = some accepted ∧
      Snippet.Shifted indent (splitOn '\n' s.body) (front ++ [last]) ∧
      accepted = ['\n'].intercalate (front ++ [last ++ after]) ∧
      ('\n' ∉ after → splitOn '\n' accepted = front ++ [last ++ after] ∧
        (splitOn '\n' accepted).length = (splitOn '\n' s.body).length)

theorem insertsBlock_place {indent replaced after : Text} (hindent : '\n' ∉ indent) (row : Nat)
    (s : Snippet) :
    let replace : Range :=
      { start := { line := row, column := size utf8 indent }
        stop := { line := row, column := size utf8 indent + size utf8 replaced } }
    InsertsBlock (indent ++ (replaced ++ after)) indent after replace s
      { Offer.ofSnippet indent s with range := replace } := by
  intro replace
  obtain ⟨front, last, hshifted, hinserted⟩ := Snippet.exists_shifted_expand s indent after
  refine ⟨⟨rfl, rfl, rfl, rfl, rfl⟩, rfl, _, front, last,
    splice?_append utf8_pos indent replaced (s.expand indent) after, hshifted, hinserted, ?_⟩
  intro hafter
  have hpieces : ∀ piece ∈ front ++ [last], '\n' ∉ piece :=
    hshifted.not_mem hindent fun piece => not_mem_of_mem_splitOn
  rw [List.forall_mem_append, List.forall_mem_singleton] at hpieces
  have hsplit : splitOn '\n' (['\n'].intercalate (front ++ [last ++ after])) =
      front ++ [last ++ after] := by
    apply splitOn_intercalate (by simp)
    rw [List.forall_mem_append, List.forall_mem_singleton]
    exact ⟨hpieces.1, List.not_mem_append hpieces.2 hafter⟩
  rw [hinserted, hsplit, hshifted.length_eq, List.length_append, List.length_append]
  exact ⟨rfl, rfl⟩

/-- Where a trigger is typed behind an indentation, the first snippets of the table whose name
begins with the name in it, ignoring case, are offered. Each of them is inserted as a block. -/
theorem offer_inserts_block {file : Text} {schema : Schema} (hschema : Schema.ofFile file = .ok schema)
    (known : List Entity) {lines : List Text} {cursor : Position} {line blanks name : Text}
    (hline : lines[cursor.line]? = some line) (hblanks : ∀ c ∈ blanks, c = ' ' ∨ c = '\t')
    (hname : ∀ c ∈ name, IsNameChar c)
    (hbefore : fit utf8 cursor.column line = blanks ++ (schema.sentinel ++ ':' :: name)) :
    let o := offer schema lines cursor known
    ∃ after, line = blanks ++ (schema.sentinel ++ ':' :: name) ++ after ∧
      o.replace.start = { line := cursor.line, column := size utf8 blanks } ∧
      o.replace.stop =
        { line := cursor.line, column := size utf8 (blanks ++ (schema.sentinel ++ ':' :: name)) } ∧
      List.Forall₂ (InsertsBlock line blanks after o.replace)
        ((schema.snippets.filter fun s => lower name <+: lower s.name).take 20) o.items := by
  intro o
  obtain ⟨after, hafter⟩ := fit_prefix utf8 cursor.column line
  rw [hbefore] at hafter
  have ho : o = _ :=
    offer_of_trigger (Schema.accepted_of_ofFile hschema).1 known hline hblanks hname hbefore
  have hindent : '\n' ∉ blanks := fun hmem => absurd (hblanks _ hmem) (by decide)
  refine ⟨after, hafter.symm, by rw [ho]; rfl, ?_, ?_⟩
  · rw [ho, size_append utf8 blanks]
    rfl
  · rw [ho, Offer.place, List.map_map, ← hafter, List.append_assoc]
    exact List.forall₂_map_right_iff.mpr
      (List.forall₂_same.mpr fun s _ => insertsBlock_place hindent cursor.line s)

/-- The name is typed in other case, and the cursor does not stand at the end of the line. -/
theorem offer_inserts_block_blank :
    let file := ("snippet_sentinel=\"tpl\"\n" ++
      "snippets=[[\"Auto\",\"\",\"- id:\\n\\n  x: 1\",\"\"],[\"b\",\"\",\"c\",\"\"]]").toList
    let auto : Snippet :=
      { name := "Auto".toList, label := "Auto".toList, body := "- id:\n\n  x: 1".toList
        description := some [] }
    let line := "\t tpl:AU é".toList
    let cursor : Position := { line := 1, column := 8 }
    ∃ schema, Schema.ofFile file = .ok schema ∧ ["a:".toList, line][cursor.line]? = some line ∧
      (∀ c ∈ "\t ".toList, c = ' ' ∨ c = '\t') ∧ (∀ c ∈ "AU".toList, IsNameChar c) ∧
      fit utf8 cursor.column line = "\t ".toList ++ (schema.sentinel ++ ':' :: "AU".toList) ∧
      ∃ item, (offer schema ["a:".toList, line] cursor []).items = [item] ∧
        item.detail = some auto.name ∧
        splice? utf8 2 8 item.insert line = some "\t - id:\n\n\t   x: 1 é".toList := by
  intro file auto line cursor
  have hread : (Schema.ofFile file).toOption.map (fun s => (s.sentinel, s.snippets)) =
      some ("tpl".toList, [auto, { name := "b".toList, label := "b".toList, body := "c".toList
                                   description := some [] }]) := by
    decide +kernel
  obtain ⟨schema, hschema, hsentinel, hsnippets⟩ := Schema.exists_of_read hread
  have hline : ["a:".toList, line][cursor.line]? = some line := rfl
  have hblanks : ∀ c ∈ "\t ".toList, c = ' ' ∨ c = '\t' := by simp
  have hname : ∀ c ∈ "AU".toList, IsNameChar c := isNameChar_of_all (by decide)
  have hbefore : fit utf8 cursor.column line =
      "\t ".toList ++ (schema.sentinel ++ ':' :: "AU".toList) := by
    rw [hsentinel]
    decide
  obtain ⟨after, hsplit, hstart, hstop, hitems⟩ :=
    offer_inserts_block hschema [] hline hblanks hname hbefore
  rw [hsentinel] at hsplit hstop
  obtain rfl : " é".toList = after := by
    have hparts : line = "\t ".toList ++ ("tpl".toList ++ ':' :: "AU".toList) ++ " é".toList := rfl
    exact List.append_cancel_left (hparts.symm.trans hsplit)
  have hfitting : (schema.snippets.filter fun s => lower "AU".toList <+: lower s.name).take 20 =
      [auto] := by
    rw [hsnippets]
    decide
  rw [hfitting, List.forall₂_cons_left_iff] at hitems
  obtain ⟨item, rest, hinserts, hrest, hitem⟩ := hitems
  obtain ⟨accepted, front, last, hsplice, hshifted, haccepted, -⟩ := hinserts.inserted
  obtain ⟨-, -, hdetail, -⟩ := hinserts.shown
  rw [List.forall₂_nil_left_iff.mp hrest] at hitem
  rw [hstart, hstop, haccepted] at hsplice
  have hbody : splitOn '\n' auto.body = ["- id:".toList, [], "  x: 1".toList] := by decide
  have hmoved : Snippet.Shifted "\t ".toList (splitOn '\n' auto.body)
      ["\t - id:".toList, [], "\t   x: 1".toList] := by
    rw [hbody]
    exact .block (.cons (.blank rfl) (.cons (.filled rfl) .nil))
  obtain ⟨rfl, hlast⟩ : front = ["\t - id:".toList, []] ∧ [last] = ["\t   x: 1".toList] :=
    List.append_inj' (hshifted.unique hmoved) rfl
  obtain rfl := List.singleton_inj.mp hlast
  exact ⟨schema, hschema, hline, hblanks, hname, hbefore, item, hitem, hdetail, hsplice⟩

end ConfigAssist
