import ConfigAssist.Proofs.Suggest.Ranking
import ConfigAssist.Proofs.Suggest.Typed
import ConfigAssist.Proofs.Text.Offset
import ConfigAssist.Suggest.Offer

/-! Offers are well formed. There are not too many items, they all take the place of the
same text, and that text is what was typed: it ends at the cursor, begins and ends
between two characters, and every item goes with it. -/

namespace ConfigAssist

open Text

/-- A column as 32 bits hold it: the largest one stands for all that are too large. -/
def saturated (column : Nat) : Nat := min column (UInt32.size - 1)

/-- How an item goes with the text that it takes the place of. What was typed there
decides which items there are. -/
inductive Fits (schema : Schema) (known : List Entity) (replaced : Text) : Typed → Suggestion → Prop
  | entity {e : Entity} {item : Suggestion} (he : e ∈ known) (hinsert : item.insert = e.id)
      (hid : replaced <+: e.id) : Fits schema known replaced (.entity replaced) item
  | tag {name : Text} {item : Suggestion} (hreplaced : replaced = '!' :: name)
      (hname : lower name <:+: lower (item.insert.dropWhile (· == '!'))) :
      Fits schema known replaced (.tag name) item
  | snippet {name indent : Text} {s : Snippet} {item : Suggestion} (hs : s ∈ schema.snippets)
      (hinsert : item.insert = s.expand indent)
      (hreplaced : replaced = schema.sentinel ++ ':' :: name) (hname : lower name <+: lower s.name) :
      Fits schema known replaced (.snippet replaced name) item
  | other {item : Suggestion} (hword : lower replaced <:+: lower item.insert) :
      Fits schema known replaced (.other replaced) item

theorem Fits.place {schema : Schema} {known : List Entity} {replaced : Text} {t : Typed}
    {item : Suggestion} (h : Fits schema known replaced t item) (range : Range) :
    Fits schema known replaced t { item with range } := by
  cases h with
  | entity he hinsert hid => exact .entity he hinsert hid
  | tag hreplaced hname => exact .tag hreplaced hname
  | snippet hs hinsert hreplaced hname => exact .snippet hs hinsert hreplaced hname
  | other hword => exact .other hword

namespace Offer

/-- The items for what was typed, before they are given their range. -/
def itemsFor (schema : Schema) (lines : List Text) (row : Nat) (line before : Text)
    (known : List Entity) : Typed → List Suggestion
  | .entity id => entities known id
  | .tag name => tags schema name
  | .snippet _ name => snippets schema (line.takeWhile Yaml.isIndent) name
  | .other word => ranked schema (pools (Scope.ofLine lines row) before word) word

theorem length_itemsFor_le (schema : Schema) (lines : List Text) (row : Nat) (line before : Text)
    (known : List Entity) (t : Typed) :
    (itemsFor schema lines row line before known t).length ≤ Suggestion.limit := by
  cases t with
  | entity id =>
    simp only [itemsFor, entities, List.length_map]
    exact List.length_take_le _ _
  | tag name => exact Ranking.length_best_le
  | snippet word name =>
    simp only [itemsFor, snippets, List.length_map]
    exact List.length_take_le _ _
  | other word => exact Ranking.length_best_le

theorem fits_of_mem_itemsFor {schema : Schema} {lines : List Text} {row : Nat} {line before : Text}
    {known : List Entity} {t : Typed} (ht : t.Recognized schema.sentinel before) {item : Suggestion}
    (h : item ∈ itemsFor schema lines row line before known t) :
    Fits schema known t.replaced t item := by
  cases ht with
  | entity =>
    obtain ⟨e, he, rfl⟩ := List.mem_map.mp h
    obtain ⟨hknown, hid⟩ := List.mem_filter.mp (Ranking.mem_sortBy.mp (List.mem_of_mem_take he))
    exact .entity hknown rfl (startsWith_iff.mp hid)
  | tag =>
    exact .tag rfl (Ranking.matchesIn_iff.mp (Ranking.of_mem_best h).2)
  | snippet hword =>
    obtain ⟨s, hs, rfl⟩ := List.mem_map.mp h
    obtain ⟨hschema, hname⟩ := List.mem_filter.mp (List.mem_of_mem_take hs)
    exact .snippet hschema rfl hword (startsWith_iff.mp hname)
  | other => exact .other (Ranking.matchesIn_iff.mp (Ranking.of_mem_best h).2)

end Offer

theorem offer_of_line {schema : Schema} {lines : List Text} {cursor : Position}
    {known : List Entity} {line : Text} (hline : lines[cursor.line]? = some line) :
    let before := fit utf8 cursor.column line
    let typed := Typed.ofText schema.sentinel before
    offer schema lines cursor known =
      .place (Offer.itemsFor schema lines cursor.line line before known typed)
        { start := { line := cursor.line, column := size utf8 before - size utf8 typed.replaced }
          stop := { line := cursor.line, column := size utf8 before } } := by
  intro before typed
  simp only [offer, hline]
  rfl

/-- What is replaced stands right before the cursor. -/
theorem replace_of_line (schema : Schema) (known : List Entity) {lines : List Text}
    {cursor : Position} {line : Text} (hline : lines[cursor.line]? = some line) :
    let replaced := (Typed.ofText schema.sentinel (fit utf8 cursor.column line)).replaced
    ∃ front after, line = front ++ (replaced ++ after) ∧
      fit utf8 cursor.column line = front ++ replaced ∧
      (offer schema lines cursor known).replace =
        { start := { line := cursor.line, column := size utf8 front }
          stop := { line := cursor.line, column := size utf8 front + size utf8 replaced } } := by
  intro replaced
  obtain ⟨after, hafter⟩ := fit_prefix utf8 cursor.column line
  obtain ⟨front, hfront⟩ := Typed.replaced_suffix
    (Typed.recognized_ofText schema.sentinel (fit utf8 cursor.column line))
  refine ⟨front, after, ?_, hfront.symm, ?_⟩
  · rw [← List.append_assoc, hfront, hafter]
  · have hsize : size utf8 (fit utf8 cursor.column line) = size utf8 front + size utf8 replaced := by
      rw [← hfront, size_append]
    rw [offer_of_line hline, Offer.place, hsize, Nat.add_sub_cancel]

theorem offer_of_past {schema : Schema} {lines : List Text} {cursor : Position}
    {known : List Entity} (h : lines.length ≤ cursor.line) :
    offer schema lines cursor known = .place [] { start := cursor, stop := cursor } := by
  simp only [offer, List.getElem?_eq_none h]

theorem exists_place (schema : Schema) (lines : List Text) (cursor : Position)
    (known : List Entity) : ∃ items range, offer schema lines cursor known = .place items range ∧
      items.length ≤ Suggestion.limit := by
  cases hline : lines[cursor.line]? with
  | none => exact ⟨_, _, offer_of_past (List.getElem?_eq_none_iff.mp hline), Nat.zero_le _⟩
  | some line => exact ⟨_, _, offer_of_line hline, Offer.length_itemsFor_le ..⟩

theorem fits_of_mem_items {schema : Schema} {lines : List Text} {cursor : Position}
    {known : List Entity} {line : Text} (hline : lines[cursor.line]? = some line)
    {item : Suggestion} (h : item ∈ (offer schema lines cursor known).items) :
    let typed := Typed.ofText schema.sentinel (fit utf8 cursor.column line)
    Fits schema known typed.replaced typed item := by
  rw [offer_of_line hline] at h
  obtain ⟨item', hitem', rfl⟩ := List.mem_map.mp h
  exact (Offer.fits_of_mem_itemsFor (Typed.recognized_ofText _ _) hitem').place _

theorem saturated_of_lt {column : Nat} (h : column < UInt32.size) : saturated column = column :=
  Nat.min_eq_left (Nat.le_sub_one_of_lt h)

theorem not_mem_of_endsWord {c : Char} (h : endsWord c = false) :
    isSpace c = false ∧ c ∉ "\"'[]\x7b\x7d,".toList := by
  simpa [endsWord, and_assoc] using h

/-- An offer has at most twenty items, all with its range. Past the last line it is empty;
otherwise its range is on the line of the cursor, between two characters, and ends where
the cursor is lowered to. The text in it is one word, and every item fits it. -/
theorem offer_wellFormed (schema : Schema) (lines : List Text) (cursor : Position)
    (known : List Entity) :
    let o := offer schema lines cursor known
    let start := o.replace.start
    let stop := o.replace.stop
    o.items.length ≤ 20 ∧ (∀ item ∈ o.items, item.range = o.replace) ∧
      (lines.length ≤ cursor.line → o.items = [] ∧ start = cursor ∧ stop = cursor) ∧
      ∀ line, lines[cursor.line]? = some line →
        let limit := min cursor.column (size utf8 line)
        start.line = cursor.line ∧ stop.line = cursor.line ∧
        (IsBoundary utf8 line stop.column ∧ stop.column ≤ limit ∧
          ∀ b, IsBoundary utf8 line b → b ≤ limit → b ≤ stop.column) ∧
        IsBoundary utf8 line start.column ∧ start.column ≤ stop.column ∧
        (cursor.column < UInt32.size →
          saturated start.column = start.column ∧ saturated stop.column = stop.column) ∧
        ∃ replaced, slice? utf8 start.column stop.column line = some replaced ∧
          (∀ c ∈ replaced, isSpace c = false ∧ c ∉ "\"'[]\x7b\x7d,".toList) ∧
          ∀ item ∈ o.items, Fits schema known replaced
            (Typed.ofText schema.sentinel (fit utf8 cursor.column line)) item := by
  intro o start stop
  obtain ⟨items, range, hplace, hlength⟩ := exists_place schema lines cursor known
  have ho : o = .place items range := hplace
  refine ⟨?_, ?_, ?_, ?_⟩
  · rw [ho, Offer.place, List.length_map]
    exact hlength
  · intro item hitem
    rw [ho] at hitem ⊢
    obtain ⟨_, _, rfl⟩ := List.mem_map.mp hitem
    rfl
  · intro hpast
    have hempty : o = .place [] { start := cursor, stop := cursor } := offer_of_past hpast
    simp only [start, stop, hempty]
    exact ⟨rfl, rfl, rfl⟩
  · intro line hline limit
    have hrecognized := Typed.recognized_ofText schema.sentinel (fit utf8 cursor.column line)
    obtain ⟨front, after, hsplit, hfit, hreplace⟩ := replace_of_line schema known hline
    have hstart : start = { line := cursor.line, column := size utf8 front } :=
      congrArg Range.start hreplace
    have hstop : stop = { line := cursor.line, column := size utf8 (fit utf8 cursor.column line) } := by
      rw [hfit, size_append]
      exact congrArg Range.stop hreplace
    have hboundary : IsBoundary utf8 line (size utf8 (fit utf8 cursor.column line)) :=
      isBoundary_fit cursor.column line
    have hlimit : size utf8 (fit utf8 cursor.column line) ≤ limit := by
      have hcursor := size_fit_le utf8 cursor.column line
      have hend := congrArg (size utf8) hsplit
      rw [← List.append_assoc, ← hfit, size_append] at hend
      omega
    have hfront : size utf8 front ≤ size utf8 (fit utf8 cursor.column line) := by
      rw [hfit, size_append]
      exact Nat.le_add_right _ _
    rw [hstart, hstop]
    refine ⟨rfl, rfl, ⟨hboundary, hlimit, ?_⟩, ⟨front, _, hsplit, rfl⟩, hfront, ?_, ?_⟩
    · intro b hb hle
      exact le_size_fit hb (by omega)
    · intro hcolumn
      dsimp only
      exact ⟨saturated_of_lt (by omega), saturated_of_lt (by omega)⟩
    · refine ⟨_, ?_, ?_, fun item => fits_of_mem_items hline⟩
      · have hslice := slice?_append utf8_pos front
          (Typed.ofText schema.sentinel (fit utf8 cursor.column line)).replaced after
        rw [← hsplit, ← size_append, ← hfit] at hslice
        exact hslice
      · intro c hc
        exact not_mem_of_endsWord (Typed.endsWord_of_mem_replaced hrecognized hc)

/-- A column inside a character, and a tag behind a bracket. -/
theorem offer_wellFormed_lowered :
    let schema : Schema :=
      { pool := fun _ => [{ text := "!Include".toList, kind := .tag }]
        snippets := []
        sentinel := "snip".toList }
    let line := "é: [!N‰x".toList
    let cursor : Position := { line := 1, column := 9 }
    let o := offer schema ["a:".toList, line] cursor []
    ["a:".toList, line][cursor.line]? = some line ∧ cursor.column < UInt32.size ∧
      o.replace = { start := { line := 1, column := 5 }, stop := { line := 1, column := 7 } } ∧
      IsBoundary utf8 line 7 ∧ saturated 7 = 7 ∧
      o.items.map Suggestion.insert = ["!Include".toList] ∧
      (∀ item ∈ o.items, Fits schema [] "!N".toList (.tag "N".toList) item) := by
  intro schema line cursor o
  have hline : ["a:".toList, line][cursor.line]? = some line := rfl
  have hcolumn : cursor.column < UInt32.size := by decide
  have hreplace : o.replace =
      { start := { line := 1, column := 5 }, stop := { line := 1, column := 7 } } := by decide
  obtain ⟨-, -, -, hwell⟩ := offer_wellFormed schema ["a:".toList, line] cursor []
  obtain ⟨-, -, ⟨hboundary, -⟩, -, -, hstored, replaced, hslice, -, hfits⟩ := hwell line hline
  have hreplaced : replaced = "!N".toList := by
    have h : slice? utf8 5 7 line = some "!N".toList := by decide
    exact Option.some.inj (hslice.symm.trans h)
  rw [hreplaced] at hfits
  exact ⟨hline, hcolumn, hreplace, hboundary, (hstored hcolumn).2, by decide +kernel, hfits⟩

end ConfigAssist
