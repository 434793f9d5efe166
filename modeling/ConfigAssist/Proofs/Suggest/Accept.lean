import ConfigAssist.Proofs.Suggest.Registry
import ConfigAssist.Proofs.Suggest.WellFormed
import Mathlib.Data.List.Nodup

/-! Accepting an entity. An id that was accepted is typed in full where it stands, so it
is offered again, and first, as it is the least of all ids that it begins. -/

namespace ConfigAssist

open Text

/-- The entities with the least ids that begin with a text, up to a number of them. -/
structure AreLeast (limit : Nat) (known : List Entity) (typed : Text) (chosen : List Entity) : Prop where
  fitting : ∀ e ∈ chosen, e ∈ known ∧ typed <+: e.id
  ascending : (chosen.map Entity.id).Pairwise Before
  count : chosen.length = min limit (known.countP fun e => startsWith typed e.id)
  least : ∀ e ∈ known, typed <+: e.id → e ∉ chosen → ∀ f ∈ chosen, Before f.id e.id

section

variable {known : List Entity} {typed : Text}

def fittingById (known : List Entity) (typed : Text) : List Entity :=
  Ranking.sortBy Entity.id (known.filter fun e => startsWith typed e.id)

theorem mem_fittingById {e : Entity} : e ∈ fittingById known typed ↔ e ∈ known ∧ typed <+: e.id := by
  rw [fittingById, Ranking.mem_sortBy, List.mem_filter, startsWith_iff]

theorem pairwise_fittingById (hnodup : (known.map Entity.id).Nodup) (typed : Text) :
    (fittingById known typed).Pairwise fun e f => Before e.id f.id := by
  have hsorted := Ranking.pairwise_sortBy Entity.id (known.filter fun e => startsWith typed e.id)
  have hperm := Ranking.sortBy_perm Entity.id (known.filter fun e => startsWith typed e.id)
  have hdistinct : ((fittingById known typed).map Entity.id).Nodup :=
    (hperm.map Entity.id).nodup_iff.mpr (hnodup.sublist (List.filter_sublist.map Entity.id))
  have hne : (fittingById known typed).Pairwise fun e f => e.id ≠ f.id := List.pairwise_map.mp hdistinct
  exact hsorted.imp₂ (fun e f => before_of_atMost) hne

theorem areLeast_take (hnodup : (known.map Entity.id).Nodup) (limit : Nat) (typed : Text) :
    AreLeast limit known typed ((fittingById known typed).take limit) := by
  have hpairwise := pairwise_fittingById hnodup typed
  have hlength : (fittingById known typed).length = known.countP fun e => startsWith typed e.id := by
    rw [List.countP_eq_length_filter]
    exact (Ranking.sortBy_perm Entity.id _).length_eq
  refine ⟨?_, ?_, ?_, ?_⟩
  · intro e he
    exact mem_fittingById.mp (List.mem_of_mem_take he)
  · exact List.pairwise_map.mpr (hpairwise.sublist (List.take_sublist _ _))
  · rw [List.length_take, hlength]
  · intro e he htyped hout f hf
    have hmem : e ∈ fittingById known typed := mem_fittingById.mpr ⟨he, htyped⟩
    rw [← List.take_append_drop limit (fittingById known typed)] at hmem hpairwise
    have hdrop := (List.mem_append.mp hmem).resolve_left hout
    exact (List.pairwise_append.mp hpairwise).2.2 f hf e hdrop

theorem head?_fittingById (hnodup : (known.map Entity.id).Nodup) {e : Entity} (he : e ∈ known) :
    (fittingById known e.id).head? = some e := by
  have hmem : e ∈ fittingById known e.id := mem_fittingById.mpr ⟨he, List.prefix_rfl⟩
  have hsorted := Ranking.pairwise_sortBy Entity.id (known.filter fun f => startsWith e.id f.id)
  change (fittingById known e.id).Pairwise _ at hsorted
  cases hfitting : fittingById known e.id with
  | nil =>
    rw [hfitting] at hmem
    cases hmem
  | cons f fs =>
    have hf : f ∈ fittingById known e.id := hfitting ▸ List.mem_cons_self
    obtain ⟨hknown, hprefix⟩ := mem_fittingById.mp hf
    rw [hfitting] at hmem hsorted
    rcases List.mem_cons.mp hmem with rfl | hmem
    · rfl
    · have hle := (List.pairwise_cons.mp hsorted).1 e hmem
      have hid : f.id = e.id := atMost_antisymm hle (atMost_of_begins hprefix)
      rw [List.inj_on_of_nodup_map hnodup hknown he hid]
      rfl

end

theorem isIdStart_of_isId {id : Text} (h : Entity.isId id = true) : IsIdStart id := by
  obtain ⟨domain, object, hid, hne, -, hdomain, hobject⟩ := Entity.exists_of_isId h
  exact ⟨domain, object, hid, hne, hdomain, hobject⟩

theorem offer_of_idStart {lines : List Text} {cursor : Position} {line front typed : Text}
    (hline : lines[cursor.line]? = some line) (hbefore : fit utf8 cursor.column line = front ++ typed)
    (htyped : IsIdStart typed) (hfront : ∀ c ∈ front.getLast?, continuesId c = false)
    (schema : Schema) (known : List Entity) :
    offer schema lines cursor known =
      .place (((fittingById known typed).take Suggestion.limit).map Offer.ofEntity)
        { start := { line := cursor.line, column := size utf8 front }
          stop := { line := cursor.line, column := size utf8 front + size utf8 typed } } := by
  have hofText : Typed.ofText schema.sentinel (front ++ typed) = .entity typed := by
    simp only [Typed.ofText, typedId?_append htyped hfront]
  simp only [offer, hline, hbefore, hofText, Typed.replaced, size_append, Nat.add_sub_cancel]
  rfl

/-- Where the beginning of an id is typed, the least known ids are offered. When one of
them is accepted and the cursor stands behind it, it is offered again and first, in the
place where it stands. -/
theorem offer_accepted_entity (records : List Entity) (schema : Schema) {lines : List Text}
    {cursor : Position} {line front typed : Text} (hline : lines[cursor.line]? = some line)
    (hbefore : fit utf8 cursor.column line = front ++ typed) (htyped : IsIdStart typed)
    (hfront : ∀ c ∈ front.getLast?, continuesId c = false) :
    let known := (Registry.ofRecords records).entities
    let o := offer schema lines cursor known
    (∃ chosen, AreLeast 20 known typed chosen ∧
        o.items = chosen.map fun e => { Offer.ofEntity e with range := o.replace }) ∧
      ∀ item ∈ o.items, ∃ accepted,
        splice? utf8 o.replace.start.column o.replace.stop.column item.insert line = some accepted ∧
        let behind : Position :=
          { line := cursor.line, column := o.replace.start.column + size utf8 item.insert }
        let o' := offer schema (lines.set cursor.line accepted) behind known
        o'.items.head? = some { item with range := o'.replace } ∧
          o'.replace.start = o.replace.start := by
  intro known o
  have hnodup : (known.map Entity.id).Nodup := Registry.nodup_ofRecords records
  have ho := offer_of_idStart hline hbefore htyped hfront schema known
  change o = _ at ho
  refine ⟨⟨_, areLeast_take hnodup 20 typed, ?_⟩, ?_⟩
  · rw [ho, Offer.place, List.map_map]
    rfl
  · intro item hitem
    obtain ⟨e, he, rfl⟩ : ∃ e ∈ known, item = { Offer.ofEntity e with range := o.replace } := by
      rw [ho, Offer.place, List.map_map] at hitem
      obtain ⟨e, he, rfl⟩ := List.mem_map.mp hitem
      exact ⟨e, (mem_fittingById.mp (List.mem_of_mem_take he)).1, by rw [ho]; rfl⟩
    -- behind the id that was accepted the text before the cursor ends in all of it
    obtain ⟨after, hafter⟩ := fit_prefix utf8 cursor.column line
    rw [hbefore, List.append_assoc] at hafter
    have hid : IsIdStart e.id := isIdStart_of_isId (Registry.isId_of_mem_ofRecords he)
    have hsplice := splice?_append utf8_pos front typed e.id after
    rw [hafter] at hsplice
    refine ⟨front ++ (e.id ++ after), by rw [ho]; exact hsplice, ?_⟩
    intro behind o'
    have hrow : cursor.line < lines.length := (List.getElem?_eq_some_iff.mp hline).1
    have hline' : (lines.set cursor.line (front ++ (e.id ++ after)))[behind.line]? =
        some (front ++ (e.id ++ after)) := List.getElem?_set_self hrow
    have hcolumn : behind.column = size utf8 (front ++ e.id) := by
      rw [size_append]
      simp only [behind, ho]
      rfl
    have hbefore' : fit utf8 behind.column (front ++ (e.id ++ after)) = front ++ e.id := by
      rw [hcolumn, ← List.append_assoc]
      exact fit_append utf8_pos (front ++ e.id) after
    have ho' := offer_of_idStart hline' hbefore' hid hfront schema known
    change o' = _ at ho'
    obtain ⟨rest, hfitting⟩ := List.head?_eq_some_iff.mp (head?_fittingById hnodup he)
    rw [ho', ho, hfitting]
    exact ⟨rfl, rfl⟩

/-- Of two entities the one that begins the other is accepted. A record with an id that
was there before, and one without a proper id, are not known. -/
theorem offer_accepted_entity_twice :
    let schema : Schema := { pool := fun _ => [], snippets := [], sentinel := "snip".toList }
    let kitchen : Entity := { id := "light.kitchen".toList, displayName := some "K".toList }
    let second : Entity := { id := "light.kitchen_2".toList }
    let known := (Registry.ofRecords
      [second, kitchen, { id := "Light.ki".toList }, { id := "light.kitchen".toList }]).entities
    let line := "é: [light.kiX]".toList
    let cursor : Position := { line := 1, column := 13 }
    let o := offer schema ["a:".toList, line] cursor known
    let item : Suggestion := { Offer.ofEntity kitchen with range := o.replace }
    (∃ chosen, AreLeast 20 known "light.ki".toList chosen) ∧
      o.items = [item, { Offer.ofEntity second with range := o.replace }] ∧
      ∃ accepted,
        splice? utf8 o.replace.start.column o.replace.stop.column item.insert line = some accepted ∧
        accepted = "é: [light.kitchenX]".toList ∧
        let o' := offer schema ["a:".toList, accepted]
          { line := 1, column := o.replace.start.column + size utf8 item.insert } known
        o'.items.head? = some { item with range := o'.replace } ∧
          o'.replace.start = o.replace.start := by
  intro schema kitchen second known line cursor o item
  have hline : ["a:".toList, line][cursor.line]? = some line := rfl
  have hbefore : fit utf8 cursor.column line = "é: [".toList ++ "light.ki".toList := by decide
  have htyped : IsIdStart "light.ki".toList :=
    ⟨"light".toList, "ki".toList, rfl, by decide, List.all_eq_true.mp (by decide),
      List.all_eq_true.mp (by decide)⟩
  have hfront : ∀ c ∈ "é: [".toList.getLast?, continuesId c = false := by
    intro c hc
    obtain rfl := Option.some.inj hc
    decide
  have hfilter : (known.filter fun e => startsWith "light.ki".toList e.id) = [second, kitchen] := by
    decide
  have hfitting : fittingById known "light.ki".toList = [kitchen, second] := by
    rw [fittingById, hfilter]
    simp [Ranking.sortBy, List.mergeSort, List.MergeSort.Internal.splitInTwo, atMost, kitchen, second]
  have ho := offer_of_idStart hline hbefore htyped hfront schema known
  rw [hfitting] at ho
  change o = _ at ho
  have hitems : o.items = [item, { Offer.ofEntity second with range := o.replace }] := by
    simp only [item, ho]
    rfl
  have hstart : o.replace.start.column = 5 := by
    rw [ho]
    decide
  have hstop : o.replace.stop.column = 13 := by
    rw [ho]
    decide
  obtain ⟨⟨chosen, hleast, -⟩, haccept⟩ := offer_accepted_entity
    [second, kitchen, { id := "Light.ki".toList }, { id := "light.kitchen".toList }] schema
    hline hbefore htyped hfront
  obtain ⟨accepted, hsplice, hagain⟩ := haccept item (hitems ▸ List.mem_cons_self)
  have hspliced : splice? utf8 5 13 item.insert line = some "é: [light.kitchenX]".toList := by decide
  have haccepted : accepted = "é: [light.kitchenX]".toList := by
    rw [← hstart, ← hstop] at hspliced
    exact Option.some.inj (hsplice.symm.trans hspliced)
  exact ⟨⟨chosen, hleast⟩, hitems, accepted, hsplice, haccepted, hagain⟩

end ConfigAssist
