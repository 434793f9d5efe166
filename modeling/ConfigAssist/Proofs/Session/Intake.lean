import ConfigAssist.Proofs.Suggest.Registry
import ConfigAssist.Session.Call
import Mathlib.Data.List.Induction

/-! Entities that are taken in. After any sequence of lists a session knows the last
one of them alone: the first record for each well-formed id, in the order of the list. -/

namespace ConfigAssist

open Entity

namespace Session

/-- The session after some lists of entities, one after the other. -/
def afterIntakes (s : Session) (lists : List (List Entity)) : Session := lists.foldl setEntities s

theorem afterIntakes_concat (s : Session) (lists : List (List Entity)) (records : List Entity) :
    s.afterIntakes (lists ++ [records]) = (s.afterIntakes lists).setEntities records := by
  simp [afterIntakes]

theorem call_entities {list : Text} {records : List Entity}
    (h : Entity.listOfText? list = some records) (s : Session) :
    s.call (.entities list) =
      (.ok (.intake (Registry.ofRecords records).size
        (records.length - (Registry.ofRecords records).size)), s.setEntities records) := by
  simp only [call, perform, h]
  rfl

theorem setEntities_self {s : Session} (hs : s.registry = .empty) (lists : List (List Entity)) :
    (s.afterIntakes lists).setEntities (s.afterIntakes lists).registry.entities =
      s.afterIntakes lists := by
  induction lists using List.reverseRecOn with
  | nil =>
    obtain ⟨schema, registry, latest⟩ := s
    obtain rfl : registry = .empty := hs
    rfl
  | append_singleton lists records =>
    rw [afterIntakes_concat]
    exact congrArg (fun r => { s.afterIntakes lists with registry := r })
      (Registry.ofRecords_entities records)

/-- What a session knows after some lists are the records of the last list that a loop
over it keeps: those with a well-formed id that no record before them has. The reply
counts them and all others, and to take in what is known changes nothing. -/
theorem setEntities_knows_firstValid {s : Session} (hs : s.registry = .empty)
    (lists : List (List Entity)) (records : List Entity) :
    let held := s.afterIntakes lists
    let next := held.setEntities records
    let known := next.registry.entities
    IsKnown records known ∧ known = (records.foldl Intake.take {}).kept ∧
      next.registry.size = known.length ∧
      (∀ other : Session, (other.setEntities records).registry = next.registry) ∧
      held.setEntities held.registry.entities = held ∧ next.setEntities known = next ∧
      ∃ dropped, known.length + dropped = records.length ∧
        ∀ list, Entity.listOfText? list = some records →
          held.call (.entities list) = (.ok (.intake known.length dropped), next) := by
  intro held next known
  have hself := setEntities_self hs (lists ++ [records])
  rw [afterIntakes_concat] at hself
  refine ⟨Registry.isKnown_ofRecords records, ?_, rfl, fun _ => rfl, setEntities_self hs lists,
    hself, records.length - known.length, ?_, ?_⟩
  · rw [Intake.foldl_take]
    rfl
  · exact Nat.add_sub_of_le (Registry.size_ofRecords_le records)
  · intro list hlist
    exact call_entities hlist held

/-- Ids with a second point or a capital letter are left out, and so is the second lamp. -/
theorem setEntities_knows_firstValid_lamp :
    let s : Session := initial
    let lists : List (List Entity) := [[{ id := "sun.a".toList }], []]
    let lamp : Entity := { id := "lamp.a".toList, displayName := some "Lamp".toList }
    let fan : Entity := { id := "fan.b_2".toList, icon := some "mdi:fan".toList }
    let records : List Entity :=
      [{ id := "lamp.a.b".toList }, lamp, { id := "Lamp.a".toList }, { lamp with displayName := none },
        fan, { id := "lamp.a.b".toList }]
    let list := ("[[\"lamp.a.b\"],[\"lamp.a\",\"Lamp\"],[\"Lamp.a\"],[\"lamp.a\"]," ++
      "[\"fan.b_2\",null,\"mdi:fan\"],[\"lamp.a.b\"]]").toList
    let held := s.afterIntakes lists
    let next := held.setEntities records
    s.registry = .empty ∧ Entity.listOfText? list = some records ∧
      held.call (.entities list) = (.ok (.intake 2 4), next) ∧ next.registry.entities = [lamp, fan] ∧
      IsKnown records [lamp, fan] := by
  intro s lists lamp fan records list held next
  have hlist : Entity.listOfText? list = some records := by decide +kernel
  have hknown : next.registry.entities = [lamp, fan] := by decide +kernel
  obtain ⟨hisKnown, -, -, -, -, -, dropped, hdropped, hcall⟩ :=
    setEntities_knows_firstValid (s := s) rfl lists records
  rw [hknown] at hisKnown hdropped hcall
  obtain rfl : dropped = 4 := Nat.add_left_cancel (n := 2) hdropped
  exact ⟨rfl, hlist, hcall list hlist, hknown, hisKnown⟩

end Session

end ConfigAssist
