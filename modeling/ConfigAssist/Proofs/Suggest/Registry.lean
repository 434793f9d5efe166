import ConfigAssist.Proofs.Text.Bytes
import ConfigAssist.Suggest.Entity
import Mathlib.Data.List.Basic
import Mathlib.Data.List.Induction

/-! What a registry holds, told by places in the list of records: a record is known if
its id is well formed and no record before it has the same one. A registry is also what
is kept of its records when they are taken one by one. -/

namespace ConfigAssist

namespace Entity

/-- The records with a well-formed id that stands in no record before them. -/
def firstValid (records : List Entity) : List Entity :=
  (records.zipIdx.filter fun (e, i) => isId e.id && (records.take i).all (·.id != e.id)).map Prod.fst

/-- The same records with their places. -/
def placed (records : List Entity) : List (Entity × Nat) :=
  records.zipIdx.filter fun (e, i) => isId e.id && (records.take i).all (·.id != e.id)

theorem firstValid_eq (records : List Entity) : firstValid records = (placed records).map Prod.fst := rfl

theorem firsts_sublist (records : List Entity) : (firsts records).Sublist records := by
  induction records with
  | nil => exact .slnil
  | cons x xs ih => exact (List.filter_sublist.trans ih).cons_cons x

theorem nodup_firsts (records : List Entity) : ((firsts records).map Entity.id).Nodup := by
  induction records with
  | nil => exact List.nodup_nil
  | cons x xs ih =>
    rw [firsts, List.map_cons, List.nodup_cons]
    refine ⟨?_, ih.sublist (List.filter_sublist.map Entity.id)⟩
    intro hmem
    obtain ⟨e, he, hid⟩ := List.mem_map.mp hmem
    simp [hid] at he

theorem firsts_eq_self {records : List Entity} (h : (records.map Entity.id).Nodup) :
    firsts records = records := by
  induction records with
  | nil => rfl
  | cons x xs ih =>
    rw [List.map_cons, List.nodup_cons] at h
    rw [firsts, ih h.2, List.filter_eq_self.mpr]
    intro e he
    rw [bne_iff_ne]
    intro hid
    exact h.1 (hid ▸ List.mem_map_of_mem he)

theorem exists_mem_firsts {records : List Entity} {e : Entity} (h : e ∈ records) :
    ∃ x ∈ firsts records, x.id = e.id := by
  induction records with
  | nil => cases h
  | cons x xs ih =>
    by_cases hid : x.id = e.id
    · exact ⟨x, List.mem_cons_self, hid⟩
    · have hxs : e ∈ xs := List.mem_of_ne_of_mem (by rintro rfl; exact hid rfl) h
      obtain ⟨y, hy, hyid⟩ := ih hxs
      refine ⟨y, List.mem_cons_of_mem x (List.mem_filter.mpr ⟨hy, ?_⟩), hyid⟩
      rw [bne_iff_ne, hyid]
      exact fun heq => hid heq.symm

theorem firsts_concat (records : List Entity) (e : Entity) :
    firsts (records ++ [e]) =
      if e.id ∈ records.map Entity.id then firsts records else firsts records ++ [e] := by
  induction records with
  | nil => rfl
  | cons x xs ih =>
    rw [List.cons_append, firsts, ih, firsts, List.map_cons]
    by_cases hxs : e.id ∈ xs.map Entity.id
    · rw [if_pos hxs, if_pos (List.mem_cons_of_mem _ hxs)]
    · rw [if_neg hxs, List.filter_append]
      by_cases hx : e.id = x.id
      · simp [hx]
      · rw [if_neg (by simp [hx, hxs])]
        simp [hx]

/-- A character of a domain or an object. -/
def IsIdChar (c : Char) : Prop := ('a' ≤ c ∧ c ≤ 'z') ∨ ('0' ≤ c ∧ c ≤ '9') ∨ c = '_'

theorem isIdChar_iff {c : Char} : isIdChar c = true ↔ IsIdChar c := by
  simp only [isIdChar, IsIdChar, Bool.or_eq_true, Text.isLower_iff, Text.isDigit_iff, beq_iff_eq, or_assoc]

/-- A well-formed id is a domain and an object, neither of them empty. -/
theorem exists_of_isId {id : Text} (h : isId id = true) :
    ∃ domain object, id = domain ++ '.' :: object ∧ domain ≠ [] ∧ object ≠ [] ∧
      (∀ c ∈ domain, isIdChar c = true) ∧ ∀ c ∈ object, isIdChar c = true := by
  unfold isId at h
  split at h
  · rename_i object hpoint
    have hsplit := List.takeWhile_append_dropWhile (p := (· != '.')) (l := id)
    rw [hpoint] at hsplit
    simp only [Bool.and_eq_true, Bool.not_eq_true', List.isEmpty_eq_false_iff, List.all_eq_true] at h
    obtain ⟨⟨⟨hdomain, hdomainChars⟩, hobject⟩, hobjectChars⟩ := h
    exact ⟨_, object, hsplit.symm, hdomain, hobject, hdomainChars, hobjectChars⟩
  · cases h

/-- A domain and an object with a point between them, and no other point. -/
def IsWellFormed (id : Text) : Prop :=
  ∃ domain object, id = domain ++ '.' :: object ∧ domain ≠ [] ∧ object ≠ [] ∧
    (∀ c ∈ domain, IsIdChar c) ∧ ∀ c ∈ object, IsIdChar c

theorem isId_iff {id : Text} : isId id = true ↔ IsWellFormed id := by
  constructor
  · intro h
    obtain ⟨domain, object, hid, hdomain, hobject, hdomainChars, hobjectChars⟩ := exists_of_isId h
    exact ⟨domain, object, hid, hdomain, hobject, fun c hc => isIdChar_iff.mp (hdomainChars c hc),
      fun c hc => isIdChar_iff.mp (hobjectChars c hc)⟩
  · rintro ⟨domain, object, rfl, hdomain, hobject, hdomainChars, hobjectChars⟩
    -- a point is not a character of the domain, so the first one is the one between
    have hpoint : ∀ c ∈ domain, (c != '.') = true := by
      intro c hc
      have hchar := hdomainChars c hc
      rw [bne_iff_ne]
      rintro rfl
      exact absurd hchar (by unfold IsIdChar; decide)
    have hall (t : Text) (ht : ∀ c ∈ t, IsIdChar c) : t.all isIdChar = true :=
      List.all_eq_true.mpr fun c hc => isIdChar_iff.mpr (ht c hc)
    simp only [isId, List.dropWhile_append_of_pos hpoint, List.takeWhile_append_of_pos hpoint]
    simp [hall domain hdomainChars, hall object hobjectChars, hdomain, hobject]

/-- A record with a well-formed id stands at a place, and no record before it has that id. -/
def IsFirstAt (records : List Entity) (e : Entity) (i : Nat) : Prop :=
  records[i]? = some e ∧ IsWellFormed e.id ∧ ∀ j < i, ∀ x, records[j]? = some x → x.id ≠ e.id

/-- What is known of some records, in the order of their places. -/
structure IsKnown (records known : List Entity) : Prop where
  placed : ∃ places : List Nat, places.Pairwise (· < ·) ∧
    (∀ i, i ∈ places ↔ ∃ e, IsFirstAt records e i) ∧ known.map some = places.map (records[·]?)
  distinct : (known.map Entity.id).Nodup
  covered : ∀ e ∈ records, IsWellFormed e.id → ∃ x ∈ known, x.id = e.id

/-- The records before a place are those at the places before it. -/
theorem forall_mem_take_iff {records : List Entity} {i : Nat} {p : Entity → Prop} :
    (∀ x ∈ records.take i, p x) ↔ ∀ j < i, ∀ x, records[j]? = some x → p x := by
  constructor
  · intro h j hj x hx
    rw [← List.getElem?_take_of_lt hj] at hx
    exact h x (List.mem_of_getElem? hx)
  · intro h x hx
    obtain ⟨j, hj⟩ := List.mem_iff_getElem?.mp hx
    rw [List.getElem?_take, Option.ite_none_right_eq_some] at hj
    exact h j hj.1 x hj.2

theorem mem_placed_iff {records : List Entity} {e : Entity} {i : Nat} :
    (e, i) ∈ placed records ↔ IsFirstAt records e i := by
  simp only [placed, IsFirstAt, List.mem_filter, List.mk_mem_zipIdx_iff_getElem?, Bool.and_eq_true,
    isId_iff, List.all_eq_true, bne_iff_ne, forall_mem_take_iff (p := fun x => x.id ≠ e.id)]

theorem exists_places_firstValid (records : List Entity) :
    ∃ places : List Nat, places.Pairwise (· < ·) ∧ (∀ i, i ∈ places ↔ ∃ e, IsFirstAt records e i) ∧
      (firstValid records).map some = places.map (records[·]?) := by
  refine ⟨(placed records).map Prod.snd, ?_, ?_, ?_⟩
  · have hsublist : ((placed records).map Prod.snd).Sublist (records.zipIdx.map Prod.snd) :=
      List.filter_sublist.map Prod.snd
    rw [List.zipIdx_map_snd] at hsublist
    exact (List.pairwise_lt_range').sublist hsublist
  · intro i
    rw [List.mem_map]
    constructor
    · rintro ⟨⟨e, _⟩, hmem, rfl⟩
      exact ⟨e, mem_placed_iff.mp hmem⟩
    · rintro ⟨e, he⟩
      exact ⟨(e, i), mem_placed_iff.mpr he, rfl⟩
  · rw [firstValid_eq, List.map_map, List.map_map]
    apply List.map_congr_left
    rintro ⟨e, i⟩ hmem
    exact (mem_placed_iff.mp hmem).1.symm

/-- A record that is known once it stands at the end. -/
def IsNew (records : List Entity) (e : Entity) : Prop := isId e.id = true ∧ e.id ∉ records.map Entity.id

instance (records : List Entity) (e : Entity) : Decidable (IsNew records e) :=
  inferInstanceAs (Decidable (_ ∧ _))

theorem placed_concat (records : List Entity) (e : Entity) :
    placed (records ++ [e]) =
      if IsNew records e then placed records ++ [(e, records.length)] else placed records := by
  -- a record looks only at those before it, so one more at the end changes nothing for it
  have hbefore : (records.zipIdx.filter fun (x, i) =>
      isId x.id && ((records ++ [e]).take i).all (·.id != x.id)) = placed records := by
    apply List.filter_congr
    rintro ⟨x, i⟩ hmem
    have hlt := (List.getElem?_eq_some_iff.mp (List.mk_mem_zipIdx_iff_getElem?.mp hmem)).1
    simp only [List.take_append_of_le_length (Nat.le_of_lt hlt)]
  have hlast : (isId e.id && records.all (·.id != e.id)) = decide (IsNew records e) := by
    rw [Bool.eq_iff_iff]
    simp [IsNew]
  rw [placed, List.zipIdx_append, List.filter_append, hbefore]
  by_cases hnew : IsNew records e
  · simp [hlast, hnew]
  · simp [hlast, hnew]

theorem firstValid_concat (records : List Entity) (e : Entity) :
    firstValid (records ++ [e]) =
      if IsNew records e then firstValid records ++ [e] else firstValid records := by
  rw [firstValid_eq, placed_concat, firstValid_eq]
  split
  · exact List.map_append
  · rfl

theorem firsts_filter_concat (records : List Entity) (e : Entity) :
    firsts ((records ++ [e]).filter fun x => isId x.id) =
      if IsNew records e then firsts (records.filter fun x => isId x.id) ++ [e]
      else firsts (records.filter fun x => isId x.id) := by
  rw [List.filter_append]
  by_cases hid : isId e.id = true
  · have hmem : e.id ∈ (records.filter fun x => isId x.id).map Entity.id ↔
        e.id ∈ records.map Entity.id := by
      constructor
      · intro h
        exact (List.filter_sublist.map Entity.id).subset h
      · intro h
        obtain ⟨x, hx, hxid⟩ := List.mem_map.mp h
        exact List.mem_map.mpr ⟨x, List.mem_filter.mpr ⟨hx, hxid ▸ hid⟩, hxid⟩
    rw [List.filter_singleton, hid, cond_true, firsts_concat]
    by_cases hseen : e.id ∈ records.map Entity.id
    · rw [if_pos (hmem.mpr hseen), if_neg fun hnew => hnew.2 hseen]
    · rw [if_neg (mt hmem.mp hseen), if_pos ⟨hid, hseen⟩]
  · simp [IsNew, hid]

end Entity

open Entity

namespace Registry

theorem ofRecords_concat (records : List Entity) (e : Entity) :
    (ofRecords (records ++ [e])).entities =
      if IsNew records e then (ofRecords records).entities ++ [e] else (ofRecords records).entities :=
  firsts_filter_concat records e

theorem nodup_ofRecords (records : List Entity) :
    ((ofRecords records).entities.map Entity.id).Nodup := nodup_firsts _

theorem isId_of_mem_ofRecords {records : List Entity} {e : Entity}
    (h : e ∈ (ofRecords records).entities) : isId e.id = true :=
  (List.mem_filter.mp ((firsts_sublist _).subset h)).2

theorem mem_ids_ofRecords {records : List Entity} {id : Text} :
    id ∈ (ofRecords records).entities.map Entity.id ↔ isId id = true ∧ id ∈ records.map Entity.id := by
  simp only [List.mem_map]
  constructor
  · rintro ⟨e, he, rfl⟩
    exact ⟨isId_of_mem_ofRecords he, e, List.filter_sublist.subset ((firsts_sublist _).subset he), rfl⟩
  · rintro ⟨hid, e, he, rfl⟩
    exact exists_mem_firsts (List.mem_filter.mpr ⟨he, hid⟩)

theorem ofRecords_eq (records : List Entity) : ofRecords records = { entities := firstValid records } := by
  apply congrArg Registry.mk
  induction records using List.reverseRecOn with
  | nil => rfl
  | append_singleton records e ih =>
    rw [firsts_filter_concat, firstValid_concat, ih]

theorem isKnown_ofRecords (records : List Entity) : IsKnown records (ofRecords records).entities where
  placed := by
    rw [ofRecords_eq]
    exact exists_places_firstValid records
  distinct := nodup_ofRecords records
  covered := by
    intro e he hid
    exact List.mem_map.mp (mem_ids_ofRecords.mpr ⟨isId_iff.mpr hid, List.mem_map_of_mem he⟩)

theorem size_ofRecords_le (records : List Entity) : (ofRecords records).size ≤ records.length :=
  ((firsts_sublist _).trans List.filter_sublist).length_le

/-- What a registry holds is kept when it is given to it again. -/
theorem ofRecords_entities (records : List Entity) :
    ofRecords (ofRecords records).entities = ofRecords records := by
  have hvalid : (ofRecords records).entities.filter (fun e => isId e.id) = (ofRecords records).entities :=
    List.filter_eq_self.mpr fun e he => isId_of_mem_ofRecords he
  rw [ofRecords, hvalid, firsts_eq_self (nodup_ofRecords records)]

end Registry

/-- The ids that were seen, and the records that were kept. -/
structure Intake where
  seen : List Text := []
  kept : List Entity := []
deriving DecidableEq

namespace Intake

/-- One more record. An id that is not well formed is not seen. -/
def take (i : Intake) (e : Entity) : Intake :=
  if isId e.id then
    if i.seen.contains e.id then i else { seen := e.id :: i.seen, kept := i.kept ++ [e] }
  else i

/-- The ids that were seen are those of the records that were kept. -/
theorem foldl_take (records : List Entity) :
    records.foldl take {} =
      { seen := ((Registry.ofRecords records).entities.map Entity.id).reverse
        kept := (Registry.ofRecords records).entities } := by
  induction records using List.reverseRecOn with
  | nil => rfl
  | append_singleton records e ih =>
    rw [List.foldl_append, ih, List.foldl_cons, List.foldl_nil, take, Registry.ofRecords_concat]
    by_cases hid : isId e.id = true
    · have hseen : ((Registry.ofRecords records).entities.map Entity.id).reverse.contains e.id = true ↔
          e.id ∈ records.map Entity.id := by
        rw [List.contains_iff_mem, List.mem_reverse, Registry.mem_ids_ofRecords, and_iff_right hid]
      rw [if_pos hid]
      by_cases hmem : e.id ∈ records.map Entity.id
      · rw [if_pos (hseen.mpr hmem), if_neg fun hnew : IsNew records e => hnew.2 hmem]
      · rw [if_neg (mt hseen.mp hmem), if_pos (show IsNew records e from ⟨hid, hmem⟩)]
        simp
    · rw [if_neg hid, if_neg fun hnew : IsNew records e => hid hnew.1]

end Intake

end ConfigAssist
