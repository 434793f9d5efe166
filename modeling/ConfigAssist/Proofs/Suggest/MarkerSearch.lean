import ConfigAssist.Proofs.Suggest.Marker
import Mathlib.Data.List.MinMax

/-! Searching a line for its last marker. A name has no place inside of it where a word
begins, so a search that goes on behind each name it finds passes no marker over. -/

namespace ConfigAssist.Scope

open Text

/-- A search for the last marker from an offset on. It goes on behind each name it finds,
be that a marker or not. -/
def searchFrom (a : UInt8) (name bs : List UInt8) (offset : Nat) (found : Option Nat) : Option Nat :=
  match _ : find? (a :: name) (bs.drop offset) with
  | none => found
  | some n =>
    let stop := offset + n + (name.length + 1)
    let marks := beginsWord bs (offset + n) && bs[stop]? == some (byte ':')
    searchFrom a name bs stop (if marks then some (offset + n) else found)
termination_by bs.length - offset
decreasing_by
  have hfound : find? (a :: name) (bs.drop offset) = some n := by assumption
  have hlt := (find?_eq_some hfound).1
  rw [List.length_drop] at hlt
  omega

def lastMarker? (name line : Text) : Option Nat :=
  match bytes name with
  | [] => none
  | a :: bs => searchFrom a bs (bytes line) 0 none

def Marks (needle bs : List UInt8) (n : Nat) : Prop :=
  needle ++ [byte ':'] <+: bs.drop n ∧ beginsWord bs n = true

theorem append_singleton_prefix_iff {needle bs : List UInt8} {b : UInt8} :
    needle ++ [b] <+: bs ↔ needle <+: bs ∧ bs[needle.length]? = some b := by
  constructor
  · rintro ⟨rest, rfl⟩
    rw [List.append_assoc]
    exact ⟨List.prefix_append _ _, by simp⟩
  · rintro ⟨⟨rest, rfl⟩, hget⟩
    rw [List.getElem?_append_right (Nat.le_refl _), Nat.sub_self] at hget
    cases rest with
    | nil => cases hget
    | cons c rest =>
      cases hget
      exact ⟨rest, by simp⟩

theorem beginsWord_inside {needle bs : List UInt8} (hneedle : ∀ b ∈ needle, isWordByte b = true)
    {start n : Nat} (hat : needle <+: bs.drop start) (hlt : start < n)
    (hinside : n < start + needle.length) :
    beginsWord bs n = false := by
  obtain ⟨i, rfl⟩ := Nat.exists_eq_add_one_of_ne_zero (Nat.ne_of_gt (Nat.zero_lt_of_lt hlt))
  have hi : i - start < needle.length := by omega
  have hget : bs[i]? = some needle[i - start] := by
    have hdrop := List.prefix_iff_getElem?.mp hat (i - start) hi
    rw [List.getElem?_drop] at hdrop
    rwa [Nat.add_sub_cancel' (by omega)] at hdrop
  rw [beginsWord, hget, Option.all_some, hneedle _ (List.getElem_mem hi)]
  rfl

theorem searchFrom_spec {a : UInt8} {name : List UInt8} (hname : ∀ b ∈ a :: name, isWordByte b = true)
    (bs : List UInt8) (offset : Nat) (found : Option Nat) :
    (searchFrom a name bs offset found = found ∧ ∀ m, offset ≤ m → ¬ Marks (a :: name) bs m) ∨
      ∃ n, searchFrom a name bs offset found = some n ∧ offset ≤ n ∧ Marks (a :: name) bs n ∧
        ∀ m, Marks (a :: name) bs m → m ≤ n := by
  fun_induction searchFrom a name bs offset found with
  | case1 offset found h =>
    refine .inl ⟨rfl, fun m hm hmarks => find?_eq_none h (m - offset) ?_⟩
    rw [List.drop_drop, Nat.add_sub_cancel' hm]
    exact (append_singleton_prefix_iff.mp hmarks.1).1
  | case2 offset found n h stop marks ih =>
    obtain ⟨-, hat, hfirst⟩ := find?_eq_some h
    rw [List.drop_drop] at hat
    have hmarks : Marks (a :: name) bs (offset + n) ↔ marks = true := by
      rw [Marks, append_singleton_prefix_iff, List.getElem?_drop, Bool.and_eq_true, beq_iff_eq]
      exact ⟨fun hmark => ⟨hmark.2, hmark.1.2⟩, fun hmark => ⟨⟨hat, hmark.2⟩, hmark.1⟩⟩
    -- a marker in front of the end of the name that was found stands where the name stands
    have hnear : ∀ m, offset ≤ m → m < stop → Marks (a :: name) bs m → m = offset + n := by
      intro m hm hlt hmark
      rcases Nat.lt_trichotomy m (offset + n) with hbefore | heq | hinside
      · have hstands := (append_singleton_prefix_iff.mp hmark.1).1
        refine absurd ?_ (hfirst (m - offset) (by omega))
        rwa [List.drop_drop, Nat.add_sub_cancel' hm]
      · exact heq
      · have hword := beginsWord_inside hname hat hinside hlt
        rw [hmark.2] at hword
        cases hword
    rcases ih with ⟨heq, hnone⟩ | ⟨k, heq, hle, hmark, hgreatest⟩
    · by_cases hhere : marks = true
      · rw [dif_pos hhere] at heq
        rw [if_pos hhere]
        refine .inr ⟨offset + n, heq, Nat.le_add_right _ _, hmarks.mpr hhere, fun m hmark => ?_⟩
        by_cases hm : offset ≤ m
        · by_cases hlt : m < stop
          · exact Nat.le_of_eq (hnear m hm hlt hmark)
          · exact absurd hmark (hnone m (Nat.le_of_not_lt hlt))
        · omega
      · rw [dif_neg hhere] at heq
        rw [if_neg hhere]
        refine .inl ⟨heq, fun m hm hmark => ?_⟩
        by_cases hlt : m < stop
        · rw [hnear m hm hlt hmark] at hmark
          exact hhere (hmarks.mp hmark)
        · exact hnone m (Nat.le_of_not_lt hlt) hmark
    · rw [dite_eq_ite] at heq
      exact .inr ⟨k, heq, by omega, hmark, hgreatest⟩

theorem lastMarker?_cases {name : Text} (hname : IsName name) (line : Text) :
    (lastMarker? name line = none ∧ ∀ m, ¬ MarkerAt name line m) ∨
      ∃ n, lastMarker? name line = some n ∧ MarkerAt name line n ∧
        ∀ m, MarkerAt name line m → m ≤ n := by
  have hmarks : ∀ n, MarkerAt name line n ↔ Marks (bytes name) (bytes line) n := by
    intro n
    have hbytes : bytes (name ++ [':']) = bytes name ++ [byte ':'] := bytes_append name [':']
    rw [Marks, ← hbytes]
    exact ⟨fun h => ⟨h.stands, h.whole⟩, fun h => ⟨h.1, h.2⟩⟩
  have hword : ∀ b ∈ bytes name, isWordByte b = true := by
    intro b hb
    obtain ⟨c, hc, hb⟩ := List.mem_flatMap.mp hb
    have hascii := isAscii_of_isWordChar (hname.2 c hc)
    rw [encode_ascii hascii, List.mem_singleton] at hb
    rw [hb, isWordByte_byte hascii, hname.2 c hc]
  simp only [hmarks, lastMarker?]
  cases hbytes : bytes name with
  | nil =>
    have hlength := length_bytes name
    have hpos := size_pos_of_ne_nil utf8_pos hname.1
    rw [hbytes, List.length_nil] at hlength
    omega
  | cons a bs =>
    rw [hbytes] at hword
    rcases searchFrom_spec hword (bytes line) 0 none with ⟨heq, hnone⟩ | ⟨n, heq, -, hat, hgreatest⟩
    · exact .inl ⟨heq, fun m => hnone m (Nat.zero_le m)⟩
    · exact .inr ⟨n, heq, hat, hgreatest⟩

theorem markerAt_of_lastMarker? {name line : Text} {n : Nat} (hname : IsName name)
    (h : lastMarker? name line = some n) : MarkerAt name line n := by
  rcases lastMarker?_cases hname line with ⟨hnone, -⟩ | ⟨m, hsome, hmarker, -⟩
  · rw [h] at hnone
    cases hnone
  · obtain rfl : m = n := Option.some.inj (hsome.symm.trans h)
    exact hmarker

section

variable {α : Type} {names : List (Text × α)}

def lastMarkers (names : List (Text × α)) (line : Text) : List (Nat × α) :=
  names.filterMap fun e => (lastMarker? e.1 line).map fun n => (n, e.2)

/-- The value of the name whose last marker stands behind those of the others. -/
def lastOf (names : List (Text × α)) (line : Text) : Option α :=
  ((lastMarkers names line).argmax Prod.fst).map Prod.snd

theorem exists_lastMarker (h : IsTable names) {line : Text} {e : Text × α} (he : e ∈ names) {m : Nat}
    (hmarker : MarkerAt e.1 line m) : ∃ n, m ≤ n ∧ (n, e.2) ∈ lastMarkers names line := by
  rcases lastMarker?_cases (h.isName e he) line with ⟨-, hnone⟩ | ⟨n, heq, -, hgreatest⟩
  · exact absurd hmarker (hnone m)
  · exact ⟨n, hgreatest m hmarker, List.mem_filterMap.mpr ⟨e, he, by rw [heq]; rfl⟩⟩

theorem lastOf_eq (h : IsTable names) (line : Text) :
    lastOf names line = (markers names line).getLast? := by
  rw [lastOf]
  cases hlast : (lastMarkers names line).argmax Prod.fst with
  | none =>
    have hnil := List.argmax_eq_none.mp hlast
    have hmarkers : markers names line = [] := by
      rw [List.eq_nil_iff_forall_not_mem]
      intro a ha
      obtain ⟨name, m, hmem, hmarker⟩ := (mem_markers_iff h).mp ha
      obtain ⟨n, -, hn⟩ := exists_lastMarker h hmem hmarker
      rw [hnil] at hn
      cases hn
    rw [hmarkers]
    rfl
  | some last =>
    obtain ⟨e, he, hmap⟩ := List.mem_filterMap.mp (List.argmax_mem hlast)
    obtain ⟨n, hn, rfl⟩ := Option.map_eq_some_iff.mp hmap
    have hmarker := markerAt_of_lastMarker? (h.isName e he) hn
    refine ((getLast?_markers_iff h).mpr ⟨e.1, n, he, hmarker, ?_⟩).symm
    intro f hf m hmarker
    obtain ⟨k, hle, hk⟩ := exists_lastMarker h hf hmarker
    exact Nat.le_trans hle (List.le_of_mem_argmax hk hlast)

theorem contains_markers [DecidableEq α] (h : IsTable names) (line : Text) (a : α) :
    (markers names line).contains a = names.any fun e => (lastMarker? e.1 line).isSome && e.2 == a := by
  rw [Bool.eq_iff_iff, List.contains_iff_mem, mem_markers_iff h, List.any_eq_true]
  constructor
  · rintro ⟨name, m, hmem, hmarker⟩
    refine ⟨(name, a), hmem, ?_⟩
    rcases lastMarker?_cases (h.isName _ hmem) line with ⟨-, hnone⟩ | ⟨n, heq, -, -⟩
    · exact absurd hmarker (hnone m)
    · simp [heq]
  · rintro ⟨e, he, hsome⟩
    rw [Bool.and_eq_true, beq_iff_eq] at hsome
    obtain ⟨hsome, rfl⟩ := hsome
    obtain ⟨n, hn⟩ := Option.isSome_iff_exists.mp hsome
    exact ⟨e.1, n, he, markerAt_of_lastMarker? (h.isName e he) hn⟩

end

end ConfigAssist.Scope
