import ConfigAssist.Proofs.Suggest.Selection
import ConfigAssist.Proofs.Text.LowerCase

/-! Items in which the typed text stands as it is written. The typed text and the text of the
item are lowered apart, and a capital sigma is lowered by what stands around it. So the item
matches, and leads if it starts with the typed text, where the sigmas have the same forms in
both. -/

namespace ConfigAssist.Ranking

open Text

variable {α : Type} {key : α → Text} {typed : Text} {pool : List α} {item other : α}

theorem leads_append_iff {back : Text} : Leads typed (typed ++ back) ↔ KeepsSigmas [] typed back :=
  lower_prefix_iff

theorem Leads.matchesIn {k : Text} (h : Leads typed k) : matchesIn typed k = true :=
  matchesIn_iff.mpr h.isInfix

theorem mem_order_of_keepsSigmas {front back : Text} (hitem : item ∈ pool)
    (hkey : key item = front ++ (typed ++ back)) (h : KeepsSigmas front typed back) :
    item ∈ order key typed pool := by
  refine mem_order.mpr ⟨hitem, matchesIn_iff.mpr ?_⟩
  rw [hkey]
  exact h.lower_occurs

theorem mem_order_of_append {more : Text} (h : KeepsSigmas [] typed more)
    (hitem : item ∈ order key (typed ++ more) pool) : item ∈ order key typed pool := by
  obtain ⟨hpool, hmatches⟩ := mem_order.mp hitem
  refine mem_order.mpr ⟨hpool, matchesIn_iff.mpr ?_⟩
  exact (lower_prefix_iff.mpr h).isInfix.trans (matchesIn_iff.mp hmatches)

/-- All places of one item in a list come before all places of another. -/
def StandsBefore (items : List α) (a b : α) : Prop :=
  ∀ i j : Nat, items[i]? = some a → items[j]? = some b → i < j

theorem standsBefore_of_pairwise {R : α → α → Prop} {items : List α} {a b : α}
    (h : items.Pairwise R) (hne : a ≠ b) (hnot : ¬ R b a) : StandsBefore items a b := by
  intro i j hi hj
  obtain ⟨hilt, rfl⟩ := List.getElem?_eq_some_iff.mp hi
  obtain ⟨hjlt, rfl⟩ := List.getElem?_eq_some_iff.mp hj
  rcases Nat.lt_trichotomy i j with hij | rfl | hji
  · exact hij
  · exact absurd rfl hne
  · exact absurd (List.pairwise_iff_getElem.mp h j i hjlt hilt hji) hnot

theorem standsBefore_order (hitem : Leads typed (key item)) (hother : ¬ Leads typed (key other)) :
    StandsBefore (order key typed pool) item other := by
  apply standsBefore_of_pairwise (pairwise_order key typed pool)
  · rintro rfl
    exact hother hitem
  · rintro ((⟨hleads, -⟩ | ⟨htier, -⟩) | hkey)
    · exact hother hleads
    · exact hother (htier.mpr hitem)
    · exact hother (hkey ▸ hitem)

theorem getElem?_of_take {items : List α} {n i : Nat} {a : α} (h : (items.take n)[i]? = some a) :
    i < n ∧ items[i]? = some a := by
  rw [List.getElem?_take] at h
  split at h
  · exact ⟨‹_›, h⟩
  · cases h

theorem StandsBefore.take {items : List α} {a b : α} (h : StandsBefore items a b) (n : Nat) :
    StandsBefore (items.take n) a b :=
  fun i j hi hj => h i j (getElem?_of_take hi).2 (getElem?_of_take hj).2

theorem StandsBefore.mem_take {items : List α} {a b : α} (h : StandsBefore items a b) (ha : a ∈ items)
    {n : Nat} (hb : b ∈ items.take n) : a ∈ items.take n := by
  obtain ⟨i, hi⟩ := List.mem_iff_getElem?.mp ha
  obtain ⟨j, hj⟩ := List.mem_iff_getElem?.mp hb
  obtain ⟨hjn, hj'⟩ := getElem?_of_take hj
  have hij := h i j hi hj'
  rw [List.mem_iff_getElem?]
  exact ⟨i, by rw [List.getElem?_take_of_lt (hij.trans hjn), hi]⟩

/-- An item starts with what was typed, ignoring case, so it is returned in front of all items
that do not, as long as one of those is returned. -/
structure InFirstTier (typed : Text) (pool : List Suggestion) (item : Suggestion) : Prop where
  leads : Leads typed item.insert
  first : ∀ other ∈ rank pool typed, ¬ Leads typed other.insert →
    item ∈ rank pool typed ∧ StandsBefore (rank pool typed) item other

theorem inFirstTier_iff {pool : List Suggestion} {item : Suggestion} (hitem : item ∈ pool) :
    InFirstTier typed pool item ↔ Leads typed item.insert := by
  constructor
  · exact InFirstTier.leads
  · intro hleads
    refine ⟨hleads, fun other hother hnot => ?_⟩
    have hbefore : StandsBefore (order Suggestion.insert typed pool) item other :=
      standsBefore_order hleads hnot
    have hmem : item ∈ order Suggestion.insert typed pool :=
      mem_order.mpr ⟨hitem, hleads.matchesIn⟩
    exact ⟨hbefore.mem_take hmem hother, hbefore.take Suggestion.limit⟩

def lone (text : Text) : Suggestion := { insert := text, kind := .key }

theorem mem_order_lone {text : Text} :
    lone text ∈ order Suggestion.insert typed [lone text] ↔ lower typed <:+: lower text := by
  rw [mem_order, matchesIn_iff]
  simp [lone]

theorem always_kept_iff :
    (∀ pool : List Suggestion, ∀ item ∈ pool, typed <:+: item.insert →
      item ∈ order Suggestion.insert typed pool) ↔ ¬ EndsInSigma typed ∧ ¬ BeginsWithSigma typed := by
  constructor
  · intro h
    have hlone : ∀ text, typed <:+: text → lower typed <:+: lower text := fun text htext =>
      mem_order_lone.mp (h [lone text] (lone text) List.mem_cons_self htext)
    constructor
    · intro hend
      obtain ⟨back, hnot⟩ := hend.exists_not_occurs
      exact hnot (hlone _ (List.prefix_append typed back).isInfix)
    · intro hbegin
      obtain ⟨front, hnot⟩ := hbegin.exists_not_occurs
      exact hnot (hlone _ (List.suffix_append front typed).isInfix)
  · rintro ⟨hend, hbegin⟩ pool item hitem ⟨front, back, hinsert⟩
    have hkey : item.insert = front ++ (typed ++ back) := by rw [← hinsert, List.append_assoc]
    have hkeeps : KeepsSigmas front typed back :=
      keepsSigmas_of (fun h => absurd h hend) fun h => absurd h hbegin
    exact mem_order_of_keepsSigmas hitem hkey hkeeps

theorem always_leading_iff :
    (∀ pool : List Suggestion, ∀ item ∈ pool, typed <+: item.insert → InFirstTier typed pool item) ↔
      ¬ EndsInSigma typed := by
  constructor
  · intro h hend
    obtain ⟨back, hnot⟩ := hend.exists_not_occurs
    have hfirst := h [lone (typed ++ back)] _ List.mem_cons_self (List.prefix_append typed back)
    exact hnot hfirst.leads.isInfix
  · rintro hend pool item hitem ⟨back, hinsert⟩
    rw [inFirstTier_iff hitem, ← hinsert, leads_append_iff]
    exact keepsSigmas_in_front hend back

theorem always_narrowed_iff :
    (∀ (more : Text) (pool : List Suggestion), ∀ item ∈ order Suggestion.insert (typed ++ more) pool,
      item ∈ order Suggestion.insert typed pool) ↔ ¬ EndsInSigma typed := by
  constructor
  · intro h hend
    obtain ⟨more, hnot⟩ := hend.exists_not_occurs
    have hmatches : lone (typed ++ more) ∈
        order Suggestion.insert (typed ++ more) [lone (typed ++ more)] :=
      mem_order_lone.mpr List.infix_rfl
    exact hnot (mem_order_lone.mp (h more _ _ hmatches))
  · intro hend more pool item hitem
    exact mem_order_of_append (keepsSigmas_in_front hend more) hitem

/-- What becomes of the items in which the typed text stands as it is written, and of those that
match when more is typed. -/
structure LiteralMatch (typed : Text) : Prop where
  kept : ∀ pool : List Suggestion, ∀ item ∈ pool, ∀ front back,
    item.insert = front ++ (typed ++ back) → KeepsSigmas front typed back →
      item ∈ order Suggestion.insert typed pool
  leading : ∀ pool : List Suggestion, ∀ item ∈ pool, ∀ back, item.insert = typed ++ back →
    (InFirstTier typed pool item ↔ KeepsSigmas [] typed back)
  narrowed : ∀ more, KeepsSigmas [] typed more → ∀ pool : List Suggestion,
    ∀ item ∈ order Suggestion.insert (typed ++ more) pool, item ∈ order Suggestion.insert typed pool
  always_kept : (∀ pool : List Suggestion, ∀ item ∈ pool, typed <:+: item.insert →
    item ∈ order Suggestion.insert typed pool) ↔ ¬ EndsInSigma typed ∧ ¬ BeginsWithSigma typed
  always_leading : (∀ pool : List Suggestion, ∀ item ∈ pool, typed <+: item.insert →
    InFirstTier typed pool item) ↔ ¬ EndsInSigma typed
  always_narrowed : (∀ more, ∀ pool : List Suggestion,
    ∀ item ∈ order Suggestion.insert (typed ++ more) pool,
      item ∈ order Suggestion.insert typed pool) ↔ ¬ EndsInSigma typed

/-- An item that contains the typed text matches where the sigmas of that text keep their forms. No
item is lost that starts with the typed text, or matches a longer one, if and only if the typed text
does not end in a final sigma. No item at all is lost that contains it if and only if it does not
begin with an open sigma either. -/
theorem literalMatch_rank (typed : Text) : LiteralMatch typed where
  kept _ _ hitem _ _ hinsert := mem_order_of_keepsSigmas hitem hinsert
  leading pool item hitem back hinsert := by
    rw [inFirstTier_iff hitem, hinsert, leads_append_iff]
  narrowed _ hkeeps _ _ := mem_order_of_append hkeeps
  always_kept := always_kept_iff
  always_leading := always_leading_iff
  always_narrowed := always_narrowed_iff

/-- The typed text ends in a final sigma, but no letter follows that sigma in the items. -/
theorem literalMatch_rank_at_end :
    let typed := "ΜΕΣ".toList
    let inner := lone "ΧΜΕΣ".toList
    let leading := lone "ΜΕΣ Η".toList
    let pool := [inner, leading]
    EndsInSigma typed ∧ KeepsSigmas ['Χ'] typed [] ∧ KeepsSigmas [] typed [' ', 'Η'] ∧
      inner ∈ order Suggestion.insert typed pool ∧ InFirstTier typed pool leading ∧
      ¬ Leads typed inner.insert := by
  intro typed inner leading pool
  have hmatch : LiteralMatch typed := literalMatch_rank typed
  have hinner : KeepsSigmas ['Χ'] typed [] := by decide
  have hleading : KeepsSigmas [] typed [' ', 'Η'] := by decide
  have hkept := hmatch.kept pool inner (by simp [pool]) ['Χ'] [] rfl hinner
  have hfirst := (hmatch.leading pool leading (by simp [pool]) [' ', 'Η'] rfl).mpr hleading
  refine ⟨by decide, hinner, hleading, hkept, hfirst, ?_⟩
  unfold Leads
  decide

/-- A word is lost when it is typed up to its sigma, and comes back with the next letter. -/
theorem literal_match_lost :
    let item := lone "ΜΕΣΗ".toList
    let typed := "ΜΕΣ".toList
    typed <+: item.insert ∧ rank [item] typed = [] ∧ ¬ InFirstTier typed [item] item ∧
      rank [item] (typed ++ "Η".toList) = [item] := by
  intro item typed
  refine ⟨by decide, by decide +kernel, ?_, by decide +kernel⟩
  rw [inFirstTier_iff List.mem_cons_self]
  unfold Leads
  decide

end ConfigAssist.Ranking
