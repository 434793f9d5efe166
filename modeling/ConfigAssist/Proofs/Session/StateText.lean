import ConfigAssist.Proofs.Json.RoundTrip
import ConfigAssist.Session.StateText
import Mathlib.Data.List.Basic

/-! States on the wire. The JSON of a state is read as that state, as long as its
indentations are numbers of 32 bits. -/

namespace ConfigAssist

open Json

namespace Json.Value

theorem Exact.ofString (s : String) : Exact (Value.ofString s) := .text s.toList

theorem Exact.ofOption {α : Type} {f : α → Value} (hf : ∀ a, Exact (f a)) (o : Option α) :
    Exact (Value.ofOption f o) := by
  cases o with
  | none => exact .null
  | some a => exact hf a

theorem Exact.record {members : List (String × Value)}
    (hmembers : members.Forall fun m => Exact m.2) : Exact (Value.record members) := by
  have hobject : Value.record members =
      Value.object ((members.map fun m => (m.1.toList, m.2)).map fun m => (some m.1, m.2)) := by
    rw [List.map_map]
    rfl
  rw [hobject]
  refine .object fun m hm => ?_
  obtain ⟨n, hn, rfl⟩ := List.mem_map.mp hm
  exact List.forall_iff_forall_mem.mp hmembers n hn

theorem optional?_ofOption {α : Type} {f : α → Value} {read : Value → Option α} {o : Option α}
    (hread : ∀ a ∈ o, read (f a) = some a) (hnull : ∀ a ∈ o, f a ≠ null) :
    optional? read (some (ofOption f o)) = some o := by
  cases o with
  | none => rfl
  | some a =>
    have hvalue := hnull a rfl
    have hsome := hread a rfl
    cases hf : f a with
    | null => exact absurd hf hvalue
    | _ =>
      rw [hf] at hsome
      simp [ofOption, optional?, hf, hsome]

end Json.Value

/-- The indentations in a state are numbers of 32 bits. -/
structure State.Bounded (s : State) : Prop where
  announced : ∀ n ∈ s.scalars.announced, n ≤ bound32
  block : ∀ n ∈ s.scalars.block, n ≤ bound32

theorem Yaml.Scalars.exact_toJson (s : Scalars) : s.toJson.Exact := by
  apply Value.Exact.record
  exact ⟨.ofOption .nat _, .ofOption .nat _, .ofOption (fun _ => .ofString _) _⟩

theorem State.exact_toJson (s : State) : s.toJson.Exact := by
  apply Value.Exact.record
  exact ⟨s.scalars.exact_toJson, .ofString _⟩

theorem Yaml.Scalars.ofJson?_toJson {s : Scalars} (hannounced : ∀ n ∈ s.announced, n ≤ bound32)
    (hblock : ∀ n ∈ s.block, n ≤ bound32) : ofJson? s.toJson = some s := by
  have hfields : s.toJson.fields? [["pending_block_scalar"], ["block_scalar"], ["quote"]] 0 =
      some [some (.ofOption .ofNat s.announced), some (.ofOption .ofNat s.block),
        some (.ofOption (fun q => .ofString q.name) s.quote)] := rfl
  have hnat {o : Option Nat} (ho : ∀ n ∈ o, n ≤ bound32) :
      Value.optional? (Value.nat? bound32) (some (.ofOption .ofNat o)) = some o :=
    Value.optional?_ofOption (fun n hn => Value.nat?_ofNat (ho n hn)) fun _ _ => nofun
  have hquote : Value.optional? (Value.case? Quote.cases)
      (some (.ofOption (fun q => .ofString q.name) s.quote)) = some s.quote :=
    Value.optional?_ofOption (fun q _ => by cases q <;> rfl) fun _ _ => nofun
  simp [ofJson?, hfields, hnat hannounced, hnat hblock, hquote]

theorem State.ofJson?_toJson {s : State} (h : s.Bounded) : ofJson? s.toJson = some s := by
  have hfields : s.toJson.fields? [["structural"], ["mode"]] 0 =
      some [some s.scalars.toJson, some (.ofString (modeName s.template))] := rfl
  have hscalars := Yaml.Scalars.ofJson?_toJson h.announced h.block
  have hmode : Value.case? modeCases (.ofString (modeName s.template)) = some s.template := by
    rcases s.template with _ | d
    · rfl
    · cases d <;> rfl
  simp [ofJson?, hfields, Value.withDefault, hscalars, hmode]

theorem State.ofText?_toText {s : State} (h : s.Bounded) : ofText? s.toText = some s := by
  have hblank : Text.isBlank s.toText = false := rfl
  have hparse : Value.parse? s.toText = some s.toJson := Value.parse?_render s.exact_toJson
  have hread := ofJson?_toJson h
  cases hjson : s.toJson with
  | null => cases hjson
  | _ =>
    rw [hjson] at hparse hread
    simp [ofText?, hblank, hparse, hread]

end ConfigAssist
