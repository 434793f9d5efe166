import ConfigAssist.Proofs.Session.StateText
import ConfigAssist.Session.Reply
import Mathlib.Data.List.Forall2

/-! Replies as a host reads them. The members of an object are found by their names, and
so are categories, markers and kinds. All names stand here once more, as literals, so
what is read does not depend on how a reply is written. -/

namespace ConfigAssist

open Json

namespace Json.Value

variable {α β : Type}

/-- The member of an object with a name. -/
def field? (name : String) : Value → Option Value
  | object members => members.lookup (some name.toList)
  | _ => none

def items? (read : Value → Option α) : Value → Option (List α)
  | array items => items.mapM read
  | _ => none

/-- A natural number of any size. -/
def natural? : Value → Option Nat
  | number lexeme => if lexeme.all Char.isDigit then some (Text.decimalNat lexeme) else none
  | _ => none

def flag? : Value → Option Bool
  | bool b => some b
  | _ => none

/-- What a name in a list of names stands for. -/
def named? (names : List (String × α)) : Value → Option α
  | string (some name) => (names.map fun (n, a) => (n.toList, a)).lookup name
  | _ => none

/-- A field that must be there but may be null. -/
def nullable? (read : Value → Option α) (v : Value) : Option (Option α) := optional? read (some v)

theorem natural?_ofNat (n : Nat) : natural? (ofNat n) = some n := by
  have hnumber : Text.decimalNat (Nat.toDigits 10 n) = n := Nat.ofDigitChars_ten_toDigits
  rw [ofNat, natural?, hnumber, if_pos (all_isDigit_toDigits n)]

theorem nullable?_ofOption {f : α → Value} {read : Value → Option α}
    (hread : ∀ a, read (f a) = some a) (hnull : ∀ a, f a ≠ null) (o : Option α) :
    nullable? read (ofOption f o) = some o :=
  optional?_ofOption (fun a _ => hread a) fun a _ => hnull a

/-- Items that are read one by one are read as a whole. -/
theorem exists_items?_of_forall {f : α → Value} {read : Value → Option β} {R : α → β → Prop}
    {l : List α} (h : ∀ a ∈ l, ∃ b, read (f a) = some b ∧ R a b) :
    ∃ bs, items? read (array (l.map f)) = some bs ∧ List.Forall₂ R l bs := by
  simp only [items?]
  induction l with
  | nil => exact ⟨[], rfl, .nil⟩
  | cons a l ih =>
    rw [List.forall_mem_cons] at h
    obtain ⟨b, hb, hab⟩ := h.1
    obtain ⟨bs, hbs, hrest⟩ := ih h.2
    exact ⟨b :: bs, by simp [hb, hbs], .cons hab hrest⟩

end Json.Value

namespace Wire

def categories : List (String × Category) :=
  [("comment", .comment), ("structural-key", .key), ("structural-tag", .tag),
    ("expression-delimiter", .delimiter), ("expression-keyword", .keyword),
    ("expression-literal", .literal), ("expression-identifier", .identifier),
    ("expression-operator", .operator), ("plain", .plain)]

def markers : List (String × Marker) :=
  [("domain", .domain), ("control", .control), ("include", .includes), ("secret", .secret),
    ("env-var", .envVar), ("input", .input)]

def kinds : List (String × Kind) :=
  [("domain", .domain), ("key", .key), ("value", .value), ("trigger", .trigger),
    ("condition", .condition), ("service", .service), ("tag", .tag), ("platform", .platform),
    ("entity", .entity), ("snippet", .snippet)]

def span? (v : Value) : Option Span := do
  return {
    start := ← v.field? "start" >>= Value.natural?
    stop := ← v.field? "end" >>= Value.natural?
    category := ← v.field? "category" >>= Value.named? categories
    marker := ← v.field? "marker" >>= Value.nullable? (Value.named? markers) }

def spans? (reply : Text) : Option (List Span) :=
  Value.parse? reply >>= Value.field? "spans" >>= Value.items? span?

/-- An item of a reply with its seven fields. -/
structure Item where
  insertText : Text
  displayText : Text
  kind : Text
  className : Text
  description : Option Text
  detail : Option Text
  icon : Option Text
deriving DecidableEq

def item? (v : Value) : Option Item := do
  return {
    insertText := ← v.field? "insert_text" >>= Value.text?
    displayText := ← v.field? "display_text" >>= Value.text?
    kind := ← v.field? "kind" >>= Value.text?
    className := ← v.field? "class_name" >>= Value.text?
    description := ← v.field? "description" >>= Value.nullable? Value.text?
    detail := ← v.field? "detail" >>= Value.nullable? Value.text?
    icon := ← v.field? "icon" >>= Value.nullable? Value.text? }

/-- An item that is sent for a suggestion. -/
structure Item.IsFor (s : Suggestion) (item : Item) : Prop where
  insertText : item.insertText = s.insert
  displayText : item.displayText = s.display
  kind : ∃ name, (name, s.kind) ∈ kinds ∧ item.kind = name.toList ∧
    item.className = "ha-hint-".toList ++ name.toList
  description : item.description = s.description
  detail : item.detail = s.detail
  icon : item.icon = s.icon

def position? (v : Value) : Option Position := do
  return {
    line := ← v.field? "line" >>= Value.natural?
    column := ← v.field? "character" >>= Value.natural? }

def range? (v : Value) : Option Range := do
  return {
    start := ← v.field? "start" >>= position?
    stop := ← v.field? "end" >>= position? }

structure Completion where
  items : List Item
  replace : Range
  sequence : Option Nat
  stale : Bool
deriving DecidableEq

def completion? (reply : Text) : Option Completion := do
  let v ← Value.parse? reply
  return {
    items := ← v.field? "items" >>= Value.items? item?
    replace := ← v.field? "replace" >>= range?
    sequence := ← v.field? "sequence" >>= Value.nullable? Value.natural?
    stale := ← v.field? "stale" >>= Value.flag? }

end Wire

theorem Span.exact_toJson (span : Span) : span.toJson.Exact := by
  apply Value.Exact.record
  exact ⟨.nat _, .nat _, .ofString _, .ofOption (fun _ => .ofString _) _⟩

theorem Suggestion.exact_toJson (s : Suggestion) : s.toJson.Exact := by
  apply Value.Exact.record
  exact ⟨.text _, .text _, .ofString _, .ofString _, .ofOption .text _, .ofOption .text _,
    .ofOption .text _⟩

theorem Position.exact_toJson (p : Position) : p.toJson.Exact := by
  apply Value.Exact.record
  exact ⟨.nat _, .nat _⟩

theorem Range.exact_toJson (r : Range) : r.toJson.Exact := by
  apply Value.Exact.record
  exact ⟨r.start.exact_toJson, r.stop.exact_toJson⟩

theorem Json.Value.exact_array_map {α : Type} {f : α → Value} (hf : ∀ a, (f a).Exact) (l : List α) :
    (array (l.map f)).Exact := by
  refine .array fun v hv => ?_
  obtain ⟨a, -, rfl⟩ := List.mem_map.mp hv
  exact hf a

theorem Reply.exact_coloring (spans : List Span) (exit : State) :
    (coloring spans exit).toJson.Exact := by
  apply Value.Exact.record
  exact ⟨Value.exact_array_map Span.exact_toJson spans, exit.exact_toJson⟩

theorem Reply.exact_answer (a : Answer) : (answer a).toJson.Exact := by
  apply Value.Exact.record
  exact ⟨Value.exact_array_map Suggestion.exact_toJson a.items, a.replace.exact_toJson,
    .ofOption .nat _, .bool _⟩

namespace Wire

theorem span?_toJson (span : Span) : span? span.toJson = some span := by
  have hstart : span.toJson.field? "start" = some (.ofNat span.start) := rfl
  have hstop : span.toJson.field? "end" = some (.ofNat span.stop) := rfl
  have hcategory : span.toJson.field? "category" = some (.ofString span.category.name) := rfl
  have hmarker : span.toJson.field? "marker" =
      some (.ofOption (fun m => .ofString m.name) span.marker) := rfl
  have hcategoryName : ∀ c : Category, Value.named? categories (.ofString c.name) = some c := by
    intro c
    cases c <;> rfl
  have hmarkerName : ∀ m : Marker, Value.named? markers (.ofString m.name) = some m := by
    intro m
    cases m <;> rfl
  have hnullable := Value.nullable?_ofOption hmarkerName (fun _ => nofun) span.marker
  simp [span?, hstart, hstop, hcategory, hmarker, Value.natural?_ofNat, hcategoryName, hnullable]

theorem spans?_coloring (spans : List Span) (exit : State) :
    spans? (Reply.coloring spans exit).toText = some spans := by
  have hparse := Value.parse?_render (Reply.exact_coloring spans exit)
  have hfield : (Reply.coloring spans exit).toJson.field? "spans" =
      some (.array (spans.map Span.toJson)) := rfl
  obtain ⟨read, hread, hsame⟩ := Value.exists_items?_of_forall (l := spans) (R := Eq)
    fun span _ => ⟨span, span?_toJson span, rfl⟩
  rw [List.forall₂_eq_eq_eq] at hsame
  subst hsame
  simp [spans?, Reply.toText, hparse, hfield, hread]

theorem exists_item?_toJson (s : Suggestion) :
    ∃ item, item? s.toJson = some item ∧ Item.IsFor s item := by
  have hfields : s.toJson.field? "insert_text" = some (.ofText s.insert) ∧
      s.toJson.field? "display_text" = some (.ofText s.display) ∧
      s.toJson.field? "kind" = some (.ofString s.kind.name) ∧
      s.toJson.field? "class_name" = some (.ofString ("ha-hint-" ++ s.kind.name)) ∧
      s.toJson.field? "description" = some (.ofOption .ofText s.description) ∧
      s.toJson.field? "detail" = some (.ofOption .ofText s.detail) ∧
      s.toJson.field? "icon" = some (.ofOption .ofText s.icon) :=
    ⟨rfl, rfl, rfl, rfl, rfl, rfl, rfl⟩
  obtain ⟨hinsert, hdisplay, hkind, hclass, hdescription, hdetail, hicon⟩ := hfields
  have htext : ∀ t, Value.text? (.ofText t) = some t := fun _ => rfl
  have hnullable := Value.nullable?_ofOption htext fun _ => nofun
  have hname : (s.kind.name, s.kind) ∈ kinds := by cases s.kind <;> decide
  refine ⟨{ insertText := s.insert, displayText := s.display, kind := s.kind.name.toList
            className := ("ha-hint-" ++ s.kind.name).toList, description := s.description
            detail := s.detail, icon := s.icon },
    ?_, rfl, rfl, ⟨s.kind.name, hname, rfl, String.toList_append⟩, rfl, rfl, rfl⟩
  simp [item?, hinsert, hdisplay, hkind, hclass, hdescription, hdetail, hicon, hnullable,
    Value.ofString, htext]

theorem range?_toJson (r : Range) : range? r.toJson = some r := by
  have hposition : ∀ p : Position, position? p.toJson = some p := by
    intro p
    have hline : p.toJson.field? "line" = some (.ofNat p.line) := rfl
    have hcolumn : p.toJson.field? "character" = some (.ofNat p.column) := rfl
    simp [position?, hline, hcolumn, Value.natural?_ofNat]
  have hstart : r.toJson.field? "start" = some r.start.toJson := rfl
  have hstop : r.toJson.field? "end" = some r.stop.toJson := rfl
  simp [range?, hstart, hstop, hposition]

/-- A host reads an item for every suggestion of an answer, in their order. -/
theorem exists_completion?_answer (a : Answer) :
    ∃ sent, completion? (Reply.answer a).toText = some sent ∧
      List.Forall₂ Item.IsFor a.items sent.items ∧ sent.replace = a.replace ∧
      sent.sequence = a.sequence ∧ sent.stale = a.stale := by
  have hparse := Value.parse?_render (Reply.exact_answer a)
  have hfields : (Reply.answer a).toJson.field? "items" =
        some (.array (a.items.map Suggestion.toJson)) ∧
      (Reply.answer a).toJson.field? "replace" = some a.replace.toJson ∧
      (Reply.answer a).toJson.field? "sequence" = some (.ofOption .ofNat a.sequence) ∧
      (Reply.answer a).toJson.field? "stale" = some (.bool a.stale) := ⟨rfl, rfl, rfl, rfl⟩
  obtain ⟨hitems, hreplace, hsequence, hstale⟩ := hfields
  obtain ⟨items, hread, hshown⟩ := Value.exists_items?_of_forall (l := a.items)
    fun s _ => exists_item?_toJson s
  have hnullable := Value.nullable?_ofOption Value.natural?_ofNat (fun _ => nofun) a.sequence
  refine ⟨{ items, replace := a.replace, sequence := a.sequence, stale := a.stale }, ?_, hshown,
    rfl, rfl, rfl⟩
  simp [completion?, Reply.toText, hparse, hitems, hread, hreplace, range?_toJson, hsequence,
    hnullable, hstale, Value.flag?]

end Wire

end ConfigAssist
