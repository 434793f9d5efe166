import ConfigAssist.Json.Reader
import ConfigAssist.Proofs.Json.Token

/-! Reading what was written. A value is read where it stands, with any arrays and
objects open around it and any text behind it that ends a value. -/

namespace ConfigAssist.Json

open Token

namespace Value

/-- Values that are written as they are: their numbers are natural, and all their
strings have a text. -/
inductive Exact : Value → Prop
  | null : Exact null
  | bool (b : Bool) : Exact (bool b)
  | nat (n : Nat) : Exact (ofNat n)
  | text (t : Text) : Exact (ofText t)
  | array {items : List Value} (hitems : ∀ v ∈ items, Exact v) : Exact (array items)
  | object {members : List (Text × Value)} (hmembers : ∀ m ∈ members, Exact m.2) :
      Exact (object (members.map fun m => (some m.1, m.2)))

end Value

theorem Token.readAll_drop (skip : Nat) (t : Text) : readAll skip t = readAll 0 (t.drop skip) := by
  induction t generalizing skip with
  | nil => simp [readAll]
  | cons c cs ih =>
    cases skip with
    | zero => rfl
    | succ skip => exact ih skip

theorem Token.readAll_cons {c : Char} {cs : Text} {token : Token} {further : Nat}
    (hread : read c cs = some (some token, further)) :
    readAll 0 (c :: cs) = (readAll 0 (cs.drop further)).map (token :: ·) := by
  rw [← readAll_drop further]
  cases hrest : readAll further cs <;> simp [readAll, hread, hrest]

namespace Reader

/-- The reader behind the rest of a text. -/
def readText (r : Reader) (t : Text) : Option Reader := do
  (← Token.readAll 0 t).foldlM step r

theorem readText_cons {c : Char} {cs : Text} {token : Token} {further : Nat}
    (hread : Token.read c cs = some (some token, further)) (r : Reader) :
    r.readText (c :: cs) = r.step token >>= (·.readText (cs.drop further)) := by
  simp only [readText, readAll_cons hread]
  cases Token.readAll 0 (cs.drop further) <;> cases hstep : r.step token <;> simp [hstep]

theorem readText_punctuation {c : Char} {token : Token} (hspace : isSpace c = false)
    (hlookup : punctuation.lookup c = some token) (r : Reader) (rest : Text) :
    r.readText (c :: rest) = r.step token >>= (·.readText rest) := by
  have hread : Token.read c rest = some (some token, 0) := by simp [Token.read, hspace, hlookup]
  exact readText_cons hread r

theorem readText_quote (t rest : Text) (r : Reader) :
    r.readText (quote t ++ rest) = r.step (.atom (.ofText t)) >>= (·.readText rest) := by
  have hsplit : quote t ++ rest = '"' :: (t.flatMap escape ++ '"' :: rest) := by simp [quote]
  have hdrop : (t.flatMap escape ++ '"' :: rest).drop ((t.flatMap escape).length + 1) = rest := by
    simp [List.drop_append]
  rw [hsplit, readText_cons (read_quoted t rest), hdrop]

theorem readText_number (n : Nat) {rest : Text} (hrest : EndsValue rest) (r : Reader) :
    r.readText (Nat.toDigits 10 n ++ rest) = r.step (.atom (.ofNat n)) >>= (·.readText rest) := by
  obtain ⟨d, ds, hdigits, hread⟩ := read_toDigits n hrest
  rw [hdigits, List.cons_append, readText_cons hread, List.drop_left]

def AwaitsValue (r : Reader) : Prop := r.focus = .value ∨ r.focus = .firstItem

theorem step_atom {r : Reader} (h : r.AwaitsValue) (v : Value) :
    r.step (.atom v) = some { r with focus := .done v } := by
  obtain ⟨stack, focus⟩ := r
  rcases h with rfl | rfl <;> rfl

theorem step_openArray {r : Reader} (h : r.AwaitsValue) :
    r.step .openArray = some { stack := .array [] :: r.stack, focus := .firstItem } := by
  obtain ⟨stack, focus⟩ := r
  rcases h with rfl | rfl <;> rfl

theorem step_openObject {r : Reader} (h : r.AwaitsValue) :
    r.step .openObject = some { stack := .object [] none :: r.stack, focus := .firstName } := by
  obtain ⟨stack, focus⟩ := r
  rcases h with rfl | rfl <;> rfl

/-- A value that is read where it was written. -/
def Reads (v : Value) : Prop :=
  ∀ (r : Reader) (rest : Text), r.AwaitsValue → EndsValue rest →
    r.readText (v.render ++ rest) = { r with focus := .done v }.readText rest

theorem endsValue_renderItems (vs : List Value) (rest : Text) :
    EndsValue (Value.renderItems vs ++ rest) := by
  cases vs <;> simp [EndsValue, Value.renderItems]

theorem endsValue_renderMembers (members : List (Option Text × Value)) (rest : Text) :
    EndsValue (Value.renderMembers members ++ rest) := by
  cases members <;> simp [EndsValue, Value.renderMembers]

theorem readText_renderItems {vs : List Value} (hvs : ∀ v ∈ vs, Reads v) (stack : List Frame)
    (before : List Value) (v : Value) (rest : Text) :
    readText ⟨.array before :: stack, .done v⟩ (Value.renderItems vs ++ rest) =
      readText ⟨stack, .done (.array (before.reverse ++ v :: vs))⟩ rest := by
  induction vs generalizing before v with
  | nil =>
    rw [Value.renderItems, List.singleton_append, readText_punctuation rfl rfl]
    simp [step]
  | cons w vs ih =>
    have hw := hvs w List.mem_cons_self
    have hrest := ih (fun u hu => hvs u (List.mem_cons_of_mem w hu)) (v :: before) w
    have hcomma : readText ⟨.array before :: stack, .done v⟩
        (Value.renderItems (w :: vs) ++ rest) =
        readText ⟨.array (v :: before) :: stack, .value⟩ (w.render ++ (Value.renderItems vs ++ rest)) := by
      rw [Value.renderItems, List.append_assoc, List.cons_append, readText_punctuation rfl rfl]
      rfl
    rw [hcomma, hw _ _ (.inl rfl) (endsValue_renderItems vs rest), hrest]
    simp

theorem readText_member {v : Value} (hv : Reads v) (stack : List Frame)
    (before : List (Option Text × Value)) {focus : Focus}
    (hfocus : focus = .firstName ∨ focus = .name) (name rest : Text) (hrest : EndsValue rest) :
    readText ⟨.object before none :: stack, focus⟩ (quote name ++ ':' :: (v.render ++ rest)) =
      readText ⟨.object before (some name) :: stack, .done v⟩ rest := by
  have hstep : step ⟨.object before none :: stack, focus⟩ (.atom (.ofText name)) =
      some ⟨.object before (some name) :: stack, .colon⟩ := by
    rcases hfocus with rfl | rfl <;> rfl
  have hcolon : readText ⟨.object before (some name) :: stack, .colon⟩ (':' :: (v.render ++ rest)) =
      readText ⟨.object before (some name) :: stack, .value⟩ (v.render ++ rest) := by
    rw [readText_punctuation rfl rfl]
    rfl
  rw [readText_quote, hstep]
  simp only [Option.bind_eq_bind, Option.bind_some]
  rw [hcolon, hv _ _ (.inl rfl) hrest]

theorem readText_renderMembers {members : List (Text × Value)} (hmembers : ∀ m ∈ members, Reads m.2)
    (stack : List Frame) (before : List (Option Text × Value)) (name : Text) (v : Value)
    (rest : Text) :
    readText ⟨.object before (some name) :: stack, .done v⟩
        (Value.renderMembers (members.map fun m => (some m.1, m.2)) ++ rest) =
      readText ⟨stack, .done (.object
        (before.reverse ++ (some name, v) :: members.map fun m => (some m.1, m.2)))⟩ rest := by
  induction members generalizing before name v with
  | nil =>
    rw [List.map_nil, Value.renderMembers, List.singleton_append, readText_punctuation rfl rfl]
    simp [step]
  | cons m members ih =>
    obtain ⟨next, w⟩ := m
    have hw := hmembers (next, w) List.mem_cons_self
    have hrest := ih (fun m hm => hmembers m (List.mem_cons_of_mem _ hm)) ((some name, v) :: before)
      next w
    have hcomma : readText ⟨.object before (some name) :: stack, .done v⟩
        (Value.renderMembers (((next, w) :: members).map fun m => (some m.1, m.2)) ++ rest) =
        readText ⟨.object ((some name, v) :: before) none :: stack, .name⟩ (quote next ++ ':' ::
          (w.render ++ (Value.renderMembers (members.map fun m => (some m.1, m.2)) ++ rest))) := by
      rw [List.map_cons, Value.renderMembers, List.append_assoc, List.append_assoc, List.cons_append,
        List.cons_append, readText_punctuation rfl rfl]
      rfl
    rw [hcomma, readText_member hw _ _ (.inr rfl) _ _ (endsValue_renderMembers _ rest), hrest]
    simp

theorem readText_literal {w : Text} {v : Value} {c : Char} {cs : Text}
    (hw : w = c :: cs) (h : ∀ rest, Token.read c (cs ++ rest) = some (some (.atom v), cs.length))
    (r : Reader) (rest : Text) :
    r.readText (w ++ rest) = r.step (.atom v) >>= (·.readText rest) := by
  rw [hw, List.cons_append, readText_cons (h rest), List.drop_left]

theorem reads_of_exact {v : Value} (h : v.Exact) : Reads v := by
  induction h with
  | null =>
    intro r rest hr _
    rw [readText_literal (w := Value.render .null) rfl (fun _ => rfl), step_atom hr]
    rfl
  | bool b =>
    intro r rest hr _
    cases b with
    | true =>
      rw [readText_literal (w := Value.render (.bool true)) rfl (fun _ => rfl), step_atom hr]
      rfl
    | false =>
      rw [readText_literal (w := Value.render (.bool false)) rfl (fun _ => rfl), step_atom hr]
      rfl
  | nat n =>
    intro r rest hr hrest
    rw [Value.ofNat, Value.render, readText_number n hrest, step_atom hr]
    rfl
  | text t =>
    intro r rest hr _
    rw [Value.ofText, Value.render, Option.getD_some, readText_quote, step_atom hr]
    rfl
  | @array items hitems ih =>
    intro r rest hr _
    cases items with
    | nil =>
      rw [Value.render, List.cons_append, readText_punctuation rfl rfl, step_openArray hr]
      simp only [Option.bind_eq_bind, Option.bind_some, List.singleton_append]
      rw [readText_punctuation rfl rfl]
      rfl
    | cons v vs =>
      have hv := ih v List.mem_cons_self
      have hvs := readText_renderItems (fun w hw => ih w (List.mem_cons_of_mem v hw)) r.stack [] v rest
      rw [Value.render, List.append_assoc, List.cons_append, readText_punctuation rfl rfl,
        step_openArray hr]
      simp only [Option.bind_eq_bind, Option.bind_some]
      rw [hv _ _ (.inr rfl) (endsValue_renderItems vs rest), hvs]
      rfl
  | @object members hmembers ih =>
    intro r rest hr _
    cases members with
    | nil =>
      rw [List.map_nil, Value.render, List.cons_append, readText_punctuation rfl rfl, step_openObject hr]
      simp only [Option.bind_eq_bind, Option.bind_some, List.singleton_append]
      rw [readText_punctuation rfl rfl]
      rfl
    | cons m members =>
      obtain ⟨name, v⟩ := m
      have hv := ih (name, v) List.mem_cons_self
      have hmembers := readText_renderMembers (fun m hm => ih m (List.mem_cons_of_mem _ hm)) r.stack []
        name v rest
      rw [List.map_cons, Value.render, List.append_assoc, List.append_assoc, List.cons_append,
        List.cons_append, readText_punctuation rfl rfl, step_openObject hr]
      simp only [Option.bind_eq_bind, Option.bind_some, Option.getD_some]
      rw [readText_member hv _ _ (.inl rfl) _ _ (endsValue_renderMembers _ rest), hmembers]
      rfl

end Reader

theorem Value.parse?_render {v : Value} (h : v.Exact) : parse? v.render = some v := by
  have hread := Reader.reads_of_exact h {} [] (.inl rfl) (by simp [EndsValue])
  have hparse (t : Text) : parse? t = Reader.readText {} t >>= Reader.result? := by
    simp only [parse?, Reader.readText, Token.ofText?]
    cases Token.readAll 0 t <;> rfl
  rw [List.append_nil] at hread
  rw [hparse, hread]
  rfl

end ConfigAssist.Json
