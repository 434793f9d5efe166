import ConfigAssist.Proofs.Suggest.Registry
import ConfigAssist.Session.Call
import Mathlib.Data.List.Induction

/-! Sessions and their histories. A session is a summary of the calls that went
through: the last schema, the last list of entities, and the highest place in the
sequence of requests. Calls that fail or come too late, and those that only ask, are
not part of it and can be left out. -/

namespace ConfigAssist

structure Exchange where
  call : Call
  outcome : Except SessionError Reply
deriving DecidableEq

namespace Exchange

/-- The schema that was loaded. -/
def schema? (x : Exchange) : Option Schema :=
  match x.call, x.outcome with
  | .schema file, .ok _ => (Schema.ofFile file).toOption
  | _, _ => none

/-- The records of entities that were taken in. -/
def records? (x : Exchange) : Option (List Entity) :=
  match x.call, x.outcome with
  | .entities list, .ok _ => Entity.listOfText? list
  | _, _ => none

/-- The place in the sequence of a request that was answered. -/
def sequence? (x : Exchange) : Option Nat :=
  match x.call, x.outcome with
  | .completion request, .ok _ => Request.ofText? request >>= Request.sequence
  | _, _ => none

/-- Calls that fail, requests that come too late, and calls that only ask. -/
def IsNeutral (x : Exchange) : Prop :=
  (∃ e, x.outcome = .error e) ∨ (∃ a, x.outcome = .ok (.answer a) ∧ a.stale = true) ∨
    (∃ line state, x.call = .classify line state) ∨ x.call = .status

end Exchange

namespace Session

def history (s : Session) (calls : List Call) : List Exchange :=
  List.zipWith Exchange.mk calls (s.run calls)

/-- The session that a history leads to: what was loaded and taken in last, and the
highest place of a request that was answered. -/
def summed (h : List Exchange) : Session where
  schema := (h.filterMap Exchange.schema?).getLast?.getD .builtin
  registry := { entities := Entity.firstValid ((h.filterMap Exchange.records?).getLast?.getD []) }
  latest := (h.filterMap Exchange.sequence?).max?

/-- What a call can do to a session. -/
inductive Called (s : Session) : Call → Except SessionError Reply → Session → Prop
  | failed (c : Call) (e : SessionError) : Called s c (.error e) s
  | classify (line state : Text) (spans : List Span) (exit : State) :
      Called s (.classify line state) (.ok (.coloring spans exit)) s
  | late {request : Text} {r : Request} (hr : Request.ofText? request = some r)
      (hlate : s.isStale r = true) :
      Called s (.completion request) (.ok (.answer (staleAnswer r))) s
  | answered {request : Text} {r : Request} {a : Answer}
      (hr : Request.ofText? request = some r) (htime : s.isStale r = false)
      (ha : a.stale = false) :
      Called s (.completion request) (.ok (.answer a)) { s with latest := r.sequence <|> s.latest }
  | entities {list : Text} {records : List Entity} (accepted dropped : Nat)
      (hlist : Entity.listOfText? list = some records) :
      Called s (.entities list) (.ok (.intake accepted dropped)) (s.setEntities records)
  | schema {file : Text} {schema : Schema} (snippets : Nat) (sentinel : Text)
      (hfile : Schema.ofFile file = .ok schema) :
      Called s (.schema file) (.ok (.schema snippets sentinel)) { s with schema }
  | status (entities snippets : Nat) (sentinel : Text) (latest : Option Nat) :
      Called s .status (.ok (.status entities snippets sentinel latest)) s

theorem called_call (s : Session) (c : Call) : Called s c (s.call c).1 (s.call c).2 := by
  cases c with
  | classify line state =>
    cases hstate : State.ofText? state with
    | none =>
      simp only [call, perform, hstate]
      exact .failed _ _
    | some entry =>
      simp only [call, perform, hstate]
      exact .classify _ _ _ _
  | completion request =>
    cases hr : Request.ofText? request with
    | none =>
      simp only [call, perform, hr]
      exact .failed _ _
    | some r =>
      cases hline : (Text.lines r.text)[r.line]? with
      | none =>
        simp only [call, perform, hr, complete, hline, Except.map]
        exact .failed _ _
      | some line =>
        cases hlate : s.isStale r with
        | true =>
          simp only [call, perform, hr, complete, hline, hlate, if_true, Except.map]
          exact .late hr hlate
        | false =>
          simp only [call, perform, hr, complete, hline, hlate, Bool.false_eq_true, if_false,
            Except.map]
          exact .answered hr hlate rfl
  | entities list =>
    cases hlist : Entity.listOfText? list with
    | none =>
      simp only [call, perform, hlist]
      exact .failed _ _
    | some records =>
      simp only [call, perform, hlist]
      exact .entities _ _ hlist
  | schema file =>
    cases hfile : Schema.ofFile file with
    | error e =>
      have hload : s.loadSchema file = .error e := by rw [loadSchema, hfile]; rfl
      simp only [call, perform, hload]
      exact .failed _ _
    | ok schema =>
      have hload : s.loadSchema file = .ok { s with schema } := by rw [loadSchema, hfile]; rfl
      simp only [call, perform, hload]
      exact .schema _ _ hfile
  | status => exact .status _ _ _ _

theorem history_cons (s : Session) (c : Call) (cs : List Call) :
    s.history (c :: cs) = ⟨c, (s.call c).1⟩ :: (s.call c).2.history cs := rfl

theorem history_append (s : Session) (cs ds : List Call) :
    s.history (cs ++ ds) = s.history cs ++ (s.after cs).history ds := by
  induction cs generalizing s with
  | nil => rfl
  | cons c cs ih => exact congrArg (_ :: ·) (ih _)

theorem after_append (s : Session) (cs ds : List Call) :
    s.after (cs ++ ds) = (s.after cs).after ds := by simp [after]

theorem max?_concat_of_some {l : List Nat} {m : Nat} (h : l.max? = some m) (n : Nat) :
    (l ++ [n]).max? = some (max m n) := by
  cases l with
  | nil => cases h
  | cons x xs =>
    rw [List.max?_cons', Option.some.injEq] at h
    rw [List.cons_append, List.max?_cons', List.foldl_append, h]
    rfl

theorem summed_concat_eq (h : List Exchange) (x : Exchange) :
    summed (h ++ [x]) =
      { schema := x.schema?.getD (summed h).schema
        registry := x.records?.elim (summed h).registry .ofRecords
        latest := (h.filterMap Exchange.sequence? ++ x.sequence?.toList).max? } := by
  have hconcat {α : Type} (f : Exchange → Option α) :
      (h ++ [x]).filterMap f = h.filterMap f ++ (f x).toList := by
    cases hx : f x <;> simp [hx]
  cases hschema : x.schema? <;> cases hrecords : x.records? <;>
    simp [summed, hconcat, hschema, hrecords, Registry.ofRecords_eq]

theorem summed_concat_of_none {h : List Exchange} {x : Exchange} (hschema : x.schema? = none)
    (hrecords : x.records? = none) (hsequence : x.sequence? = none) :
    summed (h ++ [x]) = summed h := by
  rw [summed_concat_eq, hschema, hrecords, hsequence, Option.toList_none, List.append_nil]
  rfl

theorem sequence?_answer {request : Text} {r : Request} (hr : Request.ofText? request = some r)
    (a : Answer) : Exchange.sequence? ⟨.completion request, .ok (.answer a)⟩ = r.sequence := by
  simp [Exchange.sequence?, hr]

theorem summed_concat {h : List Exchange} {c : Call} {o : Except SessionError Reply} {next : Session}
    (hcall : Called (summed h) c o next) : summed (h ++ [⟨c, o⟩]) = next := by
  cases hcall with
  | failed c e => cases c <;> exact summed_concat_of_none rfl rfl rfl
  | classify => exact summed_concat_of_none rfl rfl rfl
  | @late request r hr hlate =>
    cases hn : r.sequence with
    | none => simp [isStale, hn] at hlate
    | some n =>
      cases hm : (summed h).latest with
      | none => simp [isStale, hn, hm] at hlate
      | some m =>
        have hlt : n < m := by simpa [isStale, hn, hm] using hlate
        rw [summed_concat_eq, sequence?_answer hr, hn, Option.toList_some,
          max?_concat_of_some hm, Nat.max_eq_left (Nat.le_of_lt hlt), ← hm]
        rfl
  | @answered request r a hr htime ha =>
    rw [summed_concat_eq, sequence?_answer hr]
    cases hn : r.sequence with
    | none =>
      rw [Option.toList_none, List.append_nil]
      rfl
    | some n =>
      cases hm : (summed h).latest with
      | none =>
        have hnone : h.filterMap Exchange.sequence? = [] := List.max?_eq_none_iff.mp hm
        rw [hnone]
        rfl
      | some m =>
        have hle : m ≤ n := by simpa [isStale, hn, hm] using htime
        rw [Option.toList_some, max?_concat_of_some hm, Nat.max_eq_right hle]
        rfl
  | entities accepted dropped hlist =>
    rw [summed_concat_eq]
    simp [setEntities, summed, Exchange.schema?, Exchange.records?, Exchange.sequence?, hlist]
  | schema snippets sentinel hfile =>
    rw [summed_concat_eq]
    simp [summed, Exchange.schema?, Exchange.records?, Exchange.sequence?, hfile, Except.toOption]
  | status => exact summed_concat_of_none rfl rfl rfl

theorem after_eq_summed (calls : List Call) :
    initial.after calls = summed (initial.history calls) := by
  induction calls using List.reverseRecOn with
  | nil => rfl
  | append_singleton calls c ih =>
    have hcall := called_call (initial.after calls) c
    rw [ih] at hcall
    rw [after_append, history_append, ih]
    exact (summed_concat hcall).symm

/-- A history up to an exchange is one of its own, and it settles the outcome. -/
theorem history_split {s : Session} {calls : List Call} {earlier later : List Exchange}
    {x : Exchange} (h : s.history calls = earlier ++ x :: later) :
    s.history (earlier.map Exchange.call) = earlier ∧
      x.outcome = ((s.after (earlier.map Exchange.call)).call x.call).1 := by
  induction earlier generalizing s calls with
  | nil =>
    cases calls with
    | nil => cases h
    | cons c cs =>
      obtain ⟨rfl, _⟩ := List.cons.inj h
      exact ⟨rfl, rfl⟩
  | cons y ys ih =>
    cases calls with
    | nil => cases h
    | cons c cs =>
      obtain ⟨rfl, hrest⟩ := List.cons.inj h
      obtain ⟨hearlier, houtcome⟩ := ih hrest
      exact ⟨congrArg (_ :: ·) hearlier, houtcome⟩

theorem isStale_summed_iff (h : List Exchange) (r : Request) :
    (summed h).isStale r = true ↔
      ∃ n ∈ r.sequence, ∃ m ∈ h.filterMap Exchange.sequence?, n < m := by
  cases hn : r.sequence with
  | none => simp [isStale, hn]
  | some n =>
    cases hm : (summed h).latest with
    | none =>
      have hnone : h.filterMap Exchange.sequence? = [] := List.max?_eq_none_iff.mp hm
      simp only [isStale, hn, hm, hnone]
      simp
    | some m =>
      obtain ⟨hmem, hmax⟩ := List.max?_eq_some_iff.mp hm
      simp only [isStale, hn, hm, decide_eq_true_eq]
      constructor
      · intro hlt
        exact ⟨n, rfl, m, hmem, hlt⟩
      · rintro ⟨k, hk, l, hl, hlt⟩
        cases hk
        exact Nat.lt_of_lt_of_le hlt (hmax l hl)

theorem Called.stale_iff {s next : Session} {request : Text} {r : Request} {a : Answer}
    (h : Called s (.completion request) (.ok (.answer a)) next)
    (hr : Request.ofText? request = some r) : a.stale = true ↔ s.isStale r = true := by
  cases h with
  | late hr' hlate =>
    rw [hr, Option.some.injEq] at hr'
    subst hr'
    exact iff_of_true rfl hlate
  | answered hr' htime ha =>
    rw [hr, Option.some.injEq] at hr'
    subst hr'
    simp [htime, ha]

theorem Called.eq_of_isNeutral {s next : Session} {c : Call} {o : Except SessionError Reply}
    (h : Called s c o next) (hneutral : Exchange.IsNeutral ⟨c, o⟩) : next = s := by
  cases h with
  | answered hr htime ha => simp [Exchange.IsNeutral, ha] at hneutral
  | entities => simp [Exchange.IsNeutral] at hneutral
  | schema => simp [Exchange.IsNeutral] at hneutral
  | _ => rfl

/-- A history with some of its neutral exchanges left out. -/
inductive Thinned : List Exchange → List Exchange → Prop
  | nil : Thinned [] []
  | keep (x : Exchange) {h kept : List Exchange} (hrest : Thinned h kept) : Thinned (x :: h) (x :: kept)
  | leave {x : Exchange} (hx : x.IsNeutral) {h kept : List Exchange} (hrest : Thinned h kept) :
      Thinned (x :: h) kept

theorem history_of_thinned {s : Session} {calls : List Call} {kept : List Exchange}
    (h : Thinned (s.history calls) kept) : s.history (kept.map Exchange.call) = kept := by
  induction calls generalizing s kept with
  | nil =>
    cases h
    rfl
  | cons c cs ih =>
    rw [history_cons] at h
    cases h with
    | keep _ hrest => exact congrArg (_ :: ·) (ih hrest)
    | leave hx hrest =>
      rw [(called_call s c).eq_of_isNeutral hx] at hrest
      exact ih hrest

/-- Reads and writes of a session, one after the other. A write stays, also when there
is a failure after it. -/
abbrev Act := ExceptT SessionError (StateM Session)

/-- The answer to a request, once it is known whether it comes too late. -/
def answerAct (r : Request) (lines : List Text) (line : Text) (late : Bool) : Act Reply :=
  if late then return .answer (staleAnswer r)
  else do
    modify fun s => { s with latest := r.sequence <|> s.latest }
    return .answer ((← get).answer r lines line)

def act : Call → Act Reply
  | .classify line state => do
    let some entry := State.ofText? state | throw (.unreadable .state)
    let (spans, exit) := classifyUnits line entry
    return .coloring spans exit
  | .completion request => do
    let some r := Request.ofText? request | throw (.unreadable .request)
    let lines := Text.lines r.text
    let some line := lines[r.line]? | throw (.outOfRange r.line r.character)
    answerAct r lines line ((← get).isStale r)
  | .entities list => do
    let some records := Entity.listOfText? list | throw (.unreadable .entities)
    modify (·.setEntities records)
    let accepted := (← get).registry.size
    return .intake accepted (records.length - accepted)
  | .schema file => do
    match Schema.ofFile file with
    | .error e => throw (.schema e)
    | .ok schema =>
      modify ({ · with schema })
      let s ← get
      return .schema s.schema.snippets.length s.schema.sentinel
  | .status => do
    let s ← get
    return .status s.registry.size s.schema.snippets.length s.schema.sentinel s.latest

/-- No call writes before it can still fail. -/
theorem run_act (s : Session) (c : Call) : (act c).run.run s = s.call c := by
  cases c with
  | classify line state =>
    cases hstate : State.ofText? state <;>
      (simp only [act, call, perform, hstate]; rfl)
  | completion request =>
    cases hr : Request.ofText? request with
    | none =>
      simp only [act, call, perform, hr]
      rfl
    | some r =>
      cases hline : (Text.lines r.text)[r.line]? with
      | none =>
        simp only [act, call, perform, hr, complete, hline, Except.map]
        rfl
      | some line =>
        have hact : (act (.completion request)).run.run s =
            (answerAct r (Text.lines r.text) line (s.isStale r)).run.run s := by
          simp only [act, hr, hline]
          rfl
        rw [hact]
        cases hlate : s.isStale r <;>
          (simp only [call, perform, hr, complete, hline, hlate, Except.map]; rfl)
  | entities list =>
    cases hlist : Entity.listOfText? list <;>
      (simp only [act, call, perform, hlist]; rfl)
  | schema file =>
    cases hfile : Schema.ofFile file <;>
      (simp only [act, call, perform, loadSchema, hfile]; rfl)
  | status => rfl

/-- A session is what its history says, and a call is answered by that and nothing else.
A request comes too late if and only if one with a higher place was answered before
it. Neutral calls add nothing to the history, and without them all other outcomes are
the same. -/
theorem history_determines_session (calls : List Call) :
    let h := initial.history calls
    initial.after calls = summed h ∧
      (∀ earlier x later, h = earlier ++ x :: later →
        x.outcome = ((summed earlier).call x.call).1 ∧
        x.outcome = ((act x.call).run.run (summed earlier)).1 ∧
        ((act x.call).run.run (summed earlier)).2 = summed (earlier ++ [x]) ∧
        (x.IsNeutral → summed (earlier ++ [x]) = summed earlier) ∧
        ∀ request r a, x.call = .completion request → Request.ofText? request = some r →
          x.outcome = .ok (.answer a) →
          (a.stale = true ↔
            ∃ n ∈ r.sequence, ∃ m ∈ earlier.filterMap Exchange.sequence?, n < m)) ∧
      ∀ kept, Thinned h kept → initial.history (kept.map Exchange.call) = kept := by
  refine ⟨after_eq_summed calls, ?_, fun kept => history_of_thinned⟩
  intro earlier x later hsplit
  obtain ⟨hearlier, houtcome⟩ := history_split hsplit
  rw [after_eq_summed, hearlier] at houtcome
  have hcalled := called_call (summed earlier) x.call
  rw [← houtcome] at hcalled
  have hnext : summed (earlier ++ [x]) = ((summed earlier).call x.call).2 := summed_concat hcalled
  refine ⟨houtcome, by rw [run_act, houtcome], by rw [run_act, hnext], ?_, ?_⟩
  · intro hneutral
    rw [hnext]
    exact hcalled.eq_of_isNeutral hneutral
  · intro request r a hcall hr hanswer
    rw [hcall, hanswer] at hcalled
    rw [hcalled.stale_iff hr, isStale_summed_iff]

/-- The second request comes too late, and the third one points past its document. The same
requests behind a schema and a list of two entities, of which one is not valid. -/
theorem history_determines_session_late :
    let first : Call := .completion "[\"a.\",[0,2],5]".toList
    let late : Call := .completion "[\"a.\",[0,2],3]".toList
    let lost : Call := .completion "[\"a.\",[1,2],9]".toList
    let load : Call := .schema "snippet_sentinel=\"tpl\"".toList
    let take : Call := .entities "[[\"sun.sun\"],[\"sun\"]]".toList
    let answer : Answer :=
      { replace := { start := { line := 0, column := 0 }, stop := { line := 0, column := 2 } }
        sequence := some 5 }
    let nothing : Answer :=
      { replace := { start := { line := 0, column := 2 }, stop := { line := 0, column := 2 } }
        sequence := some 3
        stale := true }
    let x : Exchange := ⟨first, .ok (.answer answer)⟩
    let y : Exchange := ⟨late, .ok (.answer nothing)⟩
    let z : Exchange := ⟨lost, .error (.outOfRange 1 2)⟩
    let v : Exchange := ⟨load, .ok (.schema 0 "tpl".toList)⟩
    let w : Exchange := ⟨take, .ok (.intake 1 1)⟩
    let summary := summed [v, w, x, y, z]
    initial.history [first, late, lost] = [x, y, z] ∧ (summed [x, y, z]).latest = some 5 ∧
      (∃ n ∈ some 3, ∃ m ∈ [x].filterMap Exchange.sequence?, n < m) ∧
      Thinned [x, y, z] [x] ∧ initial.history [first] = [x] ∧
      initial.history [load, take, first, late, lost] = [v, w, x, y, z] ∧
      initial.after [load, take, first, late, lost] = summary ∧
      summary.schema.sentinel = "tpl".toList ∧
      summary.registry.entities = [{ id := "sun.sun".toList }] ∧ summary.latest = some 5 ∧
      initial.history [load, take, first] = [v, w, x] := by
  intro first late lost load take answer nothing x y z v w summary
  have hrun : initial.history [first, late, lost] = [x, y, z] := by decide +kernel
  have hlong : initial.history [load, take, first, late, lost] = [v, w, x, y, z] := by decide +kernel
  have hleave : Thinned [y, z] [] :=
    .leave (.inr (.inl ⟨nothing, rfl, rfl⟩)) (.leave (.inl ⟨_, rfl⟩) .nil)
  have hthin : Thinned [x, y, z] [x] := .keep x hleave
  obtain ⟨-, hsplit, hleft⟩ := history_determines_session [first, late, lost]
  obtain ⟨hsum, -, hleftLong⟩ := history_determines_session [load, take, first, late, lost]
  rw [hrun] at hsplit hleft
  rw [hlong] at hsum hleftLong
  obtain ⟨-, -, -, -, hstale⟩ := hsplit [x] y [z] rfl
  have hr : Request.ofText? "[\"a.\",[0,2],3]".toList =
      some { text := "a.".toList, line := 0, character := 2, sequence := some 3 } := by
    decide +kernel
  have hsentinel : summary.schema.sentinel = "tpl".toList := by decide +kernel
  have hentities : summary.registry.entities = [{ id := "sun.sun".toList }] := by decide +kernel
  have hlatest : summary.latest = some 5 := by decide +kernel
  exact ⟨hrun, by decide +kernel, (hstale _ _ _ rfl hr rfl).mp rfl, hthin, hleft [x] hthin, hlong, hsum,
    hsentinel, hentities, hlatest, hleftLong [v, w, x] (.keep v (.keep w hthin))⟩

end Session

end ConfigAssist
