import ConfigAssist.Proofs.Yaml.Brace

/-! Where a quoted scalar ends: at the first mark of its own that nothing takes. In double
quotes a backslash takes what is behind it; in single quotes a mark takes another one, and
the two stand for one of the text. -/

namespace ConfigAssist.Yaml

/-- The character that takes a mark right behind it. -/
def Quote.taker : Quote → Char
  | .single => '\''
  | .double => '\\'

/-- Behind a text the mark stands again and ends the scalar: what is right in front of it does not
take it, as the takers there pair up from the left, and in single quotes no mark behind it makes a
pair with it. -/
structure Ends (q : Quote) (cs u : Text) : Prop where
  again : u ++ [q.mark] <+: cs
  free : ¬ OddRun q.taker u
  last : q = .single → ¬ u ++ [q.mark, q.mark] <+: cs

/-- The text up to the mark that ends a scalar, if one does. -/
inductive ScalarEnd (q : Quote) (cs : Text) : Option Text → Prop
  | first {u : Text} (h : Ends q cs u) (hfirst : ∀ v, Ends q cs v → u.length ≤ v.length) :
      ScalarEnd q cs (some u)
  | never (h : ∀ u, ¬ Ends q cs u) : ScalarEnd q cs none

variable {q : Quote} {c : Char} {cs p u : Text}

theorem Ends.append_iff (hfree : ¬ OddRun q.taker p) :
    Ends q (p ++ cs) (p ++ u) ↔ Ends q cs u := by
  have hodd : OddRun q.taker (p ++ u) ↔ OddRun q.taker u := oddRun_append_iff hfree
  constructor
  · rintro ⟨hagain, hu, hlast⟩
    simp only [List.append_assoc, List.prefix_append_right_inj] at hagain hlast
    exact ⟨hagain, fun h => hu (hodd.mpr h), hlast⟩
  · rintro ⟨hagain, hu, hlast⟩
    refine ⟨?_, fun h => hu (hodd.mp h), ?_⟩ <;>
      simpa only [List.append_assoc, List.prefix_append_right_inj]

/-- A stretch in which the scalar does not end, and which takes nothing behind it. -/
structure Passes (q : Quote) (p cs : Text) : Prop where
  free : ¬ OddRun q.taker p
  behind : ∀ u, Ends q (p ++ cs) u → p.length ≤ u.length

theorem Ends.exists_append (h : Ends q (p ++ cs) u) (hle : p.length ≤ u.length) :
    ∃ v, u = p ++ v := by
  have hu : u <+: p ++ cs := (List.prefix_append u [q.mark]).trans h.again
  obtain ⟨v, rfl⟩ := List.prefix_of_prefix_length_le (List.prefix_append p cs) hu hle
  exact ⟨v, rfl⟩

theorem ScalarEnd.append {o : Option Text} (hp : Passes q p cs) (h : ScalarEnd q cs o) :
    ScalarEnd q (p ++ cs) (o.map (p ++ ·)) := by
  cases h with
  | @first u h hfirst =>
    refine .first ((Ends.append_iff hp.free).mpr h) fun w hw => ?_
    obtain ⟨v, rfl⟩ := hw.exists_append (hp.behind w hw)
    have hle := hfirst v ((Ends.append_iff hp.free).mp hw)
    rw [List.length_append, List.length_append]
    exact Nat.add_le_add_left hle _
  | never h =>
    refine .never fun w hw => ?_
    obtain ⟨v, rfl⟩ := hw.exists_append (hp.behind w hw)
    exact h v ((Ends.append_iff hp.free).mp hw)

/-- Two marks in single quotes are passed together. -/
theorem passes_pair (cs : Text) : Passes .single [Quote.single.mark, Quote.single.mark] cs where
  free := by decide
  behind u h := by
    rcases u with _ | ⟨c, _ | ⟨d, u⟩⟩
    · exact absurd (List.prefix_append _ cs) (h.last rfl)
    · obtain rfl : c = Quote.single.mark := (List.cons_prefix_cons.mp h.again).1
      exact absurd (oddRun_singleton_iff.mpr rfl) h.free
    · simp

theorem scalarEnd_nil (hpair : ¬ (q = .single ∧ cs.head? = some q.mark)) :
    ScalarEnd q (q.mark :: cs) (some []) := by
  refine .first ⟨List.prefix_append [q.mark] cs, not_oddRun_nil, fun hq hprefix => ?_⟩
    fun _ _ => Nat.zero_le _
  obtain ⟨rest, rfl⟩ := (List.cons_prefix_cons.mp hprefix).2
  exact hpair ⟨hq, rfl⟩

section

variable {token rest : Text} (hc : c ≠ q.mark)
  (hrun : token.length = quotedRun q (q.escapes c) (token ++ rest))

include hc hrun

/-- In a run the mark stands only where it is taken. -/
theorem length_le_of_run (h : Ends q (c :: token ++ rest) u) : (c :: token).length ≤ u.length := by
  by_contra hlt
  have htoken : u ++ [q.mark] <+: c :: token := by
    refine List.prefix_of_prefix_length_le h.again (List.prefix_append _ rest) ?_
    rw [List.length_append, List.length_singleton]
    omega
  obtain ⟨v, hv⟩ := htoken
  cases u with
  | nil => exact hc (List.cons.inj hv).1.symm
  | cons d u =>
    obtain ⟨rfl, hv⟩ := List.cons.inj hv
    have hescapes : q.escapes d = true ↔ q = .double ∧ Escaping [d] := by
      rw [escapes_iff, escaping_singleton_iff]
    have hescaping := escaping_of_quotedRun (v := v) (.inl rfl) hescapes
      (by rw [← hrun, List.take_left]; simpa using hv.symm)
    obtain ⟨rfl, hodd⟩ := hescaping
    exact h.free hodd

theorem passes_run (hrest : rest ≠ []) : Passes q (c :: token) rest where
  behind _ h := length_le_of_run hc hrun h
  free hodd := by
    have hescapes : q.escapes c = true ↔ q = .double ∧ Escaping [c] := by
      rw [escapes_iff, escaping_singleton_iff]
    cases q with
    | double =>
      have hnot := not_escaping_of_quotedRun hescapes (by rwa [← hrun, List.drop_left])
      rw [← hrun, List.take_left] at hnot
      exact hnot ⟨rfl, hodd⟩
    | single =>
      refine not_oddRun_of_not_mem (fun hmem => ?_) hodd
      rcases List.mem_cons.mp hmem with rfl | hmem
      · exact hc rfl
      · obtain ⟨u, v, rfl⟩ := List.append_of_mem hmem
        have hescaping := escaping_of_quotedRun (u := u) (v := v) (.inl rfl) hescapes
          (by rw [← hrun, List.take_left]; rfl)
        cases hescaping.1

theorem scalarEnd_of_run (hrest : rest = []) : ScalarEnd q (c :: token) none := by
  subst hrest
  refine .never fun u h => ?_
  have hle := length_le_of_run hc hrun (u := u) (by rwa [List.append_nil])
  have hlt := h.again.length_le
  rw [List.length_append, List.length_singleton] at hlt
  omega

end

/-- What a reading in quotes does to the scalar. -/
inductive Advances (q : Quote) (s : Scalars) (c : Char) (token rest : Text) : Scalars → Prop
  | passes (h : Passes q (c :: token) rest) : Advances q s c token rest s
  | ends (h : ScalarEnd q (c :: rest) (some [])) (hc : c = q.mark) (htoken : token = []) :
      Advances q s c token rest { s with quote := none }
  | cut (h : ScalarEnd q (c :: token) none) (hrest : rest = []) : Advances q s c token rest s

theorem Quoted.advances {s : Scalars} {token rest : Text} {r : Reading × Scalars}
    (h : Quoted s c (token ++ rest) q r) (hfits : token.length = r.1.further) :
    Advances q s c token rest r.2 := by
  cases h with
  | pair hc hq hnext =>
    obtain ⟨d, rfl⟩ := List.length_eq_one_iff.mp hfits
    obtain rfl : d = q.mark := Option.some.inj hnext
    subst hc hq
    exact .passes (passes_pair rest)
  | closing hc hpair =>
    obtain rfl := List.eq_nil_of_length_eq_zero hfits
    subst hc
    exact .ends (scalarEnd_nil hpair) rfl rfl
  | run hc =>
    by_cases hrest : rest = []
    · exact .cut (scalarEnd_of_run hc hfits hrest) hrest
    · exact .passes (passes_run hc hfits hrest)

theorem Quoted.eq_plain {s : Scalars} {r : Reading × Scalars} (h : Quoted s c cs q r) :
    r.1 = .plain r.1.further := by
  cases h <;> rfl

end ConfigAssist.Yaml
