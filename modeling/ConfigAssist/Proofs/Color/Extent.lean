import ConfigAssist.Color.Line
import ConfigAssist.Proofs.Template.Delimiter
import ConfigAssist.Proofs.Text.Run
import ConfigAssist.Proofs.Yaml.Forms
import Mathlib.Data.List.Basic

/-! How far readings reach. Whatever stands at a place, its further characters are
there: no reading goes past the end of its line. So a line is read in steps, and each
step takes the whole stretch that was read. -/

namespace ConfigAssist

namespace Template

theorem commentRun_le (cs : Text) : commentRun cs ≤ cs.length := by
  fun_induction commentRun cs with
  | case1 => simp
  | case2 => simp
  | case3 c cs _ ih =>
    simp only [List.length_cons]
    omega

namespace Token

theorem numberTail_le (cs : Text) : numberTail cs ≤ cs.length := by
  have hwhole := length_takeWhile_le (fun c => c.isDigit || c == '_') cs
  unfold numberTail
  dsimp only
  split
  · rename_i ds hpoint
    have hdigits := length_takeWhile_le Char.isDigit ds
    have hlen := congrArg List.length hpoint
    simp only [List.length_drop, List.length_cons] at hlen
    split <;> omega
  · exact hwhole

theorem closingQuote?_le {quote : Char} {cs : Text} {n : Nat}
    (h : closingQuote? quote cs = some n) : n ≤ cs.length := by
  fun_induction closingQuote? quote cs generalizing n with
  | case1 => cases h
  | case2 => cases h
  | case3 => cases h
  | case4 c cs _ ih =>
    obtain ⟨m, hm, rfl⟩ := Option.map_eq_some_iff.mp h
    have := ih hm
    simp only [List.length_cons]
    omega
  | case5 => cases h; simp
  | case6 => cases h
  | case7 c cs _ _ _ _ ih =>
    obtain ⟨m, hm, rfl⟩ := Option.map_eq_some_iff.mp h
    have := ih hm
    simp only [List.length_cons]
    omega

theorem read_further_le (c : Char) (cs : Text) : (read c cs).2 ≤ cs.length := by
  unfold read
  split
  · exact length_takeWhile_le _ cs
  split
  · exact length_takeWhile_le _ cs
  split
  · exact numberTail_le cs
  split
  · split
    · rename_i n hclose
      exact closingQuote?_le hclose
    · exact Nat.zero_le _
  · split
    · rename_i op hop
      have hfound : op <+: c :: cs := by simpa using List.find?_some hop
      have hlen := hfound.length_le
      simp only [List.length_cons] at hlen
      dsimp only
      omega
    · exact Nat.zero_le _

end Token

theorem Delimiter.readBody_further_le (d : Delimiter) (c : Char) (cs : Text) :
    (d.readBody c cs).further ≤ cs.length := by
  cases d with
  | comment => exact commentRun_le cs
  | value => exact Token.read_further_le c cs
  | statement => exact Token.read_further_le c cs

end Template

namespace Yaml

theorem quotedRun_le (q : Quote) (escaped : Bool) (cs : Text) :
    quotedRun q escaped cs ≤ cs.length := by
  fun_induction quotedRun q escaped cs with
  | case1 => simp
  | case2 c cs ih =>
    simp only [List.length_cons]
    omega
  | case3 => exact Nat.zero_le _
  | case4 c cs _ ih =>
    simp only [List.length_cons]
    omega

theorem headerTail_le (cs : Text) : headerTail cs ≤ cs.length := by
  have hnonempty {p : Char → Bool} {t : Text} (h : t.head?.any p = true) : 1 ≤ t.length := by
    cases t with
    | nil => simp at h
    | cons c cs => simp
  unfold headerTail
  dsimp only
  split
  · rename_i hsign
    have hone := hnonempty hsign
    split
    · rename_i hdepth
      have htwo := hnonempty hdepth
      simp only [List.length_drop] at htwo
      omega
    · omega
  · split
    · rename_i hdepth
      simpa using hnonempty hdepth
    · omega

theorem Quoted.further_le {s : Scalars} {c : Char} {cs : Text} {q : Quote} {r : Reading × Scalars}
    (h : Quoted s c cs q r) : r.1.further ≤ cs.length := by
  cases h with
  | pair _ _ hnext =>
    obtain ⟨rest, rfl⟩ := List.head?_eq_some_iff.mp hnext
    exact Nat.le_add_left 1 rest.length
  | closing => exact Nat.zero_le _
  | run => exact quotedRun_le q _ cs

theorem readWord_further_le (p : Place) (c : Char) (cs : Text) :
    (readWord p c cs).further ≤ cs.length := by
  unfold readWord
  dsimp only
  split
  · rename_i hkey
    have hsplit := congrArg List.length (List.takeWhile_append_dropWhile (p := isWordChar) (l := cs))
    rw [List.length_append] at hsplit
    cases hcolon : cs.dropWhile isWordChar with
    | nil => simp [hcolon, closesKey] at hkey
    | cons d ds =>
      simp only [hcolon, List.length_cons] at hsplit
      dsimp only
      omega
  · exact length_takeWhile_le _ cs

theorem Opened.further_le {p : Place} {s : Scalars} {c : Char} {cs : Text} {r : Reading × Scalars}
    (h : Opened p s c cs r) : r.1.further ≤ cs.length := by
  cases h with
  | indent | comment | tag | anchor => exact length_takeWhile_le _ cs
  | word => exact readWord_further_le p c cs
  | header => exact headerTail_le cs
  | hash | mark | other => exact Nat.zero_le _

theorem Read.further_le {p : Place} {s : Scalars} {c : Char} {cs : Text} {r : Reading × Scalars}
    (h : Read p s c cs r) : r.1.further ≤ cs.length := by
  cases h with
  | block => exact length_takeWhile_le _ cs
  | quoted _ _ hform => exact hform.further_le
  | opened _ _ hform => exact hform.further_le

end Yaml

/-- What is read in a state: a delimiter that changes the open template, or text on one
side of the templates. -/
inductive State.Form (p : Yaml.Place) (s : State) (c : Char) (cs : Text) : Reading × State → Prop
  | opening {d : Template.Delimiter} (htemplate : s.template = none)
      (hopening : Template.Delimiter.opening? (c :: cs) = some d) :
      Form p s c cs ({ further := d.openerLength (c :: cs) - 1, category := .delimiter },
        { s with template := some d })
  | outside (htemplate : s.template = none)
      (hopening : Template.Delimiter.opening? (c :: cs) = none) :
      Form p s c cs ((Yaml.read p s.scalars c cs).1,
        { scalars := (Yaml.read p s.scalars c cs).2, template := none })
  | closing {d : Template.Delimiter} {n : Nat} (htemplate : s.template = some d)
      (hcloser : d.closerLength? (c :: cs) = some n) :
      Form p s c cs ({ further := n - 1, category := .delimiter }, { s with template := none })
  | inside {d : Template.Delimiter} (htemplate : s.template = some d)
      (hcloser : d.closerLength? (c :: cs) = none) : Form p s c cs (d.readBody c cs, s)

theorem State.read_form (p : Yaml.Place) (s : State) (c : Char) (cs : Text) :
    State.Form p s c cs (s.read p c cs) := by
  cases htemplate : s.template with
  | none =>
    cases hopening : Template.Delimiter.opening? (c :: cs) with
    | some d =>
      simp only [State.read, htemplate, hopening]
      exact .opening htemplate hopening
    | none =>
      simp only [State.read, htemplate, hopening]
      exact .outside htemplate hopening
  | some d =>
    cases hcloser : d.closerLength? (c :: cs) with
    | some n =>
      simp only [State.read, htemplate, hcloser]
      exact .closing htemplate hcloser
    | none =>
      simp only [State.read, htemplate, hcloser]
      exact .inside htemplate hcloser

theorem State.Form.further_le {p : Yaml.Place} {s : State} {c : Char} {cs : Text}
    {r : Reading × State} (h : State.Form p s c cs r) : r.1.further ≤ cs.length := by
  cases h with
  | opening _ hopening =>
    have hlen := Template.Delimiter.openerLength_le hopening
    exact Nat.sub_le_of_le_add hlen
  | outside => exact (Yaml.read_form p s.scalars c cs).further_le
  | closing _ hcloser =>
    have hlen := Template.Delimiter.closerLength?_le hcloser
    exact Nat.sub_le_of_le_add hlen
  | inside => exact Template.Delimiter.readBody_further_le _ c cs

/-- Reading a text from a place on, in a state: the pieces in order, each with all its
further characters, and the state after them. -/
inductive Steps : Yaml.Place → State → Text → List Piece → State → Prop
  | done (p : Yaml.Place) (s : State) : Steps p s [] [] s
  | step {p : Yaml.Place} {s next exit : State} {c : Char} {token rest : Text}
      {reading : Reading} {ps : List Piece}
      (hread : s.read p c (token ++ rest) = (reading, next))
      (hfits : token.length = reading.further)
      (hrest : Steps (p.advance (c :: token)) next rest ps exit) :
      Steps p s (c :: (token ++ rest))
        (⟨s, c :: token, reading.category, reading.marker⟩ :: ps) exit

theorem steps_scan (p : Yaml.Place) (s : State) (t : Text) :
    Steps p s t (scan p s 0 t).1 (scan p s 0 t).2 := by
  induction hn : t.length using Nat.strongRecOn generalizing p s t with
  | ind n ih =>
    cases t with
    | nil => exact .done p s
    | cons c cs =>
      obtain ⟨reading, next, hread⟩ : ∃ reading next, s.read p c cs = (reading, next) := ⟨_, _, rfl⟩
      have hle : reading.further ≤ cs.length := by
        simpa only [hread] using (s.read_form p c cs).further_le
      have hsplit := List.take_append_drop reading.further cs
      have hlen := congrArg List.length hsplit
      simp only [List.length_append, List.length_take, List.length_cons] at hlen hn
      have hrest := ih _ (by omega) (p.advance (c :: cs.take reading.further)) next
        (cs.drop reading.further) rfl
      have hstep := Steps.step (by rw [hsplit]; exact hread) (by simp [hle]) hrest
      rw [hsplit] at hstep
      simpa only [scan, hread, scan_skip _ _ reading.further] using hstep

/-- A token that reaches the end of the text is the last one. -/
theorem Steps.eq_of_last {p : Yaml.Place} {s exit : State} {token rest : Text} {ps : List Piece}
    {further : Nat} (h : Steps p s rest ps exit) (hfits : token.length = further)
    (hend : further = (token ++ rest).length) : rest = [] ∧ ps = [] ∧ exit = s := by
  rw [List.length_append, ← hfits] at hend
  obtain rfl := List.eq_nil_of_length_eq_zero (by omega : rest.length = 0)
  cases h with
  | done => exact ⟨rfl, rfl, rfl⟩

theorem scan_of_read {p : Yaml.Place} {s next : State} {c : Char} {token rest : Text}
    {reading : Reading} (hread : s.read p c (token ++ rest) = (reading, next))
    (hfits : token.length = reading.further) :
    scan p s 0 (c :: (token ++ rest)) =
      (⟨s, c :: token, reading.category, reading.marker⟩ ::
        (scan (p.advance (c :: token)) next 0 rest).1,
        (scan (p.advance (c :: token)) next 0 rest).2) := by
  have hdrop : (token ++ rest).drop reading.further = rest := List.drop_left' hfits
  simp only [scan, hread, scan_skip _ _ reading.further, hdrop, List.take_left' hfits]

theorem scan_eq_of_steps {p : Yaml.Place} {s exit : State} {t : Text} {ps : List Piece}
    (h : Steps p s t ps exit) : scan p s 0 t = (ps, exit) := by
  induction h with
  | done => rfl
  | step hread hfits _ ih => rw [scan_of_read hread hfits, ih]

theorem steps_pieces (line : Text) (s : State) :
    Steps (Yaml.Place.start line) (s.enter line) line (pieces line s).1 (pieces line s).2 :=
  steps_scan _ _ line

theorem Yaml.Place.advance_append (p : Yaml.Place) (t u : Text) :
    p.advance (t ++ u) = (p.advance t).advance u := by
  simp [advance, Nat.add_assoc, List.getLast?_append, Option.or_assoc]

theorem Steps.split {p : Yaml.Place} {s exit : State} {t : Text} {ps qs : List Piece}
    (h : Steps p s t (ps ++ qs) exit) :
    ∃ mid rest, t = (ps.map Piece.text).flatten ++ rest ∧
      Steps (p.advance (ps.map Piece.text).flatten) mid rest qs exit := by
  induction ps generalizing p s t with
  | nil => exact ⟨s, t, rfl, h⟩
  | cons piece ps ih =>
    cases h with
    | @step _ _ next _ c token _ reading _ _ _ hrest =>
      obtain ⟨mid, rest, rfl, hsteps⟩ := ih hrest
      refine ⟨mid, rest, by simp, ?_⟩
      rw [List.map_cons, List.flatten_cons, Yaml.Place.advance_append]
      exact hsteps

/-- Only delimiters open and close templates. -/
theorem Steps.template_eq {p : Yaml.Place} {s exit : State} {t : Text} {ps : List Piece}
    (h : Steps p s t ps exit) (hdelimiter : ∀ piece ∈ ps, piece.category ≠ .delimiter) :
    s.template = exit.template := by
  induction h with
  | done => rfl
  | @step p s next exit c token rest reading ps hread hfits hrest ih =>
    rw [List.forall_mem_cons] at hdelimiter
    rw [← ih hdelimiter.2]
    have hform := s.read_form p c (token ++ rest)
    rw [hread] at hform
    cases hform with
    | opening | closing => exact absurd rfl hdelimiter.1
    | outside htemplate => exact htemplate
    | inside => rfl

end ConfigAssist
