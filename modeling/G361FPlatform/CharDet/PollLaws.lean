import G361FPlatform.CharDet.Detector
import G361FPlatform.CharDet.GuessLaws
import G361FPlatform.Library.Outcome

namespace G361FPlatform.CharDet

open Library

def join (names : List JString) : JString := [' '].intercalate names

theorem join_singleton (name : JString) : join [name] = name := by
  simp [join]

theorem join_append {names names' : List JString} (h : names ≠ []) (h' : names' ≠ []) :
    join (names ++ names') = join names ++ ' ' :: join names' := by
  induction names with
  | nil => exact absurd rfl h
  | cons name names ih =>
    cases names with
    | nil =>
      obtain ⟨name', names', rfl⟩ := List.exists_cons_of_ne_nil h'
      simp [join, List.intercalate]
    | cons name₂ names =>
      have hrest := ih (List.cons_ne_nil _ _)
      simp only [join, List.intercalate, List.cons_append, List.intersperse_cons_cons, List.flatten_cons] at *
      simp [hrest]

theorem split_join {names : List JString} (hne : names ≠ []) (h : ∀ name ∈ names, Single name) :
    split (join names) = names := by
  have hparts : (join names).splitOn ' ' = names :=
    List.splitOn_intercalate ' ' (fun name hname => (h name hname).2) hne
  unfold split
  rw [hparts]
  dsimp only
  split
  · rfl
  · rw [List.rdropWhile_eq_self_iff]
    intro hne
    simpa using (h _ (List.getLast_mem hne)).1

theorem split_single {name : JString} (h : Single name) : split name = [name] := by
  have hsplit := split_join (List.cons_ne_nil name []) (by simpa using h)
  rwa [join_singleton] at hsplit

theorem Place.mem_all (i : Place) : i ∈ Place.all := by
  cases i <;> decide

theorem not_single_append (name name' : JString) : ¬Single (name ++ ' ' :: name') := by
  intro h
  exact h.2 (by simp)

namespace MBCSGroupProber

variable {p : Probers 7} {s : MBCSGroupProber p}

theorem bestGuess_guess (s : MBCSGroupProber p) : s.guess.2.bestGuess = some s.guess.1 := by
  unfold guess
  split
  next i h => exact h
  · dsimp only
    split
    next i h => exact h
    · rfl

theorem getCharSetName_eq (s : MBCSGroupProber p) :
    s.getCharSetName = (nameOf s.guess.1 s.guess.2.bestGuess2, s.guess.2) := by
  unfold getCharSetName
  dsimp only
  cases s.guess.2.bestGuess2 <;> rfl

theorem getCharSetName_again (s : MBCSGroupProber p) :
    s.getCharSetName.2.getCharSetName = s.getCharSetName := by
  rw [getCharSetName_eq s]
  exact getCharSetName_of_bestGuess (bestGuess_guess s)

theorem single_nameOf {i : Fin 7} {j : Option (Fin 7)} : Single (nameOf i j) ↔ j = none := by
  cases j with
  | none => exact iff_of_true (single_charSetName i) rfl
  | some j => exact iff_of_false (not_single_append _ _) (by simp)

theorem getConfidence_snd (h : s.state ≠ .detecting) : s.getConfidence.2 = s := by
  unfold getConfidence
  split
  · rfl
  · rfl
  next hstate => exact absurd hstate h

theorem bestGuess2_guess (h : s.state ≠ .detecting) : s.guess.2.bestGuess2 = s.bestGuess2 := by
  unfold guess
  rw [getConfidence_snd h]
  split
  · rfl
  · dsimp only
    split <;> rfl

end MBCSGroupProber

namespace SBCSGroupProber

variable {p : NamedProbers 13}

theorem bestGuess_guess (s : SBCSGroupProber p) : (guess s).2.bestGuess = some (guess s).1 := by
  unfold guess
  split
  next i h => exact h
  · dsimp only
    split
    next i h => exact h
    · rfl

theorem getCharSetName_again (s : SBCSGroupProber p) :
    getCharSetName (getCharSetName s).2 = getCharSetName s := by
  have hagain : guess (guess s).2 = guess s := by
    conv_lhs => rw [guess, bestGuess_guess]
  change getCharSetName (guess s).2 = _
  unfold getCharSetName
  rw [hagain]

end SBCSGroupProber

def ask (getConfidence : σ → ℚ × σ) (getCharSetName : σ → JString × σ) (s : σ) : ℚ × Option JString × σ :=
  let (cf, s) := getConfidence s
  if MINIMUM_THRESHOLD < cf then
    let (name, s) := getCharSetName s
    (cf, some name, s)
  else (cf, none, s)

section

variable {getConfidence : σ → ℚ × σ} {getCharSetName : σ → JString × σ} {s : σ}

theorem ask_of_lt (h : MINIMUM_THRESHOLD < (getConfidence s).1) : ask getConfidence getCharSetName s =
    ((getConfidence s).1, some (getCharSetName (getConfidence s).2).1, (getCharSetName (getConfidence s).2).2) :=
  if_pos h

theorem ask_of_not_lt (h : ¬MINIMUM_THRESHOLD < (getConfidence s).1) : ask getConfidence getCharSetName s =
    ((getConfidence s).1, none, (getConfidence s).2) :=
  if_neg h

theorem ask_fst : (ask getConfidence getCharSetName s).1 = (getConfidence s).1 := by
  by_cases h : MINIMUM_THRESHOLD < (getConfidence s).1
  · rw [ask_of_lt h]
  · rw [ask_of_not_lt h]

theorem ask_name_eq_none :
    (ask getConfidence getCharSetName s).2.1 = none ↔ ¬MINIMUM_THRESHOLD < (ask getConfidence getCharSetName s).1 := by
  by_cases h : MINIMUM_THRESHOLD < (getConfidence s).1
  · simp [ask_of_lt h, h]
  · simp [ask_of_not_lt h, h]

theorem single_ask (hsingle : ∀ s, Single (getCharSetName s).1) {name : JString}
    (h : (ask getConfidence getCharSetName s).2.1 = some name) : Single name := by
  by_cases hlt : MINIMUM_THRESHOLD < (getConfidence s).1
  · rw [ask_of_lt hlt] at h
    cases h
    exact hsingle _
  · rw [ask_of_not_lt hlt] at h
    cases h

theorem ask_again (hagain : ∀ s, getCharSetName (getCharSetName s).2 = getCharSetName s) {name : JString}
    (h : (ask getConfidence getCharSetName s).2.1 = some name) :
    getCharSetName (ask getConfidence getCharSetName s).2.2 =
      (name, (ask getConfidence getCharSetName s).2.2) := by
  by_cases hlt : MINIMUM_THRESHOLD < (getConfidence s).1
  · rw [ask_of_lt hlt] at h ⊢
    cases h
    exact hagain _
  · rw [ask_of_not_lt hlt] at h
    cases h

end

namespace Groups

variable {e : Engine}

def askMbcs (g : Groups e) : ℚ × Option JString × MBCSGroupProber e.mbcs :=
  ask MBCSGroupProber.getConfidence MBCSGroupProber.getCharSetName g.mbcs

def askSbcs (g : Groups e) : ℚ × Option JString × SBCSGroupProber e.sbcs :=
  ask SBCSGroupProber.getConfidence SBCSGroupProber.getCharSetName g.sbcs

def askLatin1 (g : Groups e) : ℚ × Option JString × e.latin1.State :=
  ask (fun s => (e.latin1Confidence s, s)) (fun s => (CHARSET_WINDOWS_1252, s)) g.latin1

def ballot (g : Groups e) : Place → ℚ × Option JString
  | .mbcs => (g.askMbcs.1, g.askMbcs.2.1)
  | .sbcs => (g.askSbcs.1, g.askSbcs.2.1)
  | .latin1 => (g.askLatin1.1, g.askLatin1.2.1)

def askedAt (g : Groups e) : Place → Groups e
  | .mbcs => { g with mbcs := g.askMbcs.2.2 }
  | .sbcs => { g with sbcs := g.askSbcs.2.2 }
  | .latin1 => { g with latin1 := g.askLatin1.2.2 }

def asked (g : Groups e) : Groups e := ⟨g.askMbcs.2.2, g.askSbcs.2.2, g.askLatin1.2.2⟩

end Groups

def Poll.take (v : Poll) (i : Place) (ballot : ℚ × Option JString) : Poll :=
  match ballot.2 with
  | none => v.confidence i ballot.1
  | some name => (v.confidence i ballot.1).name name

namespace Groups

variable {e : Engine}

theorem poll_cons (g : Groups e) (i : Place) (is : List Place) (v : Poll) :
    g.poll (i :: is) v = (g.askedAt i).poll is (v.take i (g.ballot i)) := by
  have hask : ∀ {σ : Type} (getConfidence : σ → ℚ × σ) (getCharSetName : σ → JString × σ) (s : σ)
      (put : σ → Groups e), (let (cf, s) := getConfidence s
        if MINIMUM_THRESHOLD < cf then
          let (name, s) := getCharSetName s
          poll is (put s) ((v.confidence i cf).name name)
        else poll is (put s) (v.confidence i cf)) =
      poll is (put (ask getConfidence getCharSetName s).2.2)
        (v.take i ((ask getConfidence getCharSetName s).1, (ask getConfidence getCharSetName s).2.1)) := by
    intro σ getConfidence getCharSetName s put
    by_cases h : MINIMUM_THRESHOLD < (getConfidence s).1
    · rw [ask_of_lt h]
      exact if_pos h
    · rw [ask_of_not_lt h]
      exact if_neg h
  cases i with
  | mbcs => exact hask MBCSGroupProber.getConfidence MBCSGroupProber.getCharSetName g.mbcs (⟨·, g.sbcs, g.latin1⟩)
  | sbcs => exact hask SBCSGroupProber.getConfidence SBCSGroupProber.getCharSetName g.sbcs (⟨g.mbcs, ·, g.latin1⟩)
  | latin1 =>
    exact hask (fun s => (e.latin1Confidence s, s)) (fun s => (CHARSET_WINDOWS_1252, s)) g.latin1
      (⟨g.mbcs, g.sbcs, ·⟩)

theorem poll_all (g : Groups e) (v : Poll) :
    g.poll Place.all v = (Place.all.foldl (fun v i => v.take i (g.ballot i)) v, g.asked) := by
  rw [Place.all, poll_cons, poll_cons, poll_cons]
  rfl

theorem getCharSetName_asked {g : Groups e} {i : Place} {name : JString} (h : (g.ballot i).2 = some name) :
    g.asked.getCharSetName i = (name, g.asked) := by
  cases i with
  | mbcs =>
    exact congrArg (fun r => (r.1, { g.asked with mbcs := r.2 }))
      (ask_again MBCSGroupProber.getCharSetName_again h)
  | sbcs =>
    exact congrArg (fun r => (r.1, { g.asked with sbcs := r.2 }))
      (ask_again SBCSGroupProber.getCharSetName_again h)
  | latin1 =>
    exact congrArg (fun r => (r.1, { g.asked with latin1 := r.2 })) (ask_again (fun _ => rfl) h)

end Groups

structure Worded (name : JString) : Prop where
  ne_nil : split name ≠ []
  join_eq : join (split name) = name
  single : ∀ word ∈ split name, Single word

theorem worded_join {names : List JString} (hne : names ≠ []) (h : ∀ name ∈ names, Single name) :
    Worded (join names) := by
  have hsplit := split_join hne h
  exact ⟨hsplit.symm ▸ hne, by rw [hsplit], hsplit.symm ▸ h⟩

theorem worded_single {name : JString} (h : Single name) : Worded name := by
  have hworded := worded_join (List.cons_ne_nil name []) (by simpa using h)
  rwa [join_singleton] at hworded

theorem worded_nameOf (i : Fin 7) (j : Option (Fin 7)) : Worded (MBCSGroupProber.nameOf i j) := by
  cases j with
  | none => exact worded_single (single_charSetName i)
  | some j =>
    have hjoin : MBCSGroupProber.nameOf i (some j) =
        join [MBCSGroupProber.charSetName i, MBCSGroupProber.charSetName j] := by
      simp [join, MBCSGroupProber.nameOf, List.intercalate]
    rw [hjoin]
    refine worded_join (List.cons_ne_nil _ _) fun name hname => ?_
    rcases List.mem_pair.mp hname with rfl | rfl
    · exact single_charSetName i
    · exact single_charSetName j

namespace Poll

variable {v : Poll} {names : List JString} {b : ℚ × Option JString}

structure Named (v : Poll) (names : List JString) : Prop where
  all_eq : v.detectedAllCharset = if names = [] then none else some (join names)
  single : ∀ name ∈ names, Single name

theorem Named.take (h : Named v names) (i : Place) (hb : ∀ name, b.2 = some name → Worded name) :
    Named (v.take i b) (names ++ b.2.elim [] split) := by
  have hconf : (v.confidence i b.1).detectedAllCharset = v.detectedAllCharset := by
    unfold confidence
    split <;> rfl
  unfold Poll.take
  cases hname : b.2 with
  | none => exact ⟨by simpa [hconf] using h.all_eq, by simpa using h.single⟩
  | some name =>
    have hworded := hb name hname
    refine ⟨?_, fun word hword => ?_⟩
    · simp only [Poll.name, hconf, h.all_eq, Option.elim_some, List.append_eq_nil_iff, hworded.ne_nil, and_false,
        if_false, Option.some.injEq]
      split
      next hnil => rw [hnil, List.nil_append, hworded.join_eq, Option.elim_none]
      next hne => rw [join_append hne hworded.ne_nil, hworded.join_eq, Option.elim_some]
    · rcases List.mem_append.mp hword with hword | hword
      · exact h.single word hword
      · exact hworded.single word hword

theorem named_foldl {ballot : Place → ℚ × Option JString}
    (hb : ∀ i name, (ballot i).2 = some name → Worded name) (is : List Place) (h : Named v names) :
    Named (is.foldl (fun v i => v.take i (ballot i)) v)
      (names ++ is.flatMap fun i => (ballot i).2.elim [] split) := by
  induction is generalizing v names with
  | nil => simpa using h
  | cons i is ih =>
    rw [List.flatMap_cons, ← List.append_assoc]
    exact ih (h.take i (hb i))

theorem maxProberConfidence_take (v : Poll) (i : Place) (b : ℚ × Option JString) :
    (v.take i b).maxProberConfidence = if v.maxProberConfidence < b.1 then b.1 else v.maxProberConfidence := by
  unfold take confidence
  cases b.2 <;> split_ifs <;> rfl

theorem maxProber_take (v : Poll) (i : Place) (b : ℚ × Option JString) :
    (v.take i b).maxProber = if v.maxProberConfidence < b.1 then i else v.maxProber := by
  unfold take confidence
  cases b.2 <;> split_ifs <;> rfl

def tally (ballot : Place → ℚ × Option JString) : Poll :=
  Place.all.foldl (fun v i => v.take i (ballot i)) ⟨0, .mbcs, none⟩

theorem maxProberConfidence_tally {ballot : Place → ℚ × Option JString}
    (h : 0 < (tally ballot).maxProberConfidence) :
    (tally ballot).maxProberConfidence = (ballot (tally ballot).maxProber).1 := by
  revert h
  simp only [tally, Place.all, List.foldl_cons, List.foldl_nil, maxProberConfidence_take, maxProber_take]
  split_ifs <;> first | exact fun _ => rfl | exact fun h => absurd h (lt_irrefl _)

theorem maxProber_tally_eq_mbcs {ballot : Place → ℚ × Option JString} {t : ℚ} (ht : 0 ≤ t) :
    t < (tally ballot).maxProberConfidence ∧ (tally ballot).maxProber = .mbcs ↔
      t < (ballot .mbcs).1 ∧ (ballot .sbcs).1 ≤ (ballot .mbcs).1 ∧ (ballot .latin1).1 ≤ (ballot .mbcs).1 := by
  simp only [tally, Place.all, List.foldl_cons, List.foldl_nil, maxProberConfidence_take, maxProber_take]
  split_ifs <;> grind

end Poll

end G361FPlatform.CharDet
