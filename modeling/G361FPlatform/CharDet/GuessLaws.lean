import G361FPlatform.CharDet.Prober
import G361FPlatform.Library.Run
import Mathlib.Data.Fintype.Card
import Mathlib.Tactic.NormNum

namespace G361FPlatform.CharDet

open Library

namespace Group

variable {p : Probers n} {g : Group p} {i : Fin n}

@[simp] theorem mem_active : i ∈ g.active ↔ g.isActive i = true := by
  simp [active]

theorem pairwise_active (g : Group p) : g.active.Pairwise (· < ·) :=
  (List.pairwise_lt_finRange n).filter _

/-- `activeNum` counts the active probers, and while there is no verdict one is left. -/
structure Counted (g : Group p) : Prop where
  activeNum_eq : g.activeNum = (Finset.univ.filter (g.isActive · = true)).card
  pos : g.state = .detecting → 0 < g.activeNum

theorem Counted.exists_active (h : g.Counted) (hstate : g.state = .detecting) :
    ∃ i, g.isActive i = true := by
  have hpos := h.pos hstate
  rw [h.activeNum_eq, Int.natCast_pos, Finset.card_pos] at hpos
  obtain ⟨i, hi⟩ := hpos
  exact ⟨i, (Finset.mem_filter.mp hi).2⟩

theorem counted_reset [NeZero n] (g : Group p) : g.reset.Counted where
  activeNum_eq := by simp [reset]
  pos := by
    intro _
    simp [reset, Nat.pos_of_neZero n]

theorem card_deactivate (hi : g.isActive i = true) :
    (Finset.univ.filter (Function.update g.isActive i false · = true)).card + 1 =
      (Finset.univ.filter (g.isActive · = true)).card := by
  have heq : Finset.univ.filter (Function.update g.isActive i false · = true) =
      (Finset.univ.filter (g.isActive · = true)).erase i := by
    ext j
    by_cases hj : j = i
    · simp [hj]
    · simp [hj]
  rw [heq]
  exact Finset.card_erase_add_one (by simp [hi])

theorem Counted.feed (buf : List UInt8) (is : List (Fin n)) (h : g.Counted) :
    (g.feed buf is).Counted := by
  induction is generalizing g with
  | nil => exact h
  | cons i is ih =>
    unfold Group.feed
    by_cases hi : g.isActive i = true
    · have hcard := card_deactivate hi
      simp only [hi, Bool.not_true, Bool.false_eq_true, if_false]
      split
      next probers _ => exact ⟨h.activeNum_eq, nofun⟩
      next probers _ =>
        have hnum := h.activeNum_eq
        split
        · refine ⟨?_, nofun⟩
          dsimp only
          omega
        next hleft =>
          refine ih ⟨?_, fun _ => not_le.mp hleft⟩
          dsimp only
          omega
      next probers _ => exact ih ⟨h.activeNum_eq, h.pos⟩
    · simp only [hi, Bool.not_false, if_true]
      exact ih h

end Group

theorem single_charSetName (i : Fin 7) : Single (MBCSGroupProber.charSetName i) := by
  revert i
  decide

theorem charSetName_injective : Function.Injective MBCSGroupProber.charSetName := by
  decide

inductive MBCSCall
  | handleData (buf : List UInt8)
  | getConfidence
  | getCharSetName

namespace MBCSGroupProber

variable {p : Probers 7} {s : MBCSGroupProber p} {i j : Fin 7}

def call (s : MBCSGroupProber p) : MBCSCall → MBCSGroupProber p
  | .handleData buf => (s.handleData buf).2
  | .getConfidence => s.getConfidence.2
  | .getCharSetName => s.getCharSetName.2

theorem scan_eq (s : MBCSGroupProber p) (is : List (Fin 7)) (b : Leader (Fin 7) ℚ) :
    s.scan is b = Leader.scan s.confidence (is.filter (s.isActive ·)) b := by
  induction is generalizing b with
  | nil => rfl
  | cons i is ih =>
    unfold scan
    by_cases hi : s.isActive i = true
    · rw [List.filter_cons_of_pos hi]
      simp only [hi, Bool.not_true, Bool.false_eq_true, if_false, ih]
      have hsee : Leader.see s.confidence b i =
          if b.best < p.getConfidence i s.probers then
            { b with best := p.getConfidence i s.probers, first := some i }
          else if b.best = p.getConfidence i s.probers then { b with second := some i }
          else b := rfl
      rw [Leader.scan_cons, hsee]
      split_ifs <;> rfl
    · rw [List.filter_cons_of_neg hi]
      simp only [hi, Bool.not_false, if_true, ih]

def leader (s : MBCSGroupProber p) : Leader (Fin 7) ℚ :=
  Leader.scan s.confidence s.active ⟨0, s.bestGuess, s.bestGuess2⟩

theorem getConfidence_detecting (h : s.state = .detecting) : s.getConfidence =
    (s.leader.best, { s with bestGuess := s.leader.first, bestGuess2 := s.leader.second }) := by
  rw [getConfidence, h]
  simp only [scan_eq]
  rfl

theorem toGroup_getConfidence (s : MBCSGroupProber p) :
    ∃ bestGuess, s.getConfidence.2.toGroup = { s.toGroup with bestGuess := bestGuess } := by
  unfold getConfidence
  split <;> exact ⟨_, rfl⟩

theorem toGroup_getCharSetName (s : MBCSGroupProber p) :
    ∃ bestGuess, s.getCharSetName.2.toGroup = { s.toGroup with bestGuess := bestGuess } := by
  have hguess : ∃ bestGuess, s.guess.2.toGroup = { s.toGroup with bestGuess := bestGuess } := by
    obtain ⟨bestGuess, hconf⟩ := toGroup_getConfidence s
    unfold guess
    split
    · exact ⟨_, rfl⟩
    · dsimp only
      split
      · exact ⟨bestGuess, hconf⟩
      · exact ⟨some 0, by simp [hconf]⟩
  unfold getCharSetName
  dsimp only
  split <;> exact hguess

theorem counted_call (h : s.toGroup.Counted) (c : MBCSCall) : (s.call c).toGroup.Counted := by
  cases c with
  | handleData buf => exact h.feed _ _
  | getConfidence =>
    obtain ⟨bestGuess, heq⟩ := toGroup_getConfidence s
    exact heq ▸ ⟨h.activeNum_eq, h.pos⟩
  | getCharSetName =>
    obtain ⟨bestGuess, heq⟩ := toGroup_getCharSetName s
    exact heq ▸ ⟨h.activeNum_eq, h.pos⟩

theorem counted_calls (s₀ : MBCSGroupProber p) (cs : List MBCSCall) :
    (cs.foldl call s₀.reset).toGroup.Counted := by
  induction cs using List.reverseRecOn with
  | nil => exact Group.counted_reset s₀.toGroup
  | append_singleton cs c ih =>
    rw [List.foldl_append]
    exact counted_call ih c

structure Best (s : MBCSGroupProber p) (i : Fin 7) : Prop where
  active : s.isActive i = true
  le : ∀ k, s.isActive k = true → s.confidence k ≤ s.confidence i

def Level (s : MBCSGroupProber p) (j : Fin 7) : Prop := Leader.Level s.confidence 0 s.active j

/-- `getCharSetName` right after `getConfidence` names a prober with the confidence that
`getConfidence` gives, the best one, and a second only if that is another with the same. -/
def NamesBest (s : MBCSGroupProber p) : Prop :=
  ∃ i, s.Best i ∧ s.getConfidence.1 = s.confidence i ∧
    (s.getConfidence.2.getCharSetName.1 = charSetName i ∨
      ∃ j, j ≠ i ∧ s.Best j ∧
        s.getConfidence.2.getCharSetName.1 = charSetName i ++ ' ' :: charSetName j)

/-- Two probers have the best confidence, or none has come level with a worse one: not in the next
scan, and not in one before. -/
def Clear (s : MBCSGroupProber p) : Prop :=
  (∃ i j, i ≠ j ∧ s.Best i ∧ s.Best j) ∨ (s.bestGuess2 = none ∧ ∀ j, ¬s.Level j)

theorem Best.confidence_eq (hi : s.Best i) (hj : s.Best j) : s.confidence i = s.confidence j :=
  le_antisymm (hj.le i hi.active) (hi.le j hj.active)

theorem Best.level (hpos : 0 < s.confidence j) (hij : i < j) (hi : s.Best i) (hj : s.Best j) : s.Level j where
  mem := Group.mem_active.mpr hj.active
  low_le := hpos.le
  before := fun k hk _ => hj.le k (Group.mem_active.mp hk)
  met := .inr ⟨i, Group.mem_active.mpr hi.active, hij, hi.confidence_eq hj⟩

theorem charSetName_append_ne (i i' j' : Fin 7) :
    charSetName i ≠ charSetName i' ++ ' ' :: charSetName j' := by
  intro heq
  apply (single_charSetName i).2
  rw [heq]
  simp

theorem charSetName_append_inj {i j i' j' : Fin 7}
    (h : charSetName i ++ ' ' :: charSetName j = charSetName i' ++ ' ' :: charSetName j') :
    i = i' ∧ j = j' := by
  rw [List.append_cons_inj_of_notMem (single_charSetName i).2 (single_charSetName j).2] at h
  exact ⟨charSetName_injective h.1, charSetName_injective h.2.2⟩

def nameOf (i : Fin 7) : Option (Fin 7) → JString
  | none => charSetName i
  | some j => charSetName i ++ ' ' :: charSetName j

theorem getCharSetName_of_bestGuess (h : s.bestGuess = some i) :
    s.getCharSetName = (nameOf i s.bestGuess2, s) := by
  have hguess : s.guess = (i, s) := by
    rw [guess, h]
  rw [getCharSetName, hguess]
  dsimp only
  cases s.bestGuess2 <;> rfl

section

variable (hconf : ∀ i probers, 0 < p.getConfidence i probers)

include hconf

theorem first_leader (hcounted : s.toGroup.Counted) (hstate : s.state = .detecting) :
    ∃ i, s.leader.first = some i ∧ s.leader.best = s.confidence i ∧ s.Best i ∧
      ∀ k, s.Best k → i ≤ k := by
  rcases Leader.first_scan s.confidence s.active s.pairwise_active ⟨0, s.bestGuess, s.bestGuess2⟩ with
    ⟨hzero, -⟩ | ⟨i, hi, hfirst, hbest, -, hbefore⟩
  · obtain ⟨i, hi⟩ := hcounted.exists_active hstate
    have hle : s.confidence i ≤ s.leader.best :=
      Leader.apply_le_best_scan s.confidence _ (Group.mem_active.mpr hi)
    exact absurd (hle.trans hzero.le) (hconf i s.probers).not_ge
  · have htop : s.Best i := ⟨Group.mem_active.mp hi, fun k hk => hbest ▸
      Leader.apply_le_best_scan s.confidence _ (Group.mem_active.mpr hk)⟩
    refine ⟨i, hfirst, hbest.symm, htop, fun k hk => not_lt.mp fun hki => ?_⟩
    exact (hbefore k (Group.mem_active.mpr hk.active) hki).ne (hk.confidence_eq htop)

theorem namesBest_iff_second (hcounted : s.toGroup.Counted) (hstate : s.state = .detecting) :
    s.NamesBest ↔ s.leader.second = none ∨
      ∃ j, s.leader.second = some j ∧ s.Best j ∧ s.leader.first ≠ some j := by
  obtain ⟨i, hfirst, hbest, htop, -⟩ := first_leader hconf hcounted hstate
  have hname : s.getConfidence.2.getCharSetName.1 = nameOf i s.leader.second := by
    rw [getConfidence_detecting hstate, getCharSetName_of_bestGuess hfirst]
  rw [NamesBest, getConfidence_detecting hstate] at *
  simp only [hname, hbest]
  cases hsecond : s.leader.second with
  | none => exact iff_of_true ⟨i, htop, rfl, .inl rfl⟩ (.inl rfl)
  | some j =>
    simp only [nameOf, reduceCtorEq, false_or, ne_eq, Option.some.injEq, exists_eq_left', hfirst]
    constructor
    · rintro ⟨i', -, -, heq | ⟨j', hne, htop', heq⟩⟩
      · exact absurd heq.symm (charSetName_append_ne i' i j)
      · obtain ⟨rfl, rfl⟩ := charSetName_append_inj heq
        exact ⟨htop', Ne.symm hne⟩
    · rintro ⟨htop', hne⟩
      exact ⟨i, htop, rfl, .inr ⟨j, Ne.symm hne, htop', rfl⟩⟩

/-- What goes wrong in the scan, and nothing else: a second guess for somebody who is not best. -/
theorem namesBest_iff_clear (hcounted : s.toGroup.Counted) (hstate : s.state = .detecting) :
    s.NamesBest ↔ s.Clear := by
  rw [namesBest_iff_second hconf hcounted hstate]
  obtain ⟨i, hfirst, hbest, htop, hearliest⟩ := first_leader hconf hcounted hstate
  have hlater : ∀ j, s.Best j → j ≠ i → s.Level j := fun j hj hne =>
    htop.level (hconf j s.probers) (lt_of_le_of_ne (hearliest j hj) (Ne.symm hne)) hj
  have htwo : (∃ i j, i ≠ j ∧ s.Best i ∧ s.Best j) ↔ ∃ j, s.Best j ∧ j ≠ i := by
    constructor
    · rintro ⟨j, j', hne, hj, hj'⟩
      by_cases heq : j = i
      · exact ⟨j', hj', fun heq' => hne (heq.trans heq'.symm)⟩
      · exact ⟨j, hj, heq⟩
    · rintro ⟨j, hj, hne⟩
      exact ⟨j, i, hne, hj, htop⟩
  rw [Clear, htwo, hfirst]
  rcases Leader.second_scan s.confidence s.active s.pairwise_active ⟨0, s.bestGuess, s.bestGuess2⟩ with
    ⟨hnone, hsecond⟩ | ⟨j, hlevel, hlast, hsecond⟩
  · -- nobody came level: the guess of an earlier scan is left
    change s.leader.second = s.bestGuess2 at hsecond
    rw [hsecond]
    constructor
    · rintro (hclear | ⟨j, -, hj, hne⟩)
      · exact .inr ⟨hclear, hnone⟩
      · exact .inl ⟨j, hj, fun heq => hne (heq ▸ rfl)⟩
    · rintro (⟨j, hj, hne⟩ | ⟨hclear, -⟩)
      · exact absurd (hlater j hj hne) (hnone j)
      · exact .inl hclear
  · -- the last to come level is the second guess
    change s.leader.second = some j at hsecond
    rw [hsecond]
    simp only [reduceCtorEq, false_or, ne_eq, Option.some.injEq, exists_eq_left']
    have hnot : ¬(s.bestGuess2 = none ∧ ∀ j, ¬s.Level j) := fun h => h.2 j hlevel
    rw [or_iff_left hnot]
    constructor
    · rintro ⟨hj, hne⟩
      exact ⟨j, hj, Ne.symm hne⟩
    · rintro ⟨j', hj', hne'⟩
      have hle : j' ≤ j := hlast j' (hlater j' hj' hne')
      have hconf' : s.confidence j' ≤ s.confidence j := by
        rcases hle.lt_or_eq with hlt | rfl
        · exact hlevel.before j' (Group.mem_active.mpr hj'.active) hlt
        · exact le_rfl
      have hj : s.Best j := ⟨Group.mem_active.mp hlevel.mem, fun k hk => (hj'.le k hk).trans hconf'⟩
      refine ⟨hj, fun heq => ?_⟩
      have hij' : i < j' := lt_of_le_of_ne (hearliest j' hj') (Ne.symm hne')
      exact (hij'.trans_le hle).ne heq

end

/-- At every point of every run where there is no verdict yet, the names are those of the best
exactly where nothing has left a second guess for another. -/
theorem namesBest_iff (hconf : ∀ i probers, 0 < p.getConfidence i probers) (s₀ : MBCSGroupProber p)
    (cs : List MBCSCall) (hstate : (cs.foldl call s₀.reset).state = .detecting) :
    (cs.foldl call s₀.reset).NamesBest ↔ (cs.foldl call s₀.reset).Clear :=
  namesBest_iff_clear hconf (counted_calls s₀ cs) hstate

end MBCSGroupProber

/-- SHIFT_JIS comes level with UTF-8, and then EUC-JP beats both. -/
def levelLosers : Probers 7 where
  State := Unit
  new := ()
  reset := fun _ _ => ()
  handleData := fun _ _ _ => (.detecting, ())
  getConfidence := fun i _ => ![3 / 10, 3 / 10, 1 / 2, 1 / 10, 1 / 10, 1 / 10, 1 / 10] i

theorem levelLosers_pos (i : Fin 7) (probers : levelLosers.State) :
    0 < levelLosers.getConfidence i probers := by
  revert i
  simp only [levelLosers]
  decide +kernel

theorem namesBest_iff_levelLosers :
    ([MBCSCall.handleData [0xb0]].foldl MBCSGroupProber.call
        (MBCSGroupProber.new : MBCSGroupProber levelLosers).reset).NamesBest ↔
      ([MBCSCall.handleData [0xb0]].foldl MBCSGroupProber.call
        (MBCSGroupProber.new : MBCSGroupProber levelLosers).reset).Clear :=
  MBCSGroupProber.namesBest_iff levelLosers_pos _ _ rfl

theorem not_namesBest_levelLosers :
    (∀ i probers, 0 < levelLosers.getConfidence i probers ∧ levelLosers.getConfidence i probers < 1) ∧
      let s := [MBCSCall.handleData [0xb0]].foldl MBCSGroupProber.call
        (MBCSGroupProber.new : MBCSGroupProber levelLosers).reset
      s.state = .detecting ∧ s.getConfidence.1 = 1 / 2 ∧
        s.getConfidence.2.getCharSetName.1 = CHARSET_EUC_JP ++ ' ' :: CHARSET_SHIFT_JIS ∧
        s.confidence 1 = 3 / 10 ∧ ¬s.NamesBest := by
  have hrange : ∀ i : Fin 7, (![3 / 10, 3 / 10, 1 / 2, 1 / 10, 1 / 10, 1 / 10, 1 / 10] : Fin 7 → ℚ) i < 1 := by
    decide +kernel
  have hbest : ∀ i : Fin 7,
      (1 / 2 : ℚ) = (![3 / 10, 3 / 10, 1 / 2, 1 / 10, 1 / 10, 1 / 10, 1 / 10] : Fin 7 → ℚ) i → i = 2 := by
    decide +kernel
  have hname : (MBCSGroupProber.new : MBCSGroupProber levelLosers).reset.getConfidence.2.getCharSetName.1 =
      MBCSGroupProber.charSetName 2 ++ ' ' :: MBCSGroupProber.charSetName 1 := by decide +kernel
  have hconf : (MBCSGroupProber.new : MBCSGroupProber levelLosers).reset.getConfidence.1 = 1 / 2 := by
    decide +kernel
  refine ⟨fun i probers => ⟨levelLosers_pos i probers, hrange i⟩, rfl, hconf, hname, rfl, ?_⟩
  rintro ⟨i, -, hi, heq | ⟨j, -, hj, heq⟩⟩
  · exact MBCSGroupProber.charSetName_append_ne i 2 1 (heq.symm.trans hname)
  · obtain ⟨-, rfl⟩ := MBCSGroupProber.charSetName_append_inj (hname.symm.trans heq)
    have hle := hj.le 2 rfl
    revert hle
    decide +kernel

end G361FPlatform.CharDet
