import G361FPlatform.CharDet.PollLaws

namespace G361FPlatform.CharDet

open Library

theorem single_name (i : Fin 4) : Single (SMModel.name i) := by
  revert i
  decide

theorem single_windows_1252 : Single CHARSET_WINDOWS_1252 := by decide

theorem single_byteOrderMark {buf : List UInt8} {name : JString} (h : byteOrderMark buf = some name) :
    Single name := by
  unfold byteOrderMark at h
  split at h
  · split_ifs at h <;> cases h <;> decide
  · cases h

namespace EscCharsetProber

def Names (s : EscCharsetProber) : Prop :=
  s.state = .foundIt → ∃ name, s.detectedCharset = some name ∧ Single name

theorem names_reset (s : EscCharsetProber) : s.reset.Names := nofun

theorem Names.tryMachines {nextState : Fin 4 → UInt8 → Nat → Nat} {s : EscCharsetProber} (h : s.Names)
    (c : UInt8) (j : Nat) : (tryMachines nextState c j s).Names := by
  induction j generalizing s with
  | zero => exact h
  | succ j ih =>
    unfold EscCharsetProber.tryMachines
    dsimp only
    split
    · split
      · exact nofun
      · refine ih ?_
        split <;> exact h
    · split
      · exact fun _ => ⟨_, rfl, single_name _⟩
      · exact ih h

theorem Names.handleBytes {nextState : Fin 4 → UInt8 → Nat → Nat} {s : EscCharsetProber} (h : s.Names)
    (buf : List UInt8) : (handleBytes nextState buf s).Names := by
  induction buf generalizing s with
  | nil => exact h
  | cons c cs ih =>
    unfold EscCharsetProber.handleBytes
    split
    · exact ih (h.tryMachines c _)
    · exact h

end EscCharsetProber

namespace Groups

variable {e : Engine} {g : Groups e}

def Quiet (g : Groups e) : Prop := g.mbcs.bestGuess2 = none

theorem Quiet.handleData (h : g.Quiet) (buf : List UInt8) (i : Place) : (g.handleData buf i).2.Quiet := by
  cases i with
  | mbcs => exact h
  | sbcs => exact h
  | latin1 => exact h

theorem Quiet.getCharSetName (h : g.Quiet) (buf : List UInt8) (i : Place)
    (hfound : (g.handleData buf i).1 = .foundIt) :
    Single ((g.handleData buf i).2.getCharSetName i).1 ∧ ((g.handleData buf i).2.getCharSetName i).2.Quiet := by
  cases i with
  | mbcs =>
    have hstate : (g.mbcs.handleData buf).2.state ≠ .detecting := by
      change (g.mbcs.handleData buf).2.state = .foundIt at hfound
      rw [hfound]
      nofun
    have hsecond : (g.mbcs.handleData buf).2.guess.2.bestGuess2 = none :=
      (MBCSGroupProber.bestGuess2_guess hstate).trans h
    have hname := MBCSGroupProber.getCharSetName_eq (g.mbcs.handleData buf).2
    constructor
    · change Single (g.mbcs.handleData buf).2.getCharSetName.1
      rw [hname]
      exact MBCSGroupProber.single_nameOf.mpr hsecond
    · change (g.mbcs.handleData buf).2.getCharSetName.2.bestGuess2 = none
      rw [hname]
      exact hsecond
  | sbcs => exact ⟨Subtype.property _, h⟩
  | latin1 => exact ⟨single_windows_1252, h⟩

theorem Quiet.feed (h : g.Quiet) (buf : List UInt8) (is : List Place) :
    (g.feed buf is).2.Quiet ∧ ∀ name, (g.feed buf is).1 = some name → Single name := by
  induction is generalizing g with
  | nil => exact ⟨h, nofun⟩
  | cons i is ih =>
    unfold Groups.feed
    dsimp only
    split
    next hfound =>
      obtain ⟨hsingle, hquiet⟩ := h.getCharSetName buf i hfound
      refine ⟨hquiet, ?_⟩
      rintro name ⟨⟩
      exact hsingle
    · exact ih (h.handleData buf i)

end Groups

namespace UniversalDetector

variable {e : Engine} {s : UniversalDetector e}

structure Fed (s : UniversalDetector e) : Prop where
  listener : s.listener = true
  gotData : s.inputState ≠ .pureAscii → s.gotData = true
  single : ∀ name, s.detectedCharset = some name → Single name ∧ s.gotData = true
  all_eq : s.detectedAllCharset = none
  probers : s.inputState = .highbyte → s.probers ≠ none
  quiet : ∀ g, s.probers = some g → g.Quiet
  esc : ∀ esc, s.escCharsetProber = some esc → esc.Names

theorem fed_reset (h : s.listener = true) : s.reset.Fed where
  listener := h
  gotData := fun hne => absurd rfl hne
  single := nofun
  all_eq := rfl
  probers := nofun
  quiet := by
    intro g hg
    obtain ⟨g', -, rfl⟩ := Option.map_eq_some_iff.mp hg
    rfl
  esc := by
    intro esc hesc
    obtain ⟨esc', -, rfl⟩ := Option.map_eq_some_iff.mp hesc
    exact EscCharsetProber.names_reset esc'

theorem gotData_inputByte (s : UniversalDetector e) (c : UInt8) : (s.inputByte c).gotData = s.gotData := by
  unfold inputByte
  split
  · split <;> rfl
  · dsimp only
    split <;> rfl

theorem Fed.inputByte (h : s.Fed) (hgot : s.gotData = true) (c : UInt8) : (s.inputByte c).Fed := by
  unfold UniversalDetector.inputByte
  split
  · split
    · refine ⟨h.listener, fun _ => hgot, h.single, h.all_eq, fun _ => nofun, ?_, nofun⟩
      rintro g ⟨⟩
      cases hg : s.probers with
      | none => rfl
      | some g => exact h.quiet g hg
    · exact h
  · dsimp only
    split
    · exact ⟨h.listener, fun _ => hgot, h.single, h.all_eq, nofun, h.quiet, h.esc⟩
    · exact ⟨h.listener, h.gotData, h.single, h.all_eq, h.probers, h.quiet, h.esc⟩

theorem Fed.inputBytes {buf : List UInt8} (h : s.Fed) (hgot : buf ≠ [] → s.gotData = true) :
    (buf.foldl UniversalDetector.inputByte s).Fed := by
  induction buf generalizing s with
  | nil => exact h
  | cons c cs ih =>
    have hgot : s.gotData = true := hgot (List.cons_ne_nil c cs)
    exact ih (h.inputByte hgot c) fun _ => (gotData_inputByte s c).trans hgot

theorem Fed.feedProbers (h : s.Fed) (buf : List UInt8) : ∃ s', s.feedProbers buf = .ok s' ∧ s'.Fed := by
  unfold UniversalDetector.feedProbers
  cases hstate : s.inputState with
  | pureAscii => exact ⟨s, rfl, h⟩
  | escAscii =>
    have hgot : s.gotData = true := h.gotData (by simp [hstate])
    have hold : (s.escCharsetProber.getD EscCharsetProber.new).Names := by
      cases hesc : s.escCharsetProber with
      | none => exact EscCharsetProber.names_reset _
      | some esc => exact h.esc esc hesc
    have hnames : ((s.escCharsetProber.getD EscCharsetProber.new).handleData e.nextState buf).2.Names :=
      hold.handleBytes buf
    dsimp only
    split
    next hfound =>
      obtain ⟨name, hname, hsingle⟩ := hnames hfound
      refine ⟨_, rfl, h.listener, fun _ => hgot, ?_, h.all_eq, nofun, h.quiet, ?_⟩
      · intro name' hname'
        cases hname.symm.trans hname'
        exact ⟨hsingle, hgot⟩
      · rintro esc ⟨⟩
        exact hnames
    · refine ⟨_, rfl, h.listener, fun _ => hgot, h.single, h.all_eq, nofun, h.quiet, ?_⟩
      rintro esc ⟨⟩
      exact hnames
  | highbyte =>
    have hgot : s.gotData = true := h.gotData (by simp [hstate])
    obtain ⟨g, hg⟩ := Option.ne_none_iff_exists'.mp (h.probers hstate)
    obtain ⟨hquiet, hsingle⟩ := (h.quiet g hg).feed buf Place.all
    simp only [hg]
    generalize g.feed buf Place.all = fed at hquiet hsingle
    obtain ⟨found, g'⟩ := fed
    have hquiet' : ∀ g'', some g' = some g'' → g''.Quiet := by
      rintro g'' ⟨⟩
      exact hquiet
    cases found with
    | none => exact ⟨_, rfl, h.listener, fun _ => hgot, h.single, h.all_eq, fun _ => nofun, hquiet', h.esc⟩
    | some name =>
      refine ⟨_, rfl, h.listener, fun _ => hgot, ?_, h.all_eq, fun _ => nofun, hquiet', h.esc⟩
      rintro name' ⟨⟩
      exact ⟨hsingle name rfl, hgot⟩

theorem Fed.handleStart {buf : List UInt8} (h : s.Fed) (hgot : buf ≠ [] → s.gotData = true) :
    (s.handleStart buf).Fed := by
  unfold UniversalDetector.handleStart
  split
  · dsimp only
    split
    · exact ⟨h.listener, h.gotData, h.single, h.all_eq, h.probers, h.quiet, h.esc⟩
    next name hname =>
      refine ⟨h.listener, h.gotData, ?_, h.all_eq, h.probers, h.quiet, h.esc⟩
      rintro name' ⟨⟩
      refine ⟨single_byteOrderMark hname, hgot ?_⟩
      rintro rfl
      cases hname
  · exact h

theorem gotData_handleStart (s : UniversalDetector e) (buf : List UInt8) :
    (s.handleStart buf).gotData = s.gotData := by
  unfold handleStart
  split
  · dsimp only
    split <;> rfl
  · rfl

theorem Fed.handleData (h : s.Fed) (buf : List UInt8) : ∃ s', s.handleData buf = .ok s' ∧ s'.Fed := by
  unfold UniversalDetector.handleData
  by_cases hdone : s.done = true
  · exact ⟨s, if_pos hdone, h⟩
  rw [if_neg hdone]
  dsimp only
  generalize hs₁ : (if 0 < buf.length then { s with gotData := true } else s) = s₁
  have h₁ : s₁.Fed ∧ (buf ≠ [] → s₁.gotData = true) := by
    rw [← hs₁]
    split
    · exact ⟨⟨h.listener, fun _ => rfl, fun name hname => ⟨(h.single name hname).1, rfl⟩, h.all_eq, h.probers,
        h.quiet, h.esc⟩, fun _ => rfl⟩
    next hempty => exact ⟨h, fun hne => absurd (List.length_pos_iff.mpr hne) hempty⟩
  have h₂ := h₁.1.handleStart h₁.2
  split
  · exact ⟨_, rfl, h₂.listener, h₂.gotData, h₂.single, h₂.all_eq, h₂.probers, h₂.quiet, h₂.esc⟩
  · refine (h₂.inputBytes fun hne => ?_).feedProbers buf
    rw [gotData_handleStart, h₁.2 hne]

def handleAll (chunks : List (List UInt8)) (s : UniversalDetector e) : Except Thrown (UniversalDetector e) :=
  chunks.foldlM (fun s buf => s.handleData buf) s

theorem Fed.handleAll (h : s.Fed) (chunks : List (List UInt8)) : ∃ s', s.handleAll chunks = .ok s' ∧ s'.Fed := by
  induction chunks generalizing s with
  | nil => exact ⟨s, rfl, h⟩
  | cons buf chunks ih =>
    obtain ⟨s₁, hrun, h₁⟩ := h.handleData buf
    obtain ⟨s₂, hrest, h₂⟩ := ih h₁
    refine ⟨s₂, ?_, h₂⟩
    rw [UniversalDetector.handleAll, List.foldlM_cons, hrun]
    exact hrest

/-- What the listener is told, if anything, is one charset's name, the one `getDetectedCharset` gives,
and one of those in `getDetectedAllCharset`. -/
structure Agree (reported : Option JString) (s : UniversalDetector e) : Prop where
  told : ∀ name, reported = some name → Single name ∧ s.getDetectedCharset = .ok (some name) ∧
    ∃ names, s.getDetectedAllCharset = some names ∧ name ∈ split names
  null_iff : s.getDetectedCharset = .ok none ↔ reported = none

/-- The data end without a charset, the multi-byte group is the most confident one, and one of its
probers comes level with the best before it. -/
def Doubled (s : UniversalDetector e) : Prop :=
  s.gotData = true ∧ s.detectedCharset = none ∧ s.inputState = .highbyte ∧
    ∃ g, s.probers = some g ∧ g.mbcs.state = .detecting ∧
      (∃ i, g.mbcs.isActive i = true ∧ MINIMUM_THRESHOLD < g.mbcs.confidence i ∧
        (SBCSGroupProber.getConfidence g.sbcs).1 ≤ g.mbcs.confidence i ∧
        e.latin1Confidence g.latin1 ≤ g.mbcs.confidence i) ∧
      ∃ j, g.mbcs.Level j

theorem getDetectedCharset_single {name : JString} (h : s.detectedCharset = some name) (hsingle : Single name) :
    s.getDetectedCharset = .ok (some name) := by
  rw [getDetectedCharset, h]
  simp [split_single hsingle]

theorem report_eq (h : s.listener = true) (name : JString) : s.report name = some name := if_pos h

theorem agree_none (h : s.detectedCharset = none) : Agree none s where
  told := nofun
  null_iff := iff_of_true (by rw [getDetectedCharset, h]) rfl

theorem agree_single {name names : JString} (hdetected : s.detectedCharset = some name) (hsingle : Single name)
    (hall : s.detectedAllCharset = some names) (hmem : name ∈ split names) : Agree (some name) s where
  told := by
    rintro name' ⟨⟩
    exact ⟨hsingle, getDetectedCharset_single hdetected hsingle, names, hall, hmem⟩
  null_iff := by
    rw [getDetectedCharset_single hdetected hsingle]
    simp

end UniversalDetector

namespace Groups

variable {e : Engine} {g : Groups e}

theorem minimum_threshold_pos : (0 : ℚ) < MINIMUM_THRESHOLD := by
  norm_num [MINIMUM_THRESHOLD]

theorem Quiet.second_leader (h : g.Quiet) : g.mbcs.leader.second = none ↔ ∀ j, ¬g.mbcs.Level j := by
  rcases Leader.second_scan g.mbcs.confidence g.mbcs.active g.mbcs.pairwise_active
      ⟨0, g.mbcs.bestGuess, g.mbcs.bestGuess2⟩ with ⟨hnone, hsecond⟩ | ⟨j, hlevel, -, hsecond⟩
  · exact iff_of_true (hsecond.trans h) hnone
  · refine iff_of_false (fun hnone => ?_) fun hnone => hnone j hlevel
    cases hnone.symm.trans hsecond

theorem exists_first_leader (h : MINIMUM_THRESHOLD < g.mbcs.leader.best) :
    ∃ i, g.mbcs.leader.first = some i ∧ g.mbcs.isActive i = true ∧
      g.mbcs.confidence i = g.mbcs.leader.best := by
  rcases Leader.first_scan g.mbcs.confidence g.mbcs.active g.mbcs.pairwise_active
      ⟨0, g.mbcs.bestGuess, g.mbcs.bestGuess2⟩ with ⟨hzero, -⟩ | ⟨i, hi, hfirst, hbest, -⟩
  · have hzero : g.mbcs.leader.best = 0 := hzero
    rw [hzero] at h
    exact absurd h minimum_threshold_pos.le.not_gt
  · exact ⟨i, hfirst, Group.mem_active.mp hi, hbest⟩

theorem Quiet.single_askMbcs {name : JString} (h : g.Quiet) (hname : g.askMbcs.2.1 = some name) :
    Worded name ∧ (Single name ↔ ¬(g.mbcs.state = .detecting ∧ ∃ j, g.mbcs.Level j)) := by
  have hlt : MINIMUM_THRESHOLD < g.mbcs.getConfidence.1 := by
    by_contra hlow
    rw [askMbcs, ask_of_not_lt hlow] at hname
    cases hname
  rw [askMbcs, ask_of_lt hlt] at hname
  obtain rfl : g.mbcs.getConfidence.2.getCharSetName.1 = name := Option.some.inj hname
  by_cases hstate : g.mbcs.state = .detecting
  · rw [MBCSGroupProber.getConfidence_detecting hstate] at hlt ⊢
    obtain ⟨i, hfirst, -⟩ := exists_first_leader hlt
    rw [MBCSGroupProber.getCharSetName_of_bestGuess hfirst]
    refine ⟨worded_nameOf _ _, MBCSGroupProber.single_nameOf.trans ?_⟩
    rw [h.second_leader]
    simp [hstate]
  · rw [MBCSGroupProber.getConfidence_snd hstate, MBCSGroupProber.getCharSetName_eq]
    refine ⟨worded_nameOf _ _, MBCSGroupProber.single_nameOf.trans ?_⟩
    refine iff_of_true ((MBCSGroupProber.bestGuess2_guess hstate).trans h) fun hlevel => hstate hlevel.1

theorem Quiet.ballot (h : g.Quiet) {i : Place} {name : JString} (hname : (g.ballot i).2 = some name) :
    Worded name ∧ (Single name ↔ ¬(i = .mbcs ∧ g.mbcs.state = .detecting ∧ ∃ j, g.mbcs.Level j)) := by
  cases i with
  | mbcs => simpa using h.single_askMbcs hname
  | sbcs =>
    have hsingle : Single name := single_ask (fun _ => Subtype.property _) hname
    exact ⟨worded_single hsingle, iff_of_true hsingle nofun⟩
  | latin1 =>
    have hsingle : Single name := single_ask (fun _ => single_windows_1252) hname
    exact ⟨worded_single hsingle, iff_of_true hsingle nofun⟩

theorem ballot_eq_none {i : Place} : (g.ballot i).2 = none ↔ ¬MINIMUM_THRESHOLD < (g.ballot i).1 := by
  cases i with
  | mbcs => exact ask_name_eq_none
  | sbcs => exact ask_name_eq_none
  | latin1 => exact ask_name_eq_none

theorem Quiet.named_tally (h : g.Quiet) :
    (Poll.tally g.ballot).Named (Place.all.flatMap fun i => (g.ballot i).2.elim [] split) := by
  have hstart : (⟨0, .mbcs, none⟩ : Poll).Named [] := ⟨rfl, by simp⟩
  exact Poll.named_foldl (fun _ _ hname => (h.ballot hname).1) Place.all hstart

theorem mbcs_wins_iff (hstate : g.mbcs.state = .detecting) :
    (MINIMUM_THRESHOLD < (Poll.tally g.ballot).maxProberConfidence ∧ (Poll.tally g.ballot).maxProber = .mbcs) ↔
      ∃ i, g.mbcs.isActive i = true ∧ MINIMUM_THRESHOLD < g.mbcs.confidence i ∧
        (SBCSGroupProber.getConfidence g.sbcs).1 ≤ g.mbcs.confidence i ∧
        e.latin1Confidence g.latin1 ≤ g.mbcs.confidence i := by
  have hmbcs : (g.ballot .mbcs).1 = g.mbcs.leader.best := by
    change g.askMbcs.1 = _
    rw [askMbcs, ask_fst, MBCSGroupProber.getConfidence_detecting hstate]
  have hsbcs : (g.ballot .sbcs).1 = (SBCSGroupProber.getConfidence g.sbcs).1 := ask_fst
  have hlatin1 : (g.ballot .latin1).1 = e.latin1Confidence g.latin1 := ask_fst
  rw [Poll.maxProber_tally_eq_mbcs minimum_threshold_pos.le, hmbcs, hsbcs, hlatin1]
  constructor
  · rintro ⟨hlt, hle, hle'⟩
    obtain ⟨i, -, hi, hbest⟩ := exists_first_leader hlt
    exact ⟨i, hi, by rwa [hbest], by rwa [hbest], by rwa [hbest]⟩
  · rintro ⟨i, hi, hlt, hle, hle'⟩
    have hbest : g.mbcs.confidence i ≤ g.mbcs.leader.best :=
      Leader.apply_le_best_scan _ _ (Group.mem_active.mpr hi)
    exact ⟨hlt.trans_le hbest, hle.trans hbest, hle'.trans hbest⟩

end Groups

namespace UniversalDetector

variable {e : Engine} {s : UniversalDetector e}

theorem Fed.dataEnd_highbyte (h : s.Fed) {g : Groups e} (hgot : s.gotData = true)
    (hdetected : s.detectedCharset = none) (hstate : s.inputState = .highbyte) (hg : s.probers = some g) :
    ∃ reported s', s.dataEnd = .ok (reported, s') ∧
      (Agree reported s' ↔ ¬((MINIMUM_THRESHOLD < (Poll.tally g.ballot).maxProberConfidence ∧
        (Poll.tally g.ballot).maxProber = .mbcs) ∧ g.mbcs.state = .detecting ∧ ∃ j, g.mbcs.Level j)) := by
  have hquiet := h.quiet g hg
  have hpoll : g.poll Place.all ⟨0, .mbcs, s.detectedAllCharset⟩ = (Poll.tally g.ballot, g.asked) := by
    rw [Groups.poll_all, h.all_eq]
    rfl
  unfold dataEnd
  simp only [hgot, Bool.not_true, Bool.false_eq_true, if_false, hdetected, hstate, hg, hpoll]
  by_cases hwins : MINIMUM_THRESHOLD < (Poll.tally g.ballot).maxProberConfidence
  · rw [if_pos hwins]
    have hconf := Poll.maxProberConfidence_tally (Groups.minimum_threshold_pos.trans hwins)
    generalize hi : (Poll.tally g.ballot).maxProber = i at hconf
    obtain ⟨name, hname⟩ := Option.ne_none_iff_exists'.mp
      (mt Groups.ballot_eq_none.mp (not_not.mpr (hconf ▸ hwins)))
    obtain ⟨hworded, hsingle⟩ := hquiet.ballot hname
    rw [Groups.getCharSetName_asked hname]
    refine ⟨_, _, rfl, ?_⟩
    dsimp only
    rw [report_eq (by exact h.listener), and_iff_right hwins]
    by_cases hone : Single name
    · refine iff_of_true ?_ (hsingle.mp hone)
      have hmem : name ∈ Place.all.flatMap fun i => (g.ballot i).2.elim [] split := by
        refine List.mem_flatMap.mpr ⟨i, Place.mem_all i, ?_⟩
        simp [hname, split_single hone]
      have hne := List.ne_nil_of_mem hmem
      have hnamed := hquiet.named_tally
      refine agree_single rfl hone (hnamed.all_eq.trans (if_neg hne)) ?_
      rwa [split_join hne hnamed.single]
    · exact iff_of_false (fun hagree => hone (hagree.told name rfl).1) fun hnot => hone (hsingle.mpr hnot)
  · rw [if_neg hwins]
    exact ⟨_, _, rfl, iff_of_true (agree_none rfl) fun hdoubled => hwins hdoubled.1.1⟩

/-- However the bytes are cut, after `dataEnd` the outputs agree unless the multi-byte group wins with
two names. -/
theorem agree_iff (s₀ : UniversalDetector e) (hlistener : s₀.listener = true) (chunks : List (List UInt8)) :
    ∃ s reported s', s₀.reset.handleAll chunks = .ok s ∧ s.dataEnd = .ok (reported, s') ∧
      (Agree reported s' ↔ ¬s.Doubled) := by
  obtain ⟨s, hrun, h⟩ := (fed_reset hlistener).handleAll chunks
  by_cases hgot : s.gotData = true
  · cases hdetected : s.detectedCharset with
    | some name =>
      obtain ⟨hsingle, -⟩ := h.single name hdetected
      have hend : s.dataEnd = .ok (some name, { s with done := true, detectedAllCharset := some name }) := by
        simp [dataEnd, hgot, hdetected, report_eq h.listener]
      refine ⟨s, _, _, hrun, hend, iff_of_true ?_ ?_⟩
      · exact agree_single hdetected hsingle rfl (by simp [split_single hsingle])
      · rintro ⟨-, hnone, -⟩
        cases hdetected.symm.trans hnone
    | none =>
      by_cases hstate : s.inputState = .highbyte
      · obtain ⟨g, hg⟩ := Option.ne_none_iff_exists'.mp (h.probers hstate)
        obtain ⟨reported, s', hend, hagree⟩ := h.dataEnd_highbyte hgot hdetected hstate hg
        refine ⟨s, reported, s', hrun, hend, hagree.trans (not_congr ?_)⟩
        constructor
        · rintro ⟨hwins, hverdict, hlevel⟩
          exact ⟨hgot, hdetected, hstate, g, hg, hverdict, (Groups.mbcs_wins_iff hverdict).mp hwins, hlevel⟩
        · rintro ⟨-, -, -, g', hg', hverdict, hwins, hlevel⟩
          cases hg.symm.trans hg'
          exact ⟨(Groups.mbcs_wins_iff hverdict).mpr hwins, hverdict, hlevel⟩
      · have hend : s.dataEnd = .ok (none, s) := by
          rw [dataEnd, hdetected]
          simp only [hgot, Bool.not_true, Bool.false_eq_true, if_false]
          cases hinput : s.inputState with
          | highbyte => exact absurd hinput hstate
          | escAscii => rfl
          | pureAscii => rfl
        exact ⟨s, none, s, hrun, hend, iff_of_true (agree_none hdetected) fun hdoubled => hstate hdoubled.2.2.1⟩
  · have hdetected : s.detectedCharset = none := by
      by_contra hne
      obtain ⟨name, hname⟩ := Option.ne_none_iff_exists'.mp hne
      exact hgot (h.single name hname).2
    refine ⟨s, none, s, hrun, by simp [dataEnd, hgot], iff_of_true (agree_none hdetected) ?_⟩
    exact fun hdoubled => hgot hdoubled.1

end UniversalDetector

def levelEngine : Engine where
  mbcs := levelLosers
  sbcs := {
    State := Unit
    new := ()
    reset := fun _ _ => ()
    handleData := fun _ _ _ => (.detecting, ())
    getConfidence := fun _ _ => 1 / 10
    getCharSetName := fun _ _ => ⟨CHARSET_WINDOWS_1252, single_windows_1252⟩ }
  latin1 := {
    State := Unit
    new := ()
    reset := fun _ _ => ()
    handleData := fun _ _ _ => (.detecting, ())
    getConfidence := fun _ _ => 1 / 10 }
  nextState := fun _ _ _ => SMModel.START

theorem agree_iff_levelEngine : ∃ s reported s',
    (UniversalDetector.new true : UniversalDetector levelEngine).reset.handleAll [[0xb0], [0xa1, 0x0a]] = .ok s ∧
      s.dataEnd = .ok (reported, s') ∧ (UniversalDetector.Agree reported s' ↔ ¬s.Doubled) :=
  UniversalDetector.agree_iff _ rfl _

theorem not_agree_levelEngine : ∃ s s',
    (UniversalDetector.new true : UniversalDetector levelEngine).reset.handleAll [[0xb0], [0xa1, 0x0a]] = .ok s ∧
      s.dataEnd = .ok (some (CHARSET_EUC_JP ++ ' ' :: CHARSET_SHIFT_JIS), s') ∧
        s'.getDetectedCharset = .ok (some CHARSET_EUC_JP) ∧
        ¬UniversalDetector.Agree (some (CHARSET_EUC_JP ++ ' ' :: CHARSET_SHIFT_JIS)) s' := by
  have hseen : ((UniversalDetector.new true : UniversalDetector levelEngine).reset.handleAll
      [[0xb0], [0xa1, 0x0a]] >>= UniversalDetector.dataEnd).toOption.map
        (fun p => (p.1, p.2.getDetectedCharset.toOption)) =
      some (some (CHARSET_EUC_JP ++ ' ' :: CHARSET_SHIFT_JIS), some (some CHARSET_EUC_JP)) := by
    decide +kernel
  obtain ⟨⟨reported, s'⟩, hrun, heq⟩ := exists_of_map_eq_some hseen
  obtain ⟨s, hfed, hend⟩ := bind_eq_ok hrun
  obtain ⟨rfl, hcharset⟩ := Prod.mk.inj heq
  refine ⟨s, s', hfed, hend, ?_, fun hagree => not_single_append _ _ (hagree.told _ rfl).1⟩
  cases hget : s'.getDetectedCharset with
  | error thrown =>
    rw [hget] at hcharset
    cases hcharset
  | ok charset =>
    rw [hget] at hcharset
    cases hcharset
    rfl

end G361FPlatform.CharDet
