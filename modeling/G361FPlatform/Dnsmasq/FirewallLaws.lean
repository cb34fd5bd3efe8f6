import Mathlib.Data.List.Nodup
import G361FPlatform.Library.Run
import G361FPlatform.Dnsmasq.WithdrawLaws

namespace G361FPlatform.Dnsmasq

open Library CString

def natctrlForward : Tables (List Rule) := fun c chain =>
  (true, match c.action with
    | .append => chain ++ [c.rule]
    | .delete => chain.erase c.rule)

def Rule.Forwards (inf outf : CString) : Rule → Prop
  | .forward i o => i = inf ∧ o = outf
  | .range i o _ => i = inf ∧ o = outf
  | _ => False

def Rule.ReturnsFor (inf : CString) : Rule → Prop
  | .forward i o => i = inf ∨ o = inf
  | .range i o _ => i = inf ∨ o = inf
  | _ => False

def Rule.internal : Rule → Option CString
  | .tcpmss => none
  | .forward _ o => some o
  | .range i _ _ => some i
  | .block i => some i

section

variable {chain : List Rule} {r x : Rule}

def renew (r : Rule) (chain : List Rule) : List Rule := chain.erase r ++ [r]

theorem mem_renew : x ∈ renew r chain ↔ x = r ∨ x ∈ chain := by
  rw [renew, List.mem_append, List.mem_singleton, or_comm]
  by_cases h : x = r
  · simp [h]
  · simp [h, List.mem_erase_of_ne h]

theorem nodup_renew (h : chain.Nodup) : (renew r chain).Nodup := by
  refine (List.nodup_append.mpr ⟨h.erase r, List.nodup_singleton r, ?_⟩)
  rintro y hy z hz rfl
  rw [List.mem_singleton.mp hz] at hy
  exact h.not_mem_erase hy

end

section

variable (ntop : In6Addr → CString) (p : In6Addr) (int ext : CString) (chain : List Rule)

theorem activeNewPrefix_eq : activeNewPrefix natctrlForward ntop p int ext chain =
    renew (.block int) (renew (.range int ext (srcRange ntop p)) (renew (.forward ext int) (renew .tcpmss chain))) :=
  rfl

theorem deprecateOldPrefix_eq : (deprecateOldPrefix natctrlForward ntop p int ext chain).2 =
    if p = 0 then chain
    else (((chain.erase .tcpmss).erase (.forward ext int)).erase (.range int ext (srcRange ntop p))).erase
      (.block int) := by
  unfold deprecateOldPrefix
  split <;> rfl

theorem mem_activeNewPrefix {x : Rule} : x ∈ activeNewPrefix natctrlForward ntop p int ext chain ↔
    x = .block int ∨ x = .range int ext (srcRange ntop p) ∨ x = .forward ext int ∨ x = .tcpmss ∨ x ∈ chain := by
  rw [activeNewPrefix_eq, mem_renew, mem_renew, mem_renew, mem_renew]

theorem nodup_activeNewPrefix (h : chain.Nodup) :
    (activeNewPrefix natctrlForward ntop p int ext chain).Nodup :=
  nodup_renew (nodup_renew (nodup_renew (nodup_renew h)))

theorem nodup_deprecateOldPrefix (h : chain.Nodup) :
    (deprecateOldPrefix natctrlForward ntop p int ext chain).2.Nodup := by
  rw [deprecateOldPrefix_eq]
  split
  · exact h
  · exact (((h.erase _).erase _).erase _).erase _

/-- The rules of the new prefix are the only ones that let packets out exactly where there was no
other one before, and the interfaces are two. -/
theorem only_activeNewPrefix_iff :
    (∀ x ∈ activeNewPrefix natctrlForward ntop p int ext chain, x.Forwards int ext →
      x = .range int ext (srcRange ntop p)) ↔
    int ≠ ext ∧ ∀ x ∈ chain, x.Forwards int ext → x = .range int ext (srcRange ntop p) := by
  constructor
  · intro h
    refine ⟨?_, fun x hx => h x ((mem_activeNewPrefix ntop p int ext chain).mpr (.inr (.inr (.inr (.inr hx)))))⟩
    rintro rfl
    have hrule := h (.forward int int) ((mem_activeNewPrefix ntop p int int chain).mpr (.inr (.inr (.inl rfl))))
      ⟨rfl, rfl⟩
    cases hrule
  · rintro ⟨hne, h⟩ x hx hforwards
    rcases (mem_activeNewPrefix ntop p int ext chain).mp hx with rfl | rfl | rfl | rfl | hx
    · exact hforwards.elim
    · rfl
    · exact absurd hforwards.2 hne
    · exact hforwards.elim
    · exact h x hx hforwards

/-- The deletions leave nothing of an internal interface exactly where all that was made for it is
what they delete. -/
theorem none_deprecateOldPrefix_iff (h : chain.Nodup) :
    (∀ x ∈ (deprecateOldPrefix natctrlForward ntop p int ext chain).2, x.internal ≠ some int) ↔
    ∀ x ∈ chain, x.internal = some int →
      p ≠ 0 ∧ (x = .forward ext int ∨ x = .range int ext (srcRange ntop p) ∨ x = .block int) := by
  rw [deprecateOldPrefix_eq]
  split
  next hzero =>
    constructor
    · exact fun hnone x hx heq => absurd heq (hnone x hx)
    · exact fun hall x hx heq => (hall x hx heq).1 hzero
  next hzero =>
    have hmem : ∀ x, x ∈ (((chain.erase .tcpmss).erase (.forward ext int)).erase
        (.range int ext (srcRange ntop p))).erase (.block int) ↔
        x ≠ .block int ∧ x ≠ .range int ext (srcRange ntop p) ∧ x ≠ .forward ext int ∧ x ≠ .tcpmss ∧ x ∈ chain := by
      intro x
      rw [(((h.erase _).erase _).erase _).mem_erase_iff, ((h.erase _).erase _).mem_erase_iff, (h.erase _).mem_erase_iff,
        h.mem_erase_iff]
    constructor
    · intro hnone x hx heq
      refine ⟨hzero, ?_⟩
      by_contra hother
      rw [not_or, not_or] at hother
      refine hnone x ((hmem x).mpr ⟨hother.2.2, hother.2.1, hother.1, ?_, hx⟩) heq
      rintro rfl
      cases heq
    · intro hall x hx heq
      obtain ⟨hblock, hrange, hforward, -, hx⟩ := (hmem x).mp hx
      rcases (hall x hx heq).2 with h | h | h
      · exact hforward h
      · exact hrange h
      · exact hblock h

end

structure Radv.Same (s s' : Radv κ τ) : Prop where
  chain : s'.chain = s.chain
  intInterface : s'.intInterface = s.intInterface
  extInterface : s'.ra.extInterface = s.ra.extInterface
  gDeprecate : s'.ra.gDeprecate = false

section

variable {w : World κ τ}

theorem sendRa_extInterface (iface : Int) (name : CString) (net : Network) (g : RaGlobals) :
    (sendRa w.wild iface name net g).2.extInterface = g.extInterface := by
  rcases sendRa_cases w.wild iface name net g with ⟨-, heq⟩ | ⟨a, o, -, -, hglobals, -⟩
  · rw [heq]
  · rw [hglobals]
    rfl

theorem updateRa_same (intInterface : CString) (e : Surroundings) {s : Radv κ τ} (hg : s.ra.gDeprecate = false) :
    s.Same (updateRa w intInterface e s).2.2 := by
  cases hindex : e.nametoindex with
  | none =>
    rw [updateRa_none hindex]
    exact ⟨rfl, rfl, rfl, hg⟩
  | some iface =>
    have hra := (updateRa_ra (w := w) (s := s) intInterface hindex).2
    refine ⟨?_, ?_, ?_, ?_⟩
    · unfold updateRa
      rw [hindex]
      dsimp only
      split <;> rfl
    · unfold updateRa
      rw [hindex]
      dsimp only
      split <;> rfl
    · rw [hra, sendRa_extInterface]
    · rw [hra, sendRa_gDeprecate, hg]

theorem deprecateRa_same (intInterface : CString) (e : Surroundings) {s : Radv κ τ} (hg : s.ra.gDeprecate = false) :
    s.Same (deprecateRa w intInterface e s).2.2 := by
  cases hindex : e.nametoindex with
  | none =>
    unfold deprecateRa
    rw [hindex]
    exact ⟨rfl, rfl, rfl, hg⟩
  | some iface =>
    unfold deprecateRa
    rw [hindex]
    exact ⟨rfl, rfl, sendRa_extInterface _ _ _ _, rfl⟩

theorem Radv.Same.trans {s s' s'' : Radv κ τ} (h : s.Same s') (h' : s'.Same s'') : s.Same s'' :=
  ⟨h'.chain.trans h.chain, h'.intInterface.trans h.intInterface, h'.extInterface.trans h.extInterface, h'.gDeprecate⟩

theorem thrice_eq_true {f : Surroundings → Radv κ τ → Bool × Option RaPacket × Radv κ τ} {e : Fin 3 → Surroundings}
    {s : Radv κ τ} (hsame : ∀ e (s : Radv κ τ), s.ra.gDeprecate = false → s.Same (f e s).2.2) (hg : s.ra.gDeprecate = false)
    (h : (thrice f e s).1 = true) :
    ∃ s₂, s.Same s₂ ∧ (f (e 2) s₂).1 = true ∧ (thrice f e s).2 = (f (e 2) s₂).2.2 := by
  unfold thrice at h ⊢
  dsimp only at h ⊢
  have hfirst := hsame (e 0) s hg
  have hsecond := hsame (e 1) _ hfirst.gDeprecate
  split at h
  · cases h
  next hone =>
    rw [if_neg hone]
    split at h
    · cases h
    next htwo =>
      rw [if_neg htwo]
      exact ⟨_, hfirst.trans hsecond, h, rfl⟩

theorem chosen_congr {g g' : RaGlobals} (hext : g.extInterface = g'.extInterface)
    (hg : g.gDeprecate = g'.gDeprecate) (e : Surroundings) : e.chosen g = e.chosen g' := by
  have htakes : ∀ iface a, g.takes iface a = g'.takes iface a := by
    intro iface a
    simp only [RaGlobals.takes, RaGlobals.picks, hext, hg]
  unfold Surroundings.chosen Network.chosen
  congr 1
  funext iface
  rw [funext (htakes iface)]

def Surroundings.advertised (wild : Nat → BitVec 64) (ext : CString) (e : Surroundings) :
    Option In6Addr :=
  (e.chosen ⟨0, 0, ext, false⟩).map fun a => zeroHost wild a.plen a.addr

theorem updateRa_advertised {intInterface : CString} {e : Surroundings} {s : Radv κ τ} (hg : s.ra.gDeprecate = false)
    (h : (updateRa w intInterface e s).1 = true) :
    e.advertised w.wild s.ra.extInterface = some (updateRa w intInterface e s).2.2.ra.lastPrefix := by
  cases hindex : e.nametoindex with
  | none =>
    rw [updateRa_none hindex] at h
    cases h
  | some iface =>
    have hra := (updateRa_ra (w := w) (s := s) intInterface hindex).2
    have hsent : (sendRa w.wild iface intInterface e.network s.ra).1 ≠ none := by
      intro hnone
      unfold updateRa at h
      rw [hindex] at h
      dsimp only at h
      rw [if_pos hnone] at h
      cases h
    obtain ⟨packet, hpacket⟩ := Option.ne_none_iff_exists'.mp hsent
    obtain ⟨a, o, hchosen, hfor, -, hglobals, -⟩ := sendRa_prefixes hpacket
    have hsame : e.chosen ⟨0, 0, s.ra.extInterface, false⟩ = some a := by
      rw [@chosen_congr ⟨0, 0, s.ra.extInterface, false⟩ s.ra rfl hg.symm, Surroundings.chosen, hindex]
      exact hchosen
    rw [Surroundings.advertised, hsame, hra, hglobals]
    change some _ = some o.addr
    rw [hfor.addr, hg, if_neg Bool.noConfusion]

end

/-- A command from netd, and what its three advertisements meet. -/
structure RaCommand where
  mode : CString
  surroundings : Fin 3 → Surroundings

section

variable (exec : Exec κ) (ntop : In6Addr → CString) (wild : Nat → BitVec 64)

def chained : World κ (List Rule) := ⟨exec, natctrlForward, ntop, wild⟩

def RaCommand.run (s : Radv κ (List Rule)) (c : RaCommand) : Radv κ (List Rule) :=
  (setModeOfRa (chained exec ntop wild) c.mode c.surroundings s).2

def RaCommand.Succeeds (s : Radv κ (List Rule)) (c : RaCommand) : Prop :=
  (setModeOfRa (chained exec ntop wild) c.mode c.surroundings s).1 = 1

/-- After `true` the chain lets only the advertised prefix through, has every rule once, and blocks
the internal interface behind all that lets its packets through. -/
structure Guarded (s : Radv κ (List Rule)) : Prop where
  only : ∀ r ∈ s.chain, r.Forwards s.intInterface s.ra.extInterface →
    r = .range s.intInterface s.ra.extInterface (srcRange ntop s.ra.lastPrefix)
  once : s.chain.Nodup
  last : ∃ before after, s.chain = before ++ .block s.intInterface :: after ∧
    ∀ r ∈ after, ¬r.ReturnsFor s.intInterface

/-- What the chain should be after a command. -/
def Secured (s : Radv κ (List Rule)) (c : RaCommand) : Prop :=
  let s' := c.run exec ntop wild s
  if (Mode.parse c.mode).word = ("true" : CString) then Guarded ntop s'
  else s'.chain.Nodup ∧ ∀ r ∈ s'.chain, r.internal ≠ some s'.intInterface

/-- The interfaces are two and no rule lets other packets from the internal to the external one;
or all that was made for the internal one was made with the external interface and the prefix that
are held. -/
def Consistent (s : Radv κ (List Rule)) (c : RaCommand) : Prop :=
  let fields := (Mode.parse c.mode).fields
  let int := fields[0]?.getD s.intInterface
  if (Mode.parse c.mode).word = ("true" : CString) then
    let ext := fields[1]?.getD s.ra.extInterface
    int ≠ ext ∧ ∀ r ∈ s.chain, r.Forwards int ext →
      ∃ p ∈ (c.surroundings (Fin.last 2)).advertised wild ext, r = .range int ext (srcRange ntop p)
  else
    ∀ r ∈ s.chain, r.internal = some int → s.ra.lastPrefix ≠ 0 ∧
      (r = .forward s.ra.extInterface int ∨
        r = .range int s.ra.extInterface (srcRange ntop s.ra.lastPrefix) ∨ r = .block int)

/-- All a successful `true` does to the chain, and to what later commands look at. -/
structure Activated (s s' : Radv κ (List Rule)) (c : RaCommand) : Prop where
  int : s'.intInterface = (Mode.parse c.mode).fields[0]?.getD s.intInterface
  ext : s'.ra.extInterface = (Mode.parse c.mode).fields[1]?.getD s.ra.extInterface
  chain : s'.chain =
    activeNewPrefix natctrlForward ntop s'.ra.lastPrefix s'.intInterface s'.ra.extInterface s.chain
  advertised : (c.surroundings (Fin.last 2)).advertised wild s'.ra.extInterface = some s'.ra.lastPrefix
  gDeprecate : s'.ra.gDeprecate = false

structure Withdrawn (s s' : Radv κ (List Rule)) (c : RaCommand) : Prop where
  int : s'.intInterface = (Mode.parse c.mode).fields[0]?.getD s.intInterface
  chain : s'.chain = (deprecateOldPrefix natctrlForward ntop s.ra.lastPrefix s'.intInterface s.ra.extInterface
    s.chain).2
  gDeprecate : s'.ra.gDeprecate = false

variable {exec ntop wild}

theorem activated_run {s : Radv κ (List Rule)} {c : RaCommand} (hg : s.ra.gDeprecate = false)
    (h : c.Succeeds exec ntop wild s) (hword : (Mode.parse c.mode).word = ("true" : CString)) :
    Activated ntop wild s (c.run exec ntop wild s) c := by
  unfold RaCommand.Succeeds at h
  unfold RaCommand.run
  unfold setModeOfRa at h ⊢
  dsimp only at h ⊢
  rw [if_pos hword] at h ⊢
  split at h
  · cases h
  next hdone =>
    rw [if_neg hdone]
    rw [Bool.not_eq_false] at hdone
    obtain ⟨s₂, hsame, hthird, heq⟩ := thrice_eq_true
      (f := updateRa (chained exec ntop wild) (readTrue (Mode.parse c.mode).fields s).intInterface)
      (fun e _ => updateRa_same _ e) (show (readTrue (Mode.parse c.mode).fields s).ra.gDeprecate = false from hg) hdone
    rw [heq]
    have hlast := updateRa_same (w := chained exec ntop wild)
      (readTrue (Mode.parse c.mode).fields s).intInterface (c.surroundings 2) hsame.gDeprecate
    have hall := hsame.trans hlast
    have hadvertised := updateRa_advertised hsame.gDeprecate hthird
    rw [← hlast.extInterface] at hadvertised
    refine ⟨hall.intInterface, hall.extInterface, ?_, hadvertised, hall.gDeprecate⟩
    dsimp only
    rw [hall.chain]
    rfl

theorem withdrawn_run {s : Radv κ (List Rule)} {c : RaCommand} (hg : s.ra.gDeprecate = false)
    (h : c.Succeeds exec ntop wild s) (hword : (Mode.parse c.mode).word ≠ ("true" : CString)) :
    Withdrawn ntop s (c.run exec ntop wild s) c := by
  unfold RaCommand.Succeeds at h
  unfold RaCommand.run
  unfold setModeOfRa at h ⊢
  dsimp only at h ⊢
  rw [if_neg hword] at h ⊢
  split at h
  next hfalse =>
    rw [if_pos hfalse]
    split at h
    · cases h
    next hdone =>
      rw [if_neg hdone]
      rw [Bool.not_eq_false] at hdone
      obtain ⟨s₂, hsame, hthird, heq⟩ := thrice_eq_true
        (f := deprecateRa (chained exec ntop wild) (readFalse (Mode.parse c.mode).fields s).intInterface)
        (fun e _ => deprecateRa_same _ e) (by exact hg) hdone
      rw [heq]
      have hlast := deprecateRa_same (w := chained exec ntop wild)
        (readFalse (Mode.parse c.mode).fields s).intInterface (c.surroundings 2) hsame.gDeprecate
      have hall := hsame.trans hlast
      refine ⟨hall.intInterface, ?_, hall.gDeprecate⟩
      rw [hall.chain, hall.intInterface]
      rfl
  · cases h

/-- Every rule of the chain is there once, and no withdrawal is under way. -/
structure Orderly (s : Radv κ (List Rule)) : Prop where
  nodup : s.chain.Nodup
  gDeprecate : s.ra.gDeprecate = false

theorem Orderly.run {s : Radv κ (List Rule)} (hs : Orderly s) {c : RaCommand} (h : c.Succeeds exec ntop wild s) :
    Orderly (c.run exec ntop wild s) := by
  by_cases hword : (Mode.parse c.mode).word = ("true" : CString)
  · have hrun := activated_run hs.gDeprecate h hword
    exact ⟨by rw [hrun.chain]; exact nodup_activeNewPrefix _ _ _ _ _ hs.nodup, hrun.gDeprecate⟩
  · have hrun := withdrawn_run hs.gDeprecate h hword
    exact ⟨by rw [hrun.chain]; exact nodup_deprecateOldPrefix _ _ _ _ _ hs.nodup, hrun.gDeprecate⟩

theorem secured_iff {s : Radv κ (List Rule)} (hs : Orderly s) {c : RaCommand} (h : c.Succeeds exec ntop wild s) :
    Secured exec ntop wild s c ↔ Consistent ntop wild s c := by
  have hnodup := (hs.run h).nodup
  unfold Secured Consistent
  dsimp only
  by_cases hword : (Mode.parse c.mode).word = ("true" : CString)
  · rw [if_pos hword, if_pos hword]
    have hrun := activated_run hs.gDeprecate h hword
    generalize c.run exec ntop wild s = s' at hrun hnodup ⊢
    have honly := only_activeNewPrefix_iff ntop s'.ra.lastPrefix s'.intInterface s'.ra.extInterface s.chain
    rw [← hrun.chain] at honly
    rw [← hrun.int, ← hrun.ext, hrun.advertised]
    have hpick : ∀ r, (∃ p ∈ some s'.ra.lastPrefix, r = Rule.range s'.intInterface s'.ra.extInterface (srcRange ntop p)) ↔
        r = .range s'.intInterface s'.ra.extInterface (srcRange ntop s'.ra.lastPrefix) := by
      intro r
      constructor
      · rintro ⟨p, hp, rfl⟩
        cases hp
        rfl
      · exact fun heq => ⟨_, rfl, heq⟩
    simp only [hpick]
    constructor
    · exact fun hguarded => honly.mp hguarded.only
    · intro hconsistent
      refine ⟨honly.mpr hconsistent, hnodup, ?_⟩
      rw [hrun.chain, activeNewPrefix_eq, renew]
      exact ⟨_, [], rfl, fun r hr => nomatch hr⟩
  · rw [if_neg hword, if_neg hword]
    have hrun := withdrawn_run hs.gDeprecate h hword
    generalize c.run exec ntop wild s = s' at hrun hnodup ⊢
    have hnone := none_deprecateOldPrefix_iff ntop s.ra.lastPrefix s'.intInterface s.ra.extInterface s.chain hs.nodup
    rw [← hrun.chain] at hnone
    rw [← hrun.int, ← hnone]
    exact and_iff_right hnodup

/-- In every run of successful commands the chain is what it should be after each of them exactly
if each finds the state consistent. -/
theorem secured_iff_consistent (exec : Exec κ) (ntop : In6Addr → CString) (wild : Nat → BitVec 64) (k : κ)
    {cmds : List RaCommand}
    (h : Every (RaCommand.run exec ntop wild) (RaCommand.Succeeds exec ntop wild) (Announced.init k []).radv cmds) :
    Every (RaCommand.run exec ntop wild) (Secured exec ntop wild) (Announced.init k []).radv cmds ↔
      Every (RaCommand.run exec ntop wild) (Consistent ntop wild) (Announced.init k []).radv cmds :=
  every_congr (I := Orderly) (fun _ _ hs hc => hs.run hc) (fun _ _ hs hc => secured_iff hs hc)
    ⟨List.nodup_nil, rfl⟩ h

end

def tetheredCommand (mode ext : CString) : RaCommand := ⟨mode, fun _ => tethered ext 64⟩

theorem secured_iff_consistent_true :
    Every (RaCommand.run (fun _ _ _ => (true, ())) (fun _ => []) fun _ => 0)
        (Secured (fun _ _ _ => (true, ())) (fun _ => []) fun _ => 0) (Announced.init () []).radv
        [tetheredCommand ("true|wlan0|rmnet0|97" : CString) ("rmnet0" : CString)] ↔
      Every (RaCommand.run (fun _ _ _ => (true, ())) (fun _ => []) fun _ => 0)
        (Consistent (fun _ => []) fun _ => 0) (Announced.init () []).radv
        [tetheredCommand ("true|wlan0|rmnet0|97" : CString) ("rmnet0" : CString)] :=
  secured_iff_consistent (fun _ _ _ => (true, ())) (fun _ => []) (fun _ => 0) ()
    ⟨show (setModeOfRa _ _ _ _).1 = 1 by decide +kernel, trivial⟩

/-- The external interface changes between two `true`s: `false` leaves the rules of the first. -/
theorem not_secured_otherInterface : ¬∀ cmds : List RaCommand,
    Every (RaCommand.run (fun _ _ _ => (true, ())) (fun _ => []) fun _ => 0)
        (RaCommand.Succeeds (fun _ _ _ => (true, ())) (fun _ => []) fun _ => 0) (Announced.init () []).radv cmds →
      Every (RaCommand.run (fun _ _ _ => (true, ())) (fun _ => []) fun _ => 0)
        (Secured (fun _ _ _ => (true, ())) (fun _ => []) fun _ => 0) (Announced.init () []).radv cmds := by
  intro h
  have hlast := (h [tetheredCommand ("true|wlan0|rmnet0|97" : CString) ("rmnet0" : CString),
    tetheredCommand ("true|wlan0|rmnet1|97" : CString) ("rmnet1" : CString),
    tetheredCommand ("false|wlan0" : CString) ("rmnet1" : CString)]
    ⟨show (setModeOfRa _ _ _ _).1 = 1 by decide +kernel, show (setModeOfRa _ _ _ _).1 = 1 by decide +kernel,
      show (setModeOfRa _ _ _ _).1 = 1 by decide +kernel, trivial⟩).2.2.1
  unfold Secured at hlast
  dsimp only at hlast
  rw [if_neg (by decide +kernel)] at hlast
  exact hlast.2 (.forward ("rmnet0" : CString) ("wlan0" : CString)) (by decide +kernel) (by decide +kernel)

end G361FPlatform.Dnsmasq
