import Mathlib.Data.List.Basic
import G361FPlatform.Dnsmasq.Ra

namespace G361FPlatform.Dnsmasq

open Library

section

variable (a : In6Addr) (host host' : BitVec 64)

theorem addr6part_setaddr6part : addr6part (setaddr6part a host) = host := by
  apply BitVec.eq_of_getLsbD_eq
  intro i hi
  simp [addr6part, setaddr6part, hi]

theorem setaddr6part_setaddr6part :
    setaddr6part (setaddr6part a host) host' = setaddr6part a host' := by
  apply BitVec.eq_of_getLsbD_eq
  intro i hi
  by_cases hlow : i < 64
  · simp [setaddr6part, hlow, hi]
  · have hsame : 64 + (i - 64) = i := by omega
    have hhigh : host.getLsbD i = false := BitVec.getLsbD_of_ge host i (Nat.not_lt.mp hlow)
    simp [setaddr6part, hlow, hi, hsame, hhigh]

theorem zeroHost_zeroHost (wild : Nat → BitVec 64) (plen : Nat) :
    zeroHost wild plen (zeroHost wild plen a) = zeroHost wild plen a := by
  unfold zeroHost
  rw [addr6part_setaddr6part, setaddr6part_setaddr6part, BitVec.and_assoc, BitVec.and_self]

end

def Context.fresh (optRa : Bool) (c : Context) : Bool := c.used optRa && !c.raDone

theorem Context.not_used {optRa : Bool} {c : Context} (h : ¬c.used optRa = true) :
    (c.raOnly || c.raName || c.raStateless) = false ∧ optRa = false := by
  rw [Bool.not_eq_true, Context.used, Bool.or_eq_false_iff] at h
  exact h

section

variable {g : RaGlobals} {optRa : Bool}

theorem visitContext_unused {c : Context} (h : ¬c.used optRa = true) (v : Visit) :
    visitContext g optRa c v = (c, v) := if_pos (Context.not_used h)

structure Visited (g : RaGlobals) (c c' : Context) (v v' : Visit) : Prop where
  doPrefix : v'.doPrefix = (v.doPrefix || !c.raDone)
  deprecated : v'.deprecated = (v.deprecated || c.deprecated || g.gDeprecate)
  addr : v'.addr = if g.gDeprecate then g.lastPrefix else v.addr
  foundContext : v'.param.foundContext = true
  ind : v'.param.ind = v.param.ind
  raDone : c'.raDone = true
  used : c'.used = c.used

theorem visitContext_used {c : Context} (h : c.used optRa = true) (v : Visit) :
    Visited g c (visitContext g optRa c v).1 v (visitContext g optRa c v).2 := by
  have hne : ¬((c.raOnly || c.raName || c.raStateless) = false ∧ optRa = false) := by
    rintro ⟨hra, hopt⟩
    rw [Context.used, hra, hopt] at h
    cases h
  unfold visitContext
  dsimp only
  rw [if_neg hne]
  refine ⟨rfl, rfl, rfl, rfl, ?_, rfl, rfl⟩
  dsimp only
  split <;> rfl

structure VisitedAll (g : RaGlobals) (optRa : Bool) (cs cs' : List Context) (v v' : Visit) : Prop where
  doPrefix : v'.doPrefix = (v.doPrefix || cs.any (·.fresh optRa))
  deprecated : v'.deprecated = (v.deprecated || cs.any fun c => c.used optRa && (c.deprecated || g.gDeprecate))
  addr : v'.addr = if g.gDeprecate && cs.any (·.used optRa) then g.lastPrefix else v.addr
  foundContext : v'.param.foundContext = (v.param.foundContext || cs.any (·.used optRa))
  ind : v'.param.ind = v.param.ind
  fresh : cs'.any (·.fresh optRa) = false
  unused : cs.any (·.used optRa) = false → cs' = cs ∧ v' = v

theorem visitContexts_eq (g : RaGlobals) (optRa : Bool) (cs : List Context) (v : Visit) :
    VisitedAll g optRa cs (visitContexts g optRa cs v).1 v (visitContexts g optRa cs v).2 := by
  induction cs generalizing v with
  | nil =>
    refine ⟨?_, ?_, ?_, ?_, rfl, rfl, fun _ => ⟨rfl, rfl⟩⟩ <;> simp [visitContexts]
  | cons c cs ih =>
    rw [visitContexts]
    dsimp only
    by_cases h : c.used optRa = true
    · have hc := visitContext_used (g := g) h v
      generalize visitContext g optRa c v = head at hc
      have hcs := ih head.2
      have hfresh : c.fresh optRa = !c.raDone := by rw [Context.fresh, h, Bool.true_and]
      have hdone : head.1.fresh optRa = false := by rw [Context.fresh, hc.raDone, Bool.not_true, Bool.and_false]
      refine ⟨?_, ?_, ?_, ?_, ?_, ?_, fun hnone => ?_⟩
      · rw [hcs.doPrefix, hc.doPrefix, List.any_cons, hfresh, Bool.or_assoc]
      · rw [hcs.deprecated, hc.deprecated, List.any_cons, h, Bool.true_and]
        simp only [Bool.or_assoc]
      · rw [hcs.addr, hc.addr, List.any_cons, h, Bool.true_or, Bool.and_true]
        cases g.gDeprecate <;> simp
      · rw [hcs.foundContext, hc.foundContext, List.any_cons, h]
        simp
      · rw [hcs.ind, hc.ind]
      · rw [List.any_cons, hdone, hcs.fresh, Bool.or_self]
      · rw [List.any_cons, h] at hnone
        cases hnone
    · have hcs := ih v
      rw [visitContext_unused h]
      rw [Bool.not_eq_true] at h
      have hfresh : c.fresh optRa = false := by rw [Context.fresh, h, Bool.false_and]
      refine ⟨?_, ?_, ?_, ?_, hcs.ind, ?_, fun hnone => ?_⟩
      · rw [hcs.doPrefix, List.any_cons, hfresh, Bool.false_or]
      · rw [hcs.deprecated, List.any_cons, h, Bool.false_and, Bool.false_or]
      · rw [hcs.addr, List.any_cons, h, Bool.false_or]
      · rw [hcs.foundContext, List.any_cons, h, Bool.false_or]
      · rw [List.any_cons, hfresh, hcs.fresh, Bool.or_self]
      · rw [List.any_cons, h, Bool.false_or] at hnone
        obtain ⟨hcs', hv'⟩ := hcs.unused hnone
        exact ⟨by rw [hcs'], hv'⟩

end

def Network.uses (net : Network) : Bool := net.raContexts.any (·.used net.optRa)

def RaGlobals.takes (g : RaGlobals) (iface : Int) (a : IfAddr) : Bool :=
  match a.name with
  | none => false
  | some name => g.picks iface name a

def Network.chosen (net : Network) (g : RaGlobals) (iface : Int) : Option IfAddr :=
  if net.uses then net.addrs.find? (g.takes iface) else none

structure PrefixOpt.IsFor (o : PrefixOpt) (wild : Nat → BitVec 64) (g : RaGlobals) (net : Network) (a : IfAddr) :
    Prop where
  prefixLen : o.prefixLen = a.plen
  addr : o.addr = zeroHost wild a.plen (if g.gDeprecate then g.lastPrefix else a.addr)
  preferred : o.preferredLifetime = 0 ↔
    g.gDeprecate = true ∨ ∃ c ∈ net.raContexts, c.used net.optRa = true ∧ c.deprecated = true

def RaGlobals.withOpt (g : RaGlobals) (o : PrefixOpt) : RaGlobals :=
  { g with lastPrefix := o.addr, prefixLen := o.prefixLen }

section

variable {wild : Nat → BitVec 64} {g : RaGlobals} {net : Network} {iface : Int}

structure Advert.Waiting (g : RaGlobals) (net : Network) (iface : Int) (r : Advert) : Prop where
  globals : r.globals = g
  options : r.options = []
  found : r.param.foundContext = false
  ind : r.param.ind = iface
  contexts : r.contexts = net.raContexts.map fun c => { c with raDone := false, untagged := true }

structure Advert.Settled (g : RaGlobals) (net : Network) (o : PrefixOpt) (r : Advert) : Prop where
  globals : r.globals = g.withOpt o
  options : r.options = [.prefixInfo o]
  found : r.param.foundContext = true
  fresh : r.contexts.any (·.fresh net.optRa) = false

theorem Advert.Settled.addPrefixes {o : PrefixOpt} {r : Advert} (h : r.Settled g net o) (a : IfAddr) :
    (addPrefixes wild net.optRa a r).Settled g net o := by
  unfold Dnsmasq.addPrefixes
  cases a.name with
  | none => exact h
  | some name =>
    dsimp only
    split
    · have hvisited := visitContexts_eq r.globals net.optRa r.contexts
        ⟨false, false, false, 0xffffffff, a.addr, { r.param with
          linkLocal := if a.ifIndex = r.param.ind ∧ a.addr.isLinkLocal then a.addr else r.param.linkLocal }⟩
      rw [if_neg (by rw [hvisited.doPrefix, h.fresh]; exact Bool.noConfusion)]
      refine ⟨h.globals, h.options, ?_, hvisited.fresh⟩
      exact hvisited.foundContext.trans (by dsimp only; rw [h.found, Bool.true_or])
    · exact ⟨h.globals, h.options, h.found, h.fresh⟩

theorem uses_contexts : (net.raContexts.map fun c => { c with raDone := false, untagged := true }).any
    (·.used net.optRa) = net.uses := by
  rw [List.any_map]
  rfl

theorem fresh_contexts : (net.raContexts.map fun c => { c with raDone := false, untagged := true }).any
    (·.fresh net.optRa) = net.uses := by
  rw [List.any_map, Network.uses]
  congr 1
  funext c
  simp [Context.fresh, Context.used]

theorem deprecated_contexts (g : RaGlobals) (net : Network) :
    (net.raContexts.map fun c => { c with raDone := false, untagged := true }).any
      (fun c => c.used net.optRa && (c.deprecated || g.gDeprecate)) = true ↔
    net.uses = true ∧ g.gDeprecate = true ∨ ∃ c ∈ net.raContexts, c.used net.optRa = true ∧ c.deprecated = true := by
  rw [List.any_map, List.any_eq_true, Network.uses, List.any_eq_true]
  constructor
  · rintro ⟨c, hc, hboth⟩
    obtain ⟨hused, hdep⟩ := Bool.and_eq_true_iff.mp hboth
    rcases Bool.or_eq_true_iff.mp hdep with hdep | hg
    · exact .inr ⟨c, hc, hused, hdep⟩
    · exact .inl ⟨⟨c, hc, hused⟩, hg⟩
  · rintro (⟨⟨c, hc, hused⟩, hg⟩ | ⟨c, hc, hused, hdep⟩)
    · exact ⟨c, hc, Bool.and_eq_true_iff.mpr ⟨hused, Bool.or_eq_true_iff.mpr (.inr hg)⟩⟩
    · exact ⟨c, hc, Bool.and_eq_true_iff.mpr ⟨hused, Bool.or_eq_true_iff.mpr (.inl hdep)⟩⟩

theorem Advert.Waiting.passes {r : Advert} (h : r.Waiting g net iface) {a : IfAddr}
    (ha : ¬(net.uses = true ∧ g.takes iface a = true)) :
    (addPrefixes wild net.optRa a r).Waiting g net iface := by
  unfold Dnsmasq.addPrefixes
  cases hname : a.name with
  | none => exact h
  | some name =>
    dsimp only
    split
    next hpicks =>
      rw [h.globals, h.ind] at hpicks
      have hunused : r.contexts.any (·.used net.optRa) = false := by
        rw [h.contexts, uses_contexts, ← Bool.not_eq_true]
        intro huses
        refine ha ⟨huses, ?_⟩
        rw [RaGlobals.takes, hname]
        exact hpicks
      obtain ⟨hcs, hv⟩ := (visitContexts_eq r.globals net.optRa r.contexts
        ⟨false, false, false, 0xffffffff, a.addr, { r.param with
          linkLocal := if a.ifIndex = r.param.ind ∧ a.addr.isLinkLocal then a.addr else r.param.linkLocal }⟩).unused
        hunused
      rw [hcs, hv, if_neg Bool.noConfusion]
      exact ⟨h.globals, h.options, h.found, h.ind, h.contexts⟩
    · exact ⟨h.globals, h.options, h.found, h.ind, h.contexts⟩

theorem Advert.Waiting.takes (wild : Nat → BitVec 64) {r : Advert} (h : r.Waiting g net iface) {a : IfAddr}
    (huses : net.uses = true) (ha : g.takes iface a = true) :
    ∃ o : PrefixOpt, o.IsFor wild g net a ∧ (addPrefixes wild net.optRa a r).Settled g net o := by
  unfold Dnsmasq.addPrefixes
  cases hname : a.name with
  | none =>
    rw [RaGlobals.takes, hname] at ha
    cases ha
  | some name =>
    rw [RaGlobals.takes, hname] at ha
    dsimp only at ha ⊢
    rw [h.globals, h.ind, if_pos ha, h.options, List.nil_append]
    have hvisited := visitContexts_eq g net.optRa r.contexts
      ⟨false, false, false, 0xffffffff, a.addr, { r.param with
        ind := iface
        linkLocal := if a.ifIndex = iface ∧ a.addr.isLinkLocal then a.addr else r.param.linkLocal }⟩
    generalize visitContexts g net.optRa r.contexts _ = visited at hvisited ⊢
    have huses' : r.contexts.any (·.used net.optRa) = true := by rw [h.contexts, uses_contexts, huses]
    have hopt := hvisited.doPrefix
    rw [h.contexts, fresh_contexts, huses, Bool.or_true] at hopt
    rw [if_pos hopt]
    refine ⟨_, ⟨rfl, ?_, ?_⟩, ⟨rfl, rfl, ?_, hvisited.fresh⟩⟩
    · dsimp only
      rw [hvisited.addr, huses', Bool.and_true]
    · have hdep := hvisited.deprecated
      rw [Bool.false_or, h.contexts] at hdep
      have hiff := deprecated_contexts g net
      rw [← hdep, huses] at hiff
      dsimp only
      cases hd : visited.2.deprecated with
      | true =>
        rw [hd] at hiff
        exact iff_of_true rfl ((hiff.mp rfl).imp_left And.right)
      | false =>
        rw [hd] at hiff
        refine iff_of_false (fun hzero => ?_) fun hor => Bool.noConfusion (hiff.mpr (hor.imp_left fun h => ⟨rfl, h⟩))
        rw [if_neg Bool.noConfusion] at hzero
        have := Nat.le_max_right visited.2.time 7200
        omega
    · rw [hvisited.foundContext, huses', Bool.or_true]

theorem foldl_addPrefixes (wild : Nat → BitVec 64) {r : Advert} (h : r.Waiting g net iface) (as : List IfAddr) :
    ((if net.uses then as.find? (g.takes iface) else none) = none ∧
      (as.foldl (fun r a => addPrefixes wild net.optRa a r) r).Waiting g net iface) ∨
    ∃ (a : IfAddr) (o : PrefixOpt), (if net.uses then as.find? (g.takes iface) else none) = some a ∧
      o.IsFor wild g net a ∧ (as.foldl (fun r a => addPrefixes wild net.optRa a r) r).Settled g net o := by
  induction as generalizing r with
  | nil => exact .inl ⟨by split <;> rfl, h⟩
  | cons a as ih =>
    rw [List.foldl_cons]
    by_cases ha : net.uses = true ∧ g.takes iface a = true
    · obtain ⟨huses, ha⟩ := ha
      obtain ⟨o, hfor, hsettled⟩ := h.takes wild huses ha
      refine .inr ⟨a, o, by rw [if_pos huses, List.find?_cons, ha], hfor, ?_⟩
      clear h ih
      generalize addPrefixes wild net.optRa a r = r' at hsettled ⊢
      induction as generalizing r' with
      | nil => exact hsettled
      | cons b as ih => exact ih _ (hsettled.addPrefixes b)
    · have hfind : (if net.uses then (a :: as).find? (g.takes iface) else none) =
          if net.uses then as.find? (g.takes iface) else none := by
        split
        next huses =>
          rw [List.find?_cons, Bool.eq_false_iff.mpr fun htakes => ha ⟨huses, htakes⟩]
        · rfl
      rw [hfind]
      exact ih (h.passes ha)

theorem sendRa_cases (wild : Nat → BitVec 64) (iface : Int) (ifaceName : CString) (net : Network)
    (g : RaGlobals) :
    (net.chosen g iface = none ∧ sendRa wild iface ifaceName net g = (none, g)) ∨
    ∃ (a : IfAddr) (o : PrefixOpt), net.chosen g iface = some a ∧ o.IsFor wild g net a ∧
      (sendRa wild iface ifaceName net g).2 = g.withOpt o ∧
      (((net.enumerated = false ∨ net.sent = false) ∧ (sendRa wild iface ifaceName net g).1 = none) ∨
        net.enumerated = true ∧ net.sent = true ∧ ∃ packet : RaPacket,
          (sendRa wild iface ifaceName net g).1 = some packet ∧ packet.options = .prefixInfo o ::
            trailingOptions iface net (gather wild iface ifaceName net g).param) := by
  have hinit : Advert.Waiting g net iface ⟨g, net.raContexts.map fun c => { c with raDone := false, untagged := true },
      ⟨iface, false, false, false, true, [ifaceName], net.garbage⟩, []⟩ := ⟨rfl, rfl, rfl, rfl, rfl⟩
  unfold sendRa
  dsimp only
  rcases foldl_addPrefixes wild hinit net.addrs with ⟨hnone, hwaiting⟩ | ⟨a, o, hsome, hfor, hsettled⟩
  · refine .inl ⟨hnone, ?_⟩
    change Advert.Waiting g net iface (gather wild iface ifaceName net g) at hwaiting
    rw [if_pos (.inr hwaiting.found), hwaiting.globals]
  · change Advert.Settled g net o (gather wild iface ifaceName net g) at hsettled
    refine .inr ⟨a, o, hsome, hfor, ?_⟩
    by_cases henum : net.enumerated = false
    · rw [if_pos (.inl henum)]
      exact ⟨hsettled.globals, .inl ⟨.inl henum, rfl⟩⟩
    · rw [if_neg (not_or.mpr ⟨henum, by rw [hsettled.found]; exact Bool.noConfusion⟩)]
      refine ⟨hsettled.globals, ?_⟩
      rw [Bool.not_eq_false] at henum
      cases hsent : net.sent with
      | false => exact .inl ⟨.inr rfl, rfl⟩
      | true => exact .inr ⟨henum, rfl, _, rfl, by rw [hsettled.options]; rfl⟩

end

end G361FPlatform.Dnsmasq
