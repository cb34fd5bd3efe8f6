import G361FPlatform.Library.Run
import G361FPlatform.MediaLib.EnableLaws
import G361FPlatform.MediaLib.KillLaws

namespace G361FPlatform.MediaLib

open Library Outcome CamState

/-- The calls that open and close the devices of one context. -/
inductive PortCall
  | outputOpen (port : Nat)
  | outputClose (port : Nat)
  | inputOpen
  | inputClose

namespace PortCall

def call (id : Nat) : PortCall → Call
  | outputOpen port => .outputOpen id port
  | outputClose port => .outputClose id port
  | inputOpen => .inputOpen id
  | inputClose => .inputClose id

def InRange (nrOut : Int) : PortCall → Prop
  | outputOpen port => port < nrOut
  | outputClose port => port < nrOut
  | inputOpen => True
  | inputClose => True

def mark (flags : BitVec 32) : PortCall → BitVec 32
  | outputOpen port => setFlag flags (CAMCTX_FL_DST1_BUSY + port)
  | outputClose port => clrFlag flags (CAMCTX_FL_DST1_BUSY + port)
  | inputOpen => setFlag flags CAMCTX_FL_INPUT_BUSY
  | inputClose => clrFlag flags CAMCTX_FL_INPUT_BUSY

end PortCall

structure Opened where
  port : Nat → Bool
  input : Bool

namespace Opened

def none : Opened := ⟨fun _ => false, false⟩

def note (o : Opened) (ret : Int) (c : PortCall) : Opened :=
  if ret < 0 then o
  else
    match c with
    | .outputOpen port => { o with port := Function.update o.port port true }
    | .outputClose port => { o with port := Function.update o.port port false }
    | .inputOpen => { o with input := true }
    | .inputClose => { o with input := false }

def Any (o : Opened) (nrOut : Int) : Prop :=
  (∃ port : Nat, port < nrOut ∧ o.port port = true) ∨ o.input = true

end Opened

def portStep (cam : PlatCam) (k : Kernel) (id : Nat) (p : CamState × Opened) (c : PortCall) :
    CamState × Opened :=
  match (c.call id).exec cam k 0 p.1 with
  | .error _ => p
  | .ok (ret, s) => (s, p.2.note ret c)

/-- The flags of the context tell what is open. -/
def Flagged (id : Nat) (p : CamState × Opened) : Prop :=
  ∃ ctx, p.1.ctx id = some ctx ∧
    (∀ port : Nat, port < ctx.nrOut →
      (tstFlag ctx.flags (CAMCTX_FL_DST1_BUSY + port) = true ↔ p.2.port port = true)) ∧
    tstFlag ctx.flags CAMCTX_FL_INIT = true

/-- `CameraContextKill` would report `-EBUSY` exactly if something is open. -/
def KillReports (cam : PlatCam) (k : Kernel) (id : Nat) (nrOut : Int) (p : CamState × Opened) :
    Prop :=
  ∃ ret s', cameraContextKill cam k id p.1 = .ok (ret, s') ∧ (ret = -EBUSY ↔ p.2.Any nrOut)

/-- What the cut of a route goes by: the reference counts, and the number of the next
`media_setup_link`. -/
structure Refs where
  link : LinkId → Int
  route : RouteId → Int
  next : Nat

def CamState.refs (s : CamState) : Refs := ⟨s.linkRefCnt, s.routeRefCnt, s.setupCalls.length⟩

namespace Refs

def cutLink (k : Kernel) (l : LinkId) (c : Refs) : Int × Refs :=
  let c := { c with link := Function.update c.link l (c.link l - 1) }
  if c.link l = 0 then (min (k.setupLink c.next) 0, { c with next := c.next + 1 }) else (0, c)

def cut (k : Kernel) : CamRoute → Refs → Int × Refs
  | .last id _ _ head, c =>
    let c := { c with route := Function.update c.route id (c.route id - 1) }
    if c.route id ≤ 0 then c.cutLink k head.id else (0, c)
  | .cons id _ _ head more, c =>
    let c := { c with route := Function.update c.route id (c.route id - 1) }
    if c.route id ≤ 0 then
      let (ret, c) := cut k more c
      if ret < 0 then (ret, c) else c.cutLink k head.id
    else (0, c)

def errors (k : Kernel) : List CamRoute → Refs → List Int
  | [], _ => []
  | r :: rs, c =>
    let (ret, c) := c.cut k r
    if ret < 0 then ret :: errors k rs c else errors k rs c

end Refs

/-- The errors that cutting the routes of the context brings do not change the report of
`CameraContextKill`: or-ed to `-EBUSY` they leave it, and on their own they do not make it up. -/
def KillUndisturbed (k : Kernel) (id : Nat) (nrOut : Int) (p : CamState × Opened) : Prop :=
  ∀ ctx, p.1.ctx id = some ctx →
    (p.2.Any nrOut → (p.1.refs.errors k (ctx.out ++ [ctx.route])).foldl Int.lor (-EBUSY) = -EBUSY) ∧
      (¬p.2.Any nrOut → (p.1.refs.errors k (ctx.out ++ [ctx.route])).foldl Int.lor 0 ≠ -EBUSY)

section

variable {cam : PlatCam} {k : Kernel} {id : Nat} {s s' : CamState} {ctx : CamCtx}

theorem exec_portCall (hid : id < CONTEXT_PER_PLATFORM) (hctx : s.ctx id = some ctx)
    (hout : ctx.out.length = ctx.nrOut.toNat) {c : PortCall} (hc : c.InRange ctx.nrOut) (fuel : Nat) :
    ∃ ret s', (c.call id).exec cam k fuel s = .ok (ret, s') ∧
      (ret < 0 ∧ s'.ctx id = some ctx ∨
        0 ≤ ret ∧ s'.ctx id = some { ctx with flags := c.mark ctx.flags }) := by
  have hset : ∀ (s : CamState) (ctx : CamCtx), (s.setCtx id (some ctx)).ctx id = some ctx := by
    simp [setCtx]
  have hopen : ∀ me, (openMe k me s).2.ctx id = some ctx := by
    intro me
    rw [ctx_openMe]
    exact hctx
  cases c with
  | outputOpen port =>
    have hport : port < ctx.out.length := by
      have : (port : Int) < ctx.nrOut := hc
      omega
    change ∃ ret s', cameraContextOutputOpen cam k id port s = .ok (ret, s') ∧ _
    rw [cameraContextOutputOpen, withCtx_eq hid hctx, withPort_eq hout hport]
    split
    · exact ⟨_, _, rfl, .inl ⟨by decide, hctx⟩⟩
    · dsimp only
      split
      next hneg => exact ⟨_, _, rfl, .inl ⟨hneg, hopen _⟩⟩
      next hpos => exact ⟨_, _, rfl, .inr ⟨Int.not_lt.mp hpos, hset _ _⟩⟩
  | outputClose port =>
    have hport : port < ctx.out.length := by
      have : (port : Int) < ctx.nrOut := hc
      omega
    change ∃ ret s', cameraContextOutputClose cam id port s = .ok (ret, s') ∧ _
    rw [cameraContextOutputClose, withCtx_eq hid hctx, withPort_eq hout hport]
    split
    · exact ⟨_, _, rfl, .inl ⟨by decide, hctx⟩⟩
    · exact ⟨_, _, rfl, .inr ⟨le_rfl, hset _ _⟩⟩
  | inputOpen =>
    change ∃ ret s', cameraContextInputOpen cam k id s = .ok (ret, s') ∧ _
    rw [cameraContextInputOpen, withCtx_eq hid hctx]
    split
    · exact ⟨_, _, rfl, .inl ⟨by decide, hctx⟩⟩
    · split
      · exact ⟨_, _, rfl, .inl ⟨by decide, hctx⟩⟩
      · dsimp only
        split
        next hneg => exact ⟨_, _, rfl, .inl ⟨hneg, hopen _⟩⟩
        next hpos => exact ⟨_, _, rfl, .inr ⟨Int.not_lt.mp hpos, hset _ _⟩⟩
  | inputClose =>
    change ∃ ret s', cameraContextInputClose cam id s = .ok (ret, s') ∧ _
    rw [cameraContextInputClose, withCtx_eq hid hctx]
    split
    · exact ⟨_, _, rfl, .inl ⟨by decide, hctx⟩⟩
    · split
      · exact ⟨_, _, rfl, .inl ⟨by decide, hctx⟩⟩
      · exact ⟨_, _, rfl, .inr ⟨le_rfl, hset _ _⟩⟩

structure Marked (nrOut : Int) (flags : BitVec 32) (o : Opened) : Prop where
  input : tstFlag flags CAMCTX_FL_INPUT_BUSY = true ↔ o.input = true
  port : nrOut ≤ 6 → ∀ port : Nat, port < nrOut →
    (tstFlag flags (CAMCTX_FL_DST1_BUSY + port) = true ↔ o.port port = true)
  init : nrOut ≤ 6 → tstFlag flags CAMCTX_FL_INIT = true

variable {nrOut : Int} {p : CamState × Opened} {c : PortCall} {flags : BitVec 32} {o : Opened}

theorem tstFlag_setFlag (flags : BitVec 32) (f g : Nat) :
    tstFlag (setFlag flags g) f = (tstFlag flags f || (decide (f < 32) && decide (f = g))) := by
  rw [tstFlag_eq, tstFlag_eq, getLsbD_setFlag]

theorem tstFlag_setFlag_ne (flags : BitVec 32) {f g : Nat} (h : f ≠ g) :
    tstFlag (setFlag flags g) f = tstFlag flags f := by
  simp [tstFlag_setFlag, h]

theorem tstFlag_clrFlag_self (flags : BitVec 32) (f : Nat) : tstFlag (clrFlag flags f) f = false := by
  rw [tstFlag_eq, getLsbD_clrFlag]
  simp

theorem Marked.setPort (h : Marked nrOut flags o) (port : Nat) :
    Marked nrOut (setFlag flags (CAMCTX_FL_DST1_BUSY + port))
      { o with port := Function.update o.port port true } where
  input := by
    rw [tstFlag_setFlag_ne _ (by unfold CAMCTX_FL_INPUT_BUSY CAMCTX_FL_DST1_BUSY; omega)]
    exact h.input
  port := by
    intro hle port' hport'
    have hlt : CAMCTX_FL_DST1_BUSY + port' < 32 := by
      unfold CAMCTX_FL_DST1_BUSY
      omega
    rw [tstFlag_setFlag]
    by_cases heq : port' = port
    · simp [heq, heq ▸ hlt]
    · simp [heq, h.port hle port' hport']
  init := by
    intro hle
    rw [tstFlag_setFlag, h.init hle, Bool.true_or]

theorem Marked.clrPort (h : Marked nrOut flags o) {port : Nat} (hport : port < nrOut) :
    Marked nrOut (clrFlag flags (CAMCTX_FL_DST1_BUSY + port))
      { o with port := Function.update o.port port false } where
  input := by
    rw [tstFlag_clrFlag (by unfold CAMCTX_FL_INPUT_BUSY CAMCTX_FL_DST1_BUSY; omega)]
    exact h.input
  port := by
    intro hle port' hport'
    by_cases heq : port' = port
    · simp [heq, tstFlag_clrFlag_self]
    · rw [tstFlag_clrFlag (by omega), h.port hle port' hport']
      simp [heq]
  init := by
    intro hle
    rw [tstFlag_clrFlag (by unfold CAMCTX_FL_INIT CAMCTX_FL_DST1_BUSY; omega)]
    exact h.init hle

theorem Marked.setInput (h : Marked nrOut flags o) :
    Marked nrOut (setFlag flags CAMCTX_FL_INPUT_BUSY) { o with input := true } where
  input := by simp [tstFlag_setFlag, CAMCTX_FL_INPUT_BUSY]
  port := by
    intro hle port hport
    rw [tstFlag_setFlag_ne _ (by unfold CAMCTX_FL_INPUT_BUSY CAMCTX_FL_DST1_BUSY; omega)]
    exact h.port hle port hport
  init := by
    intro hle
    rw [tstFlag_setFlag, h.init hle, Bool.true_or]

theorem Marked.clrInput (h : Marked nrOut flags o) :
    Marked nrOut (clrFlag flags CAMCTX_FL_INPUT_BUSY) { o with input := false } where
  input := by simp [tstFlag_clrFlag_self]
  port := by
    intro hle port hport
    rw [tstFlag_clrFlag (by unfold CAMCTX_FL_INPUT_BUSY CAMCTX_FL_DST1_BUSY; omega)]
    exact h.port hle port hport
  init := by
    intro hle
    rw [tstFlag_clrFlag (by decide)]
    exact h.init hle

theorem Marked.mark (h : Marked nrOut flags o) (hc : c.InRange nrOut) {ret : Int} (hret : 0 ≤ ret) :
    Marked nrOut (c.mark flags) (o.note ret c) := by
  unfold Opened.note
  rw [if_neg (Int.not_lt.mpr hret)]
  cases c with
  | outputOpen port => exact h.setPort port
  | outputClose port => exact h.clrPort hc
  | inputOpen => exact h.setInput
  | inputClose => exact h.clrInput

structure InUse (id : Nat) (nrOut : Int) (p : CamState × Opened) : Prop where
  id_lt : id < CONTEXT_PER_PLATFORM
  ctx : ∃ ctx, p.1.ctx id = some ctx ∧ ctx.nrOut = nrOut ∧ ctx.out.length = nrOut.toNat ∧
    Marked nrOut ctx.flags p.2

theorem InUse.portStep (h : InUse id nrOut p) (hc : c.InRange nrOut) :
    (∃ ret s', (c.call id).exec cam k 0 p.1 = .ok (ret, s')) ∧
      InUse id nrOut (portStep cam k id p c) := by
  obtain ⟨hid, ctx, hctx, rfl, hout, hmarked⟩ := h
  obtain ⟨ret, s', hexec, hcases⟩ : ∃ ret s', (c.call id).exec cam k 0 p.1 = .ok (ret, s') ∧ _ :=
    exec_portCall hid hctx hout hc 0
  refine ⟨⟨ret, s', hexec⟩, hid, ?_⟩
  simp only [MediaLib.portStep, hexec]
  rcases hcases with ⟨hneg, hctx'⟩ | ⟨hpos, hctx'⟩
  · refine ⟨ctx, hctx', rfl, hout, ?_⟩
    simpa only [Opened.note, hneg, if_true] using hmarked
  · exact ⟨_, hctx', rfl, hout, hmarked.mark hc hpos⟩

theorem InUse.flagged (h : InUse id nrOut p) (hle : nrOut ≤ 6) : Flagged id p := by
  obtain ⟨-, ctx, hctx, rfl, -, hmarked⟩ := h
  exact ⟨ctx, hctx, hmarked.port hle, hmarked.init hle⟩

theorem refs_routeDisable (l : CamLink) (s : CamState) :
    ((routeDisable k l 0 s).1, (routeDisable k l 0 s).2.refs) = s.refs.cutLink k l.id := by
  have hdis : routeDisable k l 0 s = if (camLinkApply k l 0 s).1 < 0 then camLinkApply k l 0 s
      else (0, (camLinkApply k l 0 s).2) := rfl
  have hcnt : (s.addLinkRef l.id (-1)).linkRefCnt =
      Function.update s.refs.link l.id (s.refs.link l.id - 1) := rfl
  rw [hdis, Refs.cutLink, ← hcnt]
  dsimp only
  by_cases hlast : (s.addLinkRef l.id (-1)).linkRefCnt l.id = 0
  · have hlink : camLinkApply k l 0 s = mediaSetupLink k l 0 (s.addLinkRef l.id (-1)) := by
      simp [camLinkApply, hlast]
    rw [hlink, if_pos hlast]
    by_cases hneg : k.setupLink s.setupCalls.length < 0
    · rw [if_pos (show (mediaSetupLink k l 0 (s.addLinkRef l.id (-1))).1 < 0 from hneg),
        show min (k.setupLink s.refs.next) 0 = k.setupLink s.setupCalls.length from min_eq_left hneg.le]
      rfl
    · rw [if_neg (show ¬(mediaSetupLink k l 0 (s.addLinkRef l.id (-1))).1 < 0 from hneg),
        show min (k.setupLink s.refs.next) 0 = 0 from min_eq_right (Int.not_lt.mp hneg)]
      rfl
  · have hlink : camLinkApply k l 0 s = (0, s.addLinkRef l.id (-1)) := by simp [camLinkApply, hlast]
    rw [hlink, if_neg hlast]
    rfl

theorem cutLink_nonpos (l : LinkId) (c : Refs) : (c.cutLink k l).1 ≤ 0 := by
  unfold Refs.cutLink
  dsimp only
  split
  · exact min_le_right _ _
  · exact le_rfl

theorem cut_nonpos (r : CamRoute) (c : Refs) : (c.cut k r).1 ≤ 0 := by
  induction r generalizing c with
  | last id src dst head =>
    unfold Refs.cut
    dsimp only
    split
    · exact cutLink_nonpos _ _
    · exact le_rfl
  | cons id src dst head more ih =>
    unfold Refs.cut
    dsimp only
    split
    · split
      next hneg => exact hneg.le
      next => exact cutLink_nonpos _ _
    · exact le_rfl

theorem refs_camRouteApply (r : CamRoute) (s : CamState) :
    ((camRouteApply k 0 r s).1, (camRouteApply k 0 r s).2.refs) = s.refs.cut k r := by
  induction r generalizing s with
  | last id src dst head =>
    unfold camRouteApply routeApplyBody Refs.cut
    rw [if_pos rfl]
    dsimp only
    by_cases hfree : (s.addRouteRef id (-1)).routeRefCnt id ≤ 0
    · rw [if_pos hfree, if_neg (by decide), refs_routeDisable]
      exact (if_pos hfree).symm
    · rw [if_neg hfree]
      exact (if_neg hfree).symm
  | cons id src dst head more ih =>
    unfold camRouteApply routeApplyBody Refs.cut
    rw [if_pos rfl]
    dsimp only
    by_cases hfree : (s.addRouteRef id (-1)).routeRefCnt id ≤ 0
    · have hmore := ih (s.addRouteRef id (-1))
      rw [if_pos hfree]
      refine Eq.trans ?_ (if_pos hfree).symm
      change _ = if (Refs.cut k more (s.addRouteRef id (-1)).refs).1 < 0 then
        Refs.cut k more (s.addRouteRef id (-1)).refs
        else (Refs.cut k more (s.addRouteRef id (-1)).refs).2.cutLink k head.id
      rw [← hmore]
      dsimp only
      split
      · rfl
      · exact refs_routeDisable _ _
    · rw [if_neg hfree]
      exact (if_neg hfree).symm

theorem cutRoutes_eq (rs : List CamRoute) (ret : Int) (s : CamState) :
    (cutRoutes k rs ret s).1 = (s.refs.errors k rs).foldl Int.lor ret := by
  induction rs generalizing ret s with
  | nil => rfl
  | cons r rs ih =>
    have hcut := refs_camRouteApply (k := k) r s
    have hnonpos := cut_nonpos (k := k) r s.refs
    rw [cutRoutes, ih, Refs.errors, ← hcut]
    rw [← hcut] at hnonpos
    dsimp only at hnonpos ⊢
    split
    · rfl
    next hpos =>
      rw [le_antisymm hnonpos (Int.not_lt.mp hpos), lor_zero]

theorem InUse.kill (h : InUse id nrOut p) (hle : nrOut ≤ 6) :
    ∃ ctx ret s', p.1.ctx id = some ctx ∧ cameraContextKill cam k id p.1 = .ok (ret, s') ∧
      (p.2.Any nrOut → ret = (p.1.refs.errors k (ctx.out ++ [ctx.route])).foldl Int.lor (-EBUSY)) ∧
      (¬p.2.Any nrOut → ret = (p.1.refs.errors k (ctx.out ++ [ctx.route])).foldl Int.lor 0) := by
  obtain ⟨hid, ctx, hctx, rfl, hout, hmarked⟩ := h
  obtain ⟨s₁, hkillOut, hkilled⟩ : ∃ s₁, _ ∧ OutputKilled cam id ctx p.1 s₁ := killOutput_spec hid hctx hout
  obtain ⟨s₂, hkillIn, -⟩ := killInput_spec hid hkilled _
  have hports : p.1.OnlyPorts s₂ :=
    (onlyPorts_killOutput id ctx p.1 _ _ hkillOut).trans (onlyPorts_killInput id _ s₁ _ _ hkillIn)
  have hrefs : s₂.refs = p.1.refs := by
    rw [CamState.refs, hports.linkRefCnt, hports.routeRefCnt, hports.setupCalls]
    rfl
  have hbusy : ctx.busyPort.isSome = true ↔ ∃ port : Nat, port < ctx.nrOut ∧ p.2.port port = true := by
    rw [CamCtx.busyPort, List.find?_isSome]
    constructor
    · rintro ⟨port, hport, hflag⟩
      have hlt : (port : Int) < ctx.nrOut := by
        have := List.mem_range.mp hport
        omega
      exact ⟨port, hlt, (hmarked.port hle port hlt).mp hflag⟩
    · rintro ⟨port, hlt, hopen⟩
      exact ⟨port, List.mem_range.mpr (by omega), (hmarked.port hle port hlt).mpr hopen⟩
  have hkilled : ∀ ret, (killRoutes k id ctx ret s₂).1 =
      (p.1.refs.errors k (ctx.out ++ [ctx.route])).foldl Int.lor ret := by
    intro ret
    rw [← hrefs]
    exact cutRoutes_eq (ctx.out ++ [ctx.route]) ret s₂
  refine ⟨ctx, (killRoutes k id ctx _ s₂).1, (killRoutes k id ctx _ s₂).2, hctx,
    cameraContextKill_eq hid hctx hkillOut hkillIn, fun hany => ?_, fun hany => ?_⟩
  · rw [hkilled]
    congr 1
    rcases hany with hport | hinput
    · rw [if_pos (hbusy.mpr hport), ite_self]
    · rw [if_pos (hmarked.input.mpr hinput)]
  · rw [hkilled]
    congr 1
    rw [if_neg fun h => hany (.inr (hmarked.input.mp h)), if_neg fun h => hany (.inl (hbusy.mp h))]

theorem InUse.killReports_iff (h : InUse id nrOut p) (hle : nrOut ≤ 6) :
    KillReports cam k id nrOut p ↔ KillUndisturbed k id nrOut p := by
  obtain ⟨ctx, ret, s', hctx, hkill, hany, hnone⟩ : ∃ ctx ret s', p.1.ctx id = some ctx ∧
      cameraContextKill cam k id p.1 = .ok (ret, s') ∧ _ := h.kill hle
  constructor
  · rintro ⟨ret', s'', hkill', hiff⟩ ctx' hctx'
    rw [hkill] at hkill'
    cases hkill'
    rw [hctx] at hctx'
    cases hctx'
    exact ⟨fun h => (hany h).symm.trans (hiff.mpr h), fun h heq => h (hiff.mp ((hnone h).trans heq))⟩
  · intro hquiet
    obtain ⟨hopen, hclosed⟩ := hquiet ctx hctx
    refine ⟨ret, s', hkill, fun hret => ?_, fun h => (hany h).trans (hopen h)⟩
    by_contra h
    exact hclosed h ((hnone h).symm.trans hret)

/-- A new context: nothing is open yet, and the flags say so while the seventh port, whose flag
is `CAMCTX_FL_INIT`, does not come in. -/
theorem inUse_of_init (hcam : cam.Searched) {srcID pathID nrDst : Int} {s₁ : CamState}
    (h : cameraContextInit cam k srcID pathID nrDst s = .ok (id, s₁)) :
    InUse id nrDst (s₁, .none) ∧ (Flagged id (s₁, .none) → nrDst ≤ 6) := by
  have hstep := initStep_cameraContextInit hcam k srcID pathID nrDst s _ _ h
  generalize hret : (id : Int) = ret at hstep
  cases hstep with
  | refused hneg => omega
  | failed _ _ hneg => omega
  | @created route id' out s₁ _ s₂ crop hsel =>
    have heq : id = id' := Int.ofNat_inj.mp hret
    subst heq
    have hctx : (s₂.setCtx id (some (newContext route crop out nrDst))).ctx id =
        some (newContext route crop out nrDst) := by simp [setCtx]
    have hflag : ∀ f, tstFlag (setFlag 0#32 CAMCTX_FL_INIT) f = decide (f = CAMCTX_FL_INIT) := by
      intro f
      by_cases hf : f = CAMCTX_FL_INIT
      · subst hf
        decide
      · rw [tstFlag_setFlag_ne _ hf, tstFlag_eq]
        simp [hf]
    refine ⟨⟨hsel.lookup.id_lt, _, hctx, rfl, hsel.length, ?_, ?_, ?_⟩, ?_⟩
    · rw [newContext, hflag]
      exact iff_of_false (by decide) (by simp [Opened.none])
    · intro hle port hport
      have hne : CAMCTX_FL_DST1_BUSY + port ≠ CAMCTX_FL_INIT := by
        unfold CAMCTX_FL_DST1_BUSY CAMCTX_FL_INIT
        omega
      simp [newContext, hflag, hne, Opened.none]
    · intro _
      simp [newContext, hflag]
    · rintro ⟨ctx, hctx', hport, -⟩
      rw [hctx] at hctx'
      cases hctx'
      by_contra hnr
      have hport := (hport 6 (by change (6 : Int) < nrDst; omega)).mp (hflag _)
      cases hport

/-- The busy flags of a context are faithful exactly if it has at most six outputs. -/
theorem flagged_iff (hcam : cam.Searched) {srcID pathID nrDst : Int} {s₀ s₁ : CamState}
    (h : cameraContextInit cam k srcID pathID nrDst s₀ = .ok (id, s₁)) {calls : List PortCall}
    (hcalls : ∀ c ∈ calls, c.InRange nrDst) :
    Every (portStep cam k id) (fun p c => ∃ ret s', (c.call id).exec cam k 0 p.1 = .ok (ret, s'))
        (s₁, .none) calls ∧
      (Always (portStep cam k id) (fun p => Flagged id p ∧ KillReports cam k id nrDst p)
          (s₁, .none) calls ↔
        nrDst ≤ 6 ∧ Always (portStep cam k id) (KillUndisturbed k id nrDst) (s₁, .none) calls) := by
  obtain ⟨hstart, hsix⟩ := inUse_of_init hcam h
  have hrange : Every (portStep cam k id) (fun _ c => c.InRange nrDst) (s₁, .none) calls :=
    every_of_forall hcalls _
  have huse : Always (portStep cam k id) (InUse id nrDst) (s₁, .none) calls :=
    always_of_every (fun _ _ hp hc => (hp.portStep hc).2) hstart hrange
  refine ⟨every_of_every (fun _ _ hp hc => (hp.portStep hc).2) (fun _ _ hp hc => (hp.portStep hc).1)
    hstart hrange, fun hrun => ?_, ?_⟩
  · have hle := hsix hrun.head.1
    exact ⟨hle, (huse.and hrun).imp fun _ hp => (hp.1.killReports_iff hle).mp hp.2.2⟩
  · rintro ⟨hle, hquiet⟩
    exact (huse.and hquiet).imp fun _ hp => ⟨hp.1.flagged hle, (hp.1.killReports_iff hle).mpr hp.2⟩

end

theorem flagged_smallBoard : ∃ s₁,
    cameraContextInit smallStart.1 readyKernel 0 0 2 smallStart.2 = .ok ((0 : Nat), s₁) ∧
      (∀ c ∈ [PortCall.outputOpen 1, .outputClose 1], c.InRange 2) ∧
      (Always (portStep smallStart.1 readyKernel 0)
          (fun p => Flagged 0 p ∧ KillReports smallStart.1 readyKernel 0 2 p) (s₁, .none)
          [.outputOpen 1, .outputClose 1] ↔
        (2 : Int) ≤ 6 ∧ Always (portStep smallStart.1 readyKernel 0)
          (KillUndisturbed readyKernel 0 2) (s₁, .none) [.outputOpen 1, .outputClose 1]) := by
  have hseen : (cameraContextInit smallStart.1 readyKernel 0 0 2 smallStart.2).toOption.map (·.1) = some 0 := by
    decide +kernel
  obtain ⟨⟨ret, s₁⟩, hret, rfl⟩ := exists_of_map_eq_some hseen
  have hinit : cameraContextInit smallStart.1 readyKernel 0 0 2 smallStart.2 = .ok ((0 : Nat), s₁) := hret
  have hcalls : ∀ c ∈ [PortCall.outputOpen 1, .outputClose 1], c.InRange 2 := by
    simp [PortCall.InRange]
  exact ⟨s₁, hinit, hcalls,
    (flagged_iff (initialised_of_mediaLibInit smallInit_eq).searched hinit hcalls).2⟩

def wideBoard : MediaDevice where
  entities := [
    ⟨1, "s5k2p2", .subdevSensor, [⟨false, true⟩]⟩,
    ⟨2, "b52isd-IDI1", .other, [⟨true, false⟩, ⟨false, true⟩]⟩,
    ⟨3, "b52isd-Pipeline#1", .other, [⟨true, false⟩, ⟨false, true⟩]⟩] ++
    (List.range 7).map fun i => ⟨4 + i, "b52isd-output", .devnodeV4l, [⟨true, false⟩]⟩
  links := [⟨⟨0, 0⟩, ⟨1, 0⟩⟩, ⟨⟨1, 1⟩, ⟨2, 0⟩⟩] ++
    (List.range 7).map fun i => ⟨⟨2, 1⟩, ⟨3 + i, 0⟩⟩

def wideInit : Except Stuck (Option (PlatCam × CamState)) :=
  mediaLibInit readyKernel 30 (some wideBoard) fun _ => true

def wideStart : PlatCam × CamState := wideInit.toOption.join.get rfl

theorem not_flagged_wideBoard :
    mediaLibInit readyKernel 30 (some wideBoard) (fun _ => true) = .ok (some wideStart) ∧
      ∃ s₁, cameraContextInit wideStart.1 readyKernel 0 0 7 wideStart.2 = .ok ((0 : Nat), s₁) ∧
        ¬Flagged 0 (s₁, .none) := by
  have hseen : (cameraContextInit wideStart.1 readyKernel 0 0 7 wideStart.2).toOption.map
      (fun p => (p.1, (p.2.ctx 0).map fun ctx => (ctx.nrOut, tstFlag ctx.flags (CAMCTX_FL_DST1_BUSY + 6)))) =
      some (0, some (7, true)) := by
    decide +kernel
  obtain ⟨⟨ret, s₁⟩, hinit, hp⟩ := exists_of_map_eq_some hseen
  obtain ⟨rfl, hctx⟩ := Prod.mk.inj hp
  refine ⟨rfl, s₁, hinit, ?_⟩
  rintro ⟨ctx, hctx', hport, -⟩
  rw [hctx'] at hctx
  obtain ⟨hnr, hflag⟩ := Prod.mk.inj (Option.some.inj hctx)
  have hopen := (hport 6 (by rw [hnr]; decide)).mp hflag
  cases hopen

end G361FPlatform.MediaLib
