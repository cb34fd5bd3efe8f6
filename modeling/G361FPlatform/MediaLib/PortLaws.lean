import G361FPlatform.MediaLib.Calls
import G361FPlatform.MediaLib.ParamLaws

namespace G361FPlatform.MediaLib

open Library Outcome

def CamCtx.unflagged (ctx : CamCtx) : CamCtx := { ctx with flags := 0#32 }

namespace CamState

/-- Nothing but descriptors, open counts, the busy flags of contexts and the record of
`ioctl`s differs. -/
structure OnlyPorts (s s' : CamState) : Prop where
  linkRefCnt : s'.linkRefCnt = s.linkRefCnt
  routeRefCnt : s'.routeRefCnt = s.routeRefCnt
  nodeFlags : s'.nodeFlags = s.nodeFlags
  setupCalls : s'.setupCalls = s.setupCalls
  ctx : ∀ i, (s'.ctx i).map CamCtx.unflagged = (s.ctx i).map CamCtx.unflagged

theorem OnlyPorts.refl (s : CamState) : s.OnlyPorts s := ⟨rfl, rfl, rfl, rfl, fun _ => rfl⟩

theorem OnlyPorts.trans {s₁ s₂ s₃ : CamState} (h₁ : s₁.OnlyPorts s₂) (h₂ : s₂.OnlyPorts s₃) :
    s₁.OnlyPorts s₃ where
  linkRefCnt := h₂.linkRefCnt.trans h₁.linkRefCnt
  routeRefCnt := h₂.routeRefCnt.trans h₁.routeRefCnt
  nodeFlags := h₂.nodeFlags.trans h₁.nodeFlags
  setupCalls := h₂.setupCalls.trans h₁.setupCalls
  ctx := fun i => (h₂.ctx i).trans (h₁.ctx i)

theorem OnlyPorts.ctx_eq_some {s s' : CamState} (h : s.OnlyPorts s') {i : Nat} {ctx' : CamCtx}
    (hctx : s'.ctx i = some ctx') :
    ∃ ctx, s.ctx i = some ctx ∧ ctx'.unflagged = ctx.unflagged := by
  have hi := h.ctx i
  rw [hctx, Option.map_some] at hi
  obtain ⟨ctx, hctx, heq⟩ := Option.map_eq_some_iff.mp hi.symm
  exact ⟨ctx, hctx, heq.symm⟩

end CamState

open CamState

variable {cam : PlatCam} {k : Kernel}

theorem onlyPorts_setCtx_flags {s : CamState} {id : Nat} {ctx : CamCtx} (h : s.ctx id = some ctx)
    (flags : BitVec 32) : s.OnlyPorts (s.setCtx id (some { ctx with flags := flags })) := by
  refine ⟨rfl, rfl, rfl, rfl, fun i => ?_⟩
  by_cases hi : i = id
  · subst hi
    simp [setCtx, h, CamCtx.unflagged]
  · simp [setCtx, hi]

theorem onlyPorts_openMe (me : EntityId) (s : CamState) : s.OnlyPorts (openMe k me s).2 := by
  unfold openMe
  dsimp only
  split
  · exact ⟨rfl, rfl, rfl, rfl, fun _ => rfl⟩
  · exact ⟨rfl, rfl, rfl, rfl, fun _ => rfl⟩

theorem onlyPorts_closeMe (me : EntityId) (s : CamState) : s.OnlyPorts (closeMe me s) :=
  ⟨rfl, rfl, rfl, rfl, fun _ => rfl⟩

theorem ctx_openMe (me : EntityId) (s : CamState) : (openMe k me s).2.ctx = s.ctx := by
  unfold openMe
  dsimp only
  split <;> rfl

theorem onlyPorts_camNodeOpen (node : NodeId) (s : CamState) :
    s.OnlyPorts (camNodeOpen cam k node s).2 := by
  unfold camNodeOpen
  split
  · dsimp only
    split
    · exact onlyPorts_openMe _ s
    · exact (onlyPorts_openMe _ s).trans ⟨rfl, rfl, rfl, rfl, fun _ => rfl⟩
  · exact ⟨rfl, rfl, rfl, rfl, fun _ => rfl⟩

theorem onlyPorts_camNodeClose (node : NodeId) (s : CamState) :
    s.OnlyPorts (camNodeClose cam node s).2 := by
  unfold camNodeClose
  dsimp only
  split
  · exact ⟨rfl, rfl, rfl, rfl, fun _ => rfl⟩
  · exact ⟨rfl, rfl, rfl, rfl, fun _ => rfl⟩

theorem onlyPorts_cameraContextPara (fuel : Nat) (ctxID : Int) (paramList : List CamCtxParam)
    (s : CamState) :
    Post (cameraContextPara cam k fuel ctxID paramList s) fun _ p => s.OnlyPorts p.2 :=
  ParamLaws.kept_para_of_steps .refl (fun h₁ h₂ => h₁.trans h₂) (fun h => h.linkRefCnt)
    (fun _ _ _ => ⟨rfl, rfl, rfl, rfl, fun _ => rfl⟩) onlyPorts_camNodeOpen onlyPorts_camNodeClose
    fuel ctxID paramList s

theorem post_withCtx {ctxID : Int} {f : Nat → CamCtx → CamState → Outcome CamState} {s : CamState}
    {Q : Int → CamState → Prop} (hrefused : ∀ ret, ret < 0 → Q ret s)
    (hf : ∀ id ctx, s.ctx id = some ctx → Post (f id ctx s) Q) : Post (withCtx ctxID f s) Q := by
  unfold withCtx
  split
  · exact post_ok (hrefused _ (by decide))
  · split
    · exact post_error _ _
    · split
      · exact post_ok (hrefused _ (by decide))
      next hctx => exact hf _ _ hctx

theorem post_withPort {ctx : CamCtx} {port : Int} {f : NodeId → CamState → Outcome CamState}
    {s : CamState} {Q : Int → CamState → Prop} (hrefused : ∀ ret, ret < 0 → Q ret s)
    (hf : ∀ r ∈ ctx.out, ctx.out[port.toNat]? = some r → Post (f r.dst s) Q) :
    Post (withPort ctx port f s) Q := by
  unfold withPort
  split
  · exact post_ok (hrefused _ (by decide))
  · split
    · exact post_error _ _
    · split
      · exact post_error _ _
      next r hr => exact hf r (List.mem_of_getElem? hr) hr

theorem post_withSource {srcID : Int} {f : NodeId → CamState → Outcome CamState} {s : CamState}
    {Q : Int → CamState → Prop} (hf : ∀ node ∈ cam.srcPool, Post (f node s) Q) :
    Post (withSource cam srcID f s) Q := by
  unfold withSource
  split
  · exact post_error _ _
  · split
    · exact post_error _ _
    next node hnode => exact hf node (List.mem_of_getElem? hnode)

theorem onlyPorts_cameraContextOutputOpen (ctxID port : Int) (s : CamState) :
    Post (cameraContextOutputOpen cam k ctxID port s) fun _ s' => s.OnlyPorts s' := by
  refine post_withCtx (fun _ _ => .refl s) fun id ctx hctx => ?_
  refine post_withPort (fun _ _ => .refl s) fun r _ _ => ?_
  split
  · exact post_ok (.refl s)
  · dsimp only
    have hopen := onlyPorts_openMe (k := k) (cam.meOf r.dst) s
    split
    · exact post_ok hopen
    · exact post_ok (hopen.trans (onlyPorts_setCtx_flags (by rw [ctx_openMe]; exact hctx) _))

theorem onlyPorts_cameraContextOutputClose (ctxID port : Int) (s : CamState) :
    Post (cameraContextOutputClose cam ctxID port s) fun _ s' => s.OnlyPorts s' := by
  refine post_withCtx (fun _ _ => .refl s) fun id ctx hctx => ?_
  refine post_withPort (fun _ _ => .refl s) fun r _ _ => ?_
  split
  · exact post_ok (.refl s)
  · exact post_ok ((onlyPorts_closeMe _ s).trans (onlyPorts_setCtx_flags (s := closeMe _ s) hctx _))

theorem onlyPorts_cameraContextInputOpen (ctxID : Int) (s : CamState) :
    Post (cameraContextInputOpen cam k ctxID s) fun _ s' => s.OnlyPorts s' := by
  refine post_withCtx (fun _ _ => .refl s) fun id ctx hctx => ?_
  split
  · exact post_ok (.refl s)
  · split
    · exact post_ok (.refl s)
    · dsimp only
      have hopen := onlyPorts_openMe (k := k) (cam.meOf ctx.src) s
      split
      · exact post_ok hopen
      · exact post_ok (hopen.trans (onlyPorts_setCtx_flags (by rw [ctx_openMe]; exact hctx) _))

theorem onlyPorts_cameraContextInputClose (ctxID : Int) (s : CamState) :
    Post (cameraContextInputClose cam ctxID s) fun _ s' => s.OnlyPorts s' := by
  refine post_withCtx (fun _ _ => .refl s) fun id ctx hctx => ?_
  split
  · exact post_ok (.refl s)
  · split
    · exact post_ok (.refl s)
    · exact post_ok ((onlyPorts_closeMe _ s).trans (onlyPorts_setCtx_flags (s := closeMe _ s) hctx _))

theorem onlyPorts_exec {fuel : Nat} {c : Call} (hinit : ∀ srcID pathID nrDst, c ≠ .contextInit srcID pathID nrDst)
    (hkill : ∀ ctxID, c ≠ .contextKill ctxID) (s : CamState) :
    Post (c.exec cam k fuel s) fun _ s' => s.OnlyPorts s' := by
  cases c with
  | contextInit srcID pathID nrDst => exact absurd rfl (hinit _ _ _)
  | contextPara ctxID paramList =>
    exact (onlyPorts_cameraContextPara fuel ctxID paramList s).map
  | contextKill ctxID => exact absurd rfl (hkill _)
  | outputOpen ctxID port => exact onlyPorts_cameraContextOutputOpen ctxID port s
  | outputClose ctxID port => exact onlyPorts_cameraContextOutputClose ctxID port s
  | inputOpen ctxID => exact onlyPorts_cameraContextInputOpen ctxID s
  | inputClose ctxID => exact onlyPorts_cameraContextInputClose ctxID s
  | pathGet ctxID =>
    change Post (cameraContextPathGet cam k ctxID s) _
    refine post_withCtx (fun _ _ => .refl s) fun _ ctx _ => ?_
    exact post_ok (onlyPorts_camNodeOpen ctx.path s)
  | pathPut ctxID =>
    change Post (cameraContextPathPut cam ctxID s) _
    refine post_withCtx (fun _ _ => .refl s) fun _ ctx _ => ?_
    exact post_ok (onlyPorts_camNodeClose ctx.path s)
  | sourceGet ctxID =>
    change Post (cameraContextSourceGet cam k ctxID s) _
    refine post_withCtx (fun _ _ => .refl s) fun _ ctx _ => ?_
    split
    · exact post_ok (.refl s)
    · exact post_ok (onlyPorts_camNodeOpen ctx.src s)
  | sourcePut ctxID =>
    change Post (cameraContextSourcePut cam ctxID s) _
    refine post_withCtx (fun _ _ => .refl s) fun _ ctx _ => ?_
    exact post_ok (onlyPorts_camNodeClose ctx.src s)
  | openCam srcID =>
    change Post (openCam cam k srcID s) _
    refine post_withSource fun node _ => ?_
    exact post_ok (onlyPorts_camNodeOpen node s)
  | closeCam srcID =>
    change Post (closeCam cam srcID s) _
    refine post_withSource fun node _ => ?_
    exact post_ok (onlyPorts_camNodeClose node s)

end G361FPlatform.MediaLib
