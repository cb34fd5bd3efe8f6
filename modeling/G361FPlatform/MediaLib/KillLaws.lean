import G361FPlatform.MediaLib.InitLaws

namespace G361FPlatform.MediaLib

open Library Outcome CamState

def CamState.FdOk (s : CamState) : Prop := ∀ me, -1 ≤ s.fd me

section

variable {cam : PlatCam} {k : Kernel} {s s' : CamState}

theorem fdOk_openMe (me : EntityId) (h : s.FdOk) : (openMe k me s).2.FdOk := by
  intro me'
  unfold openMe
  dsimp only
  split
  · by_cases hme : me' = me
    · subst hme
      simp [setFd]
    · simpa [setFd, hme] using h me'
  next hret =>
    by_cases hme : me' = me
    · subst hme
      simp only [setFd, Function.update_self]
      omega
    · simpa [setFd, hme] using h me'

theorem fdOk_closeMe (me : EntityId) (h : s.FdOk) : (closeMe me s).FdOk := by
  intro me'
  by_cases hme : me' = me
  · subst hme
    simp [closeMe, setFd]
  · simpa [closeMe, setFd, hme] using h me'

theorem fdOk_camNodeOpen (node : NodeId) (h : s.FdOk) : (camNodeOpen cam k node s).2.FdOk := by
  unfold camNodeOpen
  split
  · dsimp only
    split
    · exact fdOk_openMe _ h
    · exact fdOk_openMe _ h
  · exact h

theorem fdOk_camNodeClose (node : NodeId) (h : s.FdOk) : (camNodeClose cam node s).2.FdOk := by
  unfold camNodeClose
  dsimp only
  split
  · exact fdOk_closeMe (s := s.addOpenCnt node (-1)) _ h
  · exact h

theorem fdOk_para (fuel : Nat) (ctxID : Int) (paramList : List CamCtxParam) (h : s.FdOk) :
    Post (cameraContextPara cam k fuel ctxID paramList s) fun _ p => p.2.FdOk := by
  refine (ParamLaws.kept_para_of_steps (R := fun s s' =>
    s'.linkRefCnt = s.linkRefCnt ∧ (s.FdOk → s'.FdOk)) ?_ ?_ And.left ?_ ?_ ?_ fuel ctxID paramList
      s).imp fun _ _ hp => hp.2 h
  · exact fun _ => ⟨rfl, id⟩
  · exact fun h₁ h₂ => ⟨h₂.1.trans h₁.1, fun h => h₂.2 (h₁.2 h)⟩
  · exact fun _ _ _ => ⟨rfl, id⟩
  · exact fun node s => ⟨(onlyPorts_camNodeOpen node s).linkRefCnt, fdOk_camNodeOpen node⟩
  · exact fun node s => ⟨(onlyPorts_camNodeClose node s).linkRefCnt, fdOk_camNodeClose node⟩

theorem fdOk_outputOpen (ctxID port : Int) (h : s.FdOk) :
    Post (cameraContextOutputOpen cam k ctxID port s) fun _ s' => s'.FdOk := by
  refine post_withCtx (fun _ _ => h) fun id ctx _ => ?_
  refine post_withPort (fun _ _ => h) fun r _ _ => ?_
  split
  · exact post_ok h
  · dsimp only
    split
    · exact post_ok (fdOk_openMe _ h)
    · exact post_ok (fdOk_openMe (cam.meOf r.dst) h)

theorem fdOk_outputClose (ctxID port : Int) (h : s.FdOk) :
    Post (cameraContextOutputClose cam ctxID port s) fun _ s' => s'.FdOk := by
  refine post_withCtx (fun _ _ => h) fun id ctx _ => ?_
  refine post_withPort (fun _ _ => h) fun r _ _ => ?_
  split
  · exact post_ok h
  · exact post_ok (fdOk_closeMe (cam.meOf r.dst) h)

theorem fdOk_inputOpen (ctxID : Int) (h : s.FdOk) :
    Post (cameraContextInputOpen cam k ctxID s) fun _ s' => s'.FdOk := by
  refine post_withCtx (fun _ _ => h) fun id ctx _ => ?_
  split
  · exact post_ok h
  · split
    · exact post_ok h
    · dsimp only
      split
      · exact post_ok (fdOk_openMe _ h)
      · exact post_ok (fdOk_openMe (cam.meOf ctx.src) h)

theorem fdOk_inputClose (ctxID : Int) (h : s.FdOk) :
    Post (cameraContextInputClose cam ctxID s) fun _ s' => s'.FdOk := by
  refine post_withCtx (fun _ _ => h) fun id ctx _ => ?_
  split
  · exact post_ok h
  · split
    · exact post_ok h
    · exact post_ok (fdOk_closeMe (cam.meOf ctx.src) h)

theorem fd_killRoutes (id : Nat) (ctx : CamCtx) (ret : Int) (s : CamState) :
    (killRoutes k id ctx ret s).2.fd = s.fd := by
  have hframe := onlyCounts_cutRoutes (k := k) (ctx.out ++ [ctx.route]) ret s
  unfold killRoutes
  dsimp only
  rw [releaseOutputs_eq_with]
  exact hframe.fd

theorem fdOk_killOutput (id : Nat) (ctx : CamCtx) (h : s.FdOk) :
    Post (killOutput cam id ctx s) fun _ s' => s'.FdOk := by
  unfold killOutput
  split
  · exact post_ok h
  · exact (fdOk_outputClose _ _ h).map

theorem fdOk_killInput (id : Nat) (ret : Int) (h : s.FdOk) :
    Post (killInput cam id ret s) fun _ s' => s'.FdOk := by
  unfold killInput
  split
  · exact (fdOk_inputClose _ h).map
  · exact post_ok h

theorem fdOk_kill (ctxID : Int) (h : s.FdOk) :
    Post (cameraContextKill cam k ctxID s) fun _ s' => s'.FdOk := by
  unfold cameraContextKill
  split
  · exact post_ok h
  · split
    · exact post_error _ _
    · split
      · exact post_ok h
      · split
        · exact post_error _ _
        next hout =>
          have h₁ := fdOk_killOutput _ _ h _ _ hout
          split
          · exact post_error _ _
          next hin =>
            have h₂ := fdOk_killInput _ _ h₁ _ _ hin
            refine post_ok fun me => ?_
            exact (congrFun (fd_killRoutes _ _ _ _) me).symm ▸ h₂ me

theorem fdOk_exec (hcam : cam.Searched) {fuel : Nat} (c : Call) (h : s.FdOk) :
    Post (c.exec cam k fuel s) fun _ s' => s'.FdOk := by
  cases c with
  | contextInit srcID pathID nrDst =>
    exact (initStep_cameraContextInit hcam k srcID pathID nrDst s).imp fun _ _ hstep me =>
      (congrFun (sameDevices_initStep hstep).fd me).symm ▸ h me
  | contextPara ctxID paramList => exact (fdOk_para fuel ctxID paramList h).map
  | contextKill ctxID => exact fdOk_kill ctxID h
  | outputOpen ctxID port => exact fdOk_outputOpen ctxID port h
  | outputClose ctxID port => exact fdOk_outputClose ctxID port h
  | inputOpen ctxID => exact fdOk_inputOpen ctxID h
  | inputClose ctxID => exact fdOk_inputClose ctxID h
  | pathGet ctxID =>
    change Post (cameraContextPathGet cam k ctxID s) _
    exact post_withCtx (fun _ _ => h) fun _ ctx _ => post_ok (fdOk_camNodeOpen ctx.path h)
  | pathPut ctxID =>
    change Post (cameraContextPathPut cam ctxID s) _
    exact post_withCtx (fun _ _ => h) fun _ ctx _ => post_ok (fdOk_camNodeClose ctx.path h)
  | sourceGet ctxID =>
    change Post (cameraContextSourceGet cam k ctxID s) _
    refine post_withCtx (fun _ _ => h) fun _ ctx _ => ?_
    split
    · exact post_ok h
    · exact post_ok (fdOk_camNodeOpen ctx.src h)
  | sourcePut ctxID =>
    change Post (cameraContextSourcePut cam ctxID s) _
    exact post_withCtx (fun _ _ => h) fun _ ctx _ => post_ok (fdOk_camNodeClose ctx.src h)
  | openCam srcID =>
    change Post (openCam cam k srcID s) _
    exact post_withSource fun node _ => post_ok (fdOk_camNodeOpen node h)
  | closeCam srcID =>
    change Post (closeCam cam srcID s) _
    exact post_withSource fun node _ => post_ok (fdOk_camNodeClose node h)

theorem fdOk_of_mediaLibInit {fuel : Nat} {mediaOpen : Option MediaDevice} {alloc : Nat → Bool}
    (h : mediaLibInit k fuel mediaOpen alloc = .ok (some (cam, s))) : s.FdOk := by
  obtain ⟨_, node, _, _, _, rfl⟩ := mediaLibInit_eq_some h
  exact fdOk_camNodeOpen node fun _ => le_rfl

def CamCtx.busyPort (ctx : CamCtx) : Option Nat :=
  (List.range ctx.nrOut.toNat).find? fun i => tstFlag ctx.flags (CAMCTX_FL_DST1_BUSY + i)

/-- The devices `CameraContextKill` closes if they are open: that of the first busy port, and
the input if that is marked busy. -/
def KillCloses (cam : PlatCam) (ctx : CamCtx) (me : EntityId) : Prop :=
  (∃ i r, ctx.busyPort = some i ∧ ctx.out[i]? = some r ∧ me = cam.meOf r.dst) ∨
    tstFlag ctx.flags CAMCTX_FL_INPUT_BUSY = true ∧
      cam.media.typeOf (cam.meOf ctx.src) = .devnodeV4l ∧ me = cam.meOf ctx.src

theorem closeMe_fd_neg (me me' : EntityId) (s : CamState) :
    (closeMe me s).fd me' < 0 ↔ s.fd me' < 0 ∨ me' = me := by
  by_cases h : me' = me
  · subst h
    simp [closeMe, setFd]
  · simp [closeMe, setFd, h]

theorem tstFlag_clrFlag {x : BitVec 32} {f g : Nat} (h : f ≠ g) :
    tstFlag (clrFlag x g) f = tstFlag x f := by
  rw [tstFlag_eq, tstFlag_eq, getLsbD_clrFlag]
  simp [h]

structure OutputKilled (cam : PlatCam) (id : Nat) (ctx : CamCtx) (s s' : CamState) : Prop where
  fd : ∀ me, s'.fd me < 0 ↔
    s.fd me < 0 ∨ ∃ i r, ctx.busyPort = some i ∧ ctx.out[i]? = some r ∧ me = cam.meOf r.dst
  ctx : ∃ flags, s'.ctx id = some { ctx with flags := flags } ∧
    tstFlag flags CAMCTX_FL_INPUT_BUSY = tstFlag ctx.flags CAMCTX_FL_INPUT_BUSY

theorem killOutput_spec {id : Nat} {ctx : CamCtx} (hid : id < CONTEXT_PER_PLATFORM)
    (hctx : s.ctx id = some ctx) (hout : ctx.out.length = ctx.nrOut.toNat) :
    ∃ s', killOutput cam id ctx s = .ok (if ctx.busyPort.isSome then -EBUSY else 0, s') ∧
      OutputKilled cam id ctx s s' := by
  cases hbusy : ctx.busyPort with
  | none =>
    refine ⟨s, ?_, by simp [hbusy], ctx.flags, hctx, rfl⟩
    rw [CamCtx.busyPort] at hbusy
    simp [killOutput, hbusy]
  | some i =>
    have hi : i < ctx.out.length := by
      rw [hout]
      exact List.mem_range.mp (List.mem_of_find?_eq_some hbusy)
    have hclose : cameraContextOutputClose cam id i s =
        if s.fd (cam.meOf ctx.out[i].dst) < 0 then .ok (-EPERM, s)
        else .ok (0, (closeMe (cam.meOf ctx.out[i].dst) s).setCtx id
          (some { ctx with flags := clrFlag ctx.flags (CAMCTX_FL_DST1_BUSY + i) })) := by
      rw [cameraContextOutputClose, withCtx_eq hid hctx, withPort_eq hout hi]
      rfl
    have hbusy' := hbusy
    rw [CamCtx.busyPort] at hbusy'
    simp only [killOutput, hbusy', hclose]
    have hmatch : ∀ me, (∃ j r, some i = some j ∧ ctx.out[j]? = some r ∧ me = cam.meOf r.dst) ↔
        me = cam.meOf ctx.out[i].dst := by
      intro me
      constructor
      · rintro ⟨j, r, hj, hr, rfl⟩
        cases hj
        rw [List.getElem?_eq_getElem hi] at hr
        cases hr
        rfl
      · rintro rfl
        exact ⟨i, _, rfl, List.getElem?_eq_getElem hi, rfl⟩
    split
    next hfd =>
      refine ⟨s, rfl, fun me => ?_, ctx.flags, hctx, rfl⟩
      rw [hbusy, hmatch]
      constructor
      · exact .inl
      · rintro (h | rfl)
        · exact h
        · exact hfd
    next hfd =>
      refine ⟨_, rfl, fun me => ?_, _, by simp [setCtx]; rfl, ?_⟩
      · rw [hbusy, hmatch]
        exact closeMe_fd_neg _ me s
      · exact tstFlag_clrFlag (by unfold CAMCTX_FL_INPUT_BUSY CAMCTX_FL_DST1_BUSY; omega)

theorem killInput_spec {id : Nat} {ctx : CamCtx} (hid : id < CONTEXT_PER_PLATFORM) {s₁ : CamState}
    (h : OutputKilled cam id ctx s s₁) (ret : Int) :
    ∃ s₂, killInput cam id ret s₁ =
        .ok (if tstFlag ctx.flags CAMCTX_FL_INPUT_BUSY = true then -EBUSY else ret, s₂) ∧
      ∀ me, s₂.fd me < 0 ↔ s.fd me < 0 ∨ KillCloses cam ctx me := by
  obtain ⟨flags, hctx, hflag⟩ := h.ctx
  by_cases hbusy : tstFlag ctx.flags CAMCTX_FL_INPUT_BUSY = true
  case neg =>
    refine ⟨s₁, by simp [killInput, hctx, hflag, hbusy], fun me => ?_⟩
    rw [h.fd, KillCloses]
    simp [hbusy]
  case pos =>
    have hkill : killInput cam id ret s₁ =
        (cameraContextInputClose cam id s₁).map fun p => (-EBUSY, p.2) := by
      simp [killInput, hctx, hflag, hbusy]
    rw [hkill, cameraContextInputClose, withCtx_eq hid hctx, if_pos hbusy]
    dsimp only
    by_cases htype : cam.media.typeOf (cam.meOf ctx.src) = .devnodeV4l
    case neg =>
      refine ⟨s₁, by simp [htype, Except.map], fun me => ?_⟩
      rw [h.fd, KillCloses]
      simp [htype]
    case pos =>
      have hclosed : ∀ s₂ : CamState,
          (∀ me, s₂.fd me < 0 ↔ s₁.fd me < 0 ∨ me = cam.meOf ctx.src) →
          ∀ me, s₂.fd me < 0 ↔ s.fd me < 0 ∨ KillCloses cam ctx me := by
        intro s₂ h₂ me
        rw [h₂, h.fd, KillCloses]
        simp [hbusy, htype, or_assoc]
      by_cases hfd : s₁.fd (cam.meOf ctx.src) < 0
      · refine ⟨s₁, by simp [htype, hfd, Except.map], hclosed s₁ fun me => ?_⟩
        constructor
        · exact .inl
        · rintro (h | rfl)
          · exact h
          · exact hfd
      · refine ⟨_, by simp [htype, hfd, Except.map]; rfl, hclosed _ fun me => ?_⟩
        exact closeMe_fd_neg (cam.meOf ctx.src) me s₁

theorem cameraContextKill_eq {id : Nat} {ctx : CamCtx} (hid : id < CONTEXT_PER_PLATFORM)
    (hctx : s.ctx id = some ctx) {ret₁ ret₂ : Int} {s₁ s₂ : CamState}
    (hout : killOutput cam id ctx s = .ok (ret₁, s₁)) (hin : killInput cam id ret₁ s₁ = .ok (ret₂, s₂)) :
    cameraContextKill cam k id s = .ok (killRoutes k id ctx ret₂ s₂) := by
  have hlt : ¬(CONTEXT_PER_PLATFORM : Int) ≤ id := by omega
  have hneg : ¬(id : Int) < 0 := by omega
  simp only [cameraContextKill, hlt, hneg, if_false, Int.toNat_natCast, hctx, hout, hin]

theorem cameraContextKill_fd (h : Table cam s) {id : Nat} {ctx : CamCtx}
    (hctx : s.ctx id = some ctx) (k : Kernel) :
    ∃ ret s', cameraContextKill cam k id s = .ok (ret, s') ∧
      ∀ me, s'.fd me < 0 ↔ s.fd me < 0 ∨ KillCloses cam ctx me := by
  obtain ⟨hid, hok⟩ := h.ok id ctx hctx
  obtain ⟨s₁, hout, hkilled⟩ := killOutput_spec hid hctx hok.nrOut_eq
  obtain ⟨s₂, hin, hfd⟩ := killInput_spec hid hkilled _
  refine ⟨(killRoutes k id ctx _ s₂).1, (killRoutes k id ctx _ s₂).2,
    cameraContextKill_eq hid hctx hout hin, fun me => ?_⟩
  rw [fd_killRoutes]
  exact hfd me

end

/-- None of the devices of a context has a descriptor any more. -/
def CamCtx.Closed (cam : PlatCam) (ctx : CamCtx) (s : CamState) : Prop :=
  (∀ r ∈ ctx.out, s.fd (cam.meOf r.dst) = -1) ∧ s.fd (cam.meOf ctx.src) = -1

/-- Every open device of the context is one that `CameraContextKill` closes. -/
def KillCovers (cam : PlatCam) (ctx : CamCtx) (s : CamState) : Prop :=
  ∀ n, n = ctx.src ∨ n ∈ ctx.out.map CamRoute.dst → 0 ≤ s.fd (cam.meOf n) →
    KillCloses cam ctx (cam.meOf n)

/-- In every reachable state, killing a context closes all its devices exactly if every open
one is covered. -/
theorem closed_iff_killCovers {k : Kernel} {fuel fuel' : Nat} {mediaOpen : Option MediaDevice}
    {alloc : Nat → Bool} {cam : PlatCam} {s₀ s : CamState}
    (h : mediaLibInit k fuel mediaOpen alloc = .ok (some (cam, s₀))) {calls : List Call}
    (hrun : runCalls cam k fuel' calls s₀ = .ok s) {id : Nat} {ctx : CamCtx}
    (hctx : s.ctx id = some ctx) :
    ∃ ret s', cameraContextKill cam k id s = .ok (ret, s') ∧
      (ctx.Closed cam s' ↔ KillCovers cam ctx s) := by
  have hinit := initialised_of_mediaLibInit h
  have htable := table_of_runCalls hinit hrun
  have hfdOk : s.FdOk := runCalls_inv (P := CamState.FdOk)
    (fun c _ s ret s' hs hc => fdOk_exec hinit.searched c hs ret s' hc) (fdOk_of_mediaLibInit h) hrun
  obtain ⟨ret, s', hkill, hfd⟩ := cameraContextKill_fd htable hctx k
  have hneg : ∀ me, s'.fd me = -1 ↔ s'.fd me < 0 := by
    have hok := fdOk_kill id hfdOk ret s' hkill
    intro me
    have := hok me
    omega
  refine ⟨ret, s', hkill, ?_⟩
  have hnode : ∀ n, s'.fd (cam.meOf n) = -1 ↔
      (0 ≤ s.fd (cam.meOf n) → KillCloses cam ctx (cam.meOf n)) := by
    intro n
    rw [hneg, hfd, or_iff_not_imp_left, not_lt]
  constructor
  · rintro ⟨hout, hsrc⟩ n (rfl | hn)
    · exact (hnode _).mp hsrc
    · obtain ⟨r, hr, rfl⟩ := List.mem_map.mp hn
      exact (hnode _).mp (hout r hr)
  · intro hcovers
    refine ⟨fun r hr => (hnode _).mpr (hcovers r.dst (.inr (List.mem_map_of_mem hr))), ?_⟩
    exact (hnode _).mpr (hcovers ctx.src (.inl rfl))

theorem closed_iff_smallBoard : ∃ s ctx ret s',
    smallRun [.contextInit 0 0 2, .outputOpen 0 0] = .ok s ∧ s.ctx 0 = some ctx ∧
      cameraContextKill smallStart.1 readyKernel (0 : Nat) s = .ok (ret, s') ∧
        (ctx.Closed smallStart.1 s' ↔ KillCovers smallStart.1 ctx s) := by
  have hseen : (smallRun [.contextInit 0 0 2, .outputOpen 0 0]).toOption.map
      (fun s => (s.ctx 0).isSome) = some true := by
    decide +kernel
  obtain ⟨s, hrun, hctx⟩ := exists_of_map_eq_some hseen
  obtain ⟨ctx, hctx⟩ := Option.isSome_iff_exists.mp hctx
  obtain ⟨ret, s', hkill, hiff⟩ := closed_iff_killCovers smallInit_eq hrun hctx
  exact ⟨s, ctx, ret, s', hrun, hctx, hkill, hiff⟩

set_option synthInstance.maxSize 1024 in
/-- Both ports are open when the context is killed: the second descriptor stays, and the next
context to get that output cannot open it. -/
theorem not_closed_smallBoard : ∃ s ctx ret s',
    smallRun [.contextInit 0 0 2, .outputOpen 0 0, .outputOpen 0 1] = .ok s ∧ s.ctx 0 = some ctx ∧
      (∀ n ∈ ctx.src :: ctx.out.map CamRoute.dst, s.openCnt n = 0) ∧
      cameraContextKill smallStart.1 readyKernel 0 s = .ok (ret, s') ∧
      ¬ctx.Closed smallStart.1 s' ∧
      ∃ t u, cameraContextInit smallStart.1 readyKernel 0 0 2 s' = .ok (0, t) ∧
        cameraContextOutputOpen smallStart.1 readyKernel 0 1 t = .ok (-EBUSY, u) := by
  have hseen : (smallRun [.contextInit 0 0 2, .outputOpen 0 0, .outputOpen 0 1]).toOption.map
      (fun s => ((s.ctx 0).map fun ctx => (ctx.src, ctx.out.map CamRoute.dst),
        (s.openCnt 0, s.openCnt 4, s.openCnt 5),
        (cameraContextKill smallStart.1 readyKernel 0 s).toOption.map fun p =>
          (p.2.fd (smallStart.1.meOf 5),
            (cameraContextInit smallStart.1 readyKernel 0 0 2 p.2).toOption.map fun q =>
              (q.1, (cameraContextOutputOpen smallStart.1 readyKernel 0 1 q.2).toOption.map (·.1))))) =
      some (some (0, [4, 5]), (0, 0, 0), some (6, some (0, some (-EBUSY)))) := by
    decide +kernel
  obtain ⟨s, hrun, hs⟩ := exists_of_map_eq_some hseen
  obtain ⟨hctx, hs⟩ := Prod.mk.inj hs
  obtain ⟨hcnt, hkill⟩ := Prod.mk.inj hs
  obtain ⟨ctx, hctx, hnodes⟩ := Option.map_eq_some_iff.mp hctx
  obtain ⟨hsrc, hout⟩ := Prod.mk.inj hnodes
  obtain ⟨⟨ret, s'⟩, hkill, hs'⟩ := exists_of_map_eq_some hkill
  obtain ⟨hfd, hinit⟩ := Prod.mk.inj hs'
  obtain ⟨⟨ret', t⟩, hinit, ht⟩ := exists_of_map_eq_some hinit
  obtain ⟨rfl, hopen⟩ := Prod.mk.inj ht
  obtain ⟨⟨ret'', u⟩, hopen, rfl⟩ := exists_of_map_eq_some hopen
  refine ⟨s, ctx, ret, s', hrun, hctx, ?_, hkill, ?_, t, u, hinit, hopen⟩
  · rw [hsrc, hout]
    simpa using hcnt
  · intro hclosed
    have hmem : 5 ∈ ctx.out.map CamRoute.dst := by simp [hout]
    obtain ⟨r, hr, hdst⟩ := List.mem_map.mp hmem
    have hr := hclosed.1 r hr
    rw [hdst, hfd] at hr
    cases hr

end G361FPlatform.MediaLib
