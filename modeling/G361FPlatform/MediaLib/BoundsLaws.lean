import G361FPlatform.Library.Run
import G361FPlatform.MediaLib.InitLaws

namespace G361FPlatform.MediaLib

open Library Outcome

def callStep (cam : PlatCam) (k : Kernel) (fuel : Nat) (s : CamState) (c : Call) : CamState :=
  match c.exec cam k fuel s with
  | .ok (_, s') => s'
  | .error _ => s

def SlotInRange (ctxID : Int) : Prop := 0 ≤ ctxID ∧ ctxID < CONTEXT_PER_PLATFORM

namespace Call

/-- What the arguments say to look at is there. -/
def InRange (cam : PlatCam) (s : CamState) : Call → Prop
  | contextInit srcID pathID _ =>
    (0 ≤ srcID ∧ srcID < cam.srcPool.length) ∧ 0 ≤ pathID ∧ pathID < cam.pathPool.length
  | contextPara ctxID paramList =>
    SlotInRange ctxID ∧ ∀ ctx, s.ctx ctxID.toNat = some ctx → (∃ p ∈ paramList, p.isPath = true) → ctx.out ≠ []
  | outputOpen ctxID port | outputClose ctxID port =>
    SlotInRange ctxID ∧ ∀ ctx, s.ctx ctxID.toNat = some ctx → 0 ≤ port ∧ port < ctx.out.length
  | contextKill ctxID | inputOpen ctxID | inputClose ctxID | pathGet ctxID | pathPut ctxID | sourceGet ctxID
  | sourcePut ctxID => SlotInRange ctxID
  | openCam _ | closeCam _ => True

def Answered (cam : PlatCam) (s : CamState) (c : Call) (x : Outcome CamState) : Prop :=
  ∃ ret s', x = .ok (ret, s') ∧ (c.InRange cam s ∨ ret < 0 ∧ s' = s)

/-- The context API validates the arguments of the call, and `CameraContextInit` leaves a context
that the later calls can use.  A parameter list can go wrong in other ways, and `OpenCam` and
`CloseCam` are no part of the API. -/
def Validated (cam : PlatCam) (k : Kernel) (fuel : Nat) (s : CamState) (c : Call) : Prop :=
  match c with
  | contextPara _ _ => c.InRange cam s ∨ ∃ ret, ret < 0 ∧ c.exec cam k fuel s = .ok (ret, s)
  | contextInit _ _ _ =>
    c.Answered cam s (c.exec cam k fuel s) ∧ Post (c.exec cam k fuel s) fun ret s' =>
      ∀ i : Nat, ret = i → ∀ ctx, s'.ctx i = some ctx → ctx.out ≠ []
  | openCam _ | closeCam _ => True
  | _ => c.Answered cam s (c.exec cam k fuel s)

/-- No negative id or port comes past the checks before it, and no context is made without
outputs. -/
def Guarded (cam : PlatCam) (k : Kernel) (s : CamState) : Call → Prop
  | contextInit srcID pathID nrDst =>
    ((cam.srcPool.length : Int) ≤ srcID ∨ (cam.pathPool.length : Int) ≤ pathID ∨
      0 ≤ pathID ∧ (0 ≤ srcID ∨
        ∀ pNode, cam.pathPool[pathID.toNat]? = some pNode → ((cam.route pNode).length : Int) < nrDst)) ∧
    ∀ route id, contextLookup cam srcID pathID nrDst s = .ok (.ok (route, id)) →
      0 < nrDst ∨ (camRouteApply k 1 route s).1 < 0
  | contextPara _ _ => True
  | outputOpen ctxID port | outputClose ctxID port =>
    0 ≤ ctxID ∧ (ctxID < CONTEXT_PER_PLATFORM → ∀ ctx, s.ctx ctxID.toNat = some ctx → 0 ≤ port)
  | contextKill ctxID | inputOpen ctxID | inputClose ctxID | pathGet ctxID | pathPut ctxID | sourceGet ctxID
  | sourcePut ctxID => 0 ≤ ctxID
  | openCam _ | closeCam _ => True

end Call

def CamState.Outfitted (s : CamState) : Prop := ∀ i ctx, s.ctx i = some ctx → ctx.out ≠ []

section

variable {cam : PlatCam} {k : Kernel} {fuel : Nat} {s : CamState} {c : Call}

theorem answered_withCtx {ctxID : Int} {f : Nat → CamCtx → CamState → Outcome CamState}
    (hc : c.InRange cam s ↔ SlotInRange ctxID)
    (hf : ∀ id ctx, s.ctx id = some ctx → ∃ ret s', f id ctx s = .ok (ret, s')) :
    c.Answered cam s (withCtx ctxID f s) ↔ 0 ≤ ctxID := by
  constructor
  · rintro ⟨ret, s', hx, -⟩
    unfold withCtx at hx
    split at hx
    next hle => exact le_trans (by decide) hle
    · split at hx
      · cases hx
      next hneg => exact Int.not_lt.mp hneg
  · intro hid
    by_cases hle : (CONTEXT_PER_PLATFORM : Int) ≤ ctxID
    · exact ⟨-EINVAL, s, if_pos hle, .inr ⟨by decide, rfl⟩⟩
    · obtain ⟨ret, s', hx⟩ := withCtx_total hid hf
      exact ⟨ret, s', hx, .inl (hc.mpr ⟨hid, Int.not_le.mp hle⟩)⟩

theorem answered_contextKill (ht : Table cam s) (ctxID : Int) :
    (Call.contextKill ctxID).Answered cam s (cameraContextKill cam k ctxID s) ↔ 0 ≤ ctxID := by
  constructor
  · rintro ⟨ret, s', hx, -⟩
    unfold cameraContextKill at hx
    split at hx
    next hle => exact le_trans (by decide) hle
    · split at hx
      · cases hx
      next hneg => exact Int.not_lt.mp hneg
  · intro hid
    by_cases hle : (CONTEXT_PER_PLATFORM : Int) ≤ ctxID
    · exact ⟨-EINVAL, s, if_pos hle, .inr ⟨by decide, rfl⟩⟩
    · obtain ⟨ret, s', hx⟩ := cameraContextKill_total (k := k) ht hid
      exact ⟨ret, s', hx, .inl ⟨hid, Int.not_le.mp hle⟩⟩

theorem validated_contextPara (hout : s.Outfitted) (ctxID : Int) (paramList : List CamCtxParam) :
    (Call.contextPara ctxID paramList).Validated cam k fuel s := by
  by_cases hslot : SlotInRange ctxID
  · exact .inl ⟨hslot, fun ctx hctx _ => hout _ ctx hctx⟩
  · refine .inr ⟨-EINVAL, by decide, ?_⟩
    have hrange : ctxID < 0 ∨ (CONTEXT_PER_PLATFORM : Int) ≤ ctxID := by
      simp only [SlotInRange] at hslot
      omega
    simp [Call.exec, cameraContextPara, hrange, Except.map]

theorem answered_withPort (ht : Table cam s) {ctxID port : Int}
    {f : Nat → CamCtx → NodeId → CamState → Outcome CamState}
    (hc : c.InRange cam s ↔
      SlotInRange ctxID ∧ ∀ ctx, s.ctx ctxID.toNat = some ctx → 0 ≤ port ∧ port < ctx.out.length)
    (hf : ∀ id ctx out, ∃ ret s', f id ctx out s = .ok (ret, s')) (hout : s.Outfitted) :
    c.Answered cam s (withCtx ctxID (fun id ctx => withPort ctx port (f id ctx)) s) ↔
      0 ≤ ctxID ∧ (ctxID < CONTEXT_PER_PLATFORM → ∀ ctx, s.ctx ctxID.toNat = some ctx → 0 ≤ port) := by
  have hnr : ∀ i ctx, s.ctx i = some ctx → (ctx.out.length : Int) = ctx.nrOut := by
    intro i ctx hctx
    have hlen := (ht.ok i ctx hctx).2.nrOut_eq
    have hpos := List.length_pos_iff.mpr (hout i ctx hctx)
    omega
  unfold withCtx
  by_cases hle : (CONTEXT_PER_PLATFORM : Int) ≤ ctxID
  · rw [if_pos hle]
    exact iff_of_true ⟨-EINVAL, s, rfl, .inr ⟨by decide, rfl⟩⟩
      ⟨le_trans (by decide) hle, fun hlt => by omega⟩
  · rw [if_neg hle]
    by_cases hneg : ctxID < 0
    · rw [if_pos hneg]
      exact iff_of_false (fun ⟨_, _, hx, _⟩ => nomatch hx) fun h => by omega
    · rw [if_neg hneg]
      have hslot : SlotInRange ctxID := ⟨Int.not_lt.mp hneg, Int.not_le.mp hle⟩
      cases hctx : s.ctx ctxID.toNat with
      | none =>
        exact iff_of_true ⟨-ENODEV, s, rfl, .inr ⟨by decide, rfl⟩⟩ ⟨hslot.1, fun _ ctx h => nomatch h⟩
      | some ctx =>
        have hlen := hnr _ ctx hctx
        dsimp only
        rw [hctx] at hc
        simp only [Option.some.injEq, forall_eq', hslot.1, hslot.2, true_and, true_implies,
          hslot] at hc ⊢
        unfold withPort
        by_cases hport : ctx.nrOut ≤ port
        · rw [if_pos hport]
          exact iff_of_true ⟨-EINVAL, s, rfl, .inr ⟨by decide, rfl⟩⟩ (by omega)
        · rw [if_neg hport]
          by_cases hneg : port < 0
          · rw [if_pos hneg]
            exact iff_of_false (fun ⟨_, _, hx, _⟩ => nomatch hx) (Int.not_le.mpr hneg)
          · rw [if_neg hneg, List.getElem?_eq_getElem (show port.toNat < ctx.out.length by omega)]
            obtain ⟨ret, s', hx⟩ := hf ctxID.toNat ctx ctx.out[port.toNat].dst
            exact iff_of_true ⟨ret, s', hx, .inl (hc.mpr (by omega))⟩ (Int.not_lt.mp hneg)

theorem applyRoutes_singleton (route : CamRoute) (s : CamState) :
    0 ≤ (applyRoutes k [route] s).1 ↔ 0 ≤ (camRouteApply k 1 route s).1 := by
  unfold applyRoutes
  dsimp only
  split
  · exact Iff.rfl
  next hneg => exact iff_of_true le_rfl (Int.not_lt.mp hneg)

theorem answered_contextInit (hcam : cam.Searched) (srcID pathID nrDst : Int) :
    (Call.contextInit srcID pathID nrDst).Answered cam s (cameraContextInit cam k srcID pathID nrDst s) ↔
      ((cam.srcPool.length : Int) ≤ srcID ∨ (cam.pathPool.length : Int) ≤ pathID ∨
        0 ≤ pathID ∧ (0 ≤ srcID ∨
          ∀ pNode, cam.pathPool[pathID.toNat]? = some pNode → ((cam.route pNode).length : Int) < nrDst)) := by
  by_cases hsrc : (cam.srcPool.length : Int) ≤ srcID
  · refine iff_of_true ⟨-EINVAL, s, ?_, .inr ⟨by decide, rfl⟩⟩ (.inl hsrc)
    simp [cameraContextInit, contextLookup, hsrc]
  by_cases hpath : (cam.pathPool.length : Int) ≤ pathID
  · refine iff_of_true ⟨-EINVAL, s, ?_, .inr ⟨by decide, rfl⟩⟩ (.inr (.inl hpath))
    simp [cameraContextInit, contextLookup, hsrc, hpath]
  simp only [hsrc, hpath, false_or]
  by_cases hnegPath : pathID < 0
  · refine iff_of_false ?_ fun h => by omega
    rintro ⟨_, _, hx, _⟩
    simp [cameraContextInit, contextLookup, hsrc, hpath, hnegPath] at hx
  have hpool := List.getElem?_eq_getElem (show pathID.toNat < cam.pathPool.length by omega)
  generalize cam.pathPool[pathID.toNat] = pNode at hpool
  simp only [hpool, Option.some.injEq, forall_eq', Int.not_lt.mp hnegPath, true_and]
  by_cases hnr : ((cam.route pNode).length : Int) < nrDst
  · refine iff_of_true ⟨-EPERM, s, ?_, .inr ⟨by decide, rfl⟩⟩ (.inr hnr)
    simp [cameraContextInit, contextLookup, hsrc, hpath, hnegPath, hpool, hnr]
  by_cases hnegSrc : srcID < 0
  · refine iff_of_false ?_ fun h => h.elim (by omega) hnr
    rintro ⟨_, _, hx, _⟩
    simp [cameraContextInit, contextLookup, hsrc, hpath, hnegPath, hpool, hnr, hnegSrc] at hx
  · obtain ⟨ret, s', hinit, -⟩ :=
      cameraContextInit_total hcam k (Int.not_lt.mp hnegSrc) (Int.not_lt.mp hnegPath) nrDst s
    exact iff_of_true ⟨ret, s', hinit, .inl (by simp only [Call.InRange]; omega)⟩
      (.inl (Int.not_lt.mp hnegSrc))

theorem outfitted_contextInit (hcam : cam.Searched) (srcID pathID nrDst : Int) :
    (Post (cameraContextInit cam k srcID pathID nrDst s) fun ret s' =>
      ∀ i : Nat, ret = i → ∀ ctx, s'.ctx i = some ctx → ctx.out ≠ []) ↔
      ∀ route id, contextLookup cam srcID pathID nrDst s = .ok (.ok (route, id)) →
        0 < nrDst ∨ (camRouteApply k 1 route s).1 < 0 := by
  constructor
  · intro hpost route id hlookup
    by_contra hbad
    rw [not_or, Int.not_lt, Int.not_lt] at hbad
    have hfound := contextLookup_eq_ok hlookup
    obtain ⟨sNode, -, hroute⟩ := hfound.src
    obtain ⟨crop, hcrop⟩ := findCrop_eq_some (hcam.linked (hcam.route_mem hroute).1)
    have hnone : nrDst.toNat = 0 := Int.toNat_eq_zero.mpr hbad.1
    have happly := (applyRoutes_singleton (k := k) route s).mpr hbad.2
    have hinit : cameraContextInit cam k srcID pathID nrDst s =
        .ok (id, (applyRoutes k [route] s).2.setCtx id
          (some (newContext route crop.head.src [] nrDst))) := by
      simp only [cameraContextInit, hlookup, contextReady, hcrop, hnone, selectOutputs, List.reverse_nil]
      rw [if_neg (Int.not_lt.mpr happly)]
    refine hpost _ _ hinit id rfl (newContext route crop.head.src [] nrDst) ?_ rfl
    simp [CamState.setCtx]
  · intro hguard
    have hnegative : ∀ {ret : Int} {s' : CamState}, ret < 0 →
        ∀ i : Nat, ret = i → ∀ ctx, s'.ctx i = some ctx → ctx.out ≠ [] := fun hneg i hi => by omega
    unfold cameraContextInit
    split
    · exact post_error _ _
    next hres => exact post_ok (hnegative (contextLookup_eq_error hres))
    next route id hres =>
      have hguard := hguard route id hres
      unfold contextReady
      split
      · exact post_error _ _
      next crop _ =>
        rcases selectOutputs_cases nrDst.toNat (cam.route route.dst) (Chosen.nil : Chosen s [] s) with
          hnone | ⟨out, s₁, hsome, -, -, hlen⟩
        · rw [hnone]
          exact post_ok (hnegative (by decide))
        rw [hsome]
        dsimp only [List.reverse_nil, List.nil_append]
        split
        next hneg => exact post_ok (hnegative hneg)
        next hpos =>
          refine post_ok fun i hi ctx hctx => ?_
          cases Int.ofNat_inj.mp hi
          simp only [CamState.setCtx, Function.update_self, Option.some.injEq] at hctx
          subst hctx
          rintro (rfl : out = [])
          -- without outputs the table would have stayed as it was
          have hnone : nrDst.toNat = 0 := hlen.symm
          rw [hnone] at hsome
          cases hsome
          have happly := (applyRoutes_singleton (k := k) route s).mp (Int.not_lt.mp hpos)
          omega

theorem validated_iff_guarded (hcam : cam.Searched) (ht : Table cam s) (hout : s.Outfitted)
    (c : Call) : c.Validated cam k fuel s ↔ c.Guarded cam k s := by
  have htotal : ∀ {x : Outcome CamState}, (∃ p, x = .ok p) → ∃ ret s', x = .ok (ret, s') :=
    fun ⟨p, hp⟩ => ⟨p.1, p.2, hp⟩
  cases c with
  | contextInit srcID pathID nrDst =>
    exact and_congr (answered_contextInit hcam srcID pathID nrDst)
      (outfitted_contextInit hcam srcID pathID nrDst)
  | contextPara ctxID paramList => exact iff_of_true (validated_contextPara hout ctxID paramList) trivial
  | contextKill ctxID => exact answered_contextKill ht ctxID
  | outputOpen ctxID port =>
    change Call.Answered cam s (.outputOpen ctxID port) (cameraContextOutputOpen cam k ctxID port s) ↔ _
    refine answered_withPort ht Iff.rfl (fun id ctx out => htotal ?_) hout
    dsimp only
    split
    · exact ⟨_, rfl⟩
    · split <;> exact ⟨_, rfl⟩
  | outputClose ctxID port =>
    change Call.Answered cam s (.outputClose ctxID port) (cameraContextOutputClose cam ctxID port s) ↔ _
    refine answered_withPort ht Iff.rfl (fun id ctx out => htotal ?_) hout
    dsimp only
    split <;> exact ⟨_, rfl⟩
  | inputOpen ctxID =>
    change Call.Answered cam s (.inputOpen ctxID) (cameraContextInputOpen cam k ctxID s) ↔ _
    refine answered_withCtx Iff.rfl fun id ctx _ => htotal ?_
    dsimp only
    split
    · exact ⟨_, rfl⟩
    · split
      · exact ⟨_, rfl⟩
      · split <;> exact ⟨_, rfl⟩
  | inputClose ctxID =>
    change Call.Answered cam s (.inputClose ctxID) (cameraContextInputClose cam ctxID s) ↔ _
    refine answered_withCtx Iff.rfl fun id ctx _ => htotal ?_
    dsimp only
    split
    · exact ⟨_, rfl⟩
    · split <;> exact ⟨_, rfl⟩
  | pathGet ctxID =>
    change Call.Answered cam s (.pathGet ctxID) (cameraContextPathGet cam k ctxID s) ↔ _
    exact answered_withCtx Iff.rfl fun _ _ _ => ⟨_, _, rfl⟩
  | pathPut ctxID =>
    change Call.Answered cam s (.pathPut ctxID) (cameraContextPathPut cam ctxID s) ↔ _
    exact answered_withCtx Iff.rfl fun _ _ _ => ⟨_, _, rfl⟩
  | sourceGet ctxID =>
    change Call.Answered cam s (.sourceGet ctxID) (cameraContextSourceGet cam k ctxID s) ↔ _
    refine answered_withCtx Iff.rfl fun id ctx _ => htotal ?_
    split <;> exact ⟨_, rfl⟩
  | sourcePut ctxID =>
    change Call.Answered cam s (.sourcePut ctxID) (cameraContextSourcePut cam ctxID s) ↔ _
    exact answered_withCtx Iff.rfl fun _ _ _ => ⟨_, _, rfl⟩
  | openCam => exact Iff.rfl
  | closeCam => exact Iff.rfl

theorem out_of_exec (hcam : cam.Searched) (c : Call) :
    Post (c.exec cam k fuel s) fun ret s' => ∀ i ctx', s'.ctx i = some ctx' →
      (∃ ctx, s.ctx i = some ctx ∧ ctx'.out = ctx.out) ∨
        ∃ srcID pathID nrDst, c = .contextInit srcID pathID nrDst ∧ ret = i := by
  have hports : ∀ {s₁ : CamState}, s.OnlyPorts s₁ → ∀ i ctx', s₁.ctx i = some ctx' →
      ∃ ctx, s.ctx i = some ctx ∧ ctx'.out = ctx.out := by
    intro s₁ hs i ctx' hctx'
    obtain ⟨ctx, hctx, heq⟩ := hs.ctx_eq_some hctx'
    exact ⟨ctx, hctx, CamCtx.out_eq_of_unflagged heq⟩
  intro ret s' hc i ctx' hctx'
  by_cases hinit : ∃ srcID pathID nrDst, c = .contextInit srcID pathID nrDst
  · obtain ⟨srcID, pathID, nrDst, rfl⟩ := hinit
    have hstep := initStep_cameraContextInit hcam k srcID pathID nrDst s ret s' hc
    have hsame : ∀ {route id out s₁ ret s₂}, Selected cam srcID pathID nrDst s route id out s₁ →
        applyRoutes k (route :: out) s₁ = (ret, s₂) → s₂.ctx = s.ctx := by
      intro route id out s₁ ret s₂ hsel happly
      have hframe := onlyCounts_applyRoutes (k := k) (route :: out) s₁
      rw [happly, hsel.chosen.eq_with] at hframe
      exact hframe.ctx
    cases hstep with
    | refused => exact .inl ⟨ctx', hctx', rfl⟩
    | failed hsel happly _ => exact .inl ⟨ctx', by rwa [hsame hsel happly] at hctx', rfl⟩
    | @created route id out s₁ ret₁ s₂ crop hsel happly _ =>
      by_cases hi : i = id
      · exact .inr ⟨srcID, pathID, nrDst, rfl, by rw [hi]⟩
      · refine .inl ⟨ctx', ?_, rfl⟩
        simpa only [CamState.setCtx, Function.update_of_ne hi, hsame hsel happly] using hctx'
  · by_cases hkill : ∃ ctxID, c = .contextKill ctxID
    · obtain ⟨ctxID, rfl⟩ := hkill
      cases killStep_cameraContextKill cam ctxID s ret s' hc with
      | refused => exact .inl ⟨ctx', hctx', rfl⟩
      | @killed id ctx s₁ ret₁ _ _ _ hs hkilled =>
        have hcut := onlyCounts_cutRoutes (k := k) (ctx.out ++ [ctx.route]) ret₁ s₁
        have hframe : (releaseOutputs ctx.out.reverse
            (cutRoutes k (ctx.out ++ [ctx.route]) ret₁ s₁).2).ctx = s₁.ctx := by
          rw [releaseOutputs_eq_with]
          exact hcut.ctx
        cases hkilled
        by_cases hi : i = id
        · subst hi
          simp [CamState.setCtx] at hctx'
        · refine .inl (hports hs i ctx' ?_)
          simpa only [CamState.setCtx, Function.update_of_ne hi, hframe] using hctx'
    · refine .inl (hports (onlyPorts_exec ?_ ?_ s ret s' hc) i ctx' hctx')
      · exact fun srcID pathID nrDst heq => hinit ⟨srcID, pathID, nrDst, heq⟩
      · exact fun ctxID heq => hkill ⟨ctxID, heq⟩

theorem CamState.Outfitted.of_validated (hcam : cam.Searched) (hout : s.Outfitted)
    (hc : c.Validated cam k fuel s) : (callStep cam k fuel s c).Outfitted := by
  unfold callStep
  split
  next ret s' hx =>
    intro i ctx' hctx'
    rcases out_of_exec hcam c ret s' hx i ctx' hctx' with
      ⟨ctx, hctx, heq⟩ | ⟨srcID, pathID, nrDst, rfl, hret⟩
    · rw [heq]
      exact hout i ctx hctx
    · exact hc.2 ret s' hx i hret ctx' hctx'
  · exact hout

/-- In every run the calls validate their arguments exactly as far as their checks go. -/
theorem every_validated_iff {mediaOpen : Option MediaDevice} {alloc : Nat → Bool} {fuel' : Nat} {s₀ : CamState}
    (h : mediaLibInit k fuel' mediaOpen alloc = .ok (some (cam, s₀))) (calls : List Call) :
    Every (callStep cam k fuel) (fun s c => c.Validated cam k fuel s) s₀ calls ↔
      Every (callStep cam k fuel) (fun s c => c.Guarded cam k s) s₀ calls := by
  have hinit := initialised_of_mediaLibInit h
  refine every_iff_every (I := fun s => Table cam s ∧ s.Outfitted)
    (fun s c hs => validated_iff_guarded hinit.searched hs.1 hs.2 c) (fun s c hs hc => ⟨?_, ?_⟩)
    ⟨hinit.fresh.table cam, fun i ctx hctx => ?_⟩ calls
  · unfold callStep
    split
    next hx => exact hs.1.of_exec hinit.searched hx
    · exact hs.1
  · exact hs.2.of_validated hinit.searched hc
  · rw [hinit.fresh.ctx] at hctx
    cases hctx

end

theorem every_validated_smallBoard :
    Every (callStep smallStart.1 readyKernel 20) (fun s c => c.Validated smallStart.1 readyKernel 20 s) smallStart.2
        [.contextKill 0, .inputOpen 10] ↔
      Every (callStep smallStart.1 readyKernel 20) (fun s c => c.Guarded smallStart.1 readyKernel s) smallStart.2
        [.contextKill 0, .inputOpen 10] :=
  every_validated_iff smallInit_eq _

/-- A negative id reads in front of `cam->ctx`. -/
theorem not_validated_smallBoard :
    ¬Every (callStep smallStart.1 readyKernel 20) (fun s c => c.Validated smallStart.1 readyKernel 20 s) smallStart.2
      [.contextKill (-1)] := by
  rintro ⟨⟨ret, s', hx, -⟩, -⟩
  simp [Call.exec, cameraContextKill, CONTEXT_PER_PLATFORM] at hx

end G361FPlatform.MediaLib
