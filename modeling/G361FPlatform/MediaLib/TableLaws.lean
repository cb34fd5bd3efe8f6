import G361FPlatform.MediaLib.ContextLaws
import G361FPlatform.MediaLib.PortLaws

namespace G361FPlatform.MediaLib

open Library Outcome CamState

namespace CamCtx

/-- A context as `CameraContextInit` leaves it; only its flags change afterwards. -/
structure Ok (cam : PlatCam) (ctx : CamCtx) : Prop where
  route_mem : ctx.route ∈ cam.route ctx.src
  path_eq : ctx.path = ctx.route.dst
  out_sublist : ctx.out.Sublist (cam.route ctx.path)
  dst_nodup : (ctx.out.map CamRoute.dst).Nodup
  nrOut_eq : ctx.out.length = ctx.nrOut.toNat

variable {cam : PlatCam} {ctx ctx' : CamCtx}

theorem Ok.of_unflagged (h : ctx.Ok cam) (heq : ctx'.unflagged = ctx.unflagged) : ctx'.Ok cam := by
  obtain ⟨route, src, crop, path, out, nrOut, flags⟩ := ctx
  obtain ⟨route', src', crop', path', out', nrOut', flags'⟩ := ctx'
  cases heq
  exact ⟨h.route_mem, h.path_eq, h.out_sublist, h.dst_nodup, h.nrOut_eq⟩

theorem out_eq_of_unflagged (heq : ctx'.unflagged = ctx.unflagged) : ctx'.out = ctx.out :=
  congrArg (·.out) heq

theorem Ok.route_heap (h : ctx.Ok cam) (hcam : cam.Searched) : ctx.route ∈ cam.heap :=
  (hcam.route_mem h.route_mem).1

theorem Ok.out_heap (h : ctx.Ok cam) (hcam : cam.Searched) {r : CamRoute} (hr : r ∈ ctx.out) :
    r ∈ cam.heap := (hcam.route_mem (h.out_sublist.subset hr)).1

theorem Ok.out_nodup (h : ctx.Ok cam) : ctx.out.Nodup := List.Nodup.of_map _ h.dst_nodup

end CamCtx

structure Table (cam : PlatCam) (s : CamState) : Prop where
  ok : ∀ i ctx, s.ctx i = some ctx → i < CONTEXT_PER_PLATFORM ∧ ctx.Ok cam
  occupied : ∀ i ctx, s.ctx i = some ctx → ∀ r ∈ ctx.out,
    tstFlag (s.nodeFlags r.dst) CAMNODE_FL_S_OCCUPY = true
  separate : ∀ i j ctx ctx', s.ctx i = some ctx → s.ctx j = some ctx' → i ≠ j →
    ∀ r ∈ ctx.out, ∀ r' ∈ ctx'.out, r.dst ≠ r'.dst

theorem releaseOutputs_eq_with (out : List CamRoute) (s : CamState) :
    releaseOutputs out s = { s with nodeFlags := (releaseOutputs out s).nodeFlags } := by
  induction out generalizing s with
  | nil => rfl
  | cons r out ih =>
    rw [releaseOutputs]
    exact ih _

theorem occupied_releaseOutputs (out : List CamRoute) (s : CamState) (n : NodeId) :
    tstFlag ((releaseOutputs out s).nodeFlags n) CAMNODE_FL_S_OCCUPY = true ↔
      tstFlag (s.nodeFlags n) CAMNODE_FL_S_OCCUPY = true ∧ ∀ r ∈ out, r.dst ≠ n := by
  induction out generalizing s with
  | nil => simp [releaseOutputs]
  | cons r out ih =>
    rw [releaseOutputs, ih]
    by_cases hn : n = r.dst
    · subst hn
      simp [clrNodeFlag, tstFlag_eq]
    · simp [clrNodeFlag, hn, Ne.symm hn]

namespace Table

variable {cam : PlatCam} {k : Kernel} {s s' : CamState}

theorem of_onlyCounts (h : Table cam s) (hs : s.OnlyCounts s') : Table cam s' where
  ok := by rw [hs.ctx]; exact h.ok
  occupied := by rw [hs.ctx, hs.nodeFlags]; exact h.occupied
  separate := by rw [hs.ctx]; exact h.separate

theorem of_onlyPorts (h : Table cam s) (hs : s.OnlyPorts s') : Table cam s' where
  ok := by
    intro i ctx' hctx'
    obtain ⟨ctx, hctx, heq⟩ := hs.ctx_eq_some hctx'
    exact ⟨(h.ok i ctx hctx).1, (h.ok i ctx hctx).2.of_unflagged heq⟩
  occupied := by
    intro i ctx' hctx'
    obtain ⟨ctx, hctx, heq⟩ := hs.ctx_eq_some hctx'
    rw [hs.nodeFlags, CamCtx.out_eq_of_unflagged heq]
    exact h.occupied i ctx hctx
  separate := by
    intro i j ctx₁' ctx₂' h₁' h₂' hne
    obtain ⟨ctx₁, h₁, heq₁⟩ := hs.ctx_eq_some h₁'
    obtain ⟨ctx₂, h₂, heq₂⟩ := hs.ctx_eq_some h₂'
    rw [CamCtx.out_eq_of_unflagged heq₁, CamCtx.out_eq_of_unflagged heq₂]
    exact h.separate i j ctx₁ ctx₂ h₁ h₂ hne

theorem of_chosen (h : Table cam s) {out : List CamRoute} (hs : Chosen s out s') :
    Table cam s' where
  ok := by rw [hs.eq_with]; exact h.ok
  occupied := by
    intro i ctx hctx r hr
    rw [hs.eq_with] at hctx
    exact (hs.occupied_iff r.dst).mpr (.inl (h.occupied i ctx hctx r hr))
  separate := by rw [hs.eq_with]; exact h.separate

theorem setCtx_some (h : Table cam s) {id : Nat} (hid : id < CONTEXT_PER_PLATFORM) {ctx : CamCtx}
    (hok : ctx.Ok cam)
    (hocc : ∀ r ∈ ctx.out, tstFlag (s.nodeFlags r.dst) CAMNODE_FL_S_OCCUPY = true)
    (hsep : ∀ j ctx', s.ctx j = some ctx' → ∀ r ∈ ctx.out, ∀ r' ∈ ctx'.out, r.dst ≠ r'.dst) :
    Table cam (s.setCtx id (some ctx)) := by
  have hcases : ∀ i ctx', (s.setCtx id (some ctx)).ctx i = some ctx' →
      (i = id ∧ ctx' = ctx) ∨ (i ≠ id ∧ s.ctx i = some ctx') := by
    intro i ctx' hctx'
    by_cases hi : i = id
    · subst hi
      simp only [setCtx, Function.update_self, Option.some.injEq] at hctx'
      exact .inl ⟨rfl, hctx'.symm⟩
    · exact .inr ⟨hi, by simpa [setCtx, hi] using hctx'⟩
  refine ⟨fun i ctx' hctx' => ?_, fun i ctx' hctx' => ?_, fun i j ctx₁ ctx₂ h₁ h₂ hne => ?_⟩
  · rcases hcases i ctx' hctx' with ⟨rfl, rfl⟩ | ⟨-, hctx'⟩
    · exact ⟨hid, hok⟩
    · exact h.ok i ctx' hctx'
  · rcases hcases i ctx' hctx' with ⟨rfl, rfl⟩ | ⟨-, hctx'⟩
    · exact hocc
    · exact h.occupied i ctx' hctx'
  · rcases hcases i ctx₁ h₁ with ⟨rfl, rfl⟩ | ⟨-, h₁'⟩
    · rcases hcases j ctx₂ h₂ with ⟨rfl, rfl⟩ | ⟨-, h₂'⟩
      · exact absurd rfl hne
      · exact hsep j ctx₂ h₂'
    · rcases hcases j ctx₂ h₂ with ⟨rfl, rfl⟩ | ⟨-, h₂'⟩
      · exact fun r hr r' hr' heq => hsep i ctx₁ h₁' r' hr' r hr heq.symm
      · exact h.separate i j ctx₁ ctx₂ h₁' h₂' hne

theorem setCtx_none (h : Table cam s) {id : Nat} {ctx : CamCtx} (hctx : s.ctx id = some ctx)
    {out : List CamRoute} (hout : ∀ r ∈ out, r ∈ ctx.out) :
    Table cam ((releaseOutputs out s).setCtx id none) := by
  have hold : ∀ i ctx', ((releaseOutputs out s).setCtx id none).ctx i = some ctx' →
      i ≠ id ∧ s.ctx i = some ctx' := by
    intro i ctx' hctx'
    rw [releaseOutputs_eq_with] at hctx'
    by_cases hi : i = id
    · subst hi
      simp [setCtx] at hctx'
    · exact ⟨hi, by simpa [setCtx, hi] using hctx'⟩
  refine ⟨fun i ctx' hctx' => ?_, fun i ctx' hctx' r hr => ?_, fun i j ctx₁ ctx₂ h₁ h₂ hne => ?_⟩
  · exact h.ok i ctx' (hold i ctx' hctx').2
  · obtain ⟨hi, hctx'⟩ := hold i ctx' hctx'
    refine (occupied_releaseOutputs out s r.dst).mpr ⟨h.occupied i ctx' hctx' r hr, ?_⟩
    exact fun r' hr' => h.separate id i ctx ctx' hctx hctx' hi.symm r' (hout r' hr') r hr
  · exact h.separate i j ctx₁ ctx₂ (hold i ctx₁ h₁).2 (hold j ctx₂ h₂).2 hne

end Table

inductive KillStep (k : Kernel) (s : CamState) : Int → CamState → Prop
  | refused {ret} : ret ≤ 0 → KillStep k s ret s
  | killed {id ctx s₁ ret₁ ret s'} : s.ctx id = some ctx → s.OnlyPorts s₁ →
      killRoutes k id ctx ret₁ s₁ = (ret, s') → KillStep k s ret s'

section

variable {cam : PlatCam} {k : Kernel} {s : CamState}

theorem onlyPorts_killOutput (id : Nat) (ctx : CamCtx) (s : CamState) :
    Post (killOutput cam id ctx s) fun _ s' => s.OnlyPorts s' := by
  unfold killOutput
  split
  · exact post_ok (.refl s)
  · exact (onlyPorts_cameraContextOutputClose _ _ s).map

theorem onlyPorts_killInput (id : Nat) (ret : Int) (s : CamState) :
    Post (killInput cam id ret s) fun _ s' => s.OnlyPorts s' := by
  unfold killInput
  split
  · exact (onlyPorts_cameraContextInputClose _ s).map
  · exact post_ok (.refl s)

theorem killStep_cameraContextKill (cam : PlatCam) (ctxID : Int) (s : CamState) :
    Post (cameraContextKill cam k ctxID s) (KillStep k s) := by
  unfold cameraContextKill
  split
  · exact post_ok (.refused (by decide))
  · split
    · exact post_error _ _
    · split
      · exact post_ok (.refused le_rfl)
      next ctx hctx =>
        split
        · exact post_error _ _
        next ret₁ s₁ hout =>
          split
          · exact post_error _ _
          next ret₂ s₂ hin =>
            have h₁ := onlyPorts_killOutput _ _ s _ _ hout
            have h₂ := onlyPorts_killInput _ _ s₁ _ _ hin
            exact post_ok (.killed hctx (h₁.trans h₂) rfl)

theorem withCtx_total {ctxID : Int} {f : Nat → CamCtx → CamState → Outcome CamState}
    (hid : 0 ≤ ctxID) (hf : ∀ id ctx, s.ctx id = some ctx → ∃ ret s', f id ctx s = .ok (ret, s')) :
    ∃ ret s', withCtx ctxID f s = .ok (ret, s') := by
  unfold withCtx
  split
  · exact ⟨_, _, rfl⟩
  · rw [if_neg (Int.not_lt.mpr hid)]
    split
    · exact ⟨_, _, rfl⟩
    next hctx => exact hf _ _ hctx

theorem withCtx_eq {id : Nat} {ctx : CamCtx} (hid : id < CONTEXT_PER_PLATFORM)
    (hctx : s.ctx id = some ctx) (f : Nat → CamCtx → CamState → Outcome CamState) :
    withCtx id f s = f id ctx s := by
  have hlt : ¬(CONTEXT_PER_PLATFORM : Int) ≤ id := by omega
  have hneg : ¬(id : Int) < 0 := by omega
  simp only [withCtx, hlt, hneg, if_false, Int.toNat_natCast, hctx]

theorem withPort_eq {ctx : CamCtx} (hctx : ctx.out.length = ctx.nrOut.toNat) {i : Nat}
    (hi : i < ctx.out.length) (f : NodeId → CamState → Outcome CamState) :
    withPort ctx i f s = f ctx.out[i].dst s := by
  have hlt : ¬ctx.nrOut ≤ i := by omega
  have hneg : ¬(i : Int) < 0 := by omega
  simp only [withPort, hlt, hneg, if_false, Int.toNat_natCast, List.getElem?_eq_getElem hi]

theorem withPort_total {ctx : CamCtx} (hctx : ctx.out.length = ctx.nrOut.toNat) {port : Int}
    {f : NodeId → CamState → Outcome CamState} (hport : 0 ≤ port)
    (hf : ∀ out, ∃ ret s', f out s = .ok (ret, s')) :
    ∃ ret s', withPort ctx port f s = .ok (ret, s') := by
  unfold withPort
  split
  · exact ⟨_, _, rfl⟩
  next hlt =>
    rw [if_neg (Int.not_lt.mpr hport)]
    rw [List.getElem?_eq_getElem (show port.toNat < ctx.out.length by omega)]
    exact hf _

theorem cameraContextOutputClose_total (h : Table cam s) {ctxID port : Int} (hid : 0 ≤ ctxID)
    (hport : 0 ≤ port) : ∃ ret s', cameraContextOutputClose cam ctxID port s = .ok (ret, s') := by
  refine withCtx_total hid fun id ctx hctx => ?_
  refine withPort_total (h.ok id ctx hctx).2.nrOut_eq hport fun out => ?_
  split
  · exact ⟨_, _, rfl⟩
  · exact ⟨_, _, rfl⟩

theorem cameraContextInputClose_total (cam : PlatCam) {ctxID : Int} (hid : 0 ≤ ctxID) (s : CamState) :
    ∃ ret s', cameraContextInputClose cam ctxID s = .ok (ret, s') := by
  refine withCtx_total hid fun id ctx hctx => ?_
  split
  · exact ⟨_, _, rfl⟩
  · split
    · exact ⟨_, _, rfl⟩
    · exact ⟨_, _, rfl⟩

theorem killOutput_total (h : Table cam s) (id : Nat) (ctx : CamCtx) :
    ∃ ret s', killOutput cam id ctx s = .ok (ret, s') := by
  unfold killOutput
  split
  · exact ⟨_, _, rfl⟩
  next i _ =>
    obtain ⟨ret, s', hclose⟩ := cameraContextOutputClose_total h (Int.natCast_nonneg id)
      (Int.natCast_nonneg i)
    exact ⟨-EBUSY, s', by rw [hclose]; rfl⟩

theorem killInput_total (cam : PlatCam) (id : Nat) (ret : Int) (s : CamState) :
    ∃ ret' s', killInput cam id ret s = .ok (ret', s') := by
  unfold killInput
  split
  · obtain ⟨ret, s', hclose⟩ := cameraContextInputClose_total cam (Int.natCast_nonneg id) s
    exact ⟨-EBUSY, s', by rw [hclose]; rfl⟩
  · exact ⟨_, _, rfl⟩

theorem cameraContextKill_total (h : Table cam s) {ctxID : Int} (hid : 0 ≤ ctxID) :
    ∃ ret s', cameraContextKill cam k ctxID s = .ok (ret, s') := by
  unfold cameraContextKill
  split
  · exact ⟨_, _, rfl⟩
  · rw [if_neg (Int.not_lt.mpr hid)]
    split
    · exact ⟨_, _, rfl⟩
    next ctx _ =>
      obtain ⟨ret₁, s₁, hout⟩ := killOutput_total h ctxID.toNat ctx
      obtain ⟨ret₂, s₂, hin⟩ := killInput_total cam ctxID.toNat ret₁ s₁
      exact ⟨_, _, by rw [hout]; dsimp only; rw [hin]⟩

theorem lor_zero (ret : Int) : Int.lor ret 0 = ret := by
  cases ret with
  | ofNat n => exact congrArg Int.ofNat (Nat.or_zero n)
  | negSucc n => simp [Int.lor, Nat.ldiff]

theorem onlyCounts_cutRoutes (rs : List CamRoute) (ret : Int) (s : CamState) :
    s.OnlyCounts (cutRoutes k rs ret s).2 := by
  induction rs generalizing ret s with
  | nil => exact .refl s
  | cons r rs ih =>
    unfold cutRoutes
    dsimp only
    exact (onlyCounts_camRouteApply r s).trans (ih _ _)

namespace Table

theorem of_selected (hcam : cam.Searched) (h : Table cam s) {srcID pathID nrDst : Int}
    {route : CamRoute} {id : Nat} {out : List CamRoute} {s₁ s₂ : CamState}
    (hsel : Selected cam srcID pathID nrDst s route id out s₁) (hs : s₁.OnlyCounts s₂)
    (crop : Option NodeId) :
    Table cam (s₂.setCtx id (some (newContext route crop out nrDst))) := by
  obtain ⟨sNode, -, hroute⟩ := hsel.lookup.src
  have hsrc : route.src = sNode := (hcam.route_mem hroute).2
  have hdst := hsel.chosen.dst_nodup
  rw [List.map_reverse, List.nodup_reverse] at hdst
  have h₂ := (h.of_chosen hsel.chosen).of_onlyCounts hs
  refine h₂.setCtx_some hsel.lookup.id_lt ?_ ?_ ?_
  · exact ⟨by simpa [newContext, hsrc] using hroute, rfl, hsel.sublist, hdst, hsel.length⟩
  · intro r hr
    rw [hs.nodeFlags]
    exact (hsel.chosen.occupied_iff r.dst).mpr (.inr ⟨r, List.mem_reverse.mpr hr, rfl⟩)
  · intro j ctx' hctx' r hr r' hr' heq
    rw [hs.ctx, hsel.chosen.eq_with] at hctx'
    have hfree := hsel.chosen.free (List.mem_reverse.mpr hr)
    rw [heq, h.occupied j ctx' hctx' r' hr'] at hfree
    cases hfree

theorem of_initStep (hcam : cam.Searched) (h : Table cam s) {srcID pathID nrDst ret : Int}
    {s' : CamState} (hstep : InitStep cam k srcID pathID nrDst s ret s') : Table cam s' := by
  cases hstep with
  | refused => exact h
  | @failed route id out s₁ _ _ hsel happly _ =>
    have hframe := onlyCounts_applyRoutes (k := k) (route :: out) s₁
    rw [happly] at hframe
    exact (h.of_chosen hsel.chosen).of_onlyCounts hframe
  | @created route id out s₁ ret s₂ crop hsel happly _ =>
    have hframe := onlyCounts_applyRoutes (k := k) (route :: out) s₁
    rw [happly] at hframe
    exact of_selected hcam h hsel hframe crop

theorem of_killStep (h : Table cam s) {ret : Int} {s' : CamState} (hstep : KillStep k s ret s') :
    Table cam s' := by
  cases hstep with
  | refused => exact h
  | @killed id ctx s₁ ret₁ _ _ hctx hports hkill =>
    obtain ⟨ctx₁, hctx₁, heq⟩ : ∃ ctx₁, s₁.ctx id = some ctx₁ ∧ ctx₁.unflagged = ctx.unflagged := by
      have hid := hports.ctx id
      rw [hctx, Option.map_some] at hid
      exact Option.map_eq_some_iff.mp hid
    have hcut := onlyCounts_cutRoutes (k := k) (ctx.out ++ [ctx.route]) ret₁ s₁
    cases hkill
    refine ((h.of_onlyPorts hports).of_onlyCounts hcut).setCtx_none (hcut.ctx ▸ hctx₁) ?_
    intro r hr
    rw [CamCtx.out_eq_of_unflagged heq]
    exact List.mem_reverse.mp hr

/-- No call of any kind, failed ones included, makes two contexts share an output. -/
theorem of_exec (hcam : cam.Searched) {fuel : Nat} {c : Call} (h : Table cam s) {ret : Int}
    {s' : CamState} (hc : c.exec cam k fuel s = .ok (ret, s')) : Table cam s' := by
  by_cases hinit : ∃ srcID pathID nrDst, c = .contextInit srcID pathID nrDst
  · obtain ⟨srcID, pathID, nrDst, rfl⟩ := hinit
    exact h.of_initStep hcam (initStep_cameraContextInit hcam k srcID pathID nrDst s ret s' hc)
  · by_cases hkill : ∃ ctxID, c = .contextKill ctxID
    · obtain ⟨ctxID, rfl⟩ := hkill
      exact h.of_killStep (killStep_cameraContextKill cam ctxID s ret s' hc)
    · refine h.of_onlyPorts (onlyPorts_exec ?_ ?_ s ret s' hc)
      · exact fun srcID pathID nrDst heq => hinit ⟨srcID, pathID, nrDst, heq⟩
      · exact fun ctxID heq => hkill ⟨ctxID, heq⟩

end Table

theorem exec_total_of_isContext (hcam : cam.Searched) (k : Kernel) (fuel : Nat) (h : Table cam s)
    {c : Call} (hc : c.IsContext) : ∃ ret s', c.exec cam k fuel s = .ok (ret, s') := by
  cases c with
  | contextInit srcID pathID nrDst =>
    obtain ⟨ret, s', hinit, -⟩ := cameraContextInit_total hcam k hc.1 hc.2 nrDst s
    exact ⟨ret, s', hinit⟩
  | contextKill ctxID => exact cameraContextKill_total h hc
  | _ => exact hc.elim

end

end G361FPlatform.MediaLib
