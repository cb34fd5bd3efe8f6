import G361FPlatform.MediaLib.HolderLaws
import G361FPlatform.MediaLib.Param
import G361FPlatform.MediaLib.SetupLaws

namespace G361FPlatform.MediaLib

open Library Outcome CamState

def PlatCam.FirstFirst (cam : PlatCam) : Prop := ∀ n, FirstIn cam.toCamGraph cam.route n

theorem PlatCam.Searched.firstFirst {cam : PlatCam} (h : cam.Searched) (hR : Acyclic cam.Down) :
    cam.FirstFirst := by
  obtain ⟨fuel, s, hsearch, hcam⟩ := h
  obtain ⟨s₁, s₂, -, -, hroute, -, -, hfirst⟩ := mediaLibSearchRoute_eq_ok hR hsearch
  have heq : cam.route = s₂.route := by
    rw [hcam, ← hroute]
    rfl
  intro n
  rw [heq]
  exact hfirst n

theorem head_of_segments {cam : PlatCam} (hcam : cam.Searched) (hfirst : cam.FirstFirst) {n x : NodeId}
    {r : CamRoute}
    (hr : (cam.route n).find? (·.dst = x) = some r) {seg : CamRoute} (hseg : seg ∈ r.segments) :
    (cam.linksOf seg.src).find? (·.dst = seg.head.dst) = some seg.head := by
  have hsrc := (hcam.route_mem (List.mem_of_find?_eq_some hr)).2
  obtain ⟨hhead, hmore⟩ := hfirst n x r hr
  rw [← hsrc] at hhead
  induction r generalizing n with
  | last id src dst head =>
    rw [CamRoute.segments, List.mem_singleton] at hseg
    exact hseg ▸ hhead
  | cons id src dst head more ih =>
    rw [CamRoute.segments, List.mem_cons] at hseg
    rcases hseg with rfl | hseg
    · exact hhead
    · have hnext := hmore more rfl
      obtain ⟨hhead', hmore'⟩ := hfirst more.src x more hnext
      exact ih hnext hseg rfl hhead' hmore'

structure OwnLink (cam : PlatCam) (s : CamState) (route : CamRoute) (obj : NodeId) (seg : CamRoute) :
    Prop where
  mem : seg ∈ route.segments
  src : seg.src = obj
  found : findSegment obj route = some seg
  link : findLink s obj seg.head.dst (cam.linksOf obj) = some seg.head

theorem findSegment_eq_some {obj : NodeId} {r : CamRoute} (h : ∃ seg ∈ r.segments, seg.src = obj) :
    ∃ seg, findSegment obj r = some seg ∧ seg ∈ r.segments ∧ seg.src = obj := by
  induction r with
  | last id src dst head =>
    obtain ⟨seg, hseg, hsrc⟩ := h
    rw [CamRoute.segments, List.mem_singleton] at hseg
    subst hseg
    exact ⟨_, if_pos hsrc, List.mem_singleton_self _, hsrc⟩
  | cons id src dst head more ih =>
    unfold findSegment
    split
    next hself => exact ⟨_, rfl, by simp [CamRoute.segments], hself⟩
    next hne =>
      obtain ⟨seg, hseg, hsrc⟩ := h
      rw [CamRoute.segments, List.mem_cons] at hseg
      have hrest : seg ∈ more.segments := by
        rcases hseg with rfl | hseg
        · exact absurd hsrc hne
        · exact hseg
      obtain ⟨seg', hfound, hmem, hsrc'⟩ := ih ⟨seg, hrest, hsrc⟩
      exact ⟨seg', hfound, by simp [CamRoute.segments, hmem], hsrc'⟩

theorem findLink_eq_some {s : CamState} {obj : NodeId} {succ : Option NodeId} {links : List CamLink}
    {l : CamLink}
    (h : links.find? (·.dst = succ) = some l) (hsrc : l.src = some obj) (hon : s.linkRefCnt l.id ≠ 0) :
    findLink s obj succ links = some l := by
  obtain ⟨hdst, before, after, rfl, hbefore⟩ := List.find?_eq_some_iff_append.mp h
  refine List.find?_eq_some_iff_append.mpr ⟨?_, before, after, rfl, fun l' hl' => ?_⟩
  · simpa [hsrc, hon] using hdst
  · have hne : l'.dst ≠ succ := by simpa using hbefore l' hl'
    simp [hne]

structure CamCtx.Picked (cam : PlatCam) (ctx : CamCtx) : Prop where
  route : (cam.route ctx.src).find? (·.dst = ctx.path) = some ctx.route
  crop : ∃ seg ∈ ctx.route.segments, ctx.crop = some seg.src
  out : ∀ r, ctx.out.head? = some r → (cam.route ctx.path).find? (·.dst = r.dst) = some r

section

variable {cam : PlatCam} {k : Kernel} {s s' : CamState}

theorem CamCtx.Picked.of_unflagged {ctx ctx' : CamCtx} (h : ctx.Picked cam)
    (heq : ctx'.unflagged = ctx.unflagged) :
    ctx'.Picked cam := by
  obtain ⟨route, src, crop, path, out, nrOut, flags⟩ := ctx
  obtain ⟨route', src', crop', path', out', nrOut', flags'⟩ := ctx'
  cases heq
  exact ⟨h.route, h.crop, h.out⟩

theorem find?_of_contextLookup {srcID pathID nrDst : Int} {route : CamRoute} {id : Nat}
    (h : contextLookup cam srcID pathID nrDst s = .ok (.ok (route, id))) :
    ∃ sNode, (cam.route sNode).find? (·.dst = route.dst) = some route := by
  unfold contextLookup at h
  split at h; · cases h
  split at h; · cases h
  split at h; · cases h
  split at h; · cases h
  next pNode _ =>
  split at h; · cases h
  split at h; · cases h
  split at h; · cases h
  next sNode _ =>
  split at h; · cases h
  next r hfind =>
  split at h; · cases h
  cases h
  have hdst : route.dst = pNode := by simpa using List.find?_some hfind
  exact ⟨sNode, by rw [hdst]; exact hfind⟩

theorem find?_of_nextOutput {routes rest : List CamRoute} {r : CamRoute}
    (h : nextOutput s routes = some (r, rest)) :
    routes.find? (·.dst = r.dst) = some r := by
  have hfree := (nextOutput_eq_some h).1
  induction routes with
  | nil => cases h
  | cons r' routes ih =>
    unfold nextOutput at h
    rw [List.find?_cons]
    split at h
    next hocc =>
      have hne : r'.dst ≠ r.dst := fun heq => by simp [heq, hfree] at hocc
      simp [hne, ih h]
    · cases h
      simp

theorem find?_of_selectOutputs {n : Nat} {routes out : List CamRoute} {r : CamRoute}
    (h : selectOutputs n routes [] s = (some out, s')) (hr : out.head? = some r) :
    routes.find? (·.dst = r.dst) = some r := by
  cases n with
  | zero =>
    cases h
    cases hr
  | succ n =>
    unfold selectOutputs at h
    cases hnext : nextOutput s routes with
    | none =>
      rw [hnext] at h
      cases h
    | some p =>
      obtain ⟨r', rest⟩ := p
      rw [hnext] at h
      have hfree := (nextOutput_eq_some hnext).1
      rcases selectOutputs_cases n rest ((Chosen.nil : Chosen s [] s).cons hfree) with
        hnone | ⟨chosen, s₁, hsome, -⟩
      · cases hnone.symm.trans h
      · cases hsome.symm.trans h
        cases hr
        exact find?_of_nextOutput hnext

theorem mem_segments_of_findCrop {path : NodeId} {r x : CamRoute} (h : findCrop path r = some x) :
    x ∈ r.segments := by
  induction r with
  | last id src dst head =>
    unfold findCrop at h
    split at h
    · cases h
      exact List.mem_singleton_self _
    · cases h
  | cons id src dst head more ih =>
    unfold findCrop at h
    rw [CamRoute.segments, List.mem_cons]
    split at h
    · cases h
      exact .inl rfl
    · exact .inr (ih h)

theorem linked_of_mem_segments {r seg : CamRoute} (h : r.Linked) (hseg : seg ∈ r.segments) :
    seg.Linked := by
  induction r with
  | last id src dst head =>
    rw [CamRoute.segments, List.mem_singleton] at hseg
    exact hseg ▸ h
  | cons id src dst head more ih =>
    rw [CamRoute.segments, List.mem_cons] at hseg
    rcases hseg with rfl | hseg
    · exact h
    · exact ih h.2.2.2 hseg

theorem picked_of_contextInit (hcam : cam.Searched) {srcID pathID nrDst ret : Int}
    (h : cameraContextInit cam k srcID pathID nrDst s = .ok (ret, s')) {i : Nat} {ctx : CamCtx}
    (hctx : s'.ctx i = some ctx) : s.ctx i = some ctx ∨ ctx.Picked cam := by
  unfold cameraContextInit at h
  split at h
  · cases h
  · cases h
    exact .inl hctx
  next route id hlookup =>
    obtain ⟨sNode, hfind⟩ := find?_of_contextLookup hlookup
    obtain ⟨hmem, hsrc⟩ := hcam.route_mem (List.mem_of_find?_eq_some hfind)
    have hfree := (contextLookup_eq_ok hlookup).free
    unfold contextReady at h
    split at h
    · cases h
    next crop hcrop =>
    split at h
    next s₁ hselect =>
      cases h
      rcases selectOutputs_cases nrDst.toNat (cam.route route.dst) (Chosen.nil : Chosen s [] s) with
        hnone | ⟨_, _, hsome, _⟩
      · cases hselect.symm.trans hnone
        rw [CamState.setCtx_none hfree] at hctx
        exact .inl hctx
      · cases hselect.symm.trans hsome
    next out s₁ hselect =>
      have hctx₁ : s₁.ctx = s.ctx := by
        rcases selectOutputs_cases nrDst.toNat (cam.route route.dst) (Chosen.nil : Chosen s [] s) with
          hnone | ⟨_, _, hsome, hchosen, _⟩
        · cases hselect.symm.trans hnone
        · cases hselect.symm.trans hsome
          rw [hchosen.eq_with]
      have hframe := onlyCounts_applyRoutes (k := k) (route :: out) s₁
      dsimp only at h
      generalize applyRoutes k (route :: out) s₁ = p at h hframe
      have hold : ∀ j, p.2.ctx j = s.ctx j := fun j => by rw [hframe.ctx, hctx₁]
      split at h
      · cases h
        rw [CamState.setCtx_none ((hold id).trans hfree)] at hctx
        exact .inl ((hold i).symm.trans hctx)
      · cases h
        by_cases hi : i = id
        · subst hi
          simp only [setCtx, Function.update_self, Option.some.injEq] at hctx
          subst hctx
          have hseg := mem_segments_of_findCrop hcrop
          have hlinked := linked_of_mem_segments (hcam.linked hmem) hseg
          refine .inr ⟨?_, ⟨crop, hseg, CamRoute.head_src_of_linked hlinked⟩, fun r hr =>
            find?_of_selectOutputs hselect hr⟩
          rw [← hsrc] at hfind
          exact hfind
        · simp only [setCtx, Function.update_of_ne hi] at hctx
          exact .inl ((hold i).symm.trans hctx)

theorem picked_of_killStep (hpicked : ∀ i ctx, s.ctx i = some ctx → ctx.Picked cam) {ret : Int}
    (h : KillStep k s ret s') {i : Nat} {ctx : CamCtx} (hctx : s'.ctx i = some ctx) :
    ctx.Picked cam := by
  cases h with
  | refused => exact hpicked i ctx hctx
  | @killed id ctx' s₁ ret₁ _ _ _ hports hkill =>
    have hframe := onlyCounts_cutRoutes (k := k) (ctx'.out ++ [ctx'.route]) ret₁ s₁
    have hctx₁ : s₁.ctx i = some ctx := by
      unfold killRoutes at hkill
      cases hkill
      rw [releaseOutputs_eq_with] at hctx
      by_cases hi : i = id
      · subst hi
        simp [setCtx] at hctx
      · simpa [setCtx, hi, hframe.ctx] using hctx
    obtain ⟨ctx₀, hctx₀, heq⟩ := hports.ctx_eq_some hctx₁
    exact (hpicked i ctx₀ hctx₀).of_unflagged heq

/-- Some segment of the route starts at the node; the search comes to it, and the parameters of
these names go to the pad it starts at. -/
def Addressed (cam : PlatCam) (s : CamState) (ctx : CamCtx) (names : List Nat) (route : CamRoute)
    (obj : NodeId) : Prop :=
  ∃ seg, OwnLink cam s route obj seg ∧ ∀ p combo, p.paramName ∈ names → p.paramArg = some combo →
    findObjective cam ctx s p = .ok
      (.ok (some obj, some { combo with pad := seg.head.mlink.source.index }))

structure CamCtx.OwnPads (cam : PlatCam) (s : CamState) (ctx : CamCtx) : Prop where
  src : Addressed cam s ctx [PARAM_SRC_SET_COMBO, PARAM_SRC_GET_COMBO] ctx.route ctx.src
  crop : ∃ crop, ctx.crop = some crop ∧
    Addressed cam s ctx [PARAM_CROP_SET_COMBO, PARAM_CROP_GET_COMBO] ctx.route crop
  path : ∃ out, ctx.out[0]? = some out ∧
    Addressed cam s ctx [PARAM_PATH_SET_CROP, PARAM_PATH_GET_CROP] out ctx.path

theorem findPad_of_ownLink {route seg : CamRoute} {obj : NodeId} (h : OwnLink cam s route obj seg)
    (combo : Option CamNodeFmtCombo) (arg : CamNodeFmtCombo) :
    findPad cam s route obj combo (some arg) =
      .ok (.ok (some obj, some { arg with pad := seg.head.mlink.source.index })) := by
  unfold findPad
  rw [h.found]
  dsimp only
  rw [h.link]

theorem exists_ownLink (hcam : cam.Searched) (hfirst : cam.FirstFirst) (hbal : Balanced cam s)
    {n x obj : NodeId}
    {r : CamRoute} (hr : (cam.route n).find? (·.dst = x) = some r) (hactive : s.active r = true)
    (hobj : ∃ seg ∈ r.segments, seg.src = obj) : ∃ seg, OwnLink cam s r obj seg := by
  obtain ⟨seg, hfound, hmem, rfl⟩ := findSegment_eq_some hobj
  have hheap := (hcam.route_mem (List.mem_of_find?_eq_some hr)).1
  obtain ⟨hsegHeap, hsegActive⟩ := hbal.segments_active hcam hheap hactive hmem
  have hon : s.linkRefCnt seg.head.id ≠ 0 := (hbal.linkRefCnt_pos hsegHeap hsegActive).ne'
  exact ⟨seg, hmem, rfl, hfound, findLink_eq_some (head_of_segments hcam hfirst hr hmem)
    (CamRoute.head_src_of_linked (hcam.linked hsegHeap)) hon⟩

theorem ownPads_of_balanced (hcam : cam.Searched) (hfirst : cam.FirstFirst) (hbal : Balanced cam s)
    {i : Nat}
    {ctx : CamCtx} (hctx : s.ctx i = some ctx) (hpicked : ctx.Picked cam) (hout : 1 ≤ ctx.nrOut) :
    ctx.OwnPads cam s := by
  have hok := (hbal.table.ok i ctx hctx).2
  have hactive : ∀ {r}, r ∈ ctx.route :: ctx.out → s.active r = true :=
    fun hr => (hbal.held_active hcam hctx hr).2
  have hself : ∀ r : CamRoute, r ∈ r.segments := by
    intro r
    cases r <;> simp [CamRoute.segments]
  have hsrc := (hcam.route_mem hok.route_mem).2
  obtain ⟨src, hsrcLink⟩ := exists_ownLink hcam hfirst hbal hpicked.route (hactive List.mem_cons_self)
    ⟨_, hself _, hsrc⟩
  obtain ⟨seg, hseg, hcrop⟩ := hpicked.crop
  obtain ⟨crop, hcropLink⟩ := exists_ownLink hcam hfirst hbal hpicked.route (hactive List.mem_cons_self)
    ⟨seg, hseg, rfl⟩
  obtain ⟨out, outs, houts⟩ : ∃ out outs, ctx.out = out :: outs := by
    refine List.exists_cons_of_length_pos ?_
    have := hok.nrOut_eq
    omega
  have hmem : out ∈ ctx.out := houts ▸ List.mem_cons_self
  have hpath := (hcam.route_mem (hok.out_sublist.subset hmem)).2
  obtain ⟨path, hpathLink⟩ := exists_ownLink hcam hfirst hbal (hpicked.out out (by rw [houts]; rfl))
    (hactive (List.mem_cons_of_mem _ hmem)) ⟨out, hself out, hpath⟩
  refine ⟨⟨src, hsrcLink, fun p combo hname harg => ?_⟩,
    ⟨seg.src, hcrop, crop, hcropLink, fun p combo hname harg => ?_⟩,
    ⟨out, by rw [houts]; rfl, path, hpathLink, fun p combo hname harg => ?_⟩⟩
  · have hname : p.paramName = PARAM_SRC_SET_COMBO ∨ p.paramName = PARAM_SRC_GET_COMBO := by
      simpa using hname
    rw [findObjective, if_pos hname, harg, findPad_of_ownLink hsrcLink]
  · have hname : p.paramName = PARAM_CROP_SET_COMBO ∨ p.paramName = PARAM_CROP_GET_COMBO := by
      simpa using hname
    have hnot : ¬(p.paramName = PARAM_SRC_SET_COMBO ∨ p.paramName = PARAM_SRC_GET_COMBO) := by
      rcases hname with h | h <;> rw [h] <;> decide
    rw [findObjective, if_neg hnot, if_pos hname, hcrop]
    dsimp only
    rw [harg, findPad_of_ownLink hcropLink]
  · have hname : p.paramName = PARAM_PATH_SET_CROP ∨ p.paramName = PARAM_PATH_GET_CROP := by
      simpa using hname
    have hnot : ¬(p.paramName = PARAM_SRC_SET_COMBO ∨ p.paramName = PARAM_SRC_GET_COMBO) := by
      rcases hname with h | h <;> rw [h] <;> decide
    have hnot' : ¬(p.paramName = PARAM_CROP_SET_COMBO ∨ p.paramName = PARAM_CROP_GET_COMBO) := by
      rcases hname with h | h <;> rw [h] <;> decide
    rw [findObjective, if_neg hnot, if_neg hnot', if_pos (by simpa [CamCtxParam.isPath] using hname),
      harg, houts]
    dsimp only
    rw [findPad_of_ownLink hpathLink]

/-- Between any two calls, every context with an output finds its own pads. -/
theorem ownPads_of_runCalls {fuel fuel' : Nat} {mediaOpen : Option MediaDevice} {alloc : Nat → Bool}
    {k' : Kernel}
    {s₀ : CamState} (h : mediaLibInit k' fuel mediaOpen alloc = .ok (some (cam, s₀)))
    (hR : Acyclic cam.Link)
    (hk : k.LinksSucceed) (calls : List Call) (hcalls : ∀ c ∈ calls, c.IsContext) :
    ∃ s, runCalls cam k fuel' calls s₀ = .ok s ∧
      ∀ i ctx, s.ctx i = some ctx → 1 ≤ ctx.nrOut → ctx.OwnPads cam s := by
  have hinit := initialised_of_mediaLibInit h
  have hcam := hinit.searched
  obtain ⟨t, ht, heq⟩ := created_of_mediaLibInit h
  have hfirst := hcam.firstFirst (heq ▸ ht.acyclic_down (heq ▸ hR))
  let Kept (s : CamState) : Prop := Balanced cam s ∧ ∀ i ctx, s.ctx i = some ctx → ctx.Picked cam
  have hstep : ∀ c ∈ calls, ∀ s, Kept s → ∃ ret s', c.exec cam k fuel' s = .ok (ret, s') ∧ Kept s' := by
    rintro c hc s ⟨hbal, hpicked⟩
    obtain ⟨ret, s', hexec, hbal'⟩ := hbal.of_isContext hk hcam (hcalls c hc)
    refine ⟨ret, s', hexec, hbal', fun i ctx hctx => ?_⟩
    cases c with
    | contextInit srcID pathID nrDst =>
      exact (picked_of_contextInit hcam hexec hctx).elim (hpicked i ctx) id
    | contextKill ctxID =>
      exact picked_of_killStep hpicked (killStep_cameraContextKill cam ctxID s ret s' hexec) hctx
    | _ => exact (hcalls _ hc).elim
  have hstart : Kept s₀ := ⟨Balanced.of_fresh hinit.fresh, by simp [hinit.fresh.ctx]⟩
  obtain ⟨s, hrun, hbal, hpicked⟩ := runCalls_total hstep hstart
  exact ⟨s, hrun, fun i ctx hctx hout => ownPads_of_balanced hcam hfirst hbal hctx
    (hpicked i ctx hctx) hout⟩

theorem acyclic_smallStart : Acyclic smallStart.1.Link := acyclic_smallTable

theorem ownPads_smallBoard : ∃ s,
    smallRun [.contextInit 0 0 1, .contextInit 1 0 1, .contextKill 0, .contextInit 0 0 1] = .ok s ∧
      ∀ i ctx, s.ctx i = some ctx → 1 ≤ ctx.nrOut → ctx.OwnPads smallStart.1 s :=
  ownPads_of_runCalls smallInit_eq acyclic_smallStart (fun _ => rfl) _ (by simp [Call.IsContext])

end

end G361FPlatform.MediaLib
