import G361FPlatform.MediaLib.CountLaws
import G361FPlatform.MediaLib.InitLaws

namespace G361FPlatform.MediaLib

open Library Ownership Outcome CamState

def listRoots (rs : List CamRoute) : CamRoute → Int := fun r => rs.count r

@[simp] theorem listRoots_nil : listRoots [] = 0 := by
  funext r
  simp [listRoots]

theorem listRoots_cons (r : CamRoute) (rs : List CamRoute) :
    listRoots (r :: rs) = Pi.single r 1 + listRoots rs := by
  funext x
  by_cases h : x = r
  · subst h
    simp [listRoots, add_comm]
  · simp [listRoots, h, Ne.symm h]

def liveCount (s : CamState) (p : CamCtx → Bool) : Nat :=
  (List.range CONTEXT_PER_PLATFORM).countP fun i => (s.ctx i).any p

def holders (s : CamState) (r : CamRoute) : Nat :=
  liveCount s (fun ctx => ctx.route = r) + liveCount s fun ctx => r ∈ ctx.out

section

variable {cam : PlatCam} {k : Kernel} {s s' : CamState}

theorem liveCount_congr {p : CamCtx → Bool}
    (h : ∀ i, (s'.ctx i).any p = (s.ctx i).any p) : liveCount s' p = liveCount s p :=
  List.countP_congr fun i _ => by rw [h i]

theorem liveCount_setCtx {id : Nat} (hid : id < CONTEXT_PER_PLATFORM) {ctx : CamCtx}
    (hother : ∀ i, i ≠ id → s'.ctx i = s.ctx i) (hfree : s.ctx id = none)
    (hctx : s'.ctx id = some ctx) (p : CamCtx → Bool) :
    liveCount s' p = liveCount s p + if p ctx then 1 else 0 := by
  have h := countP_change (p := fun i => (s'.ctx i).any p) (q := fun i => (s.ctx i).any p)
    List.nodup_range (List.mem_range.mpr hid) fun i _ hi => by rw [hother i hi]
  simpa [hfree, hctx, liveCount] using h

theorem holders_congr
    (h : ∀ i, (s'.ctx i).map CamCtx.unflagged = (s.ctx i).map CamCtx.unflagged) :
    holders s' = holders s := by
  have hany : ∀ p : CamCtx → Bool, (∀ ctx, p ctx.unflagged = p ctx) →
      ∀ i, (s'.ctx i).any p = (s.ctx i).any p := by
    intro p hp i
    have hi := congrArg (Option.any p) (h i)
    simpa [Option.any_map, Function.comp_def, hp] using hi
  funext r
  unfold holders
  rw [liveCount_congr (hany _ fun _ => rfl), liveCount_congr (hany _ fun _ => rfl)]

theorem holders_setCtx {id : Nat} (hid : id < CONTEXT_PER_PLATFORM) {ctx : CamCtx}
    (hnd : ctx.out.Nodup) (hother : ∀ i, i ≠ id → s'.ctx i = s.ctx i) (hfree : s.ctx id = none)
    (hctx : s'.ctx id = some ctx) :
    (fun r => (holders s' r : Int)) =
      (fun r => (holders s r : Int)) + listRoots (ctx.route :: ctx.out) := by
  funext r
  have hroute := liveCount_setCtx hid hother hfree hctx fun ctx => ctx.route = r
  have hout := liveCount_setCtx hid hother hfree hctx fun ctx => r ∈ ctx.out
  have hcount : ctx.out.count r = if r ∈ ctx.out then 1 else 0 := hnd.count
  simp only [holders, hroute, hout, listRoots, Pi.add_apply, List.count_cons, hcount,
    decide_eq_true_eq, beq_iff_eq]
  push_cast
  ring

namespace Counted

variable {roots : CamRoute → Int} {links : LinkId → Int}

theorem of_eq (h : Counted cam roots links s) (hlink : s'.linkRefCnt = s.linkRefCnt)
    (hroute : s'.routeRefCnt = s.routeRefCnt) (hcalls : s'.setupCalls = s.setupCalls) :
    Counted cam roots links s' := by
  have hactive : s'.active = s.active := by
    funext r
    simp only [CamState.active, hroute]
  refine ⟨fun l => ?_, fun r hr => ?_, fun l => ?_⟩
  · rw [hlink, h.link, headOwners, headOwners, hactive]
  · rw [hroute, h.route r hr, moreOwners, moreOwners, hactive]
  · rw [hlink, ← h.flag]
    simp only [CamState.lastFlag, hcalls]

theorem applyRoutesOn (hk : k.LinksSucceed) (hcam : cam.Searched) (hroots : ∀ x, 0 ≤ roots x)
    {rs : List CamRoute} (hrs : ∀ r ∈ rs, r ∈ cam.heap) (h : Counted cam roots 0 s) :
    ∃ s', applyRoutes k rs s = (0, s') ∧ Counted cam (roots + listRoots rs) 0 s' := by
  induction rs generalizing s roots with
  | nil => exact ⟨s, rfl, by simpa using h⟩
  | cons r rs ih =>
    obtain ⟨s₁, hr, h₁⟩ := h.routeOn hk hcam hroots (fun _ => le_rfl) (hrs r List.mem_cons_self)
    obtain ⟨s', hrs', h'⟩ := ih (nonneg_add_single hroots r)
      (fun r' hr' => hrs r' (List.mem_cons_of_mem _ hr')) h₁
    refine ⟨s', ?_, by rwa [listRoots_cons, ← add_assoc]⟩
    simp [applyRoutes, hr, hrs']

theorem cutRoutesOff (hk : k.LinksSucceed) (hcam : cam.Searched) (hroots : ∀ x, 0 ≤ roots x)
    {rs : List CamRoute} (hrs : ∀ r ∈ rs, r ∈ cam.heap) (ret : Int)
    (h : Counted cam (roots + listRoots rs) 0 s) :
    ∃ s', cutRoutes k rs ret s = (ret, s') ∧ Counted cam roots 0 s' := by
  induction rs generalizing s with
  | nil => exact ⟨s, rfl, by simpa using h⟩
  | cons r rs ih =>
    have hrest : ∀ x, 0 ≤ (roots + listRoots rs : CamRoute → Int) x := by
      intro x
      have := hroots x
      simp only [Pi.add_apply, listRoots]
      omega
    rw [listRoots_cons, add_comm (Pi.single r 1), ← add_assoc] at h
    obtain ⟨s₁, hr, h₁⟩ := h.routeOff hk hcam hrest (fun _ => le_rfl) (hrs r List.mem_cons_self)
    obtain ⟨s', hrs', h'⟩ := ih (fun r' hr' => hrs r' (List.mem_cons_of_mem _ hr')) h₁
    refine ⟨s', ?_, h'⟩
    simp [cutRoutes, hr, lor_zero, hrs']

end Counted

structure Balanced (cam : PlatCam) (s : CamState) : Prop where
  table : Table cam s
  counted : Counted cam (fun r => holders s r) 0 s

namespace Balanced

theorem of_fresh (h : s.Fresh) : Balanced cam s where
  table := h.table cam
  counted := by
    have hactive : s.active = fun _ => false := by
      funext r
      simp [CamState.active, h.routeRefCnt]
    refine ⟨fun l => ?_, fun r _ => ?_, fun l => ?_⟩
    · simp [h.linkRefCnt, headOwners, owners, hactive]
    · simp [h.routeRefCnt, moreOwners, owners, hactive, holders, liveCount, h.ctx]
    · simp [h.linkRefCnt, CamState.lastFlag, h.setupCalls]

theorem holders_nonneg (s : CamState) (r : CamRoute) : 0 ≤ (holders s r : Int) :=
  Int.natCast_nonneg _

theorem of_initStep (hk : k.LinksSucceed) (hcam : cam.Searched) (h : Balanced cam s)
    {srcID pathID nrDst ret : Int} (hstep : InitStep cam k srcID pathID nrDst s ret s') :
    Balanced cam s' := by
  refine ⟨h.table.of_initStep hcam hstep, ?_⟩
  have hon : ∀ {route : CamRoute} {id : Nat} {out : List CamRoute} {s₁ : CamState},
      Selected cam srcID pathID nrDst s route id out s₁ → ∃ s₂,
        applyRoutes k (route :: out) s₁ = (0, s₂) ∧
          Counted cam ((fun r => (holders s r : Int)) + listRoots (route :: out)) 0 s₂ := by
    intro route id out s₁ hsel
    obtain ⟨sNode, -, hroute⟩ := hsel.lookup.src
    refine Counted.applyRoutesOn hk hcam (holders_nonneg s) ?_ ?_
    · intro r hr
      rcases List.mem_cons.mp hr with rfl | hr
      · exact (hcam.route_mem hroute).1
      · exact (hcam.route_mem (hsel.sublist.subset hr)).1
    · rw [hsel.chosen.eq_with]
      exact h.counted.of_eq rfl rfl rfl
  cases hstep with
  | refused => exact h.counted
  | failed hsel happly hneg =>
    obtain ⟨s₂, hs₂, -⟩ := hon hsel
    rw [hs₂] at happly
    cases happly
    omega
  | @created route id out s₁ ret s₂ crop hsel happly _ =>
    obtain ⟨s₂', hs₂, hcounted⟩ := hon hsel
    rw [hs₂] at happly
    cases happly
    have hctx : s₂.ctx = s.ctx := by
      have hframe := onlyCounts_applyRoutes (k := k) (route :: out) s₁
      rw [hs₂] at hframe
      rw [hframe.ctx, hsel.chosen.eq_with]
    have hnd := List.nodup_reverse.mp (List.Nodup.of_map _ hsel.chosen.dst_nodup)
    have hother : ∀ i, i ≠ id →
        (s₂.setCtx id (some (newContext route crop out nrDst))).ctx i = s.ctx i := by
      intro i hi
      simp [setCtx, hi, hctx]
    rw [holders_setCtx hsel.lookup.id_lt hnd hother hsel.lookup.free (by simp [setCtx]; rfl)]
    exact hcounted.of_eq rfl rfl rfl

theorem of_killStep (hk : k.LinksSucceed) (hcam : cam.Searched) (h : Balanced cam s) {ret : Int}
    (hstep : KillStep k s ret s') : Balanced cam s' := by
  refine ⟨h.table.of_killStep hstep, ?_⟩
  cases hstep with
  | refused => exact h.counted
  | @killed id ctx s₁ ret₁ _ _ hctx hports hkill =>
    obtain ⟨hid, hok⟩ := h.table.ok id ctx hctx
    have h₁ : Counted cam (fun r => holders s₁ r) 0 s₁ := by
      rw [holders_congr hports.ctx]
      exact h.counted.of_eq hports.linkRefCnt hports.routeRefCnt hports.setupCalls
    have hheld : (fun r => (holders s r : Int)) =
        (fun r => (holders (s.setCtx id none) r : Int)) + listRoots (ctx.out ++ [ctx.route]) := by
      have hother : ∀ i, i ≠ id → s.ctx i = (s.setCtx id none).ctx i := by
        intro i hi
        simp [setCtx, hi]
      rw [holders_setCtx hid hok.out_nodup hother (by simp [setCtx]) hctx]
      funext r
      simp [listRoots, List.count_cons, add_comm]
    rw [holders_congr hports.ctx, hheld] at h₁
    have hmem : ∀ r ∈ ctx.out ++ [ctx.route], r ∈ cam.heap := by
      intro r hr
      rcases List.mem_append.mp hr with hr | hr
      · exact hok.out_heap hcam hr
      · rw [List.mem_singleton.mp hr]
        exact hok.route_heap hcam
    obtain ⟨s₂, hcut, h₂⟩ := h₁.cutRoutesOff hk hcam (holders_nonneg _) hmem ret₁
    have hframe := onlyCounts_cutRoutes (k := k) (ctx.out ++ [ctx.route]) ret₁ s₁
    simp only [killRoutes, hcut] at hkill hframe
    cases hkill
    have hrest : holders ((releaseOutputs ctx.out.reverse s₂).setCtx id none) =
        holders (s.setCtx id none) := by
      apply holders_congr
      intro i
      rw [releaseOutputs_eq_with]
      by_cases hi : i = id
      · subst hi
        simp [setCtx]
      · simpa [setCtx, hi, hframe.ctx] using hports.ctx i
    rw [hrest]
    exact h₂.of_eq (by rw [releaseOutputs_eq_with]; rfl) (by rw [releaseOutputs_eq_with]; rfl)
      (by rw [releaseOutputs_eq_with]; rfl)

theorem of_isContext (hk : k.LinksSucceed) (hcam : cam.Searched) (h : Balanced cam s)
    {fuel : Nat} {c : Call} (hc : c.IsContext) :
    ∃ ret s', c.exec cam k fuel s = .ok (ret, s') ∧ Balanced cam s' := by
  obtain ⟨ret, s', hexec⟩ := exec_total_of_isContext hcam k fuel h.table hc
  refine ⟨ret, s', hexec, ?_⟩
  cases c with
  | contextInit srcID pathID nrDst =>
    exact h.of_initStep hk hcam (initStep_cameraContextInit hcam k srcID pathID nrDst s ret s' hexec)
  | contextKill ctxID =>
    exact h.of_killStep hk hcam (killStep_cameraContextKill cam ctxID s ret s' hexec)
  | _ => exact hc.elim

theorem segments_active (hcam : cam.Searched) (h : Balanced cam s) {r x : CamRoute}
    (hr : r ∈ cam.heap) (hactive : s.active r = true) (hx : x ∈ r.segments) :
    x ∈ cam.heap ∧ s.active x = true := by
  induction r with
  | last id src dst head =>
    rw [CamRoute.segments, List.mem_singleton] at hx
    exact hx ▸ ⟨hr, hactive⟩
  | cons id src dst head more ih =>
    rw [CamRoute.segments, List.mem_cons] at hx
    rcases hx with rfl | hx
    · exact ⟨hr, hactive⟩
    · have hmore := (hcam.more_mem hr rfl).1
      refine ih hmore ?_ hx
      have hpos : 0 < owners cam.heap s.active ownsMore more :=
        owners_pos hr hactive (by simp [ownsMore, CamRoute.more])
      have hcount := h.counted.route more hmore
      simp only [CamState.active, decide_eq_true_eq]
      simp only [moreOwners] at hcount
      omega

theorem liveCount_pos {i : Nat} {ctx : CamCtx} (hi : i < CONTEXT_PER_PLATFORM)
    (hctx : s.ctx i = some ctx) {p : CamCtx → Bool} (hp : p ctx = true) : 0 < liveCount s p :=
  List.countP_pos_iff.mpr ⟨i, List.mem_range.mpr hi, by simp [hctx, hp]⟩

theorem held_active (h : Balanced cam s) (hcam : cam.Searched) {i : Nat} {ctx : CamCtx}
    (hctx : s.ctx i = some ctx) {r : CamRoute} (hr : r ∈ ctx.route :: ctx.out) :
    r ∈ cam.heap ∧ s.active r = true := by
  obtain ⟨hi, hok⟩ := h.table.ok i ctx hctx
  have hmem : r ∈ cam.heap := by
    rcases List.mem_cons.mp hr with rfl | hr
    · exact hok.route_heap hcam
    · exact hok.out_heap hcam hr
  have hpos : 0 < holders s r := by
    rcases List.mem_cons.mp hr with rfl | hr
    · exact Nat.add_pos_left (liveCount_pos hi hctx (by simp)) _
    · exact Nat.add_pos_right _ (liveCount_pos hi hctx (by simpa using hr))
  have hcount := h.counted.route r hmem
  refine ⟨hmem, ?_⟩
  simp only [CamState.active, decide_eq_true_eq]
  omega

theorem linkRefCnt_pos (h : Balanced cam s) {x : CamRoute} (hx : x ∈ cam.heap) (hactive : s.active x = true) :
    0 < s.linkRefCnt x.head.id := by
  have hpos : 0 < owners cam.heap s.active ownsHead x.head.id := owners_pos hx hactive (by simp [ownsHead])
  have hcount := h.counted.link x.head.id
  simp only [headOwners, Pi.zero_apply] at hcount
  omega

end Balanced

/-- The counters are what their holders make them, and every link a live context streams
through is on. -/
structure RefCounts (cam : PlatCam) (s : CamState) : Prop where
  link : ∀ l, s.linkRefCnt l = headOwners cam s l
  route : ∀ r ∈ cam.heap, s.routeRefCnt r.id = holders s r + moreOwners cam s r
  flag : ∀ l, s.lastFlag l = some 1 ↔ 0 < s.linkRefCnt l
  streaming : ∀ i ctx, s.ctx i = some ctx → ∀ r ∈ ctx.route :: ctx.out, ∀ x ∈ r.segments,
    s.lastFlag x.head.id = some 1

theorem Balanced.refCounts (hcam : cam.Searched) (h : Balanced cam s) : RefCounts cam s where
  link := by simpa using h.counted.link
  route := h.counted.route
  flag := h.counted.flag
  streaming := by
    intro i ctx hctx r hr x hx
    obtain ⟨hmem, hactive⟩ := h.held_active hcam hctx hr
    obtain ⟨hxmem, hxactive⟩ := h.segments_active hcam hmem hactive hx
    rw [h.counted.flag]
    exact h.linkRefCnt_pos hxmem hxactive

/-- Reference counts are exact between any two calls. -/
theorem refCounts_of_runCalls (hcam : cam.Searched) (hk : k.LinksSucceed) (hs : s.Fresh)
    (calls : List Call) (hcalls : ∀ c ∈ calls, c.IsContext) (fuel : Nat) :
    ∃ s', runCalls cam k fuel calls s = .ok s' ∧ RefCounts cam s' := by
  obtain ⟨s', hrun, hbal⟩ := runCalls_total (P := Balanced cam)
    (fun c hc _ hbal => hbal.of_isContext hk hcam (hcalls c hc)) (Balanced.of_fresh hs)
  exact ⟨s', hrun, hbal.refCounts hcam⟩

theorem refCounts_smallBoard : ∃ s',
    smallRun [.contextInit 0 0 1, .contextInit 1 0 1, .contextKill 0] = .ok s' ∧
      RefCounts smallStart.1 s' :=
  have hinit := initialised_of_mediaLibInit smallInit_eq
  refCounts_of_runCalls hinit.searched (fun _ => rfl) hinit.fresh _ (by simp [Call.IsContext]) 20

end

end G361FPlatform.MediaLib
