import G361FPlatform.MediaLib.Init
import G361FPlatform.MediaLib.TableLaws

namespace G361FPlatform.MediaLib

open Library Outcome

structure CamState.SameDevices (s s' : CamState) : Prop where
  fd : s'.fd = s.fd
  openCnt : s'.openCnt = s.openCnt
  files : s'.files = s.files

/-- No context yet, and no link or route in use. -/
structure CamState.Fresh (s : CamState) : Prop where
  linkRefCnt : s.linkRefCnt = fun _ => 0
  routeRefCnt : s.routeRefCnt = fun _ => 0
  ctx : s.ctx = fun _ => none
  setupCalls : s.setupCalls = []

theorem sameDevices_initStep {cam : PlatCam} {k : Kernel} {srcID pathID nrDst ret : Int}
    {s s' : CamState} (h : InitStep cam k srcID pathID nrDst s ret s') : s.SameDevices s' := by
  have hsel : ∀ {route : CamRoute} {id : Nat} {out : List CamRoute} {s₁ s₂ : CamState} {ret : Int},
      Selected cam srcID pathID nrDst s route id out s₁ →
        applyRoutes k (route :: out) s₁ = (ret, s₂) → s.SameDevices s₂ := by
    intro route id out s₁ s₂ ret hsel happly
    have hframe := onlyCounts_applyRoutes (k := k) (route :: out) s₁
    rw [happly, hsel.chosen.eq_with] at hframe
    exact ⟨hframe.fd, hframe.openCnt, hframe.files⟩
  cases h with
  | refused => exact ⟨rfl, rfl, rfl⟩
  | failed h happly _ => exact hsel h happly
  | created h happly _ =>
    obtain ⟨hfd, hcnt, hfiles⟩ := hsel h happly
    exact ⟨hfd, hcnt, hfiles⟩

theorem CamState.fresh_init (nodeFlags : NodeId → BitVec 32) : (CamState.init nodeFlags).Fresh :=
  ⟨rfl, rfl, rfl, rfl⟩

theorem CamState.Fresh.of_onlyPorts {s s' : CamState} (h : s.Fresh) (hs : s.OnlyPorts s') :
    s'.Fresh where
  linkRefCnt := hs.linkRefCnt.trans h.linkRefCnt
  routeRefCnt := hs.routeRefCnt.trans h.routeRefCnt
  ctx := by
    funext i
    have hi := hs.ctx i
    rwa [h.ctx, Option.map_none, Option.map_eq_none_iff] at hi
  setupCalls := hs.setupCalls.trans h.setupCalls

theorem CamState.Fresh.table {s : CamState} (h : s.Fresh) (cam : PlatCam) : Table cam s where
  ok := by simp [h.ctx]
  occupied := by simp [h.ctx]
  separate := by simp [h.ctx]

/-- What `MediaLibInit` hands out. -/
structure Initialised (cam : PlatCam) (s : CamState) : Prop where
  searched : cam.Searched
  fresh : s.Fresh

section

variable {k : Kernel} {fuel : Nat} {mediaOpen : Option MediaDevice} {alloc : Nat → Bool}
  {cam : PlatCam} {s : CamState}

theorem initRoutes_eq_some {graph : CamGraph} {t : NodeTable}
    (h : initRoutes k fuel graph t = .ok (some (cam, s))) :
    ∃ found node, mediaLibSearchRoute graph fuel SearchState.init = .ok (0, found) ∧
      cam = graph.withRoutes found ∧
      s = (camNodeOpen cam k node (CamState.init (typeFlags cam.toCamGraph))).2 := by
  unfold initRoutes at h
  split at h
  · cases h
  next ret found hsearch =>
    split at h
    · cases h
    next hret =>
      split at h
      · cases h
      next node _ =>
        have hnonpos := SearchState.nonpos_mediaLibSearchRoute graph fuel _ ret found hsearch
        have hzero : ret = 0 := by omega
        cases h
        exact ⟨found, node, hzero ▸ hsearch, rfl, rfl⟩

theorem mediaLibInit_eq_some (h : mediaLibInit k fuel mediaOpen alloc = .ok (some (cam, s))) :
    ∃ found node t, mediaLibSearchRoute cam.toCamGraph fuel SearchState.init = .ok (0, found) ∧
      cam = (findNodes cam.media t).withRoutes found ∧
      s = (camNodeOpen cam k node (CamState.init (typeFlags cam.toCamGraph))).2 := by
  unfold mediaLibInit at h
  split at h
  · cases h
  · split at h
    · cases h
    next t _ =>
      obtain ⟨found, node, hsearch, rfl, hs⟩ := initRoutes_eq_some h
      exact ⟨found, node, t, hsearch, rfl, hs⟩

theorem initialised_of_mediaLibInit
    (h : mediaLibInit k fuel mediaOpen alloc = .ok (some (cam, s))) : Initialised cam s := by
  obtain ⟨found, node, t, hsearch, hcam, rfl⟩ := mediaLibInit_eq_some h
  refine ⟨⟨fuel, found, hsearch, by rw [hcam]; rfl⟩, ?_⟩
  exact (CamState.fresh_init _).of_onlyPorts (onlyPorts_camNodeOpen node _)

theorem table_of_runCalls (h : Initialised cam s) {calls : List Call} {s' : CamState}
    (hrun : runCalls cam k fuel calls s = .ok s') : Table cam s' :=
  runCalls_inv (P := Table cam) (fun _ _ _ _ _ ht hc => ht.of_exec h.searched hc)
    (h.fresh.table cam) hrun

end

/-- A board with a sensor and an input video device in front of one path, and two output
video devices behind it. -/
def smallBoard : MediaDevice where
  entities := [
    ⟨1, "s5k2p2", .subdevSensor, [⟨false, true⟩]⟩,
    ⟨2, "b52isd-input", .devnodeV4l, [⟨false, true⟩]⟩,
    ⟨3, "b52isd-IDI1", .other, [⟨true, false⟩, ⟨false, true⟩]⟩,
    ⟨4, "b52isd-Pipeline#1", .other, [⟨true, false⟩, ⟨true, false⟩, ⟨false, true⟩]⟩,
    ⟨5, "b52isd-output0", .devnodeV4l, [⟨true, false⟩]⟩,
    ⟨6, "b52isd-output1", .devnodeV4l, [⟨true, false⟩]⟩]
  links := [
    ⟨⟨0, 0⟩, ⟨2, 0⟩⟩,
    ⟨⟨2, 1⟩, ⟨3, 0⟩⟩,
    ⟨⟨1, 0⟩, ⟨3, 1⟩⟩,
    ⟨⟨3, 2⟩, ⟨4, 0⟩⟩,
    ⟨⟨3, 2⟩, ⟨5, 0⟩⟩]

def readyKernel : Kernel where
  setupLink := fun _ => 0
  openDev := fun _ used =>
    (((List.range (used.length + 1)).map fun i : Nat => (i : Int) + 4).find? (· ∉ used)).getD 4
  ioctl := fun _ _ _ => ⟨0, ⟨0, 0, 0, 0⟩, 0, 0, 0⟩

def smallInit : Except Stuck (Option (PlatCam × CamState)) :=
  mediaLibInit readyKernel 20 (some smallBoard) fun _ => true

def smallStart : PlatCam × CamState := smallInit.toOption.join.get rfl

theorem smallInit_eq : smallInit = .ok (some smallStart) := rfl

def smallRun (calls : List Call) : Except Stuck CamState :=
  runCalls smallStart.1 readyKernel 20 calls smallStart.2

/-- The outputs of live contexts are taken, each by one port of one context. -/
structure CamState.Exclusive (s : CamState) : Prop where
  occupied : ∀ i ctx, s.ctx i = some ctx → ∀ r ∈ ctx.out,
    tstFlag (s.nodeFlags r.dst) CAMNODE_FL_S_OCCUPY = true
  injective : ∀ (i j m n : Nat) (ctx ctx' : CamCtx) (r r' : CamRoute), s.ctx i = some ctx → s.ctx j = some ctx' →
    ctx.out[m]? = some r → ctx'.out[n]? = some r' → r.dst = r'.dst → i = j ∧ m = n

theorem Table.exclusive {cam : PlatCam} {s : CamState} (h : Table cam s) : s.Exclusive where
  occupied := h.occupied
  injective := by
    intro i j m n ctx ctx' r r' hctx hctx' hr hr' hdst
    by_cases hij : i = j
    · subst hij
      rw [hctx, Option.some.injEq] at hctx'
      subst hctx'
      refine ⟨rfl, ?_⟩
      have hm : (ctx.out.map CamRoute.dst)[m]? = some r.dst := by simp [hr]
      have hn : (ctx.out.map CamRoute.dst)[n]? = some r.dst := by simp [hr', hdst]
      have hlt := (List.getElem?_eq_some_iff.mp hm).1
      exact (List.getElem?_inj hlt (h.ok i ctx hctx).2.dst_nodup).mp (hm.trans hn.symm)
    · exact absurd hdst (h.separate i j ctx ctx' hctx hctx' hij r (List.mem_of_getElem? hr) r'
        (List.mem_of_getElem? hr'))

/-- No two contexts ever stream into the same video device. -/
theorem exclusive_of_runCalls {k : Kernel} {fuel fuel' : Nat} {mediaOpen : Option MediaDevice}
    {alloc : Nat → Bool} {cam : PlatCam} {s₀ : CamState}
    (h : mediaLibInit k fuel mediaOpen alloc = .ok (some (cam, s₀))) (calls : List Call)
    (hcalls : ∀ c ∈ calls, c.IsContext) :
    ∃ s, runCalls cam k fuel' calls s₀ = .ok s ∧ s.Exclusive := by
  have hinit := initialised_of_mediaLibInit h
  have hstep : ∀ c ∈ calls, ∀ s, Table cam s →
      ∃ ret s', c.exec cam k fuel' s = .ok (ret, s') ∧ Table cam s' := by
    intro c hc s ht
    obtain ⟨ret, s', hexec⟩ := exec_total_of_isContext hinit.searched k fuel' ht (hcalls c hc)
    exact ⟨ret, s', hexec, ht.of_exec hinit.searched hexec⟩
  obtain ⟨s, hrun, htable⟩ := runCalls_total hstep (hinit.fresh.table cam)
  exact ⟨s, hrun, htable.exclusive⟩

theorem exclusive_smallBoard : ∃ s,
    smallRun [.contextInit 0 0 1, .contextInit 1 0 1, .contextKill 0, .contextInit 0 0 2] = .ok s ∧
      s.Exclusive :=
  exclusive_of_runCalls smallInit_eq _ (by simp [Call.IsContext])

end G361FPlatform.MediaLib
