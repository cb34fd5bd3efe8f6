import G361FPlatform.MediaLib.OwnerLaws

namespace G361FPlatform.MediaLib

open Library Outcome CamState

/-- From one pad to the sink pads that `CamNodeSetCombo` goes on to: along enabled links, as
long as the pad it stands on is no sink itself. -/
inductive Spreads (cam : PlatCam) (cnt : LinkId → Int) (n₀ : NodeId) (pad₀ : Nat) :
    NodeId → Nat → Prop
  | refl : Spreads cam cnt n₀ pad₀ n₀ pad₀
  | step {n pad flags l m} : Spreads cam cnt n₀ pad₀ n pad →
      (cam.media.padsOf (cam.meOf n))[pad]? = some flags → flags.sink = false →
      l ∈ cam.linksOf n → l.src = some n → l.mlink.source.index = pad → cnt l.id ≠ 0 →
      l.dst = some m → Spreads cam cnt n₀ pad₀ m l.mlink.sink.index

def ParaSets (cam : PlatCam) (ctx : CamCtx) (ps : List CamCtxParam) (s : CamState) (n : NodeId)
    (pad : Nat) : Prop :=
  ∃ p ∈ ps, ∃ obj combo pad₀,
    findObjective cam ctx s p.cutScope = .ok (.ok (some obj, some combo)) ∧
      ParamLaws.paramPad p.paramName combo = some pad₀ ∧ Spreads cam s.linkRefCnt obj pad₀ n pad

def ParaOpens (cam : PlatCam) (ctx : CamCtx) (ps : List CamCtxParam) (s : CamState) (n : NodeId) :
    Prop :=
  n = ctx.path ∨
    (∃ p ∈ ps, ∃ combo, findObjective cam ctx s p.cutScope = .ok (.ok (some n, combo))) ∨
      ∃ pad, ParaSets cam ctx ps s n pad

def Free (cam : PlatCam) (s : CamState) (n : NodeId) : Prop :=
  s.openCnt n ≠ 0 ∨ s.fd (cam.meOf n) < 0

/-- The nodes of `U` can be opened one inside the other. -/
structure Clean (cam : PlatCam) (U : NodeId → Prop) (s : CamState) : Prop where
  files : Files s
  free : ∀ n, U n → Free cam s n
  distinct : ∀ n m, U n → U m → cam.meOf n = cam.meOf m → n = m
  counted : ∀ n, U n → s.openCnt n ≠ 0 → 0 ≤ s.fd (cam.meOf n)
  nonneg : ∀ n, U n → 0 ≤ s.openCnt n

section

variable {cam : PlatCam} {k : Kernel} {s s' : CamState} {U : NodeId → Prop} {n : NodeId}

structure SameOwners (s s' : CamState) : Prop where
  devices : s.SameDevices s'
  linkRefCnt : s'.linkRefCnt = s.linkRefCnt

theorem SameOwners.trans {s₁ s₂ s₃ : CamState} (h₁ : SameOwners s₁ s₂) (h₂ : SameOwners s₂ s₃) :
    SameOwners s₁ s₃ :=
  ⟨⟨h₂.devices.fd.trans h₁.devices.fd, h₂.devices.openCnt.trans h₁.devices.openCnt,
    h₂.devices.files.trans h₁.devices.files⟩, h₂.linkRefCnt.trans h₁.linkRefCnt⟩

theorem Clean.of_same (h : Clean cam U s) (hs : SameOwners s s') : Clean cam U s' := by
  have hfiles := h.files.of_same hs.devices
  obtain ⟨⟨hfd, hcnt, -⟩, -⟩ := hs
  exact ⟨hfiles, by simp only [Free, hfd, hcnt]; exact h.free, h.distinct,
    by rw [hfd, hcnt]; exact h.counted, by rw [hcnt]; exact h.nonneg⟩

theorem Clean.camNodeOpen (hk : k.Opens) (h : Clean cam U s) (hn : U n) :
    0 ≤ (camNodeOpen cam k n s).1 ∧ Clean cam U (camNodeOpen cam k n s).2 ∧
      (camNodeOpen cam k n s).2.linkRefCnt = s.linkRefCnt := by
  have hnonneg := h.nonneg n hn
  unfold MediaLib.camNodeOpen
  by_cases hzero : s.openCnt n = 0
  case neg =>
    rw [if_neg hzero]
    have hcnt := s.openCnt_addOpenCnt_apply n (d := 1)
    refine ⟨h.counted n hn hzero, ⟨h.files.congr rfl rfl, fun m hm => ?_, h.distinct,
      fun m hm hcm => ?_, fun m hm => ?_⟩, rfl⟩
    · rw [Free, hcnt]
      split
      · exact .inl (by omega)
      · exact h.free m hm
    · rw [hcnt] at hcm
      split at hcm
      next heq => exact heq ▸ h.counted n hn hzero
      · exact h.counted m hm hcm
    · have := h.nonneg m hm
      rw [hcnt]
      split <;> omega
  case pos =>
    have hfd : s.fd (cam.meOf n) < 0 := (h.free n hn).resolve_left fun hne => hne hzero
    obtain ⟨fd, s₁, hopen, hpos, -, hfd₁, hcnt₁, -, hlinks, -, hf₁⟩ := h.files.openMe hk hfd
    simp only [hzero, if_true, hopen, Int.not_lt.mpr hpos, if_false]
    have hcnt : ∀ m, (s₁.addOpenCnt n 1).openCnt m = if m = n then 1 else s.openCnt m := by
      intro m
      rw [openCnt_addOpenCnt_apply, hcnt₁, hzero, Int.zero_add]
    have hother : ∀ m, U m → m ≠ n → (s₁.addOpenCnt n 1).fd (cam.meOf m) = s.fd (cam.meOf m) := by
      intro m hm hne
      change s₁.fd _ = _
      rw [hfd₁, Function.update_of_ne fun heq => hne (h.distinct m n hm hn heq)]
    refine ⟨hpos, ⟨hf₁.congr rfl rfl, fun m hm => ?_, h.distinct, fun m hm hcm => ?_,
      fun m hm => ?_⟩, hlinks⟩
    · rw [Free, hcnt]
      split
      · exact .inl (by decide)
      next hne =>
        rw [hother m hm hne]
        exact h.free m hm
    · by_cases hm' : m = n
      · subst hm'
        change 0 ≤ s₁.fd _
        rw [hfd₁, Function.update_self]
        exact hpos
      · rw [hother m hm hm']
        rw [hcnt, if_neg hm'] at hcm
        exact h.counted m hm hcm
    · rw [hcnt]
      split
      · decide
      · exact h.nonneg m hm

theorem openCnt_closed (h : s'.openCnt = (s.addOpenCnt n 1).openCnt) :
    (s'.addOpenCnt n (-1)).openCnt = s.openCnt := by
  funext m
  simp only [openCnt_addOpenCnt_apply, h, if_true]
  split
  next heq =>
    rw [heq]
    omega
  · rfl

theorem Clean.closed (hk : k.Opens) (h : Clean cam U s) (hn : U n)
    (hs : SameOwners (MediaLib.camNodeOpen cam k n s).2 s') :
    SameOwners s (camNodeClose cam n s').2 := by
  have hnonneg := h.nonneg n hn
  have hlinks := (h.camNodeOpen hk hn).2.2
  unfold MediaLib.camNodeOpen at hs hlinks
  unfold camNodeClose
  by_cases hzero : s.openCnt n = 0
  case neg =>
    rw [if_neg hzero] at hs
    have hcnt := openCnt_closed hs.devices.openCnt
    have hne : (s'.addOpenCnt n (-1)).openCnt n ≠ 0 := by rwa [hcnt]
    simp only [hne, if_false]
    exact ⟨⟨hs.devices.fd, hcnt, hs.devices.files⟩, hs.linkRefCnt⟩
  case pos =>
    have hfd : s.fd (cam.meOf n) < 0 := (h.free n hn).resolve_left fun hne => hne hzero
    have hround := h.files.closeMe_openMe hk hfd
    obtain ⟨fd, s₁, hopen, hpos, -⟩ := h.files.openMe hk hfd
    rw [hopen] at hround
    simp only [hzero, if_true, hopen, Int.not_lt.mpr hpos, if_false] at hs hlinks
    have hcnt := openCnt_closed hs.devices.openCnt
    have hcnt₁ : s₁.openCnt = s.openCnt := hround.openCnt
    have hlast : (s'.addOpenCnt n (-1)).openCnt n = 0 := by rw [hcnt, hcnt₁, hzero]
    simp only [hlast, if_true]
    refine ⟨⟨?_, hcnt.trans hcnt₁, ?_⟩, hs.linkRefCnt.trans hlinks⟩
    · rw [← hround.fd]
      simp only [closeMe, setFd, addOpenCnt, hs.devices.fd]
    · rw [← hround.files]
      simp only [closeMe, setFd, addOpenCnt, hs.devices.fd, hs.devices.files]

/-- The parameter calls, as long as they stay among the nodes of `U` and set formats on the
pads of `V` only. -/
theorem kept_clean (hk : k.Opens) {V : NodeId → Nat → Prop} {cnt : LinkId → Int}
    (hV : ∀ n pad, V n pad → U n)
    (hspread : ∀ {n pad flags l m}, V n pad → (cam.media.padsOf (cam.meOf n))[pad]? = some flags →
      flags.sink = false → l ∈ cam.linksOf n → l.src = some n → l.mlink.source.index = pad →
      cnt l.id ≠ 0 → l.dst = some m → V m l.mlink.sink.index) :
    ParamLaws.Kept cam k
      (fun s n p => Clean cam U s ∧ s.linkRefCnt = cnt ∧ U n ∧ ∀ pad, p = some pad → V n pad)
      SameOwners where
  refl := fun _ => ⟨⟨rfl, rfl, rfl⟩, rfl⟩
  trans := .trans
  ioctl := fun _ _ _ => ⟨⟨rfl, rfl, rfl⟩, rfl⟩
  failed := by
    rintro n p s ⟨hclean, -, hn, -⟩ hneg
    exact absurd hneg (Int.not_lt.mpr (hclean.camNodeOpen hk hn).1)
  closed := by
    rintro n p s s' ⟨hclean, -, hn, -⟩ - hs
    exact hclean.closed hk hn hs
  stable := by
    rintro s s' n p hs ⟨hclean, hcnt, hn, hp⟩
    exact ⟨hclean.of_same hs, hs.linkRefCnt.trans hcnt, hn, hp⟩
  opened := by
    rintro n p s m q ⟨hclean, hcnt, hn, -⟩ ⟨-, -, hm, hq⟩
    obtain ⟨-, hclean', hlinks⟩ := hclean.camNodeOpen hk hn
    exact ⟨hclean', hlinks.trans hcnt, hm, hq⟩
  spread := by
    rintro s n pad flags l m ⟨hclean, hcnt, hn, hp⟩ hpad hsink hl hsrc hidx hl0 hdst
    have hm := hspread (hp pad rfl) hpad hsink hl hsrc hidx (hcnt ▸ hl0) hdst
    refine ⟨hclean, hcnt, hV _ _ hm, ?_⟩
    rintro _ ⟨⟩
    exact hm

theorem Owned.clean {L : Ledger} (h : Owned cam L s) (hfree : ∀ n, U n → Free cam s n)
    (hdistinct : ∀ n m, U n → U m → cam.meOf n = cam.meOf m → n = m) : Clean cam U s where
  files := h.files
  free := hfree
  distinct := hdistinct
  counted := by
    intro n _ hne
    have := h.openCnt_nonneg n
    exact (h.held _).mpr (.inl ⟨n, rfl, by omega⟩)
  nonneg := fun n _ => h.openCnt_nonneg n

/-- `CameraContextPara` closes what it opens, but for the node of a parameter that finds no
link: that one it leaves counted. -/
theorem Owned.cameraContextPara (hk : k.Opens) {L : Ledger} (h : Owned cam L s) (fuel : Nat)
    {ctxID : Int} {ps : List CamCtxParam}
    (hopens : ∀ ctx, 0 ≤ ctxID → s.ctx ctxID.toNat = some ctx →
      (∀ n, ParaOpens cam ctx ps s n → Free cam s n) ∧
        ∀ n m, ParaOpens cam ctx ps s n → ParaOpens cam ctx ps s m → cam.meOf n = cam.meOf m → n = m) :
    Post (cameraContextPara cam k fuel ctxID ps s) fun _ p => Owned cam L p.2 := by
  cases hctx : s.ctx ctxID.toNat with
  | none =>
    intro ret p heq
    unfold MediaLib.cameraContextPara at heq
    rw [hctx] at heq
    split at heq
    · cases heq
      exact h
    · cases heq
      exact h
  | some ctx =>
    by_cases hid : 0 ≤ ctxID
    case neg =>
      intro ret p heq
      unfold MediaLib.cameraContextPara at heq
      rw [if_pos (.inl (Int.not_le.mp hid))] at heq
      cases heq
      exact h
    obtain ⟨hfree, hdistinct⟩ := hopens ctx hid hctx
    have hsets : ∀ n pad, ParaSets cam ctx ps s n pad → ParaOpens cam ctx ps s n :=
      fun n pad hn => .inr (.inr ⟨pad, hn⟩)
    have hspread : ∀ {n pad flags l m}, ParaSets cam ctx ps s n pad →
        (cam.media.padsOf (cam.meOf n))[pad]? = some flags → flags.sink = false →
        l ∈ cam.linksOf n → l.src = some n → l.mlink.source.index = pad →
        s.linkRefCnt l.id ≠ 0 → l.dst = some m → ParaSets cam ctx ps s m l.mlink.sink.index := by
      rintro n pad flags l m ⟨p, hp, obj, combo, pad₀, hobj, hpad₀, hs⟩ hpad hsink hl hsrc hidx hl0 hdst
      exact ⟨p, hp, obj, combo, pad₀, hobj, hpad₀, hs.step hpad hsink hl hsrc hidx hl0 hdst⟩
    have hclean := h.clean hfree hdistinct
    refine (ParamLaws.kept_cameraContextPara (Q := fun s s' => Owned cam L s → Owned cam L s')
      (kept_clean hk hsets hspread) (fun hs => hs.linkRefCnt) (fun hs ho => ho.of_same hs.devices)
      (fun hs hq ho => hq (ho.of_same hs.devices)) ?_ fuel ?_).imp fun _ _ hq => hq h
    · rintro n p s₁ ⟨hclean, -, hn, -⟩ ho
      rw [ParamLaws.camNodeNullCombo_snd]
      obtain ⟨fd, s₂, hopen, -, -, -, ho'⟩ := ho.camNodeOpen hk (hclean.free n hn)
      rw [hopen]
      exact ho'
    · intro ctx' hctx'
      rw [hctx] at hctx'
      cases hctx'
      refine ⟨fun p hp obj combo hobj => ⟨hclean, rfl, .inr (.inl ⟨p, hp, combo, hobj⟩), ?_⟩,
        hclean, rfl, .inl rfl, fun _ h => by cases h⟩
      intro pad hpad
      cases combo with
      | none => cases hpad
      | some combo => exact ⟨p, hp, obj, combo, pad, hobj, hpad, .refl⟩

end

namespace Ledger

def after (cam : PlatCam) (ret : Int) (s s' : CamState) : Call → Ledger → Ledger
  | .openCam srcID, L =>
    (cam.srcPool[srcID.toNat]?).elim L fun n => L.get n (s'.fd (cam.meOf n))
  | .closeCam srcID, L => (cam.srcPool[srcID.toNat]?).elim L fun n => L.put n
  | .pathGet ctxID, L =>
    if ret < 0 then L else (s.ctx ctxID.toNat).elim L fun ctx => L.get ctx.path ret
  | .pathPut ctxID, L => if ret < 0 then L else (s.ctx ctxID.toNat).elim L fun ctx => L.put ctx.path
  | .sourceGet ctxID, L =>
    if ret < 0 then L else (s.ctx ctxID.toNat).elim L fun ctx => L.get ctx.src ret
  | .sourcePut ctxID, L => if ret < 0 then L else (s.ctx ctxID.toNat).elim L fun ctx => L.put ctx.src
  | .inputOpen ctxID, L =>
    if ret < 0 then L
    else (s.ctx ctxID.toNat).elim L fun ctx => L.take (cam.meOf ctx.src) ctxID.toNat ret
  | .inputClose ctxID, L =>
    if ret < 0 then L else (s.ctx ctxID.toNat).elim L fun ctx => L.give (cam.meOf ctx.src)
  | .outputOpen ctxID port, L =>
    if ret < 0 then L
    else (s.ctx ctxID.toNat).elim L fun ctx =>
      (ctx.out[port.toNat]?).elim L fun r => L.take (cam.meOf r.dst) ctxID.toNat ret
  | .outputClose ctxID port, L =>
    if ret < 0 then L
    else (s.ctx ctxID.toNat).elim L fun ctx =>
      (ctx.out[port.toNat]?).elim L fun r => L.give (cam.meOf r.dst)
  | _, L => L

def MayClose (L : Ledger) (s : CamState) (me : EntityId) (ctxID : Int) : Prop :=
  s.fd me < 0 ∨ ∃ fd, L.port me = some (ctxID.toNat, fd)

end Ledger

namespace Call

def Balanced (cam : PlatCam) (L : Ledger) (s : CamState) : Call → Prop
  | closeCam srcID => ∀ n, cam.srcPool[srcID.toNat]? = some n → L.got n ≠ []
  | pathPut ctxID => ∀ ctx, s.ctx ctxID.toNat = some ctx → L.got ctx.path ≠ []
  | sourcePut ctxID => ∀ ctx, s.ctx ctxID.toNat = some ctx → L.got ctx.src ≠ []
  | _ => True

/-- The two ways of holding a device do not meet on it: what `CamNodeOpen` opens is counted
already or closed, and what a port closes is what it has opened. -/
def Separate (cam : PlatCam) (L : Ledger) (s : CamState) : Call → Prop
  | openCam srcID => ∀ n, cam.srcPool[srcID.toNat]? = some n → Free cam s n
  | pathGet ctxID => ∀ ctx, s.ctx ctxID.toNat = some ctx → Free cam s ctx.path
  | sourceGet ctxID => ∀ ctx, s.ctx ctxID.toNat = some ctx →
    cam.media.typeOf (cam.meOf ctx.src) = .subdevSensor → Free cam s ctx.src
  | contextPara ctxID ps => ∀ ctx, 0 ≤ ctxID → s.ctx ctxID.toNat = some ctx →
    (∀ n, ParaOpens cam ctx ps s n → Free cam s n) ∧
      ∀ n m, ParaOpens cam ctx ps s n → ParaOpens cam ctx ps s m → cam.meOf n = cam.meOf m → n = m
  | inputClose ctxID => ∀ ctx, s.ctx ctxID.toNat = some ctx →
    cam.media.typeOf (cam.meOf ctx.src) = .devnodeV4l → L.MayClose s (cam.meOf ctx.src) ctxID
  | outputClose ctxID port => ∀ ctx r, s.ctx ctxID.toNat = some ctx → ctx.out[port.toNat]? = some r →
    L.MayClose s (cam.meOf r.dst) ctxID
  | _ => True

end Call

/-- A run of balanced calls, each with `P`, in which no context is killed. -/
inductive OwnerRun (cam : PlatCam) (k : Kernel) (fuel : Nat) (P : Ledger → CamState → Call → Prop)
    (s₀ : CamState) : Ledger → CamState → Prop
  | start : OwnerRun cam k fuel P s₀ .empty s₀
  | step {L s c ret s'} : OwnerRun cam k fuel P s₀ L s → (∀ ctxID, c ≠ .contextKill ctxID) →
      c.Balanced cam L s → P L s c → c.exec cam k fuel s = .ok (ret, s') →
      OwnerRun cam k fuel P s₀ (L.after cam ret s s' c) s'

section

variable {cam : PlatCam} {k : Kernel} {L : Ledger} {s s' : CamState}

theorem withCtx_eq_ok {ctxID ret : Int} {f : Nat → CamCtx → CamState → Outcome CamState}
    (h : withCtx ctxID f s = .ok (ret, s')) :
    (ret < 0 ∧ s' = s) ∨
      ∃ ctx, s.ctx ctxID.toNat = some ctx ∧ f ctxID.toNat ctx s = .ok (ret, s') := by
  unfold withCtx at h
  split at h
  · cases h
    exact .inl ⟨by decide, rfl⟩
  · split at h
    · cases h
    · split at h
      · cases h
        exact .inl ⟨by decide, rfl⟩
      next hctx => exact .inr ⟨_, hctx, h⟩

theorem withPort_eq_ok {ctx : CamCtx} {port ret : Int} {f : NodeId → CamState → Outcome CamState}
    (h : withPort ctx port f s = .ok (ret, s')) :
    (ret < 0 ∧ s' = s) ∨ ∃ r, ctx.out[port.toNat]? = some r ∧ f r.dst s = .ok (ret, s') := by
  unfold withPort at h
  split at h
  · cases h
    exact .inl ⟨by decide, rfl⟩
  · split at h
    · cases h
    · split at h
      · cases h
      next r hr => exact .inr ⟨r, hr, h⟩

theorem withSource_eq_ok {srcID ret : Int} {f : NodeId → CamState → Outcome CamState}
    (h : withSource cam srcID f s = .ok (ret, s')) :
    ∃ n, cam.srcPool[srcID.toNat]? = some n ∧ f n s = .ok (ret, s') := by
  unfold withSource at h
  split at h
  · cases h
  · split at h
    · cases h
    next n hn => exact ⟨n, hn, h⟩

namespace Owned

theorem got (hk : k.Opens) (h : Owned cam L s) {n : NodeId} (hfree : Free cam s n) {ret : Int}
    (heq : MediaLib.camNodeOpen cam k n s = (ret, s')) :
    0 ≤ ret ∧ s'.fd (cam.meOf n) = ret ∧ Owned cam (L.get n ret) s' := by
  obtain ⟨fd, s₁, hopen, hpos, hfd, hcnt, h₁⟩ := h.camNodeOpen hk hfree
  rw [hopen] at heq
  cases heq
  have hle := h.got_le n
  have hget := h₁.get (n := n) (by omega)
  rw [hfd] at hget
  exact ⟨hpos, hfd, hget⟩

theorem gavePut (h : Owned cam L s) {n : NodeId} (hgot : L.got n ≠ []) {ret : Int}
    (heq : MediaLib.camNodeClose cam n s = (ret, s')) : 0 ≤ ret ∧ Owned cam (L.put n) s' := by
  have hle := h.got_le n
  have hshort : ((L.put n).got n).length < (L.got n).length := by
    simp only [Ledger.put, Function.update_self, List.length_tail]
    exact Nat.sub_lt (List.length_pos_iff.mpr hgot) Nat.one_pos
  have hput := (h.put n).camNodeClose (n := n) (by omega)
  rw [heq] at hput
  refine ⟨?_, hput⟩
  unfold MediaLib.camNodeClose at heq
  dsimp only at heq
  split at heq
  · cases heq
    exact le_rfl
  · cases heq
    exact le_rfl

theorem took (hk : k.Opens) (h : Owned cam L s) {me : EntityId} {id : Nat} {ctx : CamCtx}
    {flags : BitVec 32} {ret : Int}
    (heq : (if 0 ≤ s.fd me then .ok (-EBUSY, s)
      else if (openMe k me s).1 < 0 then .ok ((openMe k me s).1, (openMe k me s).2)
      else .ok ((openMe k me s).1, (openMe k me s).2.setCtx id (some { ctx with flags := flags })) :
        Outcome CamState) = .ok (ret, s')) :
    (ret < 0 ∧ s' = s) ∨ (0 ≤ ret ∧ Owned cam (L.take me id ret) s') := by
  by_cases hfd : 0 ≤ s.fd me
  · rw [if_pos hfd] at heq
    cases heq
    exact .inl ⟨by decide, rfl⟩
  · obtain ⟨fd, s₁, hopen, hpos, -, h₁⟩ := h.take hk (Int.not_le.mp hfd) id
    rw [if_neg hfd, hopen, if_neg (Int.not_lt.mpr hpos)] at heq
    cases heq
    exact .inr ⟨hpos, h₁.of_same ⟨rfl, rfl, rfl⟩⟩

theorem gave (h : Owned cam L s) {me : EntityId} {ctxID : Int} (hmay : L.MayClose s me ctxID)
    {id : Nat} {ctx : Option CamCtx} {ret : Int}
    (heq : (if s.fd me < 0 then .ok (-EPERM, s) else .ok (0, (closeMe me s).setCtx id ctx) :
        Outcome CamState) = .ok (ret, s')) :
    (ret < 0 ∧ s' = s) ∨ (0 ≤ ret ∧ Owned cam (L.give me) s') := by
  by_cases hfd : s.fd me < 0
  · rw [if_pos hfd] at heq
    cases heq
    exact .inl ⟨by decide, rfl⟩
  · obtain ⟨fd, hport⟩ := hmay.resolve_left hfd
    rw [if_neg hfd] at heq
    cases heq
    exact .inr ⟨le_rfl, (h.give (by rw [hport]; rfl)).of_same ⟨rfl, rfl, rfl⟩⟩

theorem noted (h : Owned cam L s) {ctxID ret : Int} {f : Nat → CamCtx → CamState → Outcome CamState}
    {note : CamCtx → Ledger} (hc : withCtx ctxID f s = .ok (ret, s'))
    (hf : ∀ ctx, s.ctx ctxID.toNat = some ctx → f ctxID.toNat ctx s = .ok (ret, s') →
      (ret < 0 ∧ s' = s) ∨ (0 ≤ ret ∧ Owned cam (note ctx) s')) :
    Owned cam (if ret < 0 then L else (s.ctx ctxID.toNat).elim L note) s' := by
  rcases withCtx_eq_ok hc with ⟨hret, rfl⟩ | ⟨ctx, hctx, hc⟩
  · rwa [if_pos hret]
  · rcases hf ctx hctx hc with ⟨hret, rfl⟩ | ⟨hret, h'⟩
    · rwa [if_pos hret]
    · rwa [if_neg (Int.not_lt.mpr hret), hctx]

theorem notedPort (h : Owned cam L s) {ctxID port ret : Int} {f : Nat → CamCtx → NodeId → CamState →
    Outcome CamState} {note : CamRoute → Ledger}
    (hc : withCtx ctxID (fun id ctx => withPort ctx port (f id ctx)) s = .ok (ret, s'))
    (hf : ∀ ctx r, s.ctx ctxID.toNat = some ctx → ctx.out[port.toNat]? = some r →
      f ctxID.toNat ctx r.dst s = .ok (ret, s') →
        (ret < 0 ∧ s' = s) ∨ (0 ≤ ret ∧ Owned cam (note r) s')) :
    Owned cam (if ret < 0 then L else (s.ctx ctxID.toNat).elim L fun ctx =>
      (ctx.out[port.toNat]?).elim L note) s' := by
  refine h.noted hc fun ctx hctx hcall => ?_
  rcases withPort_eq_ok hcall with hrefused | ⟨r, hr, hcall⟩
  · exact .inl hrefused
  · rw [hr]
    exact hf ctx r hctx hr hcall

theorem exec (hcam : cam.Searched) (hk : k.Opens) (h : Owned cam L s) {fuel : Nat} {c : Call}
    (hkill : ∀ ctxID, c ≠ .contextKill ctxID) (hbal : c.Balanced cam L s)
    (hsep : c.Separate cam L s) {ret : Int} (hc : c.exec cam k fuel s = .ok (ret, s')) :
    Owned cam (L.after cam ret s s' c) s' := by
  cases c with
  | contextInit srcID pathID nrDst =>
    have hinit := initStep_cameraContextInit hcam k srcID pathID nrDst s ret s' hc
    exact h.of_same (sameDevices_initStep hinit)
  | contextPara ctxID paramList =>
    have hpost : Post (Call.exec cam k fuel (.contextPara ctxID paramList) s) fun _ s' =>
        Owned cam L s' := (h.cameraContextPara hk fuel hsep).map
    exact hpost ret s' hc
  | contextKill ctxID => exact absurd rfl (hkill ctxID)
  | outputOpen ctxID port =>
    unfold Call.exec cameraContextOutputOpen at hc
    exact h.notedPort hc fun _ _ _ _ hopen => h.took hk hopen
  | outputClose ctxID port =>
    unfold Call.exec cameraContextOutputClose at hc
    exact h.notedPort hc fun ctx r hctx hr hclose => h.gave (hsep ctx r hctx hr) hclose
  | inputOpen ctxID =>
    unfold Call.exec cameraContextInputOpen at hc
    refine h.noted hc fun ctx _ hopen => ?_
    dsimp only at hopen
    split at hopen
    · cases hopen
      exact .inl ⟨by decide, rfl⟩
    · exact h.took hk hopen
  | inputClose ctxID =>
    unfold Call.exec cameraContextInputClose at hc
    refine h.noted hc fun ctx hctx hclose => ?_
    dsimp only at hclose
    split at hclose
    · cases hclose
      exact .inl ⟨by decide, rfl⟩
    next htype => exact h.gave (hsep ctx hctx (not_not.mp htype)) hclose
  | pathGet ctxID =>
    unfold Call.exec cameraContextPathGet at hc
    refine h.noted hc fun ctx hctx hget => .inr ?_
    exact (h.got hk (hsep ctx hctx) (Except.ok.inj hget)).imp_right And.right
  | pathPut ctxID =>
    unfold Call.exec cameraContextPathPut at hc
    exact h.noted hc fun ctx hctx hput => .inr (h.gavePut (hbal ctx hctx) (Except.ok.inj hput))
  | sourceGet ctxID =>
    unfold Call.exec cameraContextSourceGet at hc
    refine h.noted hc fun ctx hctx hget => ?_
    split at hget
    · cases hget
      exact .inl ⟨by decide, rfl⟩
    next htype =>
      have hgot := h.got hk (hsep ctx hctx (not_not.mp htype)) (Except.ok.inj hget)
      exact .inr (hgot.imp_right And.right)
  | sourcePut ctxID =>
    unfold Call.exec cameraContextSourcePut at hc
    exact h.noted hc fun ctx hctx hput => .inr (h.gavePut (hbal ctx hctx) (Except.ok.inj hput))
  | openCam srcID =>
    unfold Call.exec MediaLib.openCam at hc
    obtain ⟨n, hn, hopen⟩ := withSource_eq_ok hc
    cases hopen
    obtain ⟨-, hfd, h'⟩ := h.got hk (hsep n hn) (Prod.eta _).symm
    simpa only [Ledger.after, hn, Option.elim_some, hfd] using h'
  | closeCam srcID =>
    unfold Call.exec MediaLib.closeCam at hc
    obtain ⟨n, hn, hclose⟩ := withSource_eq_ok hc
    cases hclose
    simpa only [Ledger.after, hn, Option.elim_some] using (h.gavePut (hbal n hn) (Prod.eta _).symm).2

end Owned

end

end G361FPlatform.MediaLib
