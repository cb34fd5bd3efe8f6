import G361FPlatform.MediaLib.InitLaws

namespace G361FPlatform.MediaLib

open Library Outcome CamState

def Kernel.Fails (k : Kernel) (n : Nat) : Prop := k.setupLink n < 0

/-- `CamLinkApply(..., 1)` on `l` goes through: from the link counts `cnt` and the `n`-th
`media_setup_link` to `cnt'` and the `n'`-th. -/
inductive Passes (k : Kernel) (l : LinkId) (cnt : LinkId → Int) (n : Nat) :
    (LinkId → Int) → Nat → Prop
  | counted : cnt l ≠ 0 → Passes k l cnt n (Function.update cnt l (cnt l + 1)) n
  | enabled : cnt l = 0 → ¬k.Fails n → Passes k l cnt n (Function.update cnt l (cnt l + 1)) (n + 1)
  -- the second attempt, made to undo the first one, enables the link and nobody counts it
  | uncounted : cnt l = 0 → k.Fails n → ¬k.Fails (n + 1) → Passes k l cnt n cnt (n + 2)

/-- The driver refuses a route: its first link, four times in a row, or the route behind it
and then the first link, should that one stand uncounted. -/
inductive Refused (k : Kernel) (ref : RouteId → Int) :
    CamRoute → (LinkId → Int) → Nat → (LinkId → Int) → Nat → Prop
  | head {r cnt n} : ref r.id = 0 → cnt r.head.id = 0 → k.Fails n → k.Fails (n + 1) →
      k.Fails (n + 2) → k.Fails (n + 3) → Refused k ref r cnt n cnt (n + 4)
  | more {r m cnt n cnt₁ n₁ cnt' n'} : r.more = some m → ref r.id = 0 →
      Passes k r.head.id cnt n cnt₁ n₁ → Refused k ref m cnt₁ n₁ cnt' n' → cnt' r.head.id = 0 →
      k.Fails n' → k.Fails (n' + 1) → Refused k ref r cnt n cnt' (n' + 2)

inductive RoutesRefused (k : Kernel) : List CamRoute → CamState → Prop
  | here {r rs s cnt' n'} :
      Refused k s.routeRefCnt r s.linkRefCnt s.setupCalls.length cnt' n' →
      RoutesRefused k (r :: rs) s
  | later {r rs s s'} : camRouteApply k 1 r s = (0, s') → RoutesRefused k rs s' →
      RoutesRefused k (r :: rs) s

section

variable {cam : PlatCam} {k : Kernel} {s : CamState}

/-- What the refusals speak of: the counts, and how many calls of `media_setup_link` were made. -/
structure Reads (s : CamState) (ref : RouteId → Int) (cnt : LinkId → Int) (n : Nat) : Prop where
  ref : s.routeRefCnt = ref
  cnt : s.linkRefCnt = cnt
  calls : s.setupCalls.length = n

theorem reads_self (s : CamState) : Reads s s.routeRefCnt s.linkRefCnt s.setupCalls.length :=
  ⟨rfl, rfl, rfl⟩

variable {ref : RouteId → Int} {cnt cnt' : LinkId → Int} {n n' : Nat}

theorem Passes.apply {l : CamLink} (h : Passes k l.id cnt n cnt' n') (hs : Reads s ref cnt n) :
    ∃ ret s', camLinkApply k l 1 s = (ret, s') ∧ 0 ≤ ret ∧ Reads s' ref cnt' n' := by
  obtain ⟨rfl, rfl, rfl⟩ := hs
  cases h with
  | counted hcnt => exact ⟨0, s.addLinkRef l.id 1, by simp [camLinkApply, hcnt], le_rfl, rfl, rfl, rfl⟩
  | enabled hcnt hok =>
    refine ⟨0, ((mediaSetupLink k l 1 s).2).addLinkRef l.id 1, ?_, le_rfl, rfl, rfl, rfl⟩
    have hret : ¬k.setupLink s.setupCalls.length < 0 := hok
    simp [camLinkApply, hcnt, mediaSetupLink, hret]
  | uncounted hcnt hfail hok =>
    have hret : k.setupLink s.setupCalls.length < 0 := hfail
    refine ⟨_, (mediaSetupLink k l 1 (mediaSetupLink k l 1 s).2).2, ?_, Int.not_lt.mp hok, rfl, rfl, rfl⟩
    simp [camLinkApply, hcnt, mediaSetupLink, hret]

theorem camLinkApply_fails {l : CamLink} (hcnt : cnt l.id = 0) (h₀ : k.Fails n)
    (h₁ : k.Fails (n + 1)) (hs : Reads s ref cnt n) :
    ∃ ret s', camLinkApply k l 1 s = (ret, s') ∧ ret < 0 ∧ Reads s' ref cnt (n + 2) := by
  obtain ⟨rfl, rfl, rfl⟩ := hs
  have hret : k.setupLink s.setupCalls.length < 0 := h₀
  refine ⟨_, (mediaSetupLink k l 1 (mediaSetupLink k l 1 s).2).2, ?_, h₁, rfl, rfl, rfl⟩
  simp [camLinkApply, hcnt, mediaSetupLink, hret]

theorem passes_or_fails (l : LinkId) (cnt : LinkId → Int) (n : Nat) :
    (∃ cnt' n', Passes k l cnt n cnt' n') ∨ (cnt l = 0 ∧ k.Fails n ∧ k.Fails (n + 1)) := by
  by_cases hcnt : cnt l = 0
  · by_cases h₀ : k.Fails n
    · by_cases h₁ : k.Fails (n + 1)
      · exact .inr ⟨hcnt, h₀, h₁⟩
      · exact .inl ⟨_, _, .uncounted hcnt h₀ h₁⟩
    · exact .inl ⟨_, _, .enabled hcnt h₀⟩
  · exact .inl ⟨_, _, .counted hcnt⟩

theorem Refused.apply {r : CamRoute} (h : Refused k ref r cnt n cnt' n') (hs : Reads s ref cnt n) :
    ∃ ret s', camRouteApply k 1 r s = (ret, s') ∧ ret < 0 ∧ Reads s' ref cnt' n' := by
  have hhead : ∀ {r : CamRoute} {s : CamState} {cnt : LinkId → Int} {n : Nat}
      {applyMore : CamState → Int × CamState}, Reads s ref cnt n → ref r.id = 0 →
      cnt r.head.id = 0 → k.Fails n → k.Fails (n + 1) → k.Fails (n + 2) → k.Fails (n + 3) →
      ∃ ret s', routeApplyBody k r.id r.head 1 applyMore s = (ret, s') ∧ ret < 0 ∧
        Reads s' ref cnt (n + 4) := by
    intro r s cnt n applyMore hs href hcnt h₀ h₁ h₂ h₃
    obtain ⟨ret₁, s₁, hlink₁, hneg₁, hs₁⟩ := camLinkApply_fails hcnt h₀ h₁ hs
    obtain ⟨ret₂, s₂, hlink₂, hneg₂, hs₂⟩ := camLinkApply_fails hcnt h₂ h₃ hs₁
    refine ⟨ret₂, s₂, ?_, hneg₂, hs₂⟩
    have hzero : s.routeRefCnt r.id = 0 := hs.ref ▸ href
    simp [routeApplyBody, hzero, hlink₁, hneg₁, routeDisable, hlink₂, hneg₂]
  induction r generalizing s cnt n cnt' n' with
  | last id src dst head =>
    cases h with
    | head href hcnt h₀ h₁ h₂ h₃ => exact hhead (r := .last id src dst head) hs href hcnt h₀ h₁ h₂ h₃
    | more hmore => cases hmore
  | cons id src dst head more ih =>
    cases h with
    | head href hcnt h₀ h₁ h₂ h₃ =>
      exact hhead (r := .cons id src dst head more) hs href hcnt h₀ h₁ h₂ h₃
    | more hmore href hpass hrest hcnt h₀ h₁ =>
      cases hmore
      obtain ⟨ret₁, s₁, hlink₁, hpos₁, hs₁⟩ := hpass.apply hs
      obtain ⟨ret₂, s₂, happly, hneg₂, hs₂⟩ := ih hrest hs₁
      obtain ⟨ret₃, s₃, hlink₃, hneg₃, hs₃⟩ := camLinkApply_fails hcnt h₀ h₁ hs₂
      refine ⟨ret₃, s₃, ?_, hneg₃, hs₃⟩
      have hzero : s.routeRefCnt id = 0 := hs.ref ▸ href
      have hnonneg : ¬ret₁ < 0 := Int.not_lt.mpr hpos₁
      change camLinkApply k head 1 s = (ret₁, s₁) at hlink₁
      change camLinkApply k head 1 s₂ = (ret₃, s₃) at hlink₃
      simp [camRouteApply, routeApplyBody, hzero, hlink₁, hnonneg, happly, hneg₂, routeDisable,
        hlink₃, hneg₃]

theorem routeDisable_cases (l : CamLink) {s : CamState} (hs : Reads s ref cnt n) :
    (∃ s', routeDisable k l 1 s = (0, s')) ∨ (cnt l.id = 0 ∧ k.Fails n ∧ k.Fails (n + 1)) := by
  rcases passes_or_fails (k := k) l.id cnt n with ⟨cnt', n', hpass⟩ | hfails
  · obtain ⟨ret, s', hlink, hpos, -⟩ := hpass.apply hs
    exact .inl ⟨s', by simp [routeDisable, hlink, Int.not_lt.mpr hpos]⟩
  · exact .inr hfails

theorem camRouteApply_cases (r : CamRoute) (hs : Reads s ref cnt n) :
    (∃ s', camRouteApply k 1 r s = (0, s')) ∨ ∃ cnt' n', Refused k ref r cnt n cnt' n' := by
  have hbody : ∀ {r : CamRoute} {s : CamState} {cnt : LinkId → Int} {n : Nat}
      {applyMore : CamState → Int × CamState}, Reads s ref cnt n →
      (∀ {s₁ cnt₁ n₁}, Reads s₁ ref cnt₁ n₁ → (∃ s₂, applyMore s₁ = (0, s₂)) ∨
        ∃ m cnt' n' ret s₂, r.more = some m ∧ Refused k ref m cnt₁ n₁ cnt' n' ∧
          applyMore s₁ = (ret, s₂) ∧ ret < 0 ∧ Reads s₂ ref cnt' n') →
      (∃ s', routeApplyBody k r.id r.head 1 applyMore s = (0, s')) ∨
        ∃ cnt' n', Refused k ref r cnt n cnt' n' := by
    intro r s cnt n applyMore hs hmore
    by_cases hzero : ref r.id = 0
    case neg =>
      have href : s.routeRefCnt r.id ≠ 0 := hs.ref ▸ hzero
      exact .inl ⟨s.addRouteRef r.id 1, by simp [routeApplyBody, href]⟩
    case pos =>
    have href : s.routeRefCnt r.id = 0 := hs.ref ▸ hzero
    rcases passes_or_fails (k := k) r.head.id cnt n with ⟨cnt₁, n₁, hpass⟩ | ⟨hcnt, h₀, h₁⟩
    · obtain ⟨ret₁, s₁, hlink, hpos, hs₁⟩ := hpass.apply hs
      have hnonneg : ¬ret₁ < 0 := Int.not_lt.mpr hpos
      rcases hmore hs₁ with ⟨s₂, happly⟩ | ⟨m, cnt', n', ret₂, s₂, hm, hrefused, happly, hneg, hs₂⟩
      · refine .inl ⟨s₂.addRouteRef r.id 1, ?_⟩
        simp [routeApplyBody, href, hlink, hnonneg, happly]
      · rcases routeDisable_cases (k := k) r.head hs₂ with ⟨s₃, hdis⟩ | ⟨hcnt', h₀, h₁⟩
        · refine .inl ⟨s₃, ?_⟩
          simp [routeApplyBody, href, hlink, hnonneg, happly, hneg, hdis]
        · exact .inr ⟨_, _, .more hm hzero hpass hrefused hcnt' h₀ h₁⟩
    · obtain ⟨ret₁, s₁, hlink, hneg, hs₁⟩ := camLinkApply_fails hcnt h₀ h₁ hs
      rcases routeDisable_cases (k := k) r.head hs₁ with ⟨s₂, hdis⟩ | ⟨-, h₂, h₃⟩
      · refine .inl ⟨s₂, ?_⟩
        simp [routeApplyBody, href, hlink, hneg, hdis]
      · exact .inr ⟨_, _, .head hzero hcnt h₀ h₁ h₂ h₃⟩
  induction r generalizing s cnt n with
  | last id src dst head =>
    exact hbody (r := .last id src dst head) hs fun {s₁ _ _} _ => .inl ⟨s₁, rfl⟩
  | cons id src dst head more ih =>
    refine hbody (r := .cons id src dst head more) hs fun {s₁ cnt₁ n₁} hs₁ => ?_
    rcases ih hs₁ with happly | ⟨cnt', n', hrefused⟩
    · exact .inl happly
    · obtain ⟨ret, s₂, happly, hneg, hs₂⟩ := hrefused.apply hs₁
      exact .inr ⟨more, cnt', n', ret, s₂, rfl, hrefused, happly, hneg, hs₂⟩

theorem applyRoutes_cases (rs : List CamRoute) (s : CamState) :
    (∃ s', applyRoutes k rs s = (0, s') ∧ ¬RoutesRefused k rs s) ∨
      ∃ ret s', applyRoutes k rs s = (ret, s') ∧ ret < 0 ∧ RoutesRefused k rs s := by
  induction rs generalizing s with
  | nil => exact .inl ⟨s, rfl, by rintro ⟨⟩⟩
  | cons r rs ih =>
    rcases camRouteApply_cases (k := k) r (reads_self s) with ⟨s₁, happly⟩ | ⟨cnt', n', hrefused⟩
    · have hhead : ∀ cnt' n', ¬Refused k s.routeRefCnt r s.linkRefCnt s.setupCalls.length cnt' n' := by
        intro cnt' n' hrefused
        obtain ⟨ret, s', happly', hneg, -⟩ := hrefused.apply (reads_self s)
        rw [happly] at happly'
        cases happly'
        omega
      rcases ih s₁ with ⟨s', hrest, hnot⟩ | ⟨ret, s', hrest, hneg, hrefused⟩
      · refine .inl ⟨s', by simp [applyRoutes, happly, hrest], ?_⟩
        intro h
        cases h with
        | here hrefused => exact hhead _ _ hrefused
        | later happly' hrefused =>
          rw [happly] at happly'
          cases happly'
          exact hnot hrefused
      · refine .inr ⟨ret, s', by simp [applyRoutes, happly, hrest], hneg, .later happly hrefused⟩
    · obtain ⟨ret, s', happly, hneg, -⟩ := hrefused.apply (reads_self s)
      exact .inr ⟨ret, s', by simp [applyRoutes, happly, hneg], hneg, .here hrefused⟩

end

/-- What a caller may count on when a call is refused. -/
structure CamState.Untouched (s s' : CamState) : Prop where
  occupy : ∀ n, tstFlag (s'.nodeFlags n) CAMNODE_FL_S_OCCUPY = tstFlag (s.nodeFlags n) CAMNODE_FL_S_OCCUPY
  linkRefCnt : s'.linkRefCnt = s.linkRefCnt
  routeRefCnt : s'.routeRefCnt = s.routeRefCnt
  ctx : s'.ctx = s.ctx

/-- The call gets as far as a route that the driver refuses, with outputs taken or with the
count of a link brought back from -1 by then. -/
def InterruptedInit (cam : PlatCam) (k : Kernel) (srcID pathID nrDst : Int) (s : CamState) : Prop :=
  ∃ route id out s₁, contextLookup cam srcID pathID nrDst s = .ok (.ok (route, id)) ∧
    selectOutputs nrDst.toNat (cam.route route.dst) [] s = (some out, s₁) ∧
    (0 < nrDst ∧ RoutesRefused k (route :: out) s₁ ∨
      nrDst ≤ 0 ∧ ∃ cnt' n', Refused k s.routeRefCnt route s.linkRefCnt s.setupCalls.length cnt' n' ∧
        cnt' ≠ s.linkRefCnt)

section

variable {cam : PlatCam} {k : Kernel} {srcID pathID nrDst : Int} {s s₁ s' : CamState}
  {route : CamRoute} {id : Nat} {out : List CamRoute}

theorem CamState.Untouched.refl (s : CamState) : s.Untouched s := ⟨fun _ => rfl, rfl, rfl, rfl⟩

theorem interruptedInit_iff
    (hlookup : contextLookup cam srcID pathID nrDst s = .ok (.ok (route, id)))
    (hselect : selectOutputs nrDst.toNat (cam.route route.dst) [] s = (some out, s₁)) :
    InterruptedInit cam k srcID pathID nrDst s ↔
      0 < nrDst ∧ RoutesRefused k (route :: out) s₁ ∨
      nrDst ≤ 0 ∧ ∃ cnt' n', Refused k s.routeRefCnt route s.linkRefCnt s.setupCalls.length cnt' n' ∧
        cnt' ≠ s.linkRefCnt := by
  constructor
  · rintro ⟨route', id', out', s₁', hlookup', hselect', h⟩
    rw [hlookup] at hlookup'
    cases hlookup'
    rw [hselect] at hselect'
    cases hselect'
    exact h
  · exact fun h => ⟨route, id, out, s₁, hlookup, hselect, h⟩

theorem not_untouched_of_chosen (hchosen : Chosen s out s₁) (hne : out ≠ [])
    (hframe : s₁.OnlyCounts s') : ¬s.Untouched s' := by
  intro h
  obtain ⟨r, hr⟩ := List.exists_mem_of_ne_nil out hne
  have hafter : tstFlag (s'.nodeFlags r.dst) CAMNODE_FL_S_OCCUPY = true := by
    rw [hframe.nodeFlags]
    exact (hchosen.occupied_iff r.dst).mpr (.inr ⟨r, hr, rfl⟩)
  rw [h.occupy, hchosen.free hr] at hafter
  cases hafter

theorem untouched_iff_of_refused {ret : Int}
    (happly : applyRoutes k [route] s = (ret, s'))
    (hrefused : RoutesRefused k [route] s) :
    s.Untouched s' ↔ ¬∃ cnt' n',
      Refused k s.routeRefCnt route s.linkRefCnt s.setupCalls.length cnt' n' ∧ cnt' ≠ s.linkRefCnt := by
  have hframe := onlyCounts_applyRoutes (k := k) [route] s
  rw [happly] at hframe
  have hreads : ∀ {cnt' n'},
      Refused k s.routeRefCnt route s.linkRefCnt s.setupCalls.length cnt' n' →
        Reads s' s.routeRefCnt cnt' n' := by
    intro cnt' n' h
    obtain ⟨ret', s'', hroute, hneg', hs''⟩ := h.apply (reads_self s)
    simp only [applyRoutes, hroute, hneg', if_true] at happly
    cases happly
    exact hs''
  cases hrefused with
  | later _ h => cases h
  | here h =>
    constructor
    · rintro huntouched ⟨cnt', n', h', hne⟩
      exact hne ((hreads h').cnt ▸ huntouched.linkRefCnt)
    · intro hno
      refine ⟨fun n => by rw [hframe.nodeFlags], ?_, (hreads h).ref, hframe.ctx⟩
      by_contra hne
      exact hno ⟨_, _, h, (hreads h).cnt ▸ hne⟩

/-- `CameraContextInit` fails cleanly unless a driver's refusal interrupts it. -/
theorem untouched_iff_not_interruptedInit (hcam : cam.Searched) (k : Kernel) (hsrc : 0 ≤ srcID)
    (hpath : 0 ≤ pathID) (nrDst : Int) (s : CamState) :
    ∃ ret s', cameraContextInit cam k srcID pathID nrDst s = .ok (ret, s') ∧
      ((ret < 0 → s.Untouched s') ↔ ¬InterruptedInit cam k srcID pathID nrDst s) := by
  obtain ⟨res, hlookup⟩ := contextLookup_total cam hsrc hpath nrDst s
  rcases res with ret | ⟨route, id⟩
  · refine ⟨ret, s, by simp [cameraContextInit, hlookup], iff_of_true (fun _ => .refl s) ?_⟩
    rintro ⟨route, id, out, s₁, hlookup', -⟩
    rw [hlookup] at hlookup'
    cases hlookup'
  · have hfound := contextLookup_eq_ok hlookup
    obtain ⟨sNode, -, hroute⟩ := hfound.src
    obtain ⟨crop, hcrop⟩ := findCrop_eq_some (hcam.linked (hcam.route_mem hroute).1)
    rcases selectOutputs_cases nrDst.toNat (cam.route route.dst) (Chosen.nil : Chosen s [] s) with
      hnone | ⟨out, s₁, hselect, hchosen, -, hlen⟩
    · refine ⟨-1, s, ?_, iff_of_true (fun _ => .refl s) ?_⟩
      · simp [cameraContextInit, hlookup, contextReady, hcrop, hnone, setCtx_none hfound.free]
      · rintro ⟨route', id', out, s₁, hlookup', hselect', -⟩
        rw [hlookup] at hlookup'
        cases hlookup'
        rw [hnone] at hselect'
        cases hselect'
    · rw [List.reverse_nil, List.nil_append] at hselect
      rw [List.append_nil] at hchosen
      rw [interruptedInit_iff hlookup hselect]
      have hframe := onlyCounts_applyRoutes (k := k) (route :: out) s₁
      have hnil : nrDst ≤ 0 → out = [] ∧ s₁ = s := by
        intro hnr
        have hout : out = [] := List.length_eq_zero_iff.mp (by omega)
        subst hout
        cases hchosen
        exact ⟨rfl, rfl⟩
      rcases applyRoutes_cases (k := k) (route :: out) s₁ with
        ⟨s₂, happly, hnot⟩ | ⟨ret, s₂, happly, hneg, hrefused⟩
      · refine ⟨id, _, by simp [cameraContextInit, hlookup, contextReady, hcrop, hselect, happly]; rfl, ?_⟩
        refine iff_of_true (fun hneg => absurd hneg (by omega)) ?_
        rintro (⟨-, h⟩ | ⟨hnr, cnt', n', h, -⟩)
        · exact hnot h
        · obtain ⟨rfl, rfl⟩ := hnil hnr
          exact hnot (.here h)
      · rw [happly] at hframe
        have hfree : s₂.ctx id = none := by
          rw [hframe.ctx, hchosen.eq_with]
          exact hfound.free
        refine ⟨ret, s₂, ?_, ?_⟩
        · simp [cameraContextInit, hlookup, contextReady, hcrop, hselect, happly, hneg,
            setCtx_none hfree]
        · simp only [hneg, true_implies]
          rcases Int.lt_or_le 0 nrDst with hpos | hnr
          · have hne : out.reverse ≠ [] := by
              intro h
              have := congrArg List.length h
              simp only [List.length_reverse, List.length_nil] at this
              omega
            exact iff_of_false (not_untouched_of_chosen hchosen hne hframe)
              (not_not.mpr (.inl ⟨hpos, hrefused⟩))
          · obtain ⟨rfl, rfl⟩ := hnil hnr
            rw [untouched_iff_of_refused happly hrefused]
            simp [hnr, Int.not_lt.mpr hnr]

end

def stuckKernel : Kernel := { readyKernel with setupLink := fun n => if n < 4 then -EPIPE else 0 }

theorem untouched_iff_smallBoard :
    0 ≤ (0 : Int) ∧ ∃ ret s',
      cameraContextInit smallStart.1 stuckKernel 0 0 1 smallStart.2 = .ok (ret, s') ∧
        ((ret < 0 → smallStart.2.Untouched s') ↔
          ¬InterruptedInit smallStart.1 stuckKernel 0 0 1 smallStart.2) :=
  ⟨le_rfl, untouched_iff_not_interruptedInit (initialised_of_mediaLibInit smallInit_eq).searched
    stuckKernel le_rfl le_rfl 1 smallStart.2⟩

theorem not_untouched_smallBoard :
    mediaLibInit stuckKernel 20 (some smallBoard) (fun _ => true) = .ok (some smallStart) ∧
      ∃ ret s', cameraContextInit smallStart.1 stuckKernel 0 0 1 smallStart.2 = .ok (ret, s') ∧
        ret < 0 ∧ ¬smallStart.2.Untouched s' := by
  have hseen : (cameraContextInit smallStart.1 stuckKernel 0 0 1 smallStart.2).toOption.map
      (fun p => (p.1, tstFlag (p.2.nodeFlags 4) CAMNODE_FL_S_OCCUPY)) = some (-EPIPE, true) := by
    decide +kernel
  obtain ⟨⟨ret, s'⟩, hinit, hp⟩ := exists_of_map_eq_some hseen
  obtain ⟨rfl, hocc⟩ := Prod.mk.inj hp
  refine ⟨rfl, _, s', hinit, by decide, fun h => ?_⟩
  rw [h.occupy 4] at hocc
  exact absurd hocc (by decide +kernel)

end G361FPlatform.MediaLib
