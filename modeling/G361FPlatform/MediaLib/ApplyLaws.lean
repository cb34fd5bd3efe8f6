import G361FPlatform.MediaLib.Context
import G361FPlatform.MediaLib.RouteLaws

namespace G361FPlatform.MediaLib

namespace CamState

/-- Nothing but counters and the record of `media_setup_link` calls differs. -/
structure OnlyCounts (s s' : CamState) : Prop where
  nodeFlags : s'.nodeFlags = s.nodeFlags
  openCnt : s'.openCnt = s.openCnt
  fd : s'.fd = s.fd
  ctx : s'.ctx = s.ctx
  ioctls : s'.ioctls = s.ioctls
  files : s'.files = s.files
  opens : s'.opens = s.opens

theorem OnlyCounts.refl (s : CamState) : s.OnlyCounts s := ⟨rfl, rfl, rfl, rfl, rfl, rfl, rfl⟩

theorem OnlyCounts.trans {s₁ s₂ s₃ : CamState} (h₁ : s₁.OnlyCounts s₂) (h₂ : s₂.OnlyCounts s₃) :
    s₁.OnlyCounts s₃ where
  nodeFlags := h₂.nodeFlags.trans h₁.nodeFlags
  openCnt := h₂.openCnt.trans h₁.openCnt
  fd := h₂.fd.trans h₁.fd
  ctx := h₂.ctx.trans h₁.ctx
  ioctls := h₂.ioctls.trans h₁.ioctls
  files := h₂.files.trans h₁.files
  opens := h₂.opens.trans h₁.opens

end CamState

open CamState

variable {k : Kernel} {flag : Nat}

theorem onlyCounts_mediaSetupLink (l : CamLink) (s : CamState) :
    s.OnlyCounts (mediaSetupLink k l flag s).2 := ⟨rfl, rfl, rfl, rfl, rfl, rfl, rfl⟩

theorem onlyCounts_addLinkRef (l : LinkId) (d : Int) (s : CamState) :
    s.OnlyCounts (s.addLinkRef l d) := ⟨rfl, rfl, rfl, rfl, rfl, rfl, rfl⟩

theorem onlyCounts_addRouteRef (r : RouteId) (d : Int) (s : CamState) :
    s.OnlyCounts (s.addRouteRef r d) := ⟨rfl, rfl, rfl, rfl, rfl, rfl, rfl⟩

theorem onlyCounts_camLinkApply (l : CamLink) (s : CamState) :
    s.OnlyCounts (camLinkApply k l flag s).2 := by
  unfold camLinkApply
  split
  · dsimp only
    split
    · exact (onlyCounts_addLinkRef _ _ s).trans (onlyCounts_mediaSetupLink l _)
    · exact onlyCounts_addLinkRef _ _ s
  · split
    · dsimp only
      split
      · exact (onlyCounts_mediaSetupLink l s).trans (onlyCounts_mediaSetupLink l _)
      · exact (onlyCounts_mediaSetupLink l s).trans (onlyCounts_addLinkRef _ _ _)
    · exact onlyCounts_addLinkRef _ _ s

theorem routeDisable_snd (head : CamLink) (s : CamState) :
    (routeDisable k head flag s).2 = (camLinkApply k head flag s).2 := by
  unfold routeDisable
  dsimp only
  split <;> rfl

/-- What holds between the states around each of its steps, and is transitive, holds around
`CamRouteApply`. -/
theorem routeApplyBody_rel {R : CamState → CamState → Prop}
    (htrans : ∀ {s₁ s₂ s₃}, R s₁ s₂ → R s₂ s₃ → R s₁ s₃) {id : RouteId} {head : CamLink}
    {applyMore : CamState → Int × CamState} (hroute : ∀ d s, R s (s.addRouteRef id d))
    (hlink : ∀ s, R s (camLinkApply k head flag s).2) (hmore : ∀ s, R s (applyMore s).2)
    (s : CamState) : R s (routeApplyBody k id head flag applyMore s).2 := by
  have hdis : ∀ s, R s (routeDisable k head flag s).2 := by
    intro s
    rw [routeDisable_snd]
    exact hlink s
  unfold routeApplyBody
  split
  · dsimp only
    split
    · split
      · exact htrans (hroute _ s) (hmore _)
      · exact htrans (htrans (hroute _ s) (hmore _)) (hdis _)
    · exact hroute _ s
  · split
    · dsimp only
      split
      · exact htrans (hlink s) (hdis _)
      · split
        · exact htrans (htrans (hlink s) (hmore _)) (hdis _)
        · exact htrans (htrans (hlink s) (hmore _)) (hroute _ _)
    · exact hroute _ s

theorem camRouteApply_rel {R : CamState → CamState → Prop} (hrefl : ∀ s, R s s)
    (htrans : ∀ {s₁ s₂ s₃}, R s₁ s₂ → R s₂ s₃ → R s₁ s₃) (r : CamRoute)
    (hroute : ∀ x ∈ r.segments, ∀ d s, R s (s.addRouteRef x.id d))
    (hlink : ∀ x ∈ r.segments, ∀ s, R s (camLinkApply k x.head flag s).2) (s : CamState) :
    R s (camRouteApply k flag r s).2 := by
  induction r generalizing s with
  | last id src dst head =>
    have hself : CamRoute.last id src dst head ∈ (CamRoute.last id src dst head).segments :=
      List.mem_singleton_self _
    unfold camRouteApply
    exact routeApplyBody_rel (R := R) htrans (hroute _ hself) (hlink _ hself) (fun s => hrefl s) s
  | cons id src dst head more ih =>
    have hself : CamRoute.cons id src dst head more ∈ (CamRoute.cons id src dst head more).segments :=
      List.mem_cons_self
    unfold camRouteApply
    refine routeApplyBody_rel (R := R) htrans (hroute _ hself) (hlink _ hself) ?_ s
    exact ih (fun x hx => hroute x (List.mem_cons_of_mem _ hx))
      fun x hx => hlink x (List.mem_cons_of_mem _ hx)

theorem onlyCounts_camRouteApply (r : CamRoute) (s : CamState) :
    s.OnlyCounts (camRouteApply k flag r s).2 :=
  camRouteApply_rel (R := fun s s' => s.OnlyCounts s') .refl (fun h₁ h₂ => h₁.trans h₂) r
    (fun x _ => onlyCounts_addRouteRef x.id) (fun x _ => onlyCounts_camLinkApply x.head) s

theorem routeRefCnt_camLinkApply (l : CamLink) (s : CamState) :
    (camLinkApply k l flag s).2.routeRefCnt = s.routeRefCnt := by
  unfold camLinkApply
  split
  · dsimp only
    split <;> rfl
  · split
    · dsimp only
      split <;> rfl
    · rfl

theorem routeRefCnt_camRouteApply {id : RouteId} (r : CamRoute)
    (h : ∀ x ∈ r.segments, x.id ≠ id) (s : CamState) :
    (camRouteApply k flag r s).2.routeRefCnt id = s.routeRefCnt id := by
  refine camRouteApply_rel (R := fun s s' => s'.routeRefCnt id = s.routeRefCnt id) (fun _ => rfl)
    (fun h₁ h₂ => h₂.trans h₁) r ?_ ?_ s
  · exact fun x hx d s => Function.update_of_ne (h x hx).symm _ _
  · exact fun x _ s => congrFun (routeRefCnt_camLinkApply x.head s) id

theorem PlatCam.Searched.segments_mem {cam : PlatCam} (hcam : cam.Searched) {r x : CamRoute}
    (hr : r ∈ cam.heap) (hx : x ∈ r.segments) : x ∈ cam.heap ∧ x.id ≤ r.id := by
  induction r with
  | last id src dst head =>
    rw [CamRoute.segments, List.mem_singleton] at hx
    subst hx
    exact ⟨hr, le_refl _⟩
  | cons id src dst head more ih =>
    rw [CamRoute.segments, List.mem_cons] at hx
    rcases hx with rfl | hx
    · exact ⟨hr, le_refl _⟩
    · obtain ⟨hmore, hlt⟩ := hcam.more_mem hr rfl
      obtain ⟨hmem, hle⟩ := ih hmore hx
      exact ⟨hmem, hle.trans (le_of_lt hlt)⟩

theorem PlatCam.Searched.routeRefCnt_apply_more {cam : PlatCam} (hcam : cam.Searched)
    (k : Kernel) (flag : Nat) {r m : CamRoute} (hr : r ∈ cam.heap) (hm : r.more = some m) (s : CamState) :
    (camRouteApply k flag m s).2.routeRefCnt r.id = s.routeRefCnt r.id := by
  obtain ⟨hmem, hlt⟩ := hcam.more_mem hr hm
  apply routeRefCnt_camRouteApply
  intro x hx heq
  exact absurd (heq ▸ (hcam.segments_mem hmem hx).2) (not_le_of_gt hlt)

end G361FPlatform.MediaLib
