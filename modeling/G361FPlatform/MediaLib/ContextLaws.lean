import G361FPlatform.MediaLib.ApplyLaws
import G361FPlatform.MediaLib.StateLaws

namespace G361FPlatform.MediaLib

open Library

/-- `s` is `s₀` after the outputs of `out` were taken one by one, the last one first. -/
inductive Chosen (s₀ : CamState) : List CamRoute → CamState → Prop
  | nil : Chosen s₀ [] s₀
  | cons {out s r} : Chosen s₀ out s → tstFlag (s.nodeFlags r.dst) CAMNODE_FL_S_OCCUPY = false →
      Chosen s₀ (r :: out) (s.setNodeFlag r.dst CAMNODE_FL_S_OCCUPY)

namespace Chosen

variable {s₀ s : CamState} {out : List CamRoute}

theorem release (h : Chosen s₀ out s) : releaseOutputs out s = s₀ := by
  induction h with
  | nil => rfl
  | cons _ hfree ih => rw [releaseOutputs, CamState.clrNodeFlag_setNodeFlag hfree, ih]

theorem eq_with (h : Chosen s₀ out s) : s = { s₀ with nodeFlags := s.nodeFlags } := by
  induction h with
  | nil => rfl
  | cons _ _ ih => exact congrArg (CamState.setNodeFlag _ CAMNODE_FL_S_OCCUPY) ih

theorem occupied_iff (h : Chosen s₀ out s) (n : NodeId) :
    tstFlag (s.nodeFlags n) CAMNODE_FL_S_OCCUPY = true ↔
      tstFlag (s₀.nodeFlags n) CAMNODE_FL_S_OCCUPY = true ∨ ∃ r ∈ out, r.dst = n := by
  induction h with
  | nil => simp
  | @cons out s r _ _ ih =>
    by_cases hn : n = r.dst
    · subst hn
      simp [CamState.setNodeFlag, tstFlag_eq, CAMNODE_FL_S_OCCUPY]
    · simp only [CamState.setNodeFlag, Function.update_of_ne hn, ih, List.mem_cons]
      constructor
      · rintro (h | ⟨r', hr', h⟩)
        · exact .inl h
        · exact .inr ⟨r', .inr hr', h⟩
      · rintro (h | ⟨r', rfl | hr', h⟩)
        · exact .inl h
        · exact absurd h.symm hn
        · exact .inr ⟨r', hr', h⟩

theorem dst_nodup (h : Chosen s₀ out s) : (out.map CamRoute.dst).Nodup := by
  induction h with
  | nil => exact List.nodup_nil
  | @cons out s r hout hfree ih =>
    refine List.nodup_cons.mpr ⟨fun hmem => ?_, ih⟩
    obtain ⟨r', hr', hdst⟩ := List.mem_map.mp hmem
    rw [(hout.occupied_iff r.dst).mpr (.inr ⟨r', hr', hdst⟩)] at hfree
    cases hfree

theorem free (h : Chosen s₀ out s) {r : CamRoute} (hr : r ∈ out) :
    tstFlag (s₀.nodeFlags r.dst) CAMNODE_FL_S_OCCUPY = false := by
  induction h with
  | nil => cases hr
  | @cons out s r' hout hfree ih =>
    rcases List.mem_cons.mp hr with rfl | hr
    · have hocc := hout.occupied_iff r.dst
      rw [hfree] at hocc
      simpa using fun h => (hocc.mpr (.inl h))
    · exact ih hr

end Chosen

theorem nextOutput_eq_some {s : CamState} {routes rest : List CamRoute} {r : CamRoute}
    (h : nextOutput s routes = some (r, rest)) :
    tstFlag (s.nodeFlags r.dst) CAMNODE_FL_S_OCCUPY = false ∧ (r :: rest).Sublist routes := by
  induction routes with
  | nil => cases h
  | cons r' routes ih =>
    unfold nextOutput at h
    split at h
    · exact ⟨(ih h).1, (ih h).2.cons r'⟩
    next hfree =>
      cases h
      exact ⟨by simpa using hfree, List.Sublist.refl _⟩

/-- The output loop either takes `n` free outputs in the order of the routes, or takes
nothing. -/
theorem selectOutputs_cases {s₀ s : CamState} {out : List CamRoute} (n : Nat)
    (routes : List CamRoute) (h : Chosen s₀ out s) :
    selectOutputs n routes out s = (none, s₀) ∨
      ∃ chosen s', selectOutputs n routes out s = (some (out.reverse ++ chosen), s') ∧
        Chosen s₀ (chosen.reverse ++ out) s' ∧ chosen.Sublist routes ∧ chosen.length = n := by
  induction n generalizing routes out s with
  | zero =>
    refine .inr ⟨[], s, ?_, h, List.nil_sublist _, rfl⟩
    rw [selectOutputs, List.append_nil]
  | succ n ih =>
    unfold selectOutputs
    cases hnext : nextOutput s routes with
    | none => exact .inl (congrArg (Prod.mk none) h.release)
    | some p =>
      obtain ⟨r, rest⟩ := p
      obtain ⟨hfree, hsub⟩ := nextOutput_eq_some hnext
      rcases ih rest (h.cons hfree) with hnone | ⟨chosen, s', hsome, hchosen, hsub', hlen⟩
      · exact .inl hnone
      · refine .inr ⟨r :: chosen, s', ?_, ?_, ?_, ?_⟩
        · simpa using hsome
        · simpa using hchosen
        · exact (hsub'.cons_cons r).trans hsub
        · simp [hlen]

structure Lookup (cam : PlatCam) (s : CamState) (srcID pathID nrDst : Int) (route : CamRoute)
    (id : Nat) : Prop where
  src : ∃ sNode, cam.srcPool[srcID.toNat]? = some sNode ∧ route ∈ cam.route sNode
  path : cam.pathPool[pathID.toNat]? = some route.dst
  nrDst_le : nrDst ≤ (cam.route route.dst).length
  id_lt : id < CONTEXT_PER_PLATFORM
  free : s.ctx id = none

theorem contextLookup_eq_ok {cam : PlatCam} {s : CamState} {srcID pathID nrDst : Int}
    {route : CamRoute} {id : Nat}
    (h : contextLookup cam srcID pathID nrDst s = .ok (.ok (route, id))) :
    Lookup cam s srcID pathID nrDst route id := by
  unfold contextLookup at h
  split at h; · cases h
  split at h; · cases h
  split at h; · cases h
  split at h; · cases h
  next pNode hpath =>
  split at h; · cases h
  next hnr =>
  split at h; · cases h
  split at h; · cases h
  next sNode hsrc =>
  split at h; · cases h
  next r hfind =>
  split at h; · cases h
  next i hslot =>
  cases h
  have hdst : route.dst = pNode := by simpa using List.find?_some hfind
  exact {
    src := ⟨sNode, hsrc, List.mem_of_find?_eq_some hfind⟩
    path := by rw [hdst]; exact hpath
    nrDst_le := by rw [hdst]; omega
    id_lt := List.mem_range.mp (List.mem_of_find?_eq_some hslot)
    free := by simpa using List.find?_some hslot }

theorem findCrop_eq_some {r : CamRoute} (h : r.Linked) : ∃ x, findCrop r.dst r = some x := by
  have hgen : ∀ (r : CamRoute) (path : NodeId), r.Linked → r.dst = path →
      ∃ x, findCrop path r = some x := by
    intro r
    induction r with
    | last id src dst head =>
      rintro path ⟨-, hdst⟩ rfl
      exact ⟨_, if_pos hdst⟩
    | cons id src dst head more ih =>
      rintro path ⟨-, -, hmore, hlinked⟩ rfl
      unfold findCrop
      split
      · exact ⟨_, rfl⟩
      · exact ih _ hlinked hmore.symm
  exact hgen r _ h rfl

theorem contextLookup_eq_error {cam : PlatCam} {s : CamState} {srcID pathID nrDst ret : Int}
    (h : contextLookup cam srcID pathID nrDst s = .ok (.error ret)) : ret < 0 := by
  unfold contextLookup at h
  split at h; · cases h; decide
  split at h; · cases h; decide
  split at h; · cases h
  split at h; · cases h
  split at h; · cases h; decide
  split at h; · cases h
  split at h; · cases h
  split at h; · cases h; decide
  split at h
  · cases h; decide
  · cases h

theorem contextLookup_total (cam : PlatCam) {srcID pathID : Int} (hsrc : 0 ≤ srcID)
    (hpath : 0 ≤ pathID) (nrDst : Int) (s : CamState) :
    ∃ res, contextLookup cam srcID pathID nrDst s = .ok res := by
  unfold contextLookup
  split; · exact ⟨_, rfl⟩
  next hsrcLt =>
  split; · exact ⟨_, rfl⟩
  next hpathLt =>
  rw [if_neg (by omega)]
  rw [List.getElem?_eq_getElem (show pathID.toNat < cam.pathPool.length by omega)]
  dsimp only
  split; · exact ⟨_, rfl⟩
  rw [if_neg (by omega)]
  rw [List.getElem?_eq_getElem (show srcID.toNat < cam.srcPool.length by omega)]
  dsimp only
  split; · exact ⟨_, rfl⟩
  split <;> exact ⟨_, rfl⟩

theorem applyRoutes_rel {R : CamState → CamState → Prop} (hrefl : ∀ s, R s s)
    (htrans : ∀ {s₁ s₂ s₃}, R s₁ s₂ → R s₂ s₃ → R s₁ s₃) {k : Kernel}
    (happly : ∀ r s, R s (camRouteApply k 1 r s).2) (rs : List CamRoute) (s : CamState) :
    R s (applyRoutes k rs s).2 := by
  induction rs generalizing s with
  | nil => exact hrefl s
  | cons r rs ih =>
    unfold applyRoutes
    dsimp only
    split
    · exact happly r s
    · exact htrans (happly r s) (ih _)

theorem onlyCounts_applyRoutes {k : Kernel} (rs : List CamRoute) (s : CamState) :
    s.OnlyCounts (applyRoutes k rs s).2 :=
  applyRoutes_rel (R := fun s s' => s.OnlyCounts s') .refl (fun h₁ h₂ => h₁.trans h₂)
    onlyCounts_camRouteApply rs s

/-- The moment at which `CameraContextInit` starts to apply links: everything is found, and
the outputs are taken. -/
structure Selected (cam : PlatCam) (srcID pathID nrDst : Int) (s : CamState) (route : CamRoute)
    (id : Nat) (out : List CamRoute) (s₁ : CamState) : Prop where
  lookup : Lookup cam s srcID pathID nrDst route id
  chosen : Chosen s out.reverse s₁
  sublist : out.Sublist (cam.route route.dst)
  length : out.length = nrDst.toNat

inductive InitStep (cam : PlatCam) (k : Kernel) (srcID pathID nrDst : Int) (s : CamState) :
    Int → CamState → Prop
  | refused {ret} : ret < 0 → InitStep cam k srcID pathID nrDst s ret s
  | failed {route id out s₁ ret s₂} : Selected cam srcID pathID nrDst s route id out s₁ →
      applyRoutes k (route :: out) s₁ = (ret, s₂) → ret < 0 →
      InitStep cam k srcID pathID nrDst s ret s₂
  | created {route id out s₁ ret s₂ crop} : Selected cam srcID pathID nrDst s route id out s₁ →
      applyRoutes k (route :: out) s₁ = (ret, s₂) → 0 ≤ ret →
      InitStep cam k srcID pathID nrDst s id
        (s₂.setCtx id (some (newContext route crop out nrDst)))

theorem CamState.setCtx_none {s : CamState} {id : Nat} (h : s.ctx id = none) :
    s.setCtx id none = s :=
  congrArg (fun ctx => { s with ctx := ctx }) (Function.update_eq_self_iff.mpr h.symm)

theorem contextReady_total {cam : PlatCam} (hcam : cam.Searched) (k : Kernel)
    {srcID pathID nrDst : Int} {s : CamState} {route : CamRoute} {id : Nat}
    (h : Lookup cam s srcID pathID nrDst route id) :
    ∃ ret s', contextReady cam k route id nrDst s = .ok (ret, s') ∧
      InitStep cam k srcID pathID nrDst s ret s' := by
  obtain ⟨sNode, -, hroute⟩ := h.src
  obtain ⟨crop, hcrop⟩ := findCrop_eq_some (hcam.linked (hcam.route_mem hroute).1)
  simp only [contextReady, hcrop]
  rcases selectOutputs_cases nrDst.toNat (cam.route route.dst) (Chosen.nil : Chosen s [] s) with
    hnone | ⟨out, s₁, hsome, hchosen, hsub, hlen⟩
  · rw [hnone]
    refine ⟨-1, s, ?_, .refused (by decide)⟩
    simp only [CamState.setCtx_none h.free]
  · rw [hsome]
    rw [List.append_nil] at hchosen
    have hsel : Selected cam srcID pathID nrDst s route id out s₁ := ⟨h, hchosen, hsub, hlen⟩
    dsimp only [List.reverse_nil, List.nil_append]
    have hframe := onlyCounts_applyRoutes (k := k) (route :: out) s₁
    generalize hp : applyRoutes k (route :: out) s₁ = p at hframe
    obtain ⟨ret, s₂⟩ := p
    have hfree : s₂.ctx id = none := by
      rw [hframe.ctx, hchosen.eq_with]
      exact h.free
    dsimp only
    split
    next hneg =>
      exact ⟨ret, s₂, by rw [CamState.setCtx_none hfree], .failed hsel hp hneg⟩
    next hnonneg =>
      exact ⟨_, _, rfl, .created hsel hp (Int.not_lt.mp hnonneg)⟩

theorem initStep_cameraContextInit {cam : PlatCam} (hcam : cam.Searched) (k : Kernel)
    (srcID pathID nrDst : Int) (s : CamState) :
    Outcome.Post (cameraContextInit cam k srcID pathID nrDst s)
      (InitStep cam k srcID pathID nrDst s) := by
  unfold cameraContextInit
  split
  · exact Outcome.post_error _ _
  next hres => exact Outcome.post_ok (.refused (contextLookup_eq_error hres))
  next hres =>
    obtain ⟨ret, s', hready, hstep⟩ := contextReady_total hcam k (contextLookup_eq_ok hres)
    rw [hready]
    exact Outcome.post_ok hstep

theorem cameraContextInit_total {cam : PlatCam} (hcam : cam.Searched) (k : Kernel)
    {srcID pathID : Int} (hsrc : 0 ≤ srcID) (hpath : 0 ≤ pathID) (nrDst : Int) (s : CamState) :
    ∃ ret s', cameraContextInit cam k srcID pathID nrDst s = .ok (ret, s') ∧
      InitStep cam k srcID pathID nrDst s ret s' := by
  obtain ⟨res, hres⟩ := contextLookup_total cam hsrc hpath nrDst s
  simp only [cameraContextInit, hres]
  cases res with
  | error ret => exact ⟨ret, s, rfl, .refused (contextLookup_eq_error hres)⟩
  | ok p =>
    obtain ⟨route, id⟩ := p
    exact contextReady_total hcam k (contextLookup_eq_ok hres)

end G361FPlatform.MediaLib
