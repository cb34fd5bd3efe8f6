import G361FPlatform.MediaLib.State

namespace G361FPlatform.MediaLib

open Library Outcome

namespace CamRoute

def Linked : CamRoute → Prop
  | last _ src dst head => head.src = some src ∧ head.dst = some dst
  | cons _ src dst head more =>
    head.src = some src ∧ head.dst = some more.src ∧ dst = more.dst ∧ more.Linked

theorem head_src_of_linked {r : CamRoute} (h : r.Linked) : r.head.src = some r.src := by
  cases r with
  | last => exact h.1
  | cons => exact h.1

end CamRoute

namespace SearchState

structure Wf (s : SearchState) : Prop where
  ids : s.heap.map CamRoute.id = List.range s.heap.length
  more_mem : ∀ r ∈ s.heap, ∀ m, r.more = some m → m ∈ s.heap ∧ m.id < r.id
  linked : ∀ r ∈ s.heap, r.Linked
  route_mem : ∀ n, ∀ r ∈ s.route n, r ∈ s.heap ∧ r.src = n
  route_nodup : ∀ n, (s.route n).Nodup

theorem wf_init : init.Wf where
  ids := rfl
  more_mem := by intro r hr; cases hr
  linked := by intro r hr; cases hr
  route_mem := by intro n r hr; cases hr
  route_nodup := fun _ => List.nodup_nil

variable {s : SearchState} {node : NodeId} {r : CamRoute}

theorem Wf.id_lt (h : s.Wf) (hr : r ∈ s.heap) : r.id < s.heap.length := by
  have hmem : r.id ∈ s.heap.map CamRoute.id := List.mem_map_of_mem hr
  rw [h.ids] at hmem
  exact List.mem_range.mp hmem

theorem Wf.ids_nodup (h : s.Wf) : (s.heap.map CamRoute.id).Nodup := by
  rw [h.ids]
  exact List.nodup_range

theorem Wf.addRoute (h : s.Wf) (hid : r.id = s.heap.length) (hsrc : r.src = node)
    (hlinked : r.Linked) (hmore : ∀ m, r.more = some m → m ∈ s.heap) :
    (s.addRoute node r).Wf where
  ids := by
    simp only [SearchState.addRoute, List.map_append, List.length_append, h.ids]
    simp [hid, List.range_succ]
  more_mem := by
    intro r' hr' m hm
    simp only [SearchState.addRoute, List.mem_append, List.mem_singleton] at hr' ⊢
    rcases hr' with hr' | rfl
    · exact ⟨.inl (h.more_mem r' hr' m hm).1, (h.more_mem r' hr' m hm).2⟩
    · exact ⟨.inl (hmore m hm), hid ▸ h.id_lt (hmore m hm)⟩
  linked := by
    intro r' hr'
    simp only [SearchState.addRoute, List.mem_append, List.mem_singleton] at hr'
    rcases hr' with hr' | rfl
    · exact h.linked r' hr'
    · exact hlinked
  route_mem := by
    intro n r' hr'
    simp only [SearchState.addRoute, List.mem_append, List.mem_singleton] at hr' ⊢
    by_cases hn : n = node
    · subst hn
      rw [Function.update_self, List.mem_append, List.mem_singleton] at hr'
      rcases hr' with hr' | rfl
      · exact ⟨.inl (h.route_mem n r' hr').1, (h.route_mem n r' hr').2⟩
      · exact ⟨.inr rfl, hsrc⟩
    · rw [Function.update_of_ne hn] at hr'
      exact ⟨.inl (h.route_mem n r' hr').1, (h.route_mem n r' hr').2⟩
  route_nodup := by
    intro n
    simp only [SearchState.addRoute]
    by_cases hn : n = node
    · subst hn
      rw [Function.update_self, List.nodup_append]
      refine ⟨h.route_nodup n, List.nodup_singleton r, ?_⟩
      intro r₁ hr₁ r₂ hr₂ heq
      have hlt := h.id_lt (h.route_mem n r₁ hr₁).1
      rw [heq, List.mem_singleton.mp hr₂, hid] at hlt
      exact Nat.lt_irrefl _ hlt
    · rw [Function.update_of_ne hn]
      exact h.route_nodup n

def Grows (s s' : SearchState) : Prop := s'.Wf ∧ ∀ r ∈ s.heap, r ∈ s'.heap

theorem Wf.grows (h : s.Wf) : s.Grows s := ⟨h, fun _ hr => hr⟩

theorem Grows.trans {s₁ s₂ s₃ : SearchState} (h₁ : s₁.Grows s₂) (h₂ : s₂.Grows s₃) : s₁.Grows s₃ :=
  ⟨h₂.1, fun r hr => h₂.2 r (h₁.2 r hr)⟩

theorem grows_camNodeAddRoute (h : s.Wf) {head : CamLink} {more : Option CamRoute}
    (hmore : ∀ m, more = some m → m ∈ s.heap) :
    Post (camNodeAddRoute node head more s) fun _ s' => s.Grows s' := by
  have hadd : ∀ r : CamRoute, r.id = s.heap.length → r.src = node → r.Linked →
      (∀ m, r.more = some m → m ∈ s.heap) → s.Grows (s.addRoute node r) := by
    intro r hid hsrc hlinked hm
    refine ⟨h.addRoute hid hsrc hlinked hm, fun r' hr' => ?_⟩
    exact List.mem_append_left _ hr'
  unfold camNodeAddRoute
  split
  · exact post_ok h.grows
  next hsrc =>
    rw [ne_eq, not_not] at hsrc
    cases more with
    | some m =>
      dsimp only
      split
      · exact post_ok h.grows
      next hdst =>
        rw [ne_eq, not_not] at hdst
        have hm := hmore m rfl
        exact post_ok (hadd _ rfl rfl ⟨hsrc, hdst, rfl, h.linked m hm⟩ (by simpa [CamRoute.more]))
    | none =>
      cases hdst : head.dst with
      | none => exact post_error _ _
      | some dst => exact post_ok (hadd _ rfl rfl ⟨hsrc, hdst⟩ (by simp [CamRoute.more]))

theorem grows_addRoutes {head : CamLink} (rs : List CamRoute) (h : s.Wf)
    (hrs : ∀ r ∈ rs, r ∈ s.heap) : Post (addRoutes node head rs s) fun _ s' => s.Grows s' := by
  induction rs generalizing s with
  | nil => exact post_ok h.grows
  | cons r rs ih =>
    refine (grows_camNodeAddRoute h ?_).andThen_inv ?_
    · intro m hm
      cases hm
      exact hrs r List.mem_cons_self
    · intro _ s₁ h₁
      refine (ih h₁.1 fun r' hr' => h₁.2 r' (hrs r' (List.mem_cons_of_mem _ hr'))).imp ?_
      exact fun _ _ h₂ => h₁.trans h₂

theorem grows_setupLinks {setup : NodeId → SearchState → Outcome SearchState}
    (hsetup : ∀ n {s : SearchState}, s.Wf → Post (setup n s) fun _ s' => s.Grows s')
    (ls : List CamLink) (h : s.Wf) : Post (setupLinks setup node ls s) fun _ s' => s.Grows s' := by
  induction ls generalizing s with
  | nil => exact post_ok h.grows
  | cons l ls ih =>
    have hrest : ∀ (_ : Int) (s₁ : SearchState), s.Grows s₁ →
        Post (setupLinks setup node ls s₁) fun _ s' => s.Grows s' :=
      fun _ s₁ h₁ => (ih h₁.1).imp fun _ _ h₂ => h₁.trans h₂
    unfold setupLinks
    cases hdst : l.dst with
    | none => exact ih h
    | some dst =>
      dsimp only
      split
      · exact ih h
      · split
        · refine (hsetup dst h).andThen_inv fun _ s₁ h₁ => ?_
          refine Post.andThen_inv ?_ hrest
          refine (grows_addRoutes _ h₁.1 fun r hr => (h₁.1.route_mem dst r hr).1).imp ?_
          exact fun _ _ h₂ => h₁.trans h₂
        · exact (grows_camNodeAddRoute h (by simp)).andThen_inv hrest

theorem grows_camNodeSetupRoute (cam : CamGraph) (fuel : Nat) (h : s.Wf) :
    Post (camNodeSetupRoute cam fuel node s) fun _ s' => s.Grows s' := by
  induction fuel generalizing s node with
  | zero => exact post_error _ _
  | succ fuel ih =>
    unfold camNodeSetupRoute
    split
    · exact post_ok h.grows
    · exact (grows_setupLinks (fun n _ hs => ih hs) _ h).andThen_inv fun _ s' hs' => post_ok hs'

theorem wf_setupPool (cam : CamGraph) (fuel : Nat) (pool : List NodeId) (h : s.Wf) :
    Post (setupPool cam fuel pool s) fun _ s' => s'.Wf := by
  induction pool generalizing s with
  | nil => exact post_ok h
  | cons node pool ih =>
    refine ((grows_camNodeSetupRoute cam fuel h).imp fun _ _ hs => hs.1).andThen_inv ?_
    exact fun _ s' hs' => ih hs'

def SameRoutes (s s' : SearchState) : Prop := s'.route = s.route ∧ s'.heap = s.heap

theorem sameRoutes_refl (s : SearchState) : s.SameRoutes s := ⟨rfl, rfl⟩

theorem SameRoutes.trans {s₁ s₂ s₃ : SearchState} (h₁ : s₁.SameRoutes s₂)
    (h₂ : s₂.SameRoutes s₃) : s₁.SameRoutes s₃ := ⟨h₂.1.trans h₁.1, h₂.2.trans h₁.2⟩

theorem SameRoutes.wf {s' : SearchState} (h : s.SameRoutes s') (hs : s.Wf) : s'.Wf where
  ids := by rw [h.2]; exact hs.ids
  more_mem := by rw [h.2]; exact hs.more_mem
  linked := by rw [h.2]; exact hs.linked
  route_mem := by rw [h.1, h.2]; exact hs.route_mem
  route_nodup := by rw [h.1]; exact hs.route_nodup

theorem sameRoutes_qPush (s : SearchState) :
    Post (s.qPush node) fun _ s' => s.SameRoutes s' := by
  unfold qPush
  cases s.queue.push nodeQueueDepth node with
  | none => exact post_ok s.sameRoutes_refl
  | some q => exact post_ok ⟨rfl, rfl⟩

theorem sameRoutes_relaxLinks (ls : List CamLink) (s : SearchState) :
    Post (relaxLinks node ls s) fun _ s' => s.SameRoutes s' := by
  induction ls generalizing s with
  | nil => exact post_ok s.sameRoutes_refl
  | cons l ls ih =>
    unfold relaxLinks
    split
    · exact ih s
    · cases l.src with
      | none => exact post_error _ _
      | some up =>
        dsimp only
        split
        · refine Post.andThen_inv (I := fun s' => s.SameRoutes s') ?_ ?_
          · exact sameRoutes_qPush _
          · exact fun _ s₁ h₁ => (ih s₁).imp fun _ _ h₂ => h₁.trans h₂
        · exact ih s

theorem sameRoutes_propagate (cam : CamGraph) (fuel : Nat) (s : SearchState) :
    Post (propagate cam fuel s) fun _ s' => s.SameRoutes s' := by
  induction fuel generalizing s with
  | zero => exact post_error _ _
  | succ fuel ih =>
    have hpop : s.SameRoutes s.qPop.2 := ⟨rfl, rfl⟩
    unfold propagate
    split
    next s₁ heq => exact post_ok (by rw [heq] at hpop; exact hpop)
    next node s₁ heq =>
      rw [heq] at hpop
      refine Post.andThen_inv ((sameRoutes_relaxLinks _ s₁).imp ?_) ?_
      · exact fun _ _ h => hpop.trans h
      · exact fun _ s₂ h₂ => (ih s₂).imp fun _ _ h₃ => h₂.trans h₃

theorem sameRoutes_pushPool (pool : List NodeId) (s : SearchState) :
    Post (pushPool pool s) fun _ s' => s.SameRoutes s' := by
  induction pool generalizing s with
  | nil => exact post_ok s.sameRoutes_refl
  | cons node pool ih =>
    refine (sameRoutes_qPush s).andThen_inv ?_
    exact fun _ s₁ h₁ => (ih s₁).imp fun _ _ h₂ => h₁.trans h₂

theorem wf_searchPhase (cam : CamGraph) (fuel : Nat) (goals owners : List NodeId) (h : s.Wf) :
    Post (searchPhase cam fuel goals owners s) fun _ s' => s'.Wf := by
  have hreset : s.qReset.Wf := SameRoutes.wf (s := s) ⟨rfl, rfl⟩ h
  refine ((sameRoutes_pushPool goals s.qReset).imp fun _ _ h₁ => h₁.wf hreset).andThen_inv ?_
  intro _ s₁ h₁
  refine ((sameRoutes_propagate cam fuel s₁).imp fun _ _ h₂ => h₂.wf h₁).andThen_inv ?_
  exact fun _ s₂ h₂ => wf_setupPool cam fuel owners h₂

theorem wf_mediaLibSearchRoute (cam : CamGraph) (fuel : Nat) (h : s.Wf) {ret : Int}
    {s' : SearchState} (hs : mediaLibSearchRoute cam fuel s = .ok (ret, s')) : s'.Wf := by
  have hphases : Post (andThen (searchPhase cam fuel cam.pathPool cam.srcPool s) fun _ =>
      searchPhase cam fuel cam.dstPool cam.pathPool) fun _ s' => s'.Wf :=
    (wf_searchPhase cam fuel _ _ h).andThen_inv fun _ s₁ h₁ => wf_searchPhase cam fuel _ _ h₁
  unfold mediaLibSearchRoute at hs
  generalize (andThen (searchPhase cam fuel cam.pathPool cam.srcPool s) fun _ =>
    searchPhase cam fuel cam.dstPool cam.pathPool) = x at hs hphases
  cases x with
  | error e => cases hs
  | ok p =>
    obtain ⟨ret₁, s₁⟩ := p
    cases hs
    exact SameRoutes.wf (s := s₁) ⟨rfl, rfl⟩ (hphases _ s₁ rfl)

theorem nonpos_setupPool (cam : CamGraph) (fuel : Nat) (pool : List NodeId) (s : SearchState) :
    Post (setupPool cam fuel pool s) fun ret _ => ret ≤ 0 := by
  induction pool generalizing s with
  | nil => exact post_ok le_rfl
  | cons node pool ih =>
    exact Post.andThen (R := fun _ _ => True) (fun _ _ _ => trivial) (fun _ _ h _ => le_of_lt h)
      fun _ s _ _ => ih s

theorem nonpos_searchPhase (cam : CamGraph) (fuel : Nat) (goals owners : List NodeId)
    (s : SearchState) : Post (searchPhase cam fuel goals owners s) fun ret _ => ret ≤ 0 := by
  refine Post.andThen (R := fun _ _ => True) (fun _ _ _ => trivial) (fun _ _ h _ => le_of_lt h)
    fun _ s _ _ => ?_
  exact Post.andThen (R := fun _ _ => True) (fun _ _ _ => trivial) (fun _ _ h _ => le_of_lt h)
    fun _ s _ _ => nonpos_setupPool cam fuel owners s

theorem nonpos_mediaLibSearchRoute (cam : CamGraph) (fuel : Nat) (s : SearchState) :
    Post (mediaLibSearchRoute cam fuel s) fun ret _ => ret ≤ 0 := by
  refine Post.map ?_
  exact Post.andThen (R := fun _ _ => True) (fun _ _ _ => trivial) (fun _ _ h _ => le_of_lt h)
    fun _ s _ _ => nonpos_searchPhase cam fuel _ _ s

end SearchState

/-- The static part of a running MediaLib: the graph with the routes of a search that
succeeded. -/
def PlatCam.Searched (cam : PlatCam) : Prop :=
  ∃ fuel s, mediaLibSearchRoute cam.toCamGraph fuel SearchState.init = .ok (0, s) ∧
    cam = cam.toCamGraph.withRoutes s

namespace PlatCam.Searched

variable {cam : PlatCam} {r : CamRoute}

theorem wf (h : cam.Searched) :
    ∃ s : SearchState, s.Wf ∧ cam.route = s.route ∧ cam.heap = s.heap := by
  obtain ⟨fuel, s, hs, hcam⟩ := h
  refine ⟨s, SearchState.wf_mediaLibSearchRoute _ fuel SearchState.wf_init hs, ?_, ?_⟩
  · rw [hcam]; rfl
  · rw [hcam]; rfl

theorem ids_nodup (h : cam.Searched) : (cam.heap.map CamRoute.id).Nodup := by
  obtain ⟨s, hwf, -, hheap⟩ := h.wf
  rw [hheap]
  exact hwf.ids_nodup

theorem eq_of_id_eq (h : cam.Searched) {r' : CamRoute} (hr : r ∈ cam.heap) (hr' : r' ∈ cam.heap)
    (hid : r.id = r'.id) : r = r' :=
  List.inj_on_of_nodup_map h.ids_nodup hr hr' hid

theorem more_mem (h : cam.Searched) {m : CamRoute} (hr : r ∈ cam.heap) (hm : r.more = some m) :
    m ∈ cam.heap ∧ m.id < r.id := by
  obtain ⟨s, hwf, -, hheap⟩ := h.wf
  rw [hheap] at hr ⊢
  exact hwf.more_mem r hr m hm

theorem linked (h : cam.Searched) (hr : r ∈ cam.heap) : r.Linked := by
  obtain ⟨s, hwf, -, hheap⟩ := h.wf
  exact hwf.linked r (hheap ▸ hr)

theorem route_mem (h : cam.Searched) {n : NodeId} (hr : r ∈ cam.route n) :
    r ∈ cam.heap ∧ r.src = n := by
  obtain ⟨s, hwf, hroute, hheap⟩ := h.wf
  rw [hheap]
  exact hwf.route_mem n r (hroute ▸ hr)

theorem route_nodup (h : cam.Searched) (n : NodeId) : (cam.route n).Nodup := by
  obtain ⟨s, hwf, hroute, -⟩ := h.wf
  rw [hroute]
  exact hwf.route_nodup n

end PlatCam.Searched

end G361FPlatform.MediaLib
