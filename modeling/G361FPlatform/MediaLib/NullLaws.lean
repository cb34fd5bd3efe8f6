import G361FPlatform.MediaLib.SearchLaws

namespace G361FPlatform.MediaLib

open Library Outcome

namespace SearchState

def Queued (Q : NodeId → Prop) (s : SearchState) : Prop :=
  ∃ xs, s.queue.Holds nodeQueueDepth xs ∧ ∀ v ∈ xs, Q v

variable {Q : NodeId → Prop} {s : SearchState} {node : NodeId} {cam : CamGraph}

theorem queued_qReset (Q : NodeId → Prop) (s : SearchState) : s.qReset.Queued Q :=
  ⟨[], Ring.holds_reset (by decide) s.queue, by simp⟩

theorem Queued.qPush (h : s.Queued Q) (hnode : Q node) : Safe (s.qPush node) (Queued Q) := by
  obtain ⟨xs, hxs, hQ⟩ := h
  unfold SearchState.qPush
  cases hpush : s.queue.push nodeQueueDepth node with
  | none => exact safe_ok ⟨xs, hxs, hQ⟩
  | some q =>
    refine safe_ok ⟨xs ++ [node], hxs.push hpush, fun v hv => ?_⟩
    rcases List.mem_append.mp hv with hv | hv
    · exact hQ v hv
    · exact List.mem_singleton.mp hv ▸ hnode

theorem Queued.qPop (h : s.Queued Q) : s.qPop.2.Queued Q ∧ ∀ v, s.qPop.1 = some v → Q v := by
  obtain ⟨xs, hxs, hQ⟩ := h
  unfold SearchState.qPop
  cases xs with
  | nil =>
    rw [hxs.pop_nil]
    exact ⟨⟨[], hxs, hQ⟩, by simp⟩
  | cons x xs =>
    obtain ⟨q, hpop, hq⟩ := hxs.pop_cons
    rw [hpop]
    refine ⟨⟨xs, hq, fun v hv => hQ v (List.mem_cons_of_mem x hv)⟩, ?_⟩
    rintro v ⟨⟩
    exact hQ x List.mem_cons_self

theorem Queued.pushPool {pool : List NodeId} (h : s.Queued Q) (hpool : ∀ v ∈ pool, Q v) :
    Safe (pushPool pool s) (Queued Q) := by
  induction pool generalizing s with
  | nil => exact safe_ok h
  | cons node pool ih =>
    refine (h.qPush (hpool node List.mem_cons_self)).andThen (fun _ h => h) fun _ _ h' => ?_
    exact ih h' fun v hv => hpool v (List.mem_cons_of_mem node hv)

theorem Queued.relaxLinks {ls : List CamLink} (h : s.Queued Q) (hls : ∀ l ∈ ls, l.src ≠ none)
    (hQ : ∀ u ∈ CamGraph.upstream node ls, Q u) : Safe (relaxLinks node ls s) (Queued Q) := by
  induction ls generalizing s with
  | nil => exact safe_ok h
  | cons l ls ih =>
    obtain ⟨hsrc, hls⟩ := List.forall_mem_cons.mp hls
    have hrest : ∀ u ∈ CamGraph.upstream node ls, Q u := by
      intro u hu
      refine hQ u ?_
      unfold CamGraph.upstream at hu ⊢
      rw [List.filterMap_cons]
      split
      · exact hu
      · exact List.mem_cons_of_mem _ hu
    unfold MediaLib.relaxLinks
    split
    · exact ih h hls hrest
    next hne =>
      cases hup : l.src with
      | none => exact absurd hup hsrc
      | some up =>
        dsimp only
        split
        · have hset : (s.setLevel up (levelAbove (s.level node))).Queued Q := h
          have hself : up ∈ CamGraph.upstream node (l :: ls) :=
            List.mem_filterMap.mpr ⟨l, List.mem_cons_self, by rw [if_neg hne, hup]⟩
          exact (hset.qPush (hQ up hself)).andThen (fun _ h => h) fun _ _ h' => ih h' hls hrest
        · exact ih h hls hrest

theorem Queued.propagate (hsourced : ∀ v, Q v → cam.Sourced v) (hup : ∀ u v, cam.Up u v → Q v → Q u)
    (h : s.Queued Q) (fuel : Nat) : Safe (propagate cam fuel s) (Queued Q) := by
  induction fuel generalizing s with
  | zero => exact safe_fuel _
  | succ fuel ih =>
    unfold MediaLib.propagate
    obtain ⟨hpopped, hnode⟩ := h.qPop
    split
    next s₁ heq =>
      rw [heq] at hpopped
      exact safe_ok hpopped
    next v s₁ heq =>
      rw [heq] at hpopped hnode
      have hv := hnode v rfl
      refine (hpopped.relaxLinks (hsourced v hv) fun u hu => hup u v hu hv).andThen (fun _ h => h) ?_
      exact fun _ _ h' => ih h'

end SearchState

/-- No link that leads to a path or an output, along whatever links, starts at an entity
without a node. -/
def CamGraph.NullSafe (cam : CamGraph) : Prop :=
  ∀ v, ∀ g ∈ cam.pathPool ++ cam.dstPool, Relation.ReflTransGen cam.Up v g → cam.Sourced v

section

variable {cam : CamGraph} {s : SearchState} {fuel : Nat}

theorem CamGraph.NullSafe.safe_searchPhase (h : cam.NullSafe) {goals : List NodeId}
    (hgoals : ∀ g ∈ goals, g ∈ cam.pathPool ++ cam.dstPool) (owners : List NodeId) :
    Safe (searchPhase cam fuel goals owners s) fun _ => True := by
  let Leads (v : NodeId) : Prop := ∃ g ∈ cam.pathPool ++ cam.dstPool, Relation.ReflTransGen cam.Up v g
  have hsourced : ∀ v, Leads v → cam.Sourced v := fun v ⟨g, hg, hreach⟩ => h v g hg hreach
  have hup : ∀ u v, cam.Up u v → Leads v → Leads u :=
    fun u v hstep ⟨g, hg, hreach⟩ => ⟨g, hg, .head hstep hreach⟩
  have hpool : ∀ v ∈ goals, Leads v := fun v hv => ⟨v, hgoals v hv, .refl⟩
  refine ((SearchState.queued_qReset Leads s).pushPool hpool).andThen (fun _ _ => trivial)
    fun _ s₁ h₁ => ?_
  exact (h₁.propagate hsourced hup fuel).andThen (fun _ _ => trivial) fun _ _ _ =>
    safe_setupPool cam fuel owners

theorem CamGraph.NullSafe.ne_fault (h : cam.NullSafe) :
    mediaLibSearchRoute cam fuel s ≠ .error .fault := by
  have hsafe : Safe (andThen (searchPhase cam fuel cam.pathPool cam.srcPool s) fun _ =>
      searchPhase cam fuel cam.dstPool cam.pathPool) fun _ => True :=
    (h.safe_searchPhase (fun g hg => List.mem_append_left _ hg) cam.srcPool).andThen (fun _ h => h)
      fun _ _ _ => h.safe_searchPhase (fun g hg => List.mem_append_right _ hg) cam.pathPool
  unfold mediaLibSearchRoute
  intro heq
  generalize andThen _ _ = x at heq hsafe
  cases x with
  | error e => exact hsafe.noFault heq
  | ok p => cases heq

theorem CamGraph.Wired.roomy_up_iff (hcam : cam.Wired) (hR : Acyclic cam.Link) :
    cam.Roomy cam.Up ↔ cam.Roomy cam.Link := by
  rw [hcam.up_eq hR]

/-- Half of the search ends with the levels right and every node that has waited sourced, gives up
on a full ring, or comes to a link without a source. -/
theorem searchPhase_total (hcam : cam.Sized) (hUp : Acyclic cam.Up) (hDown : Acyclic cam.Down)
    {goal : NodeId → Prop} {goals : List NodeId} (owners : List NodeId)
    (hstart : Relaxation.Waiting cam.Up goal ⟨s.level, goals⟩) (h : s.Wf)
    (hfuel : searchFuel cam ≤ fuel) :
    (∃ ret s', searchPhase cam fuel goals owners s = .ok (ret, s') ∧ (cam.Outbound → 0 ≤ ret) ∧ s'.Wf ∧
      (∀ v, Depth cam.Up goal v (s'.level v)) ∧
        ∀ v, v ∈ goals ∨ s'.level v ≠ s.level v → cam.Sourced v) ∨
    (¬cam.FitsFrom goals s.level ∧ ∃ s', searchPhase cam fuel goals owners s = .ok (-ENOMEM, s')) ∨
    searchPhase cam fuel goals owners s = .error .fault := by
  unfold searchFuel at hfuel
  rw [searchPhase_eq]
  rcases relaxPool_total hcam hUp hstart (show relaxFuel cam ≤ fuel by omega) with
    ⟨-, s₁, hrelax, hdepth, hsourced⟩ | ⟨hfull, s₁, hrelax⟩ | ⟨-, hrelax⟩
  · obtain ⟨ret, s₂, hsetup, hret, hgrows, hlevel⟩ := setsUp_setupPool hcam hDown
      (show cam.node.length < fuel by omega) owners (wf_relaxPool fuel goals h _ _ hrelax)
    rw [hrelax, andThen_ok_nonneg le_rfl]
    exact .inl ⟨ret, s₂, hsetup, hret, hgrows.1, fun v => hlevel ▸ hdepth v, hlevel ▸ hsourced⟩
  · rw [hrelax, andThen_ok_neg (by decide)]
    exact .inr (.inl ⟨hfull, s₁, rfl⟩)
  · rw [hrelax, andThen_error]
    exact .inr (.inr rfl)

/-- The search ends or comes to a link without a source.  If nothing else stops it, it has been to
every node above a goal. -/
theorem mediaLibSearchRoute_total (hcam : cam.Sized) (hUp : Acyclic cam.Up) (hDown : Acyclic cam.Down)
    (hfuel : searchFuel cam ≤ fuel) :
    (∃ ret s', mediaLibSearchRoute cam fuel SearchState.init = .ok (ret, s') ∧
      (cam.Outbound → cam.Roomy cam.Up → cam.NullSafe)) ∨
    mediaLibSearchRoute cam fuel SearchState.init = .error .fault := by
  unfold mediaLibSearchRoute
  rcases searchPhase_total hcam hUp hDown cam.srcPool (waiting_paths _ _) SearchState.wf_init hfuel with
    ⟨ret₁, s₁, hphase₁, hret₁, hwf₁, hdepth₁, hsourced₁⟩ | ⟨hfull, s₁, hphase₁⟩ | hphase₁
  · rw [hphase₁]
    by_cases hneg : ret₁ < 0
    · rw [andThen_ok_neg hneg]
      refine .inl ⟨ret₁, s₁.qReset, rfl, fun hout => ?_⟩
      have := hret₁ hout
      omega
    rw [andThen_ok_nonneg (Int.not_lt.mp hneg)]
    have hstart₂ : Relaxation.Waiting cam.Up (fun v => v ∈ cam.pathPool ∨ v ∈ cam.dstPool)
        ⟨s₁.level, cam.dstPool⟩ := Relaxation.waiting_start hdepth₁ fun _ => Iff.rfl
    rcases searchPhase_total hcam hUp hDown cam.pathPool hstart₂ hwf₁ hfuel with
      ⟨ret₂, s₂, hphase₂, -, -, hdepth₂, hsourced₂⟩ | ⟨hfull, s₂, hphase₂⟩ | hphase₂
    · rw [hphase₂]
      refine .inl ⟨ret₂, s₂.qReset, rfl, fun _ _ v g hg hreach => ?_⟩
      by_cases hpath : v ∈ cam.pathPool
      · exact hsourced₁ v (.inl hpath)
      by_cases hdst : v ∈ cam.dstPool
      · exact hsourced₂ v (.inl hdst)
      -- a step leads on from `v`, so the second half leaves it above 0, and the half that raised it
      -- had it wait
      obtain ⟨n, hwalk⟩ := exists_walk_iff.mpr hreach
      have hle := (hdepth₂ v).le g n (List.mem_append.mp hg) hwalk
      cases hwalk with
      | nil => exact absurd (List.mem_append.mp hg) (by simp [hpath, hdst])
      | cons hstep hwalk =>
        by_cases hlevel : s₂.level v = s₁.level v
        · refine hsourced₁ v (.inr ?_)
          change s₁.level v ≠ 0
          omega
        · exact hsourced₂ v (.inr hlevel)
    · rw [hphase₂]
      exact .inl ⟨_, s₂.qReset, rfl, fun _ hample => absurd (hample.2 _ hdepth₁) hfull⟩
    · rw [hphase₂]
      exact .inr rfl
  · rw [hphase₁, andThen_ok_neg (by decide)]
    exact .inl ⟨_, s₁.qReset, rfl, fun _ hample => absurd hample.1 hfull⟩
  · rw [hphase₁]
    exact .inr rfl

end

def searchedGraph (mediaOpen : Option MediaDevice) (alloc : Nat → Bool) : Option CamGraph :=
  mediaOpen.bind fun media => (createNodes media alloc ME_CNT NodeTable.empty).map (findNodes media)

/-- No call reads through NULL, for whatever number of steps it is followed. -/
def NullFree (k : Kernel) (mediaOpen : Option MediaDevice) (alloc : Nat → Bool) : Prop :=
  ∀ fuel, mediaLibInit k fuel mediaOpen alloc ≠ .error .fault

def InitReturns (k : Kernel) (mediaOpen : Option MediaDevice) (alloc : Nat → Bool) : Prop :=
  ∃ bound, ∀ fuel, bound ≤ fuel → ∃ cam, mediaLibInit k fuel mediaOpen alloc = .ok cam

/-- There is a media device, and its graph is safe. -/
def Sealed (mediaOpen : Option MediaDevice) (alloc : Nat → Bool) : Prop :=
  mediaOpen ≠ none ∧ ∀ cam ∈ searchedGraph mediaOpen alloc, cam.NullSafe

/-- There is a media device, and in every round of the search of its graph a link without a source
stands behind links that fill the queue first. -/
def Guarded (mediaOpen : Option MediaDevice) (alloc : Nat → Bool) : Prop :=
  mediaOpen ≠ none ∧ ∀ cam ∈ searchedGraph mediaOpen alloc, cam.SearchShielded

/-- No call of `CamNodeSetupRoute` leads back to itself. -/
def Unlooping (mediaOpen : Option MediaDevice) (alloc : Nat → Bool) : Prop :=
  ∀ cam ∈ searchedGraph mediaOpen alloc, cam.SearchUnlooped

def Uncycled (mediaOpen : Option MediaDevice) (alloc : Nat → Bool) : Prop :=
  ∀ cam ∈ searchedGraph mediaOpen alloc, Acyclic cam.Up ∧ Acyclic cam.Down

/-- Nothing stops the search early: neither a full ring nor a route that does not fit its node. -/
def Unstopped (mediaOpen : Option MediaDevice) (alloc : Nat → Bool) : Prop :=
  ∀ cam ∈ searchedGraph mediaOpen alloc, cam.Outbound ∧ cam.Roomy cam.Up

section

variable {k : Kernel} {fuel : Nat} {mediaOpen : Option MediaDevice} {alloc : Nat → Bool}

theorem initRoutes_eq_error_iff {cam : CamGraph} {t : NodeTable} {e : Stuck} :
    initRoutes k fuel cam t = .error e ↔ mediaLibSearchRoute cam fuel SearchState.init = .error e := by
  unfold initRoutes
  cases mediaLibSearchRoute cam fuel SearchState.init with
  | error e' => simp
  | ok p =>
    dsimp only
    split
    · simp
    · split <;> simp

/-- Initialising fails with NULL, or it comes to the search of the graph. -/
theorem mediaLibInit_eq_error_iff {e : Stuck} (h : mediaOpen ≠ none) :
    mediaLibInit k fuel mediaOpen alloc = .error e ↔
      ∃ cam ∈ searchedGraph mediaOpen alloc,
        mediaLibSearchRoute cam fuel SearchState.init = .error e := by
  cases mediaOpen with
  | none => exact absurd rfl h
  | some media =>
    unfold mediaLibInit searchedGraph
    dsimp only [Option.bind_some]
    cases createNodes media alloc ME_CNT NodeTable.empty with
    | none => simp
    | some t => simp [initRoutes_eq_error_iff]

theorem sized_of_mem_searchedGraph {cam : CamGraph} (h : cam ∈ searchedGraph mediaOpen alloc) :
    cam.Sized := by
  obtain ⟨media, rfl, h⟩ := Option.bind_eq_some_iff.mp h
  obtain ⟨t, ht, rfl⟩ := Option.map_eq_some_iff.mp h
  exact sized_findNodes (created_of_init ht).1

theorem nullFree_of_sealed (h : Sealed mediaOpen alloc) : NullFree k mediaOpen alloc := by
  intro fuel heq
  obtain ⟨cam, hcam, hfault⟩ := (mediaLibInit_eq_error_iff h.1).mp heq
  exact (h.2 cam hcam).ne_fault hfault

theorem guarded_of_nullFree (h : NullFree k mediaOpen alloc) : Guarded mediaOpen alloc := by
  have hmedia : mediaOpen ≠ none := by
    rintro rfl
    exact h 0 rfl
  refine ⟨hmedia, fun cam hcam => ?_⟩
  by_contra hbare
  obtain ⟨fuel, hfault⟩ := (faults_search_iff (sized_of_mem_searchedGraph hcam)).mpr hbare
  exact h fuel ((mediaLibInit_eq_error_iff hmedia).mpr ⟨cam, hcam, hfault⟩)

theorem nullFree_of_guarded (h : Guarded mediaOpen alloc) : NullFree k mediaOpen alloc := by
  intro fuel heq
  obtain ⟨cam, hcam, hfault⟩ := (mediaLibInit_eq_error_iff h.1).mp heq
  exact (faults_search_iff (sized_of_mem_searchedGraph hcam)).mp ⟨fuel, hfault⟩ (h.2 cam hcam)

theorem nullFree_iff_guarded : NullFree k mediaOpen alloc ↔ Guarded mediaOpen alloc :=
  ⟨guarded_of_nullFree, nullFree_of_guarded⟩

theorem initReturns_of_unlooping (h : Guarded mediaOpen alloc) (hunlooped : Unlooping mediaOpen alloc) :
    InitReturns k mediaOpen alloc := by
  have hends : ∃ bound, ∀ cam ∈ searchedGraph mediaOpen alloc, ∀ fuel, bound ≤ fuel →
      ∃ p, mediaLibSearchRoute cam fuel SearchState.init = .ok p := by
    cases hsearched : searchedGraph mediaOpen alloc with
    | none => exact ⟨0, by simp⟩
    | some cam =>
      have hcam : cam ∈ searchedGraph mediaOpen alloc := hsearched
      have hsized := sized_of_mem_searchedGraph hcam
      obtain ⟨bound, hbound⟩ := (steady_search cam).exists_ok
        ((settles_search_iff hsized).mpr (hunlooped cam hcam))
        fun hfault => (faults_search_iff hsized).mp hfault (h.2 cam hcam)
      exact ⟨bound, fun _ heq => Option.some.inj heq ▸ hbound⟩
  obtain ⟨bound, hbound⟩ := hends
  refine ⟨bound, fun fuel hfuel => ?_⟩
  cases hinit : mediaLibInit k fuel mediaOpen alloc with
  | ok cam => exact ⟨cam, rfl⟩
  | error e =>
    obtain ⟨cam, hcam, herror⟩ := (mediaLibInit_eq_error_iff h.1).mp hinit
    obtain ⟨p, hok⟩ := hbound cam hcam fuel hfuel
    cases hok.symm.trans herror

theorem unlooping_of_initReturns (hmedia : mediaOpen ≠ none) (h : InitReturns k mediaOpen alloc) :
    Unlooping mediaOpen alloc := by
  obtain ⟨bound, hbound⟩ := h
  refine fun cam hcam => (settles_search_iff (sized_of_mem_searchedGraph hcam)).mp ⟨bound, fun hfuel => ?_⟩
  obtain ⟨handle, hok⟩ := hbound bound le_rfl
  cases hok.symm.trans ((mediaLibInit_eq_error_iff hmedia).mpr ⟨cam, hcam, hfuel⟩)

theorem unlooping_of_uncycled (h : Uncycled mediaOpen alloc) : Unlooping mediaOpen alloc := by
  intro cam hcam
  obtain ⟨hUp, hDown⟩ := h cam hcam
  have hsized := sized_of_mem_searchedGraph hcam
  refine (settles_search_iff hsized).mp ⟨searchFuel cam, ?_⟩
  rcases mediaLibSearchRoute_total hsized hUp hDown le_rfl with ⟨ret, s', hok, -⟩ | hfault
  · simp [hok]
  · simp [hfault]

theorem sealed_of_nullFree (h : NullFree k mediaOpen alloc) (hacyclic : Uncycled mediaOpen alloc)
    (hample : Unstopped mediaOpen alloc) : Sealed mediaOpen alloc := by
  have hmedia := (guarded_of_nullFree h).1
  refine ⟨hmedia, fun cam hcam => ?_⟩
  obtain ⟨hUp, hDown⟩ := hacyclic cam hcam
  rcases mediaLibSearchRoute_total (sized_of_mem_searchedGraph hcam) hUp hDown le_rfl with
    ⟨ret, s', -, hnull⟩ | hfault
  · exact hnull (hample cam hcam).1 (hample cam hcam).2
  · exact absurd ((mediaLibInit_eq_error_iff hmedia).mpr ⟨cam, hcam, hfault⟩) (h _)

/-- No NULL is read and the call returns exactly where each round of the search is guarded and no call
of `CamNodeSetupRoute` leads back to itself.  A sealed device is guarded, and one without cycles has no
such call; where nothing stops the search before it has been everywhere, the sealed ones are all. -/
theorem nullFree_iff (k : Kernel) (mediaOpen : Option MediaDevice) (alloc : Nat → Bool) :
    (NullFree k mediaOpen alloc ∧ InitReturns k mediaOpen alloc ↔
        Guarded mediaOpen alloc ∧ Unlooping mediaOpen alloc) ∧
      (NullFree k mediaOpen alloc ↔ Guarded mediaOpen alloc) ∧
      (Sealed mediaOpen alloc → Guarded mediaOpen alloc) ∧
      (Uncycled mediaOpen alloc → Unlooping mediaOpen alloc) ∧
      (Uncycled mediaOpen alloc → Unstopped mediaOpen alloc →
        (NullFree k mediaOpen alloc ↔ Sealed mediaOpen alloc)) := by
  refine ⟨⟨fun ⟨hnull, hreturns⟩ => ?_, fun ⟨hguarded, hunlooped⟩ => ?_⟩, nullFree_iff_guarded,
    fun h => nullFree_iff_guarded.mp (nullFree_of_sealed (k := k) h), unlooping_of_uncycled,
    fun hacyclic hample => ⟨fun h => sealed_of_nullFree h hacyclic hample, nullFree_of_sealed⟩⟩
  · have hguarded := guarded_of_nullFree hnull
    exact ⟨hguarded, unlooping_of_initReturns hguarded.1 hreturns⟩
  · exact ⟨nullFree_of_guarded hguarded, initReturns_of_unlooping hguarded hunlooped⟩

end

theorem searchedGraph_smallBoard :
    searchedGraph (some smallBoard) (fun _ => true) = some smallGraph := by
  rw [searchedGraph, Option.bind_some, smallTable_eq]
  rfl

theorem sealed_smallBoard : Sealed (some smallBoard) fun _ => true := by
  refine ⟨by simp, fun cam hcam => ?_⟩
  rw [searchedGraph_smallBoard] at hcam
  cases hcam
  exact fun v _ _ _ => wired_smallTable.sourced v

theorem uncycled_smallBoard : Uncycled (some smallBoard) fun _ => true := by
  intro cam hcam
  rw [searchedGraph_smallBoard] at hcam
  cases hcam
  exact ⟨acyclic_smallTable.mono fun _ _ => wired_smallTable.link_of_up,
    acyclic_smallTable.mono fun _ _ => wired_smallTable.link_of_down⟩

theorem roomy_smallGraph : smallGraph.Roomy smallGraph.Link := by
  rcases mediaLibSearchRoute_wired wired_smallTable acyclic_smallTable le_rfl with
    ⟨hroomy, -⟩ | ⟨-, s', hrefused⟩
  · exact hroomy
  · have hseen :
        (mediaLibSearchRoute smallGraph (searchFuel smallGraph) SearchState.init).toOption.map (·.1) =
        some 0 := by decide +kernel
    obtain ⟨⟨ret, s''⟩, hsearch, rfl⟩ := exists_of_map_eq_some hseen
    cases hrefused.symm.trans hsearch

theorem unstopped_smallBoard : Unstopped (some smallBoard) fun _ => true := by
  intro cam hcam
  rw [searchedGraph_smallBoard] at hcam
  cases hcam
  exact ⟨wired_smallTable.outbound,
    (wired_smallTable.roomy_up_iff acyclic_smallTable).mpr roomy_smallGraph⟩

theorem nullFree_smallBoard :
    (NullFree readyKernel (some smallBoard) (fun _ => true) ∧
      InitReturns readyKernel (some smallBoard) fun _ => true) ∧
      (NullFree readyKernel (some smallBoard) (fun _ => true) ↔
        Sealed (some smallBoard) fun _ => true) :=
  have h := nullFree_iff readyKernel (some smallBoard) fun _ => true
  ⟨h.1.mpr ⟨h.2.2.1 sealed_smallBoard, h.2.2.2.1 uncycled_smallBoard⟩,
    h.2.2.2.2 uncycled_smallBoard unstopped_smallBoard⟩

/-- A path, fillers up to the last node there is room for, and a sensor behind them. -/
def longBoard : MediaDevice where
  entities := ⟨1, "b52isd-Pipeline#1", .other, [⟨true, false⟩, ⟨false, true⟩]⟩ ::
    ((List.range 49).map fun i => ⟨2 + i, "filler", .other, []⟩) ++
    [⟨51, "s5k2p2", .subdevSensor, [⟨false, true⟩]⟩]
  links := [⟨⟨50, 0⟩, ⟨0, 0⟩⟩]

theorem not_nullFree_longBoard : ¬NullFree readyKernel none (fun _ => true) ∧
    ¬NullFree readyKernel (some longBoard) fun _ => true :=
  ⟨fun h => h 0 rfl, fun h => h 1 rfl⟩

end G361FPlatform.MediaLib
