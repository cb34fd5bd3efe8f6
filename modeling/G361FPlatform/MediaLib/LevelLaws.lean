import G361FPlatform.Library.Relax
import G361FPlatform.MediaLib.WireLaws

namespace G361FPlatform.MediaLib

open Library Outcome

def queueRoom : Nat := nodeQueueDepth - 1

namespace SearchState

structure At (s : SearchState) (r : Relaxation NodeId) : Prop where
  level : s.level = r.level
  queue : s.queue.Holds nodeQueueDepth r.queue

variable {s : SearchState} {r : Relaxation NodeId} {node : NodeId}

theorem At.qReset (s : SearchState) : s.qReset.At ⟨s.level, []⟩ :=
  ⟨rfl, Ring.holds_reset (by decide) s.queue⟩

theorem At.qPush (h : s.At r) (node : NodeId) :
    (r.queue.length + 1 ≤ queueRoom ∧
      ∃ s', s.qPush node = .ok (0, s') ∧ s'.At { r with queue := r.queue ++ [node] }) ∨
    (queueRoom < r.queue.length + 1 ∧ s.qPush node = .ok (-ENOMEM, s)) := by
  have hlt := h.queue.length_lt
  unfold SearchState.qPush
  cases hpush : s.queue.push nodeQueueDepth node with
  | none =>
    have hfull := (h.queue.push_eq_none_iff node).mp hpush
    exact .inr ⟨by unfold queueRoom; omega, rfl⟩
  | some q =>
    have hroom : r.queue.length ≠ nodeQueueDepth - 1 := by
      intro hfull
      rw [(h.queue.push_eq_none_iff node).mpr hfull] at hpush
      cases hpush
    refine .inl ⟨by unfold queueRoom; omega, _, rfl, h.level, h.queue.push hpush⟩

theorem At.qPop (h : s.At r) :
    (r.queue = [] ∧ s.qPop = (none, s)) ∨
      ∃ v queue s', r.queue = v :: queue ∧ s.qPop = (some v, s') ∧ s'.At { r with queue := queue } := by
  cases hqueue : r.queue with
  | nil =>
    have hpop := Ring.Holds.pop_nil (hqueue ▸ h.queue)
    exact .inl ⟨rfl, by rw [SearchState.qPop, hpop]⟩
  | cons v queue =>
    obtain ⟨q, hpop, hq⟩ := Ring.Holds.pop_cons (hqueue ▸ h.queue)
    exact .inr ⟨v, queue, { s with queue := q }, rfl, by rw [SearchState.qPop, hpop], h.level, hq⟩

theorem pushPool_at (h : s.At r) (goals : List NodeId) :
    ((r.queue ++ goals).length ≤ queueRoom ∧
      ∃ s', pushPool goals s = .ok (0, s') ∧ s'.At { r with queue := r.queue ++ goals }) ∨
    (queueRoom < (r.queue ++ goals).length ∧ ∃ s', pushPool goals s = .ok (-ENOMEM, s')) := by
  induction goals generalizing s r with
  | nil =>
    have hlt := h.queue.length_lt
    rw [List.append_nil]
    exact .inl ⟨by unfold queueRoom; omega, s, rfl, h⟩
  | cons node goals ih =>
    have hsplit : r.queue ++ node :: goals = r.queue ++ [node] ++ goals := by simp
    unfold pushPool
    rcases h.qPush node with ⟨-, s₁, hpush, h₁⟩ | ⟨hfull, hpush⟩
    · rw [hpush, andThen_ok_nonneg le_rfl, hsplit]
      exact ih h₁
    · rw [hpush, andThen_ok_neg (by decide)]
      refine .inr ⟨?_, s, rfl⟩
      rw [List.length_append, List.length_cons]
      omega

theorem levelAbove_eq {level : Nat} (h : level ≤ ME_CNT) : levelAbove level = level + 1 :=
  Nat.mod_eq_of_lt (by unfold ME_CNT at h; omega)

theorem raise_level_self {u : NodeId} (hne : u ≠ node) :
    (r.raise node u).level node = r.level node := by
  unfold Relaxation.raise
  split
  · exact Function.update_of_ne hne.symm _ _
  · rfl

/-- What the scan of a node comes to: it keeps pace with the relaxation, a push is refused, or there
is a link without a source. -/
theorem relaxLinks_at (ls : List CamLink) (hlevel : r.level node ≤ ME_CNT) (h : s.At r) :
    (Relaxation.ScanFits queueRoom node (CamGraph.upstream node ls) r ∧ (∀ l ∈ ls, l.src ≠ none) ∧
      ∃ s', relaxLinks node ls s = .ok (0, s') ∧ s'.At (r.scan node (CamGraph.upstream node ls))) ∨
    (¬Relaxation.ScanFits queueRoom node (CamGraph.upstream node ls) r ∧
      ∃ s', relaxLinks node ls s = .ok (-ENOMEM, s')) ∨
    ((∃ l ∈ ls, l.src = none) ∧ relaxLinks node ls s = .error .fault) := by
  induction ls generalizing s r with
  | nil => exact .inl ⟨trivial, by simp, s, rfl, h⟩
  | cons l ls ih =>
    unfold relaxLinks
    split
    next hself =>
      have hups : CamGraph.upstream node (l :: ls) = CamGraph.upstream node ls := by
        simp [CamGraph.upstream, hself]
      rw [hups]
      simpa [hself] using ih hlevel h
    next hne =>
      cases hsrc : l.src with
      | none => exact .inr (.inr ⟨⟨l, List.mem_cons_self, hsrc⟩, rfl⟩)
      | some up =>
        have hup : up ≠ node := fun heq => hne (heq ▸ hsrc)
        have hups : CamGraph.upstream node (l :: ls) = up :: CamGraph.upstream node ls := by
          simp [CamGraph.upstream, hsrc, hup]
        have hlevel' : (r.raise node up).level node ≤ ME_CNT := by rwa [raise_level_self hup]
        dsimp only
        rw [hups, levelAbove_eq (h.level ▸ hlevel), h.level]
        simp only [Relaxation.ScanFits, Relaxation.scan, List.forall_mem_cons, List.exists_mem_cons_iff,
          hsrc,
          ne_eq, reduceCtorEq, not_false_eq_true, true_and, false_or]
        by_cases hlt : r.level up < r.level node + 1
        · have hraise : r.raise node up =
              ⟨Function.update r.level up (r.level node + 1), r.queue ++ [up]⟩ := if_pos hlt
          have hset : (s.setLevel up (r.level node + 1)).At
              ⟨Function.update r.level up (r.level node + 1), r.queue⟩ :=
            ⟨by rw [SearchState.setLevel, h.level], h.queue⟩
          rw [if_pos hlt]
          rcases hset.qPush up with ⟨hroom, s₁, hpush, h₁⟩ | ⟨hfull, hpush⟩
          · have hroom : (r.raise node up).queue.length ≤ queueRoom := by simpa [hraise] using hroom
            rw [hpush, andThen_ok_nonneg le_rfl]
            simp only [hroom, true_and]
            exact ih hlevel' (hraise ▸ h₁)
          · have hfull : ¬(r.raise node up).queue.length ≤ queueRoom := by simpa [hraise] using hfull
            rw [hpush, andThen_ok_neg (by decide)]
            exact .inr (.inl ⟨fun hfits => hfull hfits.1, _, rfl⟩)
        · have hraise : r.raise node up = r := if_neg hlt
          have hroom : r.queue.length ≤ queueRoom := by
            have hlen := h.queue.length_lt
            unfold queueRoom
            omega
          rw [if_neg hlt, hraise]
          simp only [hroom, true_and]
          exact ih hlevel h

variable {cam : CamGraph} {goal : NodeId → Prop}

/-- The loop keeps pace with the relaxation until a push is refused or a link has no source.  If it
gets through, the places that have waited all have their sources. -/
theorem propagate_at (hcam : cam.Sized) (hR : Acyclic cam.Up) (hr : r.Waiting cam.Up goal) (h : s.At r)
    (fuel : Nat) :
    (r.Fits queueRoom cam.ups fuel ∧ ∀ r', Relaxation.run cam.ups fuel r = some r' →
      ∃ s', propagate cam fuel s = .ok (0, s') ∧ s'.At r' ∧
        ∀ v, v ∈ r.queue ∨ r'.level v ≠ r.level v → cam.Sourced v) ∨
    (¬r.Fits queueRoom cam.ups fuel ∧ ∃ s', propagate cam fuel s = .ok (-ENOMEM, s')) ∨
    ((∃ v, ¬cam.Sourced v) ∧ propagate cam fuel s = .error .fault) := by
  induction fuel generalizing s r with
  | zero =>
    refine .inl ⟨trivial, fun r' hrun => ?_⟩
    cases hrun
  | succ fuel ih =>
    unfold propagate Relaxation.Fits Relaxation.run
    rcases h.qPop with ⟨hqueue, hpop⟩ | ⟨v, queue, s₁, hqueue, hpop, h₁⟩
    · rw [hpop, hqueue]
      refine .inl ⟨trivial, fun r' hrun => ?_⟩
      cases hrun
      exact ⟨s, rfl, h, fun v hv => hv.elim (fun h => absurd h List.not_mem_nil) fun h => absurd rfl h⟩
    · rw [hpop, hqueue]
      dsimp only
      have hlive : Relaxation.Live goal ⟨r.level, queue⟩ v := hr.live v (hqueue ▸ List.mem_cons_self)
      have hnext := (hr.scanning hqueue fun u hu => hu).scan hR _ (fun u hu => hu) hlive
      have hlevel : (⟨r.level, queue⟩ : Relaxation NodeId).level v ≤ ME_CNT := by
        obtain ⟨g, -, hwalk⟩ := hr.attained.exists_walk hlive
        have hle := Walk.length_le hR (fun _ _ hab => (hcam.mem_range hab).2) hwalk
        rw [Finset.card_range] at hle
        exact hle.trans hcam.size
      rcases relaxLinks_at (cam.linksOf v) hlevel h₁ with
        ⟨hfits, hsourced, s₂, hrelax, h₂⟩ | ⟨hfull, s₂, hrelax⟩ | ⟨⟨l, hl, hnone⟩, hrelax⟩
      · rw [hrelax, andThen_ok_nonneg le_rfl]
        simp only [CamGraph.ups] at hnext ⊢
        simp only [hfits, true_and]
        refine (ih hnext h₂).imp_left ?_
        rintro ⟨hrestFits, hkeep⟩
        refine ⟨hrestFits, fun r' hrun => ?_⟩
        obtain ⟨s', hprop, h', hwaited⟩ := hkeep r' hrun
        refine ⟨s', hprop, h', fun w hw => ?_⟩
        by_cases hwv : w = v
        · exact hwv ▸ hsourced
        by_cases hchanged : (Relaxation.scan v (CamGraph.upstream v (cam.linksOf v))
          ⟨r.level, queue⟩).level w =
            r.level w
        · refine hwaited w (hw.imp (fun hmem => ?_) fun hne heq => hne (heq.trans hchanged))
          exact Relaxation.mem_queue_scan _ ((List.mem_cons.mp hmem).resolve_left hwv)
        · exact hwaited w (.inl (Relaxation.mem_queue_of_scan _ hchanged))
      · rw [hrelax, andThen_ok_neg (by decide)]
        exact .inr (.inl ⟨fun hfits => hfull hfits.1, s₂, rfl⟩)
      · rw [hrelax, andThen_error]
        exact .inr (.inr ⟨⟨v, fun h => h l hl hnone⟩, rfl⟩)

end SearchState

/-- Levels as `MediaLibSearchRoute` wants them: the longest link path to a goal. -/
def CamGraph.LongestTo (cam : CamGraph) (goals : List NodeId) (level : NodeId → Nat) : Prop :=
  ∀ v, Depth cam.Link (· ∈ goals) v (level v)

def relaxPool (cam : CamGraph) (fuel : Nat) (goals : List NodeId) (s : SearchState) :
    Outcome SearchState :=
  andThen (pushPool goals s.qReset) fun _ => propagate cam fuel

def CamGraph.FitsFrom (cam : CamGraph) (goals : List NodeId) (level : NodeId → Nat) : Prop :=
  goals.length ≤ queueRoom ∧ ∀ fuel, Relaxation.Fits queueRoom cam.ups fuel ⟨level, goals⟩

section

variable {cam : CamGraph} {s : SearchState} {node : NodeId}

def relaxFuel (cam : CamGraph) : Nat := 2 * (cam.node.length * cam.node.length) + nodeQueueDepth

/-- From goals on which the levels agree, the loops end: with the levels right and every place that
has waited sourced, with a push refused, or at a link without a source. -/
theorem relaxPool_total (hcam : cam.Sized) (hR : Acyclic cam.Up) {goal : NodeId → Prop}
    {goals : List NodeId}
    (hstart : Relaxation.Waiting cam.Up goal ⟨s.level, goals⟩) {fuel : Nat}
    (hfuel : relaxFuel cam ≤ fuel) :
    (cam.FitsFrom goals s.level ∧
      ∃ s', relaxPool cam fuel goals s = .ok (0, s') ∧ (∀ v, Depth cam.Up goal v (s'.level v)) ∧
        ∀ v, v ∈ goals ∨ s'.level v ≠ s.level v → cam.Sourced v) ∨
    (¬cam.FitsFrom goals s.level ∧ ∃ s', relaxPool cam fuel goals s = .ok (-ENOMEM, s')) ∨
    ((∃ v, ¬cam.Sourced v) ∧ relaxPool cam fuel goals s = .error .fault) := by
  unfold relaxPool
  rcases SearchState.pushPool_at (SearchState.At.qReset s) goals with
    ⟨hroom, s₁, hpush, h₁⟩ | ⟨hfull, s₁, hpush⟩
  · rw [List.nil_append] at hroom h₁
    rw [hpush, andThen_ok_nonneg le_rfl]
    have hpotential : Relaxation.potential (Finset.range cam.node.length) ⟨s.level, goals⟩ < fuel := by
      have hle := Relaxation.potential_le (Finset.range cam.node.length) ⟨s.level, goals⟩
      rw [Finset.card_range] at hle
      dsimp only at hle
      unfold relaxFuel nodeQueueDepth at hfuel
      unfold queueRoom nodeQueueDepth at hroom
      omega
    obtain ⟨r', hrun, hdepth⟩ :=
      hstart.run hR (fun _ _ => hcam.mem_range) (fun _ _ => Iff.rfl) hpotential
    rcases SearchState.propagate_at hcam hR hstart h₁ fuel with
      ⟨hfits, hkeep⟩ | ⟨hfull, hrefused⟩ | hnull
    · obtain ⟨s', hprop, h', hwaited⟩ := hkeep r' hrun
      refine .inl ⟨⟨hroom, Relaxation.fits_of_run hrun hfits⟩, s', hprop, fun v => ?_, ?_⟩
      · rw [h'.level]
        exact hdepth v
      · rw [h'.level]
        exact hwaited
    · exact .inr (.inl ⟨fun h => hfull (h.2 fuel), hrefused⟩)
    · exact .inr (.inr hnull)
  · rw [List.nil_append] at hfull
    rw [hpush, andThen_ok_neg (by decide)]
    exact .inr (.inl ⟨fun h => by have := h.1; omega, s₁, rfl⟩)

/-- A piece of the route set-up that returns and leaves the levels alone; where links leave from the
nodes that list them it does not fail either. -/
def SetsUp (cam : CamGraph) (s : SearchState) (x : Outcome SearchState) : Prop :=
  ∃ ret s', x = .ok (ret, s') ∧ (cam.Outbound → 0 ≤ ret) ∧ s.Grows s' ∧ s'.level = s.level

theorem setsUp_ok (h : s.Wf) {ret : Int} (hret : 0 ≤ ret) : SetsUp cam s (.ok (ret, s)) :=
  ⟨ret, s, rfl, fun _ => hret, h.grows, rfl⟩

theorem SetsUp.andThen {x : Outcome SearchState} {f : Int → SearchState → Outcome SearchState}
    (hx : SetsUp cam s x) (hf : ∀ ret s', s.Grows s' → SetsUp cam s' (f ret s')) :
    SetsUp cam s (Outcome.andThen x f) := by
  obtain ⟨ret, s₁, rfl, hret, hgrows, hlevel⟩ := hx
  by_cases hneg : ret < 0
  · exact ⟨ret, s₁, andThen_ok_neg hneg s₁ f, hret, hgrows, hlevel⟩
  · obtain ⟨ret', s₂, hf, hret', hgrows', hlevel'⟩ := hf ret s₁ hgrows
    exact ⟨ret', s₂, by rw [andThen_ok_nonneg (Int.not_lt.mp hneg), hf], hret', hgrows.trans hgrows',
      hlevel'.trans hlevel⟩

theorem setsUp_camNodeAddRoute {head : CamLink} {dst : NodeId} {more : Option CamRoute} (h : s.Wf)
    (hsrc : cam.Outbound → head.src = some node) (hdst : head.dst = some dst)
    (hmore : ∀ m, more = some m → m ∈ s.heap ∧ m.src = dst) :
    SetsUp cam s (camNodeAddRoute node head more s) := by
  have hgrows : Post (camNodeAddRoute node head more s) fun _ s' => s.Grows s' :=
    SearchState.grows_camNodeAddRoute h fun m hm => (hmore m hm).1
  unfold camNodeAddRoute at hgrows ⊢
  split at hgrows
  next hne =>
    rw [if_pos hne]
    exact ⟨_, s, rfl, fun hcam => absurd (hsrc hcam) hne, h.grows, rfl⟩
  next hself =>
    rw [if_neg hself]
    cases more with
    | none =>
      rw [hdst] at hgrows ⊢
      exact ⟨0, _, rfl, fun _ => le_rfl, hgrows _ _ rfl, rfl⟩
    | some m =>
      have hm : head.dst = some m.src := by rw [hdst, (hmore m rfl).2]
      dsimp only at hgrows ⊢
      rw [if_neg (by simp [hm])] at hgrows ⊢
      exact ⟨0, _, rfl, fun _ => le_rfl, hgrows _ _ rfl, rfl⟩

theorem setsUp_addRoutes {head : CamLink} {dst : NodeId} (rs : List CamRoute) (h : s.Wf)
    (hsrc : cam.Outbound → head.src = some node) (hdst : head.dst = some dst)
    (hrs : ∀ r ∈ rs, r ∈ s.heap ∧ r.src = dst) : SetsUp cam s (addRoutes node head rs s) := by
  induction rs generalizing s with
  | nil => exact setsUp_ok h le_rfl
  | cons r rs ih =>
    have hhead : ∀ m, some r = some m → m ∈ s.heap ∧ m.src = dst := by
      rintro m ⟨⟩
      exact hrs r List.mem_cons_self
    refine (setsUp_camNodeAddRoute h hsrc hdst hhead).andThen fun _ s₁ hgrows =>
      ih hgrows.1 fun r' hr' => ?_
    have hr := hrs r' (List.mem_cons_of_mem r hr')
    exact ⟨hgrows.2 r' hr.1, hr.2⟩

theorem setsUp_setupLinks {setup : NodeId → SearchState → Outcome SearchState} (ls : List CamLink)
    (hls : ∀ l ∈ ls, ∀ dst, l.dst = some dst → dst ≠ node →
      (cam.Outbound → l.src = some node) ∧ ∀ s : SearchState, s.Wf → SetsUp cam s (setup dst s))
    (h : s.Wf) :
    SetsUp cam s (setupLinks setup node ls s) := by
  induction ls generalizing s with
  | nil => exact setsUp_ok h le_rfl
  | cons l ls ih =>
    have hrest : ∀ (_ : Int) (s' : SearchState), s'.Wf → SetsUp cam s' (setupLinks setup node ls s') :=
      fun _ s' hs' => ih (fun l' hl' => hls l' (List.mem_cons_of_mem l hl')) hs'
    unfold setupLinks
    cases hdst : l.dst with
    | none => exact hrest 0 s h
    | some dst =>
      dsimp only
      split
      · exact hrest 0 s h
      next hne =>
        obtain ⟨hsrc, hsetup⟩ := hls l List.mem_cons_self dst hdst hne
        split
        · refine (hsetup s h).andThen fun _ s₁ hgrows => ?_
          refine (setsUp_addRoutes _ hgrows.1 hsrc hdst
            fun r hr => hgrows.1.route_mem dst r hr).andThen ?_
          exact fun ret s₂ hgrows' => hrest ret s₂ hgrows'.1
        · refine (setsUp_camNodeAddRoute h hsrc hdst (by simp)).andThen ?_
          exact fun ret s₂ hgrows => hrest ret s₂ hgrows.1

theorem setsUp_camNodeSetupRoute {fuel : Nat} (hfuel : ∀ g m, Walk cam.Down node g m → m < fuel)
    (h : s.Wf) :
    SetsUp cam s (camNodeSetupRoute cam fuel node s) := by
  induction fuel generalizing s node with
  | zero => exact absurd (hfuel node 0 (.nil node)) (Nat.lt_irrefl 0)
  | succ fuel ih =>
    unfold camNodeSetupRoute
    split
    · exact setsUp_ok h (Int.natCast_nonneg _)
    · refine (setsUp_setupLinks _
        (fun l hl dst hdst hne => ⟨fun hcam => ?_, fun s' hs' => ih (fun g m hwalk => ?_) hs'⟩)
        h).andThen fun _ s' hgrows => setsUp_ok hgrows.1 (Int.natCast_nonneg _)
      · exact hcam node l hl dst hdst hne
      · have hlt := hfuel g (m + 1) (.cons ⟨l, hl, hdst, hne⟩ hwalk)
        omega

theorem setsUp_setupPool (hcam : cam.Sized) (hR : Acyclic cam.Down) {fuel : Nat}
    (hfuel : cam.node.length < fuel)
    (pool : List NodeId) (h : s.Wf) : SetsUp cam s (setupPool cam fuel pool s) := by
  induction pool generalizing s with
  | nil => exact setsUp_ok h le_rfl
  | cons node pool ih =>
    refine (setsUp_camNodeSetupRoute (fun g m hwalk => ?_) h).andThen fun _ s' hgrows => ih hgrows.1
    have hle := Walk.length_le hR (fun a b hab => Finset.mem_range.mpr (hcam.down_lt a b hab).2) hwalk
    rw [Finset.card_range] at hle
    omega

theorem searchPhase_eq (fuel : Nat) (goals owners : List NodeId) :
    searchPhase cam fuel goals owners s =
      andThen (relaxPool cam fuel goals s) fun _ => setupPool cam fuel owners := by
  unfold searchPhase relaxPool
  cases pushPool goals s.qReset with
  | error e => rfl
  | ok p =>
    obtain ⟨ret, s₁⟩ := p
    by_cases hneg : ret < 0
    · rw [andThen_ok_neg hneg, andThen_ok_neg hneg, andThen_ok_neg hneg]
    · rw [andThen_ok_nonneg (Int.not_lt.mp hneg), andThen_ok_nonneg (Int.not_lt.mp hneg)]

theorem sameRoutes_relaxPool (cam : CamGraph) (fuel : Nat) (goals : List NodeId) (s : SearchState) :
    Post (relaxPool cam fuel goals s) fun _ s' => s.SameRoutes s' := by
  refine Post.andThen_inv (I := fun s' => s.SameRoutes s')
    (SearchState.sameRoutes_pushPool goals s.qReset) ?_
  exact fun _ s₁ h₁ => (SearchState.sameRoutes_propagate cam fuel s₁).imp fun _ _ h₂ => h₁.trans h₂

theorem wf_relaxPool (fuel : Nat) (goals : List NodeId) (h : s.Wf) :
    Post (relaxPool cam fuel goals s) fun _ s' => s'.Wf :=
  (sameRoutes_relaxPool cam fuel goals s).imp fun _ _ hsame => hsame.wf h

def searchFuel (cam : CamGraph) : Nat := relaxFuel cam + cam.node.length + 1

end

section

variable {cam : CamGraph} {s : SearchState} {fuel : Nat}

theorem relaxPool_wired (hcam : cam.Wired) (hR : Acyclic cam.Link) {goal : NodeId → Prop}
    {goals : List NodeId}
    (hstart : Relaxation.Waiting cam.Link goal ⟨s.level, goals⟩) (hfuel : searchFuel cam ≤ fuel) :
    (cam.FitsFrom goals s.level ∧
      ∃ s', relaxPool cam fuel goals s = .ok (0, s') ∧ ∀ v, Depth cam.Link goal v (s'.level v)) ∨
    (¬cam.FitsFrom goals s.level ∧ ∃ s', relaxPool cam fuel goals s = .ok (-ENOMEM, s')) := by
  have hrelaxFuel : relaxFuel cam ≤ fuel := by
    unfold searchFuel at hfuel
    omega
  have heq := hcam.up_eq hR
  rw [← heq] at hR hstart ⊢
  rcases relaxPool_total hcam.sized hR hstart hrelaxFuel with
    ⟨hfits, s', hrelax, hdepth, -⟩ | hfull | ⟨⟨v, hv⟩, -⟩
  · exact .inl ⟨hfits, s', hrelax, hdepth⟩
  · exact .inr hfull
  · exact absurd (hcam.sourced v) hv

theorem setupPool_wired (hcam : cam.Wired) (hR : Acyclic cam.Link) (hfuel : searchFuel cam ≤ fuel)
    (pool : List NodeId) (h : s.Wf) :
    ∃ s', setupPool cam fuel pool s = .ok (0, s') ∧ s'.Wf ∧ s'.level = s.level := by
  unfold searchFuel at hfuel
  obtain ⟨ret, s', hsetup, hret, hgrows, hlevel⟩ := setsUp_setupPool hcam.sized
    (hR.mono fun _ _ => hcam.link_of_down) (show cam.node.length < fuel by omega) pool h
  have hzero : ret = 0 := Int.le_antisymm (SearchState.nonpos_setupPool _ _ _ _ _ _ hsetup)
    (hret hcam.outbound)
  exact ⟨s', hzero ▸ hsetup, hgrows.1, hlevel⟩

theorem searchPhase_wired (hcam : cam.Wired) (hR : Acyclic cam.Link) {goal : NodeId → Prop}
    {goals : List NodeId} (owners : List NodeId)
    (hstart : Relaxation.Waiting cam.Link goal ⟨s.level, goals⟩)
    (h : s.Wf) (hfuel : searchFuel cam ≤ fuel) :
    (cam.FitsFrom goals s.level ∧ ∃ s', searchPhase cam fuel goals owners s = .ok (0, s') ∧ s'.Wf ∧
      ∀ v, Depth cam.Link goal v (s'.level v)) ∨
    (¬cam.FitsFrom goals s.level ∧ ∃ s', searchPhase cam fuel goals owners s = .ok (-ENOMEM, s')) := by
  rw [searchPhase_eq]
  rcases relaxPool_wired hcam hR hstart hfuel with ⟨hfits, s₁, hrelax, hdepth⟩ | ⟨hfull, s₁, hrelax⟩
  · obtain ⟨s₂, hsetup, hwf, hlevel⟩ :=
      setupPool_wired hcam hR hfuel owners (wf_relaxPool fuel goals h _ _ hrelax)
    rw [hrelax, andThen_ok_nonneg le_rfl]
    exact .inl ⟨hfits, s₂, hsetup, hwf, fun v => hlevel ▸ hdepth v⟩
  · rw [hrelax, andThen_ok_neg (by decide)]
    exact .inr ⟨hfull, s₁, rfl⟩

/-- The ring is large enough for the graph: relaxing from the paths, and then from the outputs
with the distances to the paths as levels, never leaves more nodes waiting than it takes. -/
def CamGraph.Roomy (cam : CamGraph) (R : NodeId → NodeId → Prop) : Prop :=
  cam.FitsFrom cam.pathPool (fun _ => 0) ∧
    ∀ level, (∀ v, Depth R (· ∈ cam.pathPool) v (level v)) → cam.FitsFrom cam.dstPool level

theorem CamGraph.LongestTo.unique {goals : List NodeId} {level level' : NodeId → Nat}
    (h : cam.LongestTo goals level) (h' : cam.LongestTo goals level') : level = level' :=
  funext fun v => (h v).unique (h' v)

theorem longestTo_append {goals goals' : List NodeId} {level : NodeId → Nat}
    (h : ∀ v, Depth cam.Link (fun g => g ∈ goals ∨ g ∈ goals') v (level v)) :
    cam.LongestTo (goals ++ goals') level := by
  intro v
  simpa only [List.mem_append] using h v

theorem waiting_paths (R : NodeId → NodeId → Prop) (goals : List NodeId) :
    Relaxation.Waiting R (· ∈ goals) ⟨SearchState.init.level, goals⟩ :=
  Relaxation.waiting_zero (fun _ => rfl) fun _ => Iff.rfl

theorem mediaLibSearchRoute_wired (hcam : cam.Wired) (hR : Acyclic cam.Link)
    (hfuel : searchFuel cam ≤ fuel) :
    (cam.Roomy cam.Link ∧ ∃ s', mediaLibSearchRoute cam fuel SearchState.init = .ok (0, s') ∧
      cam.LongestTo (cam.pathPool ++ cam.dstPool) s'.level) ∨
    (¬cam.Roomy cam.Link ∧ ∃ s', mediaLibSearchRoute cam fuel SearchState.init = .ok (-ENOMEM, s')) := by
  unfold mediaLibSearchRoute
  rcases searchPhase_wired hcam hR cam.srcPool (waiting_paths _ _) SearchState.wf_init hfuel with
    ⟨hfits₁, s₁, hphase₁, hwf₁, hdepth₁⟩ | ⟨hfull, s₁, hphase₁⟩
  · rw [hphase₁, andThen_ok_nonneg le_rfl]
    have hstart₂ : Relaxation.Waiting cam.Link (fun v => v ∈ cam.pathPool ∨ v ∈ cam.dstPool)
        ⟨s₁.level, cam.dstPool⟩ := Relaxation.waiting_start hdepth₁ fun _ => Iff.rfl
    have hroomy : cam.Roomy cam.Link ↔ cam.FitsFrom cam.dstPool s₁.level :=
      ⟨fun h => h.2 _ hdepth₁, fun h =>
        ⟨hfits₁, fun level hlevel => CamGraph.LongestTo.unique hdepth₁ hlevel ▸ h⟩⟩
    rw [hroomy]
    rcases searchPhase_wired hcam hR cam.pathPool hstart₂ hwf₁ hfuel with
      ⟨hfits₂, s₂, hphase₂, -, hdepth₂⟩ | ⟨hfull, s₂, hphase₂⟩
    · rw [hphase₂]
      exact .inl ⟨hfits₂, s₂.qReset, rfl, longestTo_append hdepth₂⟩
    · rw [hphase₂]
      exact .inr ⟨hfull, s₂.qReset, rfl⟩
  · rw [hphase₁, andThen_ok_neg (by decide)]
    exact .inr ⟨fun h => hfull h.1, s₁.qReset, rfl⟩

end

def smallGraph : CamGraph := findNodes smallBoard smallTable

end G361FPlatform.MediaLib
