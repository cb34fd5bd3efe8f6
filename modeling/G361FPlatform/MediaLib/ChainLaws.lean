import G361FPlatform.Library.Trails
import G361FPlatform.MediaLib.ContextLaws
import G361FPlatform.MediaLib.SetupLaws

namespace G361FPlatform.MediaLib

open Library Outcome Relation

namespace CamRoute

def links (r : CamRoute) : List CamLink := r.segments.map head

theorem links_eq_cons {r m : CamRoute} (h : r.more = some m) : r.links = r.head :: m.links := by
  cases r with
  | last => cases h
  | cons id src dst head more =>
    cases h
    rfl

theorem links_eq_singleton {r : CamRoute} (h : r.more = none) : r.links = [r.head] := by
  cases r with
  | last => rfl
  | cons => cases h

theorem head_dst_of_linked {r m : CamRoute} (h : r.Linked) (hm : r.more = some m) :
    r.head.dst = some m.src := by
  cases r with
  | last => cases hm
  | cons id src dst head more =>
    cases hm
    exact h.2.1

theorem getLast?_links {r : CamRoute} (h : r.Linked) : r.links.getLast?.bind CamLink.dst = some r.dst := by
  induction r with
  | last id src dst head => exact h.2
  | cons id src dst head more ih =>
    obtain ⟨-, -, rfl, hmore⟩ := h
    rw [links_eq_cons (m := more) rfl, List.getLast?_cons]
    have hlast := ih hmore
    cases hlinks : more.links.getLast? with
    | none =>
      rw [hlinks] at hlast
      cases hlast
    | some l =>
      rw [hlinks] at hlast
      exact hlast

end CamRoute

namespace CamGraph

def fan (cam : CamGraph) (level : NodeId → Nat) : Fan NodeId CamLink where
  out := cam.linksOf
  next := fun node l => if l.src = some node then l.dst.filter (· ≠ node) else none
  final := fun node => level node = 0

/-- The routes are those along the chains of links from the node that end at their first node of
level 0: one each, in the order of the links. -/
def Enumerates (cam : CamGraph) (level : NodeId → Nat) (node : NodeId) (rs : List CamRoute) : Prop :=
  ∃ chains : List (List (Nat × CamLink)), (∀ c, c ∈ chains ↔ (cam.fan level).Trail node c) ∧
    chains.Pairwise (fun c c' => c.map Prod.fst < c'.map Prod.fst) ∧
    rs.map CamRoute.links = chains.map (List.map Prod.snd)

variable {cam : CamGraph} {level : NodeId → Nat} {node v : NodeId} {l : CamLink}

theorem down_of_next (hl : l ∈ cam.linksOf node) (h : (cam.fan level).next node l = some v) :
    cam.Down node v := by
  simp only [fan] at h
  split at h
  · obtain ⟨hdst, hne⟩ := Option.filter_eq_some_iff.mp h
    exact ⟨l, hl, hdst, by simpa using hne⟩
  · cases h

theorem next_eq_none (h : ∀ v, l.dst = some v → v = node) : (cam.fan level).next node l = none := by
  simp only [fan, ite_eq_right_iff]
  intro _
  rw [Option.filter_eq_none_iff]
  intro v hv
  simp [h v hv]

theorem next_eq_some (hout : cam.Outbound) (hl : l ∈ cam.linksOf node) (hdst : l.dst = some v)
    (hne : v ≠ node) : (cam.fan level).next node l = some v := by
  simp [fan, hout node l hl v hdst hne, hdst, hne]

theorem lt_of_down {u : NodeId} (h : cam.Down u v) : u < cam.node.length := by
  obtain ⟨l, hl, -⟩ := h
  unfold linksOf at hl
  by_contra hge
  rw [List.getElem?_eq_none (Nat.not_lt.mp hge)] at hl
  cases hl

theorem walk_length_le (hR : Acyclic cam.Down) {n : Nat} (h : Walk cam.Down node v n) :
    n ≤ cam.node.length := by
  have hle := h.length_le_of_start hR (s := Finset.range cam.node.length)
    fun _ _ hstep => Finset.mem_range.mpr (lt_of_down hstep)
  rwa [Finset.card_range] at hle

theorem exists_walk_of_trail {t : List (Nat × CamLink)} (h : (cam.fan level).Trail node t) :
    ∃ v, Walk cam.Down node v t.length := by
  induction h with
  | stop he hnext => exact ⟨_, .cons (down_of_next (List.mem_of_getElem? he) hnext) (.nil _)⟩
  | step he hnext _ _ ih =>
    obtain ⟨v, hwalk⟩ := ih
    exact ⟨v, .cons (down_of_next (List.mem_of_getElem? he) hnext) hwalk⟩

theorem trail_length_le (hR : Acyclic cam.Down) (node : NodeId) (t : List (Nat × CamLink))
    (h : (cam.fan level).Trail node t) : t.length ≤ cam.node.length := by
  obtain ⟨v, hwalk⟩ := exists_walk_of_trail h
  exact walk_length_le hR hwalk

def chains (cam : CamGraph) (level : NodeId → Nat) : NodeId → List (List (Nat × CamLink)) :=
  (cam.fan level).trails cam.node.length

def chainsThrough (cam : CamGraph) (level : NodeId → Nat) (node : NodeId) (p : CamLink × Nat) :
    List (List (Nat × CamLink)) :=
  (cam.fan level).behind (cam.chains level) node p

theorem chains_eq (hR : Acyclic cam.Down) (node : NodeId) : cam.chains level node =
    (cam.linksOf node).zipIdx.flatMap (cam.chainsThrough level node) :=
  Fan.trails_eq (trail_length_le hR) node

theorem chainsThrough_none (h : (cam.fan level).next node l = none) (i : Nat) :
    cam.chainsThrough level node (l, i) = [] := by
  rw [chainsThrough, Fan.behind, h]

theorem chainsThrough_final (h : (cam.fan level).next node l = some v) (hzero : level v = 0) (i : Nat) :
    cam.chainsThrough level node (l, i) = [[(i, l)]] := by
  have hfinal : (cam.fan level).final v = true := by simp [fan, hzero]
  rw [chainsThrough, Fan.behind, h]
  simp [hfinal]

theorem chainsThrough_step (h : (cam.fan level).next node l = some v) (hpos : level v ≠ 0) (i : Nat) :
    cam.chainsThrough level node (l, i) = (cam.chains level v).map ((i, l) :: ·) := by
  have hfinal : (cam.fan level).final v = false := by simp [fan, hpos]
  rw [chainsThrough, Fan.behind, h]
  simp [hfinal]

def Listed (cam : CamGraph) (level : NodeId → Nat) (node : NodeId) (rs : List CamRoute) : Prop :=
  rs.map CamRoute.links = (cam.chains level node).map (List.map Prod.snd)

theorem Listed.enumerates (hR : Acyclic cam.Down) {rs : List CamRoute}
    (h : cam.Listed level node rs) : cam.Enumerates level node rs := by
  refine ⟨cam.chains level node, fun c => ?_, Fan.pairwise_trails _ _ _, h⟩
  exact Fan.mem_trails.trans (and_iff_left_of_imp (trail_length_le hR node c))

end CamGraph

section

variable {cam : CamGraph} {level : NodeId → Nat} {node v : NodeId} {l : CamLink} {s s' s₁ : SearchState}
  {done ls : List CamLink}

theorem links_of_follows {new rs : List CamRoute} (h : List.Forall₂ (Follows l) new rs) :
    new.map CamRoute.links = rs.map fun m => l :: m.links := by
  induction h with
  | nil => rfl
  | cons hfollows _ ih =>
    obtain ⟨rfl, hmore, -⟩ := hfollows
    rw [List.map_cons, List.map_cons, ih, CamRoute.links_eq_cons hmore]

/-- What the set-up of a node does: it fills empty lists at the node and below, each of them
completely. -/
structure ListsFrom (cam : CamGraph) (level : NodeId → Nat) (node : NodeId) (s s' : SearchState) :
    Prop where
  wf : s'.Wf
  level_eq : s'.level = level
  outside : ∀ x, x ≠ node → ¬TransGen cam.Down node x → s'.route x = s.route x
  filled : ∀ x, s'.route x = s.route x ∨ cam.Listed level x (s'.route x)

structure Listing (cam : CamGraph) (level : NodeId → Nat) (node : NodeId) (s : SearchState)
    (done : List CamLink) (s' : SearchState) : Prop where
  wf : s'.Wf
  level_eq : s'.level = level
  own : (s'.route node).map CamRoute.links =
    (done.zipIdx.flatMap (cam.chainsThrough level node)).map (List.map Prod.snd)
  outside : ∀ x, x ≠ node → ¬TransGen cam.Down node x → s'.route x = s.route x
  filled : ∀ x, x ≠ node → s'.route x = s.route x ∨ cam.Listed level x (s'.route x)

theorem Listing.add (h : Listing cam level node s done s') {new : List CamRoute} (hwf : s₁.Wf)
    (hroute : s₁.route = Function.update s'.route node (s'.route node ++ new))
    (hlevel : s₁.level = s'.level)
    (hnew : new.map CamRoute.links =
      (cam.chainsThrough level node (l, done.length)).map (List.map Prod.snd)) :
    Listing cam level node s (done ++ [l]) s₁ := by
  have hother : ∀ x, x ≠ node → s₁.route x = s'.route x := by
    intro x hx
    rw [hroute, Function.update_of_ne hx]
  exact {
    wf := hwf
    level_eq := hlevel.trans h.level_eq
    own := by
      rw [hroute, Function.update_self, List.map_append, h.own, hnew, List.zipIdx_append,
        List.flatMap_append, List.map_append]
      simp
    outside := fun x hx hbelow => (hother x hx).trans (h.outside x hx hbelow)
    filled := by
      intro x hx
      rw [hother x hx]
      exact h.filled x hx }

theorem Listing.skip (h : Listing cam level node s done s') (hl : ∀ v, l.dst = some v → v = node) :
    Listing cam level node s (done ++ [l]) s' := by
  have hnone : ([] : List CamRoute).map CamRoute.links =
      (cam.chainsThrough level node (l, done.length)).map (List.map Prod.snd) := by
    rw [CamGraph.chainsThrough_none (CamGraph.next_eq_none hl)]
    rfl
  exact h.add h.wf (by simp) rfl hnone

theorem Listing.call (h : Listing cam level node s done s') (hR : Acyclic cam.Down)
    (hdown : cam.Down node v) (hcall : ListsFrom cam level v s' s₁) :
    Listing cam level node s done s₁ where
  wf := hcall.wf
  level_eq := hcall.level_eq
  own := by
    rw [hcall.outside node (hR.ne hdown) fun hback => hR node (.head hdown hback)]
    exact h.own
  outside := by
    intro x hx hbelow
    have hv : x ≠ v := by
      rintro rfl
      exact hbelow (.single hdown)
    rw [hcall.outside x hv fun hvx => hbelow (.head hdown hvx), h.outside x hx hbelow]
  filled := by
    intro x hx
    rcases hcall.filled x with heq | hlisted
    · rw [heq]
      exact h.filled x hx
    · exact .inr hlisted

theorem Listing.stop (h : Listing cam level node s done s') (hnext : (cam.fan level).next node l = some v)
    (hzero : level v = 0) {ret : Int} (hadd : camNodeAddRoute node l none s' = .ok (ret, s₁))
    (hret : 0 ≤ ret) : Listing cam level node s (done ++ [l]) s₁ := by
  have hwf := SearchState.grows_camNodeAddRoute h.wf (by simp) _ _ hadd
  obtain ⟨r, rfl, hhead, hmore, -⟩ := camNodeAddRoute_eq_ok hadd hret
  have hlinks : [r].map CamRoute.links =
      (cam.chainsThrough level node (l, done.length)).map (List.map Prod.snd) := by
    rw [CamGraph.chainsThrough_final hnext hzero, List.map_singleton, CamRoute.links_eq_singleton hmore, hhead]
    rfl
  exact h.add hwf.1 rfl rfl hlinks

theorem Listing.through (h : Listing cam level node s done s')
    (hnext : (cam.fan level).next node l = some v) (hpos : level v ≠ 0)
    (hlisted : cam.Listed level v (s'.route v)) {ret : Int}
    (hadd : addRoutes node l (s'.route v) s' = .ok (ret, s₁)) (hret : 0 ≤ ret) :
    Listing cam level node s (done ++ [l]) s₁ := by
  have hwf := SearchState.grows_addRoutes (s'.route v) h.wf (fun r hr => (h.wf.route_mem v r hr).1) _ _ hadd
  obtain ⟨new, hroute, hlevel, hnew⟩ := addRoutes_eq_ok hadd hret
  refine h.add hwf.1 hroute hlevel ?_
  calc new.map CamRoute.links
    _ = ((s'.route v).map CamRoute.links).map (l :: ·) := by rw [links_of_follows hnew, List.map_map]; rfl
    _ = ((cam.chains level v).map (List.map Prod.snd)).map (l :: ·) := by rw [hlisted]
    _ = (cam.chainsThrough level node (l, done.length)).map (List.map Prod.snd) := by
        rw [CamGraph.chainsThrough_step hnext hpos, List.map_map, List.map_map]
        rfl

theorem Listing.ready (h : Listing cam level node s done s') {x : NodeId} (hx : x ≠ node)
    (hready : s.route x = [] ∨ cam.Listed level x (s.route x)) :
    s'.route x = [] ∨ cam.Listed level x (s'.route x) := by
  rcases h.filled x hx with heq | hlisted
  · rw [heq]
    exact hready
  · exact .inr hlisted

theorem listing_setupLinks {setup : NodeId → SearchState → Outcome SearchState} (hout : cam.Outbound)
    (hR : Acyclic cam.Down) (hlinks : cam.linksOf node = done ++ ls)
    (hsetup : ∀ v, cam.Down node v → ∀ s₁ ret s₂, s₁.Wf → s₁.level = level →
      (∀ x, ReflTransGen cam.Down v x → s₁.route x = [] ∨ cam.Listed level x (s₁.route x)) →
      setup v s₁ = .ok (ret, s₂) → 0 ≤ ret →
      ListsFrom cam level v s₁ s₂ ∧ cam.Listed level v (s₂.route v))
    (hready : ∀ x, TransGen cam.Down node x → s.route x = [] ∨ cam.Listed level x (s.route x))
    (h : Listing cam level node s done s') {ret : Int} (hrun : setupLinks setup node ls s' = .ok (ret, s₁))
    (hret : 0 ≤ ret) : Listing cam level node s (cam.linksOf node) s₁ := by
  induction ls generalizing done s' with
  | nil =>
    cases hrun
    rw [hlinks, List.append_nil]
    exact h
  | cons l ls ih =>
    have hrest : cam.linksOf node = (done ++ [l]) ++ ls := by
      rw [hlinks, List.append_assoc, List.singleton_append]
    have hl : l ∈ cam.linksOf node := by simp [hlinks]
    unfold setupLinks at hrun
    cases hdst : l.dst with
    | none =>
      simp only [hdst] at hrun
      exact ih hrest (h.skip (by simp [hdst])) hrun
    | some v =>
      simp only [hdst] at hrun
      split at hrun
      next hself => exact ih hrest (h.skip (by simp [hdst, hself])) hrun
      next hne =>
        have hnext : (cam.fan level).next node l = some v := CamGraph.next_eq_some hout hl hdst hne
        have hdown : cam.Down node v := ⟨l, hl, hdst, hne⟩
        split at hrun
        next hpos =>
          obtain ⟨ret₁, s₂, hret₁, hcall, hrun⟩ := andThen_eq_ok_nonneg hrun hret
          obtain ⟨ret₂, s₃, hret₂, hadd, hrun⟩ := andThen_eq_ok_nonneg hrun hret
          have hbelow : ∀ x, ReflTransGen cam.Down v x →
              s'.route x = [] ∨ cam.Listed level x (s'.route x) := by
            intro x hx
            have hnx : TransGen cam.Down node x := TransGen.head' hdown hx
            exact h.ready (fun heq => hR node (heq ▸ hnx)) (hready x hnx)
          obtain ⟨hlists, hlisted⟩ := hsetup v hdown s' ret₁ s₂ h.wf h.level_eq hbelow hcall hret₁
          exact ih hrest ((h.call hR hdown hlists).through hnext (h.level_eq ▸ hpos) hlisted hadd hret₂) hrun
        next hzero =>
          obtain ⟨ret₁, s₂, hret₁, hadd, hrun⟩ := andThen_eq_ok_nonneg hrun hret
          rw [ne_eq, not_not, h.level_eq] at hzero
          exact ih hrest (h.stop hnext hzero hadd hret₁) hrun

/-- The set-up of a node, over nodes that have no routes yet or all of them. -/
theorem listsFrom_camNodeSetupRoute (hout : cam.Outbound) (hR : Acyclic cam.Down) {fuel : Nat} {ret : Int}
    (hwf : s.Wf) (hlevel : s.level = level)
    (hready : ∀ x, ReflTransGen cam.Down node x → s.route x = [] ∨ cam.Listed level x (s.route x))
    (hrun : camNodeSetupRoute cam fuel node s = .ok (ret, s')) (hret : 0 ≤ ret) :
    ret = (s'.route node).length ∧ ListsFrom cam level node s s' ∧
      cam.Listed level node (s'.route node) := by
  induction fuel generalizing s s' node ret with
  | zero => cases hrun
  | succ fuel ih =>
    unfold camNodeSetupRoute at hrun
    split at hrun
    next hne =>
      cases hrun
      exact ⟨rfl, ⟨hwf, hlevel, fun _ _ _ => rfl, fun _ => .inl rfl⟩, (hready node .refl).resolve_left hne⟩
    next hnil =>
      rw [ne_eq, not_not] at hnil
      obtain ⟨ret₁, s₁, hret₁, hloop, hrest⟩ := andThen_eq_ok_nonneg hrun hret
      cases hrest
      have hstart : Listing cam level node s [] s :=
        ⟨hwf, hlevel, by simp [hnil], fun _ _ _ => rfl, fun _ _ => .inl rfl⟩
      have hdone : Listing cam level node s (cam.linksOf node) s' := by
        refine listing_setupLinks hout hR (List.nil_append _).symm ?_ (fun x hx => hready x hx.to_reflTransGen)
          hstart hloop hret₁
        intro v _ s₂ ret₂ s₃ hwf₂ hlevel₂ hready₂ hcall hret₂
        exact (ih hwf₂ hlevel₂ hready₂ hcall hret₂).2
      have hlisted : cam.Listed level node (s'.route node) := by
        rw [CamGraph.Listed, CamGraph.chains_eq hR]
        exact hdone.own
      refine ⟨rfl, ⟨hdone.wf, hdone.level_eq, hdone.outside, fun x => ?_⟩, hlisted⟩
      by_cases hx : x = node
      · exact .inr (hx ▸ hlisted)
      · exact hdone.filled x hx

/-- `CamNodeSetupRoute` on a graph without routes: it ends, and what it has built at any node is one
route for each chain from there, each of which leads where it says. -/
theorem camNodeSetupRoute_enumerates (hout : cam.Outbound) (hR : Acyclic cam.Down)
    (hroute : ∀ v, s.route v = []) (hheap : s.heap = []) (node : NodeId) {fuel : Nat}
    (hfuel : cam.node.length < fuel) :
    ∃ s', camNodeSetupRoute cam fuel node s = .ok ((s'.route node).length, s') ∧ s'.level = s.level ∧
      cam.Enumerates s.level node (s'.route node) ∧
      (∀ v, s'.route v = [] ∨ cam.Enumerates s.level v (s'.route v)) ∧
      ∀ v, ∀ r ∈ s'.route v, r.src = v ∧ r.head.src = some v ∧
        (∀ m, r.more = some m → r.head.dst = some m.src) ∧
        r.links.getLast?.bind CamLink.dst = some r.dst ∧ ∃ crop, findCrop r.dst r = some crop := by
  have hwf : s.Wf := by
    refine ⟨by simp [hheap], by simp [hheap], by simp [hheap], by simp [hroute], by simp [hroute]⟩
  have hbound : ∀ g m, Walk cam.Down node g m → m < fuel := fun _ _ hwalk =>
    (CamGraph.walk_length_le hR hwalk).trans_lt hfuel
  obtain ⟨ret, s', hrun, hret, -⟩ := setsUp_camNodeSetupRoute hbound hwf
  obtain ⟨rfl, hlists, hlisted⟩ := listsFrom_camNodeSetupRoute hout hR hwf rfl (fun x _ => .inl (hroute x))
    hrun (hret hout)
  refine ⟨s', hrun, hlists.level_eq, hlisted.enumerates hR, fun v => ?_, fun v r hr => ?_⟩
  · exact (hlists.filled v).imp (fun heq => heq.trans (hroute v)) (·.enumerates hR)
  · obtain ⟨hmem, hsrc⟩ := hlists.wf.route_mem v r hr
    have hlinked := hlists.wf.linked r hmem
    have hhead := CamRoute.head_src_of_linked hlinked
    rw [hsrc] at hhead
    refine ⟨hsrc, hhead, fun m hm => ?_, CamRoute.getLast?_links hlinked, findCrop_eq_some hlinked⟩
    exact CamRoute.head_dst_of_linked hlinked hm

end

def smallLevels : SearchState :=
  { SearchState.init with level := fun v => if v = 2 ∨ v = 3 then 1 else 0 }

theorem camNodeSetupRoute_enumerates_smallBoard :
    ∃ s', camNodeSetupRoute smallGraph 7 0 smallLevels = .ok ((s'.route 0).length, s') ∧
      s'.level = smallLevels.level ∧ smallGraph.Enumerates smallLevels.level 0 (s'.route 0) ∧
      (∀ v, s'.route v = [] ∨ smallGraph.Enumerates smallLevels.level v (s'.route v)) ∧
      ∀ v, ∀ r ∈ s'.route v, r.src = v ∧ r.head.src = some v ∧
        (∀ m, r.more = some m → r.head.dst = some m.src) ∧
        r.links.getLast?.bind CamLink.dst = some r.dst ∧ ∃ crop, findCrop r.dst r = some crop :=
  camNodeSetupRoute_enumerates wired_smallTable.outbound
    (acyclic_smallTable.mono fun _ _ => wired_smallTable.link_of_down) (fun _ => rfl) rfl 0 (by decide)

end G361FPlatform.MediaLib
