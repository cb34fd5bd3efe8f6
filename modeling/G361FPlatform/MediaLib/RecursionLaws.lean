import G361FPlatform.Library.Fuel
import G361FPlatform.MediaLib.LevelLaws

namespace G361FPlatform.MediaLib

open Library Outcome Relation

/-- The loop of `CamNodeSetupRoute` over the links of `node` calls for another node. -/
inductive CamGraph.Visits (cam : CamGraph) (node : NodeId) :
    List CamLink → SearchState → NodeId × SearchState → Prop
  | call {l ls s dst} : l.dst = some dst → dst ≠ node → s.level dst ≠ 0 → Visits cam node (l :: ls) s (dst, s)
  | later {l ls s fuel ret s' c} : setupLinks (camNodeSetupRoute cam fuel) node [l] s = .ok (ret, s') → 0 ≤ ret →
      Visits cam node ls s' c → Visits cam node (l :: ls) s c

namespace CamGraph

def Calls (cam : CamGraph) (c c' : NodeId × SearchState) : Prop :=
  c.2.route c.1 = [] ∧ cam.Visits c.1 (cam.linksOf c.1) c.2 c'

def Unlooped (cam : CamGraph) (c : NodeId × SearchState) : Prop :=
  ∀ c', ReflTransGen cam.Calls c c' → ¬TransGen cam.Calls c' c'

def unrouted (cam : CamGraph) (s : SearchState) : Finset NodeId :=
  (Finset.range cam.node.length).filter fun u => s.route u = []

def Gained (cam : CamGraph) (s s' : SearchState) : Prop :=
  s' = s ∨ (cam.unrouted s').card < (cam.unrouted s).card

end CamGraph

section Steps

variable {cam : CamGraph} {s : SearchState} {node : NodeId} {c c' : NodeId × SearchState}

theorem setupLinks_cons (setup : NodeId → SearchState → Outcome SearchState) (l : CamLink) (ls : List CamLink)
    (s : SearchState) : setupLinks setup node (l :: ls) s =
      andThen (setupLinks setup node [l] s) fun _ => setupLinks setup node ls := by
  have hend : ∀ s, andThen (setupLinks setup node [] s) (fun _ => setupLinks setup node ls) =
      setupLinks setup node ls s := fun s => rfl
  rw [setupLinks, setupLinks.eq_def setup node [l]]
  dsimp only
  split
  · exact (hend s).symm
  · split
    · exact (hend s).symm
    · split
      · simp only [andThen_assoc, hend]
      · simp only [andThen_assoc, hend]

theorem approx_setupLinks {setup setup' : NodeId → SearchState → Outcome SearchState}
    (h : ∀ dst s, Approx (setup dst s) (setup' dst s)) (ls : List CamLink) (s : SearchState) :
    Approx (setupLinks setup node ls s) (setupLinks setup' node ls s) := by
  induction ls generalizing s with
  | nil => exact .refl _
  | cons l ls ih =>
    unfold setupLinks
    split
    · exact ih s
    · split
      · exact ih s
      · split
        · exact (h _ s).andThen fun _ s₁ => (Approx.refl _).andThen fun _ s₂ => ih s₂
        · exact (Approx.refl _).andThen fun _ s₁ => ih s₁

theorem steady_camNodeSetupRoute (cam : CamGraph) (node : NodeId) (s : SearchState) :
    Steady fun fuel => camNodeSetupRoute cam fuel node s := by
  intro m n hle
  induction m generalizing n node s with
  | zero => exact .inl rfl
  | succ m ih =>
    obtain ⟨n, rfl⟩ : ∃ k, n = k + 1 := ⟨n - 1, by omega⟩
    dsimp only
    unfold camNodeSetupRoute
    split
    · exact .refl _
    · refine Approx.andThen ?_ fun _ _ => .refl _
      exact approx_setupLinks (fun dst s' => ih dst s' n (by omega)) _ s

theorem steady_setupLinks (cam : CamGraph) (node : NodeId) (ls : List CamLink) (s : SearchState) :
    Steady fun fuel => setupLinks (camNodeSetupRoute cam fuel) node ls s :=
  fun m n hle => approx_setupLinks (fun dst s' => steady_camNodeSetupRoute cam dst s' m n hle) ls s

theorem camNodeAddRoute_ne_fuel (head : CamLink) (more : Option CamRoute) (s : SearchState) :
    camNodeAddRoute node head more s ≠ .error .fuel := by
  unfold camNodeAddRoute
  split
  · exact nofun
  · split
    · split <;> exact nofun
    · split <;> exact nofun

theorem addRoutes_ne_fuel (head : CamLink) (rs : List CamRoute) (s : SearchState) :
    addRoutes node head rs s ≠ .error .fuel := by
  induction rs generalizing s with
  | nil => exact nofun
  | cons r rs ih => exact andThen_ne_error (camNodeAddRoute_ne_fuel head (some r) s) fun _ s' _ _ => ih s'

theorem visits_ne_fuel {ls : List CamLink} {fuel : Nat} (h : cam.Visits node ls s c)
    (hends : setupLinks (camNodeSetupRoute cam fuel) node ls s ≠ .error .fuel) :
    camNodeSetupRoute cam fuel c.1 c.2 ≠ .error .fuel := by
  induction h with
  | call hdst hne hlevel =>
    unfold setupLinks at hends
    rw [hdst] at hends
    dsimp only at hends
    rw [if_neg hne, if_pos hlevel] at hends
    exact fun hfuel => hends (by rw [hfuel, andThen_error])
  | @later l ls s fuel' ret s' c hstep hret _ ih =>
    rw [setupLinks_cons] at hends
    have hfirst : setupLinks (camNodeSetupRoute cam fuel) node [l] s ≠ .error .fuel :=
      fun hfuel => hends (by rw [hfuel, andThen_error])
    have heq := (steady_setupLinks cam node [l] s).eq (m := fuel) (n := fuel') hfirst (by simp [hstep])
    rw [heq, hstep, andThen_ok_nonneg hret] at hends
    exact ih hends

theorem acc_of_ne_fuel {fuel : Nat} (h : camNodeSetupRoute cam fuel c.1 c.2 ≠ .error .fuel) :
    Acc (fun c' c => cam.Calls c c') c := by
  induction fuel generalizing c with
  | zero => exact absurd rfl h
  | succ fuel ih =>
    refine .intro c fun c' ⟨hroute, hvisits⟩ => ih (visits_ne_fuel hvisits fun hfuel => h ?_)
    unfold camNodeSetupRoute
    rw [if_neg (by simp [hroute]), hfuel, andThen_error]

theorem settles_setupLinks {ls : List CamLink}
    (h : ∀ c, cam.Visits node ls s c → Settles fun fuel => camNodeSetupRoute cam fuel c.1 c.2) :
    Settles fun fuel => setupLinks (camNodeSetupRoute cam fuel) node ls s := by
  induction ls generalizing s with
  | nil => exact ⟨0, nofun⟩
  | cons l ls ih =>
    simp only [setupLinks_cons _ l ls]
    rw [settles_andThen_iff (steady_setupLinks cam node [l] s) fun _ s' => steady_setupLinks cam node ls s']
    refine ⟨?_, fun n ret s' hstep hret => ih fun c hc => h c (.later hstep hret hc)⟩
    unfold setupLinks
    split
    · exact ⟨0, nofun⟩
    next dst hdst =>
      split
      · exact ⟨0, nofun⟩
      next hne =>
        split
        next hlevel =>
          obtain ⟨n, hn⟩ := h (dst, s) (.call hdst hne hlevel)
          refine ⟨n, andThen_ne_error hn fun _ s' _ _ => ?_⟩
          exact andThen_ne_error (addRoutes_ne_fuel l _ s') fun _ _ _ _ => nofun
        next => exact ⟨0, andThen_ne_error (camNodeAddRoute_ne_fuel l none s) fun _ _ _ _ => nofun⟩

theorem settles_of_acc (h : Acc (fun c' c => cam.Calls c c') c) :
    Settles fun fuel => camNodeSetupRoute cam fuel c.1 c.2 := by
  induction h with
  | intro c _ ih =>
    by_cases hroute : c.2.route c.1 = []
    · obtain ⟨n, hn⟩ := settles_setupLinks fun c' hc' => ih c' ⟨hroute, hc'⟩
      refine ⟨n + 1, ?_⟩
      dsimp only
      unfold camNodeSetupRoute
      rw [if_neg (by simp [hroute])]
      exact andThen_ne_error hn fun _ _ _ _ => by simp
    · refine ⟨1, ?_⟩
      dsimp only
      unfold camNodeSetupRoute
      rw [if_pos hroute]
      simp

end Steps

section Gains

variable {cam : CamGraph} {s₀ s s' : SearchState} {node : NodeId} {c c' : NodeId × SearchState}

theorem CamGraph.Gained.trans (h : cam.Gained s₀ s) (h' : cam.Gained s s') : cam.Gained s₀ s' := by
  rcases h' with rfl | hlt'
  · exact h
  · rcases h with rfl | hlt
    · exact .inr hlt'
    · exact .inr (hlt'.trans hlt)

theorem gained_addRoute (h : cam.Gained s₀ s) (h0 : s₀.route node = []) (hnode : node < cam.node.length)
    (r : CamRoute) : cam.Gained s₀ (s.addRoute node r) := by
  have hkept : ∀ u, (s.addRoute node r).route u = [] → u ≠ node ∧ s.route u = [] := by
    intro u hu
    by_cases heq : u = node
    · subst heq
      simp [SearchState.addRoute] at hu
    · simpa [SearchState.addRoute, heq] using hu
  have hsub : cam.unrouted (s.addRoute node r) ⊆ cam.unrouted s := by
    intro u hu
    obtain ⟨hmem, hnil⟩ := Finset.mem_filter.mp hu
    exact Finset.mem_filter.mpr ⟨hmem, (hkept u hnil).2⟩
  rcases h with rfl | hlt
  · refine .inr (Finset.card_lt_card ⟨hsub, fun hsup => ?_⟩)
    have hmem : node ∈ cam.unrouted s := Finset.mem_filter.mpr ⟨Finset.mem_range.mpr hnode, h0⟩
    exact (hkept node (Finset.mem_filter.mp (hsup hmem)).2).1 rfl
  · exact .inr ((Finset.card_le_card hsub).trans_lt hlt)

theorem gained_camNodeAddRoute (h : cam.Gained s₀ s) (h0 : s₀.route node = []) (hnode : node < cam.node.length)
    (head : CamLink) (more : Option CamRoute) :
    Post (camNodeAddRoute node head more s) fun _ s' => cam.Gained s₀ s' := by
  unfold camNodeAddRoute
  split
  · exact post_ok h
  · split
    · split
      · exact post_ok h
      · exact post_ok (gained_addRoute h h0 hnode _)
    · split
      · exact post_error _ _
      · exact post_ok (gained_addRoute h h0 hnode _)

theorem gained_addRoutes (h : cam.Gained s₀ s) (h0 : s₀.route node = []) (hnode : node < cam.node.length)
    (head : CamLink) (rs : List CamRoute) :
    Post (addRoutes node head rs s) fun _ s' => cam.Gained s₀ s' := by
  induction rs generalizing s with
  | nil => exact post_ok h
  | cons r rs ih => exact (gained_camNodeAddRoute h h0 hnode head (some r)).andThen_inv fun _ _ h' => ih h'

theorem gained_setupLinks {setup : NodeId → SearchState → Outcome SearchState}
    (hsetup : ∀ dst s, Post (setup dst s) fun _ s' => cam.Gained s s') (h : cam.Gained s₀ s)
    (h0 : s₀.route node = []) {ls : List CamLink} (hnode : ∀ l ∈ ls, node < cam.node.length) :
    Post (setupLinks setup node ls s) fun _ s' => cam.Gained s₀ s' := by
  induction ls generalizing s with
  | nil => exact post_ok h
  | cons l ls ih =>
    obtain ⟨hhead, hrest⟩ := List.forall_mem_cons.mp hnode
    unfold setupLinks
    split
    · exact ih h hrest
    next dst hdst =>
      split
      · exact ih h hrest
      · split
        · refine ((hsetup dst s).imp fun _ _ h' => h.trans h').andThen_inv fun _ s₁ h₁ => ?_
          exact (gained_addRoutes h₁ h0 hhead l _).andThen_inv fun _ _ h₂ => ih h₂ hrest
        · exact (gained_camNodeAddRoute h h0 hhead l none).andThen_inv fun _ _ h₁ => ih h₁ hrest

theorem lt_of_linksOf {l : CamLink} (h : l ∈ cam.linksOf node) : node < cam.node.length := by
  by_contra hge
  rw [CamGraph.linksOf, List.getElem?_eq_none (Nat.not_lt.mp hge)] at h
  cases h

theorem gained_camNodeSetupRoute (cam : CamGraph) (fuel : Nat) (node : NodeId) (s : SearchState) :
    Post (camNodeSetupRoute cam fuel node s) fun _ s' => cam.Gained s s' := by
  induction fuel generalizing node s with
  | zero => exact post_error _ _
  | succ fuel ih =>
    unfold camNodeSetupRoute
    split
    · exact post_ok (.inl rfl)
    next hroute =>
      refine (gained_setupLinks ih (.inl rfl) (not_not.mp hroute) fun l hl => lt_of_linksOf hl).andThen_inv ?_
      exact fun _ _ h => post_ok h

theorem gained_visits {ls : List CamLink} (hvisits : cam.Visits node ls s c) (h : cam.Gained s₀ s)
    (h0 : s₀.route node = []) (hnode : node < cam.node.length) : cam.Gained s₀ c.2 := by
  induction hvisits with
  | call => exact h
  | later hstep _ _ ih =>
    exact ih (gained_setupLinks (gained_camNodeSetupRoute cam _) h h0 (fun _ _ => hnode) _ _ hstep)

theorem lt_of_calls (h : cam.Calls c c') : c.1 < cam.node.length := by
  obtain ⟨-, hvisits⟩ := h
  cases hlinks : cam.linksOf c.1 with
  | nil =>
    rw [hlinks] at hvisits
    cases hvisits
  | cons l ls => exact lt_of_linksOf (hlinks ▸ List.mem_cons_self)

theorem gained_of_calls (h : cam.Calls c c') : cam.Gained c.2 c'.2 :=
  gained_visits h.2 (.inl rfl) h.1 (lt_of_calls h)

/-- Calls that never lead back to themselves come to an end: those that find a node without a route
leave one such node less, and those that do not go from node to node. -/
theorem acc_of_unlooped (h : cam.Unlooped c) : Acc (fun c' c => cam.Calls c c') c := by
  induction hn : (cam.unrouted c.2).card using Nat.strong_induction_on generalizing c with
  | _ n ih =>
    let R (a b : NodeId) : Prop := cam.Calls (a, c.2) (b, c.2) ∧ ReflTransGen cam.Calls c (a, c.2)
    have hR : Acyclic R := by
      intro a hcycle
      obtain ⟨b, hstep, -⟩ := TransGen.head'_iff.mp hcycle
      exact h (a, c.2) hstep.2 (hcycle.lift (fun a => (a, c.2)) fun _ _ hab => hab.1)
    have hstart : ∀ a b, R a b → a ∈ Finset.range cam.node.length :=
      fun a b hab => Finset.mem_range.mpr (lt_of_calls hab.1)
    have hacc : ∀ k a, (∀ b m, Walk R a b m → m < k) → ReflTransGen cam.Calls c (a, c.2) →
        Acc (fun c' c => cam.Calls c c') (a, c.2) := by
      intro k
      induction k with
      | zero => exact fun a hwalks _ => absurd (hwalks a 0 (.nil a)) (Nat.lt_irrefl 0)
      | succ k ihk =>
        refine fun a hwalks hreach => .intro _ fun c' hcall => ?_
        rcases gained_of_calls hcall with heq | hlt
        · obtain ⟨b, s'⟩ := c'
          obtain rfl : s' = c.2 := heq
          refine ihk b (fun d m hwalk => ?_) (hreach.tail hcall)
          have := hwalks d (m + 1) (.cons ⟨hcall, hreach⟩ hwalk)
          omega
        · exact ih _ (hn ▸ hlt) (fun c'' hreach' => h c'' ((hreach.tail hcall).trans hreach')) rfl
    refine hacc (cam.node.length + 1) c.1 (fun b m hwalk => ?_) .refl
    have hle := hwalk.length_le_of_start hR hstart
    rw [Finset.card_range] at hle
    omega

theorem irrefl_of_acc {r : α → α → Prop} {a : α} (h : Acc r a) : ¬r a a := by
  induction h with
  | intro a _ ih => exact fun hself => ih a hself hself

theorem unlooped_of_acc (h : Acc (fun c' c => cam.Calls c c') c) : cam.Unlooped c := by
  have hacc : ∀ c', ReflTransGen cam.Calls c c' → Acc (fun c' c => cam.Calls c c') c' := by
    intro c' hreach
    induction hreach with
    | refl => exact h
    | tail _ hcall ih => exact ih.inv hcall
  intro c' hreach hloop
  exact irrefl_of_acc (hacc c' hreach).transGen (transGen_swap.mp hloop)

/-- `CamNodeSetupRoute` comes to an end exactly where no call that comes of it leads back to itself. -/
theorem settles_camNodeSetupRoute_iff : (Settles fun fuel => camNodeSetupRoute cam fuel c.1 c.2) ↔
    cam.Unlooped c :=
  ⟨fun ⟨_, hn⟩ => unlooped_of_acc (acc_of_ne_fuel hn), fun h => settles_of_acc (acc_of_unlooped h)⟩

end Gains

section Safety

variable {cam : CamGraph} {s : SearchState} {node : NodeId}

theorem safe_camNodeAddRoute {head : CamLink} {more : Option CamRoute}
    (h : more = none → head.dst ≠ none) :
    Safe (camNodeAddRoute node head more s) fun _ => True := by
  unfold camNodeAddRoute
  split
  · exact safe_ok trivial
  · cases more with
    | some m =>
      dsimp only
      split
      · exact safe_ok trivial
      · exact safe_ok trivial
    | none =>
      cases hdst : head.dst with
      | none => exact absurd hdst (h rfl)
      | some dst => exact safe_ok trivial

theorem safe_addRoutes (head : CamLink) (rs : List CamRoute) :
    Safe (addRoutes node head rs s) fun _ => True := by
  induction rs generalizing s with
  | nil => exact safe_ok trivial
  | cons r rs ih => exact (safe_camNodeAddRoute (by simp)).andThen (fun _ h => h) fun _ _ _ => ih

theorem safe_setupLinks {setup : NodeId → SearchState → Outcome SearchState}
    (hsetup : ∀ dst s, Safe (setup dst s) fun _ => True) (ls : List CamLink) :
    Safe (setupLinks setup node ls s) fun _ => True := by
  induction ls generalizing s with
  | nil => exact safe_ok trivial
  | cons l ls ih =>
    unfold setupLinks
    cases hdst : l.dst with
    | none => exact ih
    | some dst =>
      dsimp only
      split
      · exact ih
      · split
        · refine (hsetup dst s).andThen (fun _ h => h) fun _ s₁ _ => ?_
          exact (safe_addRoutes l (s₁.route dst)).andThen (fun _ h => h) fun _ _ _ => ih
        · exact (safe_camNodeAddRoute (by simp [hdst])).andThen (fun _ h => h) fun _ _ _ => ih

theorem safe_camNodeSetupRoute (cam : CamGraph) (fuel : Nat) :
    Safe (camNodeSetupRoute cam fuel node s) fun _ => True := by
  induction fuel generalizing s node with
  | zero => exact safe_fuel _
  | succ fuel ih =>
    unfold camNodeSetupRoute
    split
    · exact safe_ok trivial
    · exact (safe_setupLinks (fun _ _ => ih) _).andThen (fun _ h => h) fun _ _ _ => safe_ok trivial

theorem safe_setupPool (cam : CamGraph) (fuel : Nat) (pool : List NodeId) :
    Safe (setupPool cam fuel pool s) fun _ => True := by
  induction pool generalizing s with
  | nil => exact safe_ok trivial
  | cons node pool ih => exact (safe_camNodeSetupRoute cam fuel).andThen (fun _ h => h) fun _ _ _ => ih

end Safety

end G361FPlatform.MediaLib
