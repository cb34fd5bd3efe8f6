import G361FPlatform.Library.Ends
import G361FPlatform.MediaLib.SetupLaws

namespace G361FPlatform.MediaLib

open Library Outcome Relation

namespace CamGraph

/-- A source has a route to every path ahead of it, and to nothing else; and so has a path to every
output. -/
structure Routed (cam : CamGraph) (route : NodeId → List CamRoute) : Prop where
  src : ∀ v ∈ cam.srcPool, ∀ p ∈ cam.pathPool, (∃ r ∈ route v, r.dst = p) ↔ TransGen cam.Link v p
  srcEnd : ∀ v ∈ cam.srcPool, ∀ r ∈ route v, r.dst ∈ cam.pathPool
  path : ∀ p ∈ cam.pathPool, ∀ d ∈ cam.dstPool, (∃ r ∈ route p, r.dst = d) ↔ TransGen cam.Link p d
  pathEnd : ∀ p ∈ cam.pathPool, ∀ r ∈ route p, r.dst ∈ cam.dstPool

def Goal (cam : CamGraph) (v : NodeId) : Prop := v ∈ cam.pathPool ∨ v ∈ cam.dstPool

def Crossed (cam : CamGraph) (w : NodeId) : Prop :=
  Ahead cam.Link (· ∈ cam.pathPool) w ∧ ∃ v ∈ cam.srcPool, ReflTransGen cam.Link v w

def PathsLast (cam : CamGraph) : Prop :=
  ∀ v ∈ cam.srcPool, ∀ p ∈ cam.pathPool, TransGen cam.Link v p → ¬Ahead cam.Link (· ∈ cam.pathPool) p

def SourcesOnward (cam : CamGraph) : Prop :=
  ∀ v ∈ cam.srcPool, ∀ w, (w = v ∨ TransGen cam.Link v w ∧ Ahead cam.Link (· ∈ cam.pathPool) w) →
    ∀ x, cam.Link w x → x ∈ cam.pathPool ∨ Ahead cam.Link (· ∈ cam.pathPool) x

def PathsOnward (cam : CamGraph) : Prop :=
  ∀ p ∈ cam.pathPool, ∀ w, (w = p ∨ TransGen cam.Link p w ∧ Ahead cam.Link cam.Goal w) →
    ¬cam.Crossed w →
    ∀ x, cam.Link w x → x ∈ cam.dstPool ∨ Ahead cam.Link cam.Goal x

def CrossedOnward (cam : CamGraph) : Prop :=
  ∀ p ∈ cam.pathPool, ∀ w, ReflTransGen cam.Link p w → cam.Crossed w →
    ∀ x ∈ cam.pathPool, TransGen cam.Link w x → x ∈ cam.dstPool

/-- An output ahead of a path has no goal ahead of it and is reached past the crossed nodes, or it is
a path ahead of a crossed node. -/
def OutputsLast (cam : CamGraph) : Prop :=
  ∀ p ∈ cam.pathPool, ∀ d ∈ cam.dstPool, TransGen cam.Link p d →
    (¬Ahead cam.Link cam.Goal d ∧ TransGen (Past cam.Crossed cam.Link) p d) ∨
      ∃ w, ReflTransGen cam.Link p w ∧ cam.Crossed w ∧ d ∈ cam.pathPool ∧ TransGen cam.Link w d

/-- The graphs on which the search does what it is for. -/
structure Orderly (cam : CamGraph) : Prop where
  pathsLast : cam.PathsLast
  sourcesOnward : cam.SourcesOnward
  pathsOnward : cam.PathsOnward
  crossedOnward : cam.CrossedOnward
  outputsLast : cam.OutputsLast

end CamGraph

def LeadsToEnds (cam : CamGraph) (goal : NodeId → Prop) (s s' : SearchState) (n : NodeId) : Prop :=
  ∀ x, (∃ r ∈ s'.route n, r.dst = x) ↔
    EndsAt cam.Link goal (fun n => s.route n ≠ []) (fun n x => ∃ r ∈ s.route n, r.dst = x) n x

structure Half (cam : CamGraph) (goal : NodeId → Prop) (owners : List NodeId) (s s' : SearchState) :
    Prop where
  depth : ∀ v, Depth cam.Link goal v (s'.level v)
  kept : ∀ n, s.route n ≠ [] → s'.route n = s.route n
  below : ∀ n, s'.route n ≠ s.route n →
    n ∈ owners ∨ ∃ o ∈ owners, TransGen cam.Link o n ∧ Ahead cam.Link goal n
  owned : ∀ n ∈ owners, LeadsToEnds cam goal s s' n
  filled : ∀ n, s'.route n ≠ s.route n →
    LeadsToEnds cam goal s s' n ∧ ∀ v, cam.Link n v → Ahead cam.Link goal v →
      LeadsToEnds cam goal s s' v

section

variable {cam : CamGraph} {goal : NodeId → Prop} {s s' s₀ : SearchState} {n x : NodeId}

theorem leads_iff_endsAt (hdown : cam.Down = cam.Link)
    (hlevel : ∀ v, s₀.level v ≠ 0 ↔ Ahead cam.Link goal v) :
    Leads cam s₀ n x ↔
      EndsAt cam.Link goal (fun n => s₀.route n ≠ []) (fun n x => ∃ r ∈ s₀.route n, r.dst = x) n x := by
  constructor
  · intro h
    induction h with
    | known hr => exact .known (List.ne_nil_of_mem hr) ⟨_, hr, rfl⟩
    | stop hnil hstep hzero =>
      exact .stop (not_not.mpr hnil) (hdown ▸ hstep) (mt (hlevel _).mpr (not_not.mpr hzero))
    | step hnil hstep hpos _ ih =>
      exact .step (not_not.mpr hnil) (hdown ▸ hstep) ((hlevel _).mp hpos) ih
  · intro h
    induction h with
    | known _ hx =>
      obtain ⟨r, hr, rfl⟩ := hx
      exact .known hr
    | stop hnil hstep hlast =>
      exact .stop (not_not.mp hnil) (hdown ▸ hstep) (not_not.mp (mt (hlevel _).mp hlast))
    | step hnil hstep hahead _ ih =>
      exact .step (not_not.mp hnil) (hdown ▸ hstep) ((hlevel _).mpr hahead) ih

theorem half_of_searchPhase (hcam : cam.Meshed) (hR : Acyclic cam.Link) {fuel : Nat}
    {goals owners : List NodeId}
    (hfuel : searchFuel cam ≤ fuel) (hstart : Relaxation.Waiting cam.Link goal ⟨s.level, goals⟩)
    (hwf : s.Wf)
    (hfirst : ∀ x, FirstIn cam s.route x) (hrun : searchPhase cam fuel goals owners s = .ok (0, s')) :
    Half cam goal owners s s' := by
  have hdown := hcam.down_eq hR
  obtain ⟨ret, s₁, hrelax, hret, hroute, hup, hall⟩ :=
    searchPhase_eq_ok (hdown ▸ hR) hwf hfirst hrun le_rfl
  have hdepth : ∀ v, Depth cam.Link goal v (s₁.level v) := by
    rcases relaxPool_wired hcam.toWired hR hstart hfuel with ⟨-, s₂, hok, hdepth⟩ | ⟨-, s₂, hfull⟩
    · cases hrelax.symm.trans hok
      exact hdepth
    · cases hrelax.symm.trans hfull
      exact absurd hret (by decide)
  have hlevel : ∀ v, s₁.level v ≠ 0 ↔ Ahead cam.Link goal v := fun v => (hdepth v).ne_zero_iff
  have hends : ∀ {n}, Settled cam s₁ s' n → LeadsToEnds cam goal s s' n := by
    intro n h x
    rw [h x, leads_iff_endsAt hdown hlevel, hroute]
  exact {
    depth := fun v => by rw [hup.level]; exact hdepth v
    kept := fun n hne => by rw [hup.kept n (hroute ▸ hne), hroute]
    below := by
      intro n hne
      refine (hup.below n (hroute ▸ hne)).imp_right fun ⟨o, ho, hbelow, hpos⟩ => ?_
      exact ⟨o, ho, hdown ▸ hbelow, (hlevel n).mp hpos⟩
    owned := fun n hn => hends (hall n hn)
    filled := by
      intro n hne
      obtain ⟨hsettled, hnext⟩ := hup.filled n (hroute ▸ hne)
      exact ⟨hends hsettled, fun v hstep hahead =>
        hends (hnext v (hdown ▸ hstep) ((hlevel v).mpr hahead))⟩ }

theorem ends_of_leadsToEnds (hnil : ∀ n, s.route n = []) (h : LeadsToEnds cam goal s s' n)
    (x : NodeId) :
    (∃ r ∈ s'.route n, r.dst = x) ↔ Ends cam.Link goal n x := by
  rw [h x]
  constructor
  · exact EndsAt.congr (fun n => by simp [hnil n]) fun n _ hne => absurd (hnil n) hne
  · exact EndsAt.congr (fun n => by simp [hnil n]) fun _ _ h => h.elim

variable {s₁ s₂ : SearchState}

section FirstHalf

variable (h₁ : Half cam (· ∈ cam.pathPool) cam.srcPool SearchState.init s₁)
include h₁

theorem ends_of_src (hn : n ∈ cam.srcPool) (x : NodeId) :
    (∃ r ∈ s₁.route n, r.dst = x) ↔ Ends cam.Link (· ∈ cam.pathPool) n x :=
  ends_of_leadsToEnds (fun _ => rfl) (h₁.owned n hn) x

theorem ends_of_known (hne : s₁.route n ≠ []) (x : NodeId) :
    (∃ r ∈ s₁.route n, r.dst = x) ↔ Ends cam.Link (· ∈ cam.pathPool) n x :=
  ends_of_leadsToEnds (fun _ => rfl) (h₁.filled n hne).1 x

theorem route_ne_nil_of_link (h : LeadsToEnds cam (· ∈ cam.pathPool) SearchState.init s₁ n)
    (hstep : cam.Link n x) :
    s₁.route n ≠ [] := by
  obtain ⟨y, hy⟩ := exists_ends h₁.depth hstep
  obtain ⟨r, hr, -⟩ := (ends_of_leadsToEnds (fun _ => rfl) h y).mpr hy
  exact List.ne_nil_of_mem hr

theorem exists_link_of_route (hne : s₁.route n ≠ []) : ∃ x, cam.Link n x := by
  obtain ⟨r, hr⟩ := List.exists_mem_of_ne_nil _ hne
  have hends := (ends_of_known h₁ hne r.dst).mp ⟨r, hr, rfl⟩
  obtain ⟨x, hstep, -⟩ := TransGen.head'_iff.mp hends.transGen
  exact ⟨x, hstep⟩

/-- The nodes that have routes after the first half are the crossed ones. -/
theorem crossed_iff (honward : cam.SourcesOnward) : s₁.route n ≠ [] ↔ cam.Crossed n := by
  constructor
  · intro hne
    rcases h₁.below n hne with hsrc | ⟨v, hv, hreach, hahead⟩
    · obtain ⟨x, hstep⟩ := exists_link_of_route h₁ hne
      refine ⟨?_, n, hsrc, .refl⟩
      rcases honward n hsrc n (.inl rfl) x hstep with hpath | hahead
      · exact ⟨x, hpath, .single hstep⟩
      · exact hahead.of_reflTransGen (.single hstep)
    · exact ⟨hahead, v, hv, hreach.to_reflTransGen⟩
  · rintro ⟨hahead, v, hv, hreach⟩
    have hnext : ∀ w, Ahead cam.Link (· ∈ cam.pathPool) w → ∃ x, cam.Link w x := by
      rintro w ⟨g, -, hgo⟩
      obtain ⟨x, hstep, -⟩ := TransGen.head'_iff.mp hgo
      exact ⟨x, hstep⟩
    obtain ⟨y, hstep⟩ := hnext n hahead
    -- along the walk from the source, each node's routes see to those of the next
    induction hreach generalizing y with
    | refl => exact route_ne_nil_of_link h₁ (h₁.owned v hv) hstep
    | @tail w n _ hwn ih =>
      have hw := hahead.of_reflTransGen (.single hwn)
      have hne := ih hw n hwn
      exact route_ne_nil_of_link h₁ ((h₁.filled w hne).2 n hwn hahead) hstep

theorem ends_of_crossed (hlast : cam.PathsLast) (honward : cam.SourcesOnward) (hn : cam.Crossed n)
    (x : NodeId) :
    (∃ r ∈ s₁.route n, r.dst = x) ↔ x ∈ cam.pathPool ∧ TransGen cam.Link n x := by
  rw [ends_of_known h₁ ((crossed_iff h₁ honward).mpr hn) x]
  obtain ⟨hahead, v, hv, hreach⟩ := hn
  constructor
  · intro hx
    refine ⟨ends_sound_iff.mpr (fun w hw => honward v hv w ?_) x hx, hx.transGen⟩
    rcases hw with rfl | ⟨hnw, haheadw⟩
    · rcases reflTransGen_iff_eq_or_transGen.mp hreach with heq | hreach
      · exact .inl heq
      · exact .inr ⟨hreach, hahead⟩
    · exact .inr ⟨hnw.trans_right hreach, haheadw⟩
  · rintro ⟨hx, hnx⟩
    exact ends_of_transGen hx (hlast v hv x hx (hnx.trans_right hreach)) hnx

variable (h₂ : Half cam cam.Goal cam.pathPool s₁ s₂)
include h₂

theorem route_src_eq (hn : n ∈ cam.srcPool) : s₂.route n = s₁.route n := by
  by_contra hne
  have hnil : s₁.route n = [] := by
    by_contra hne₁
    exact hne (h₂.kept n hne₁)
  obtain ⟨r, hr⟩ := List.exists_mem_of_ne_nil (s₂.route n) (hnil ▸ hne)
  have hends := ((h₂.filled n hne).1 r.dst).mp ⟨r, hr, rfl⟩
  have hstep : ∃ x, cam.Link n x := by
    cases hends with
    | known hknown => exact absurd hnil hknown
    | stop _ hstep => exact ⟨_, hstep⟩
    | step _ hstep => exact ⟨_, hstep⟩
  obtain ⟨x, hstep⟩ := hstep
  exact route_ne_nil_of_link h₁ (h₁.owned n hn) hstep hnil

theorem endsAt_of_path (hlast : cam.PathsLast) (honward : cam.SourcesOnward) (hn : n ∈ cam.pathPool)
    (x : NodeId) :
    (∃ r ∈ s₂.route n, r.dst = x) ↔
      EndsAt cam.Link cam.Goal cam.Crossed
        (fun w x => x ∈ cam.pathPool ∧ TransGen cam.Link w x) n x := by
  rw [h₂.owned n hn x]
  have hcrossed : ∀ w, s₁.route w ≠ [] ↔ cam.Crossed w := fun w => crossed_iff h₁ honward
  constructor
  · exact EndsAt.congr hcrossed fun w y hne =>
      (ends_of_crossed h₁ hlast honward ((hcrossed w).mp hne) y).mp
  · exact EndsAt.congr (fun w => (hcrossed w).symm) fun w y hw =>
      (ends_of_crossed h₁ hlast honward hw y).mpr

end FirstHalf

theorem past_of_reflTransGen (honward : cam.SourcesOnward) {u w : NodeId} (hw : ¬cam.Crossed w)
    (h : ReflTransGen cam.Link u w) :
    ReflTransGen (Past cam.Crossed cam.Link) u w ∨
      ∃ p ∈ cam.pathPool, ReflTransGen (Past cam.Crossed cam.Link) p w := by
  induction h using ReflTransGen.head_induction_on with
  | refl => exact .inl .refl
  | @head u b hstep hrest ih =>
    rcases ih with hpast | hpath
    · by_cases hu : cam.Crossed u
      · obtain ⟨hahead, v, hv, hreach⟩ := hu
        have hfrom : u = v ∨ TransGen cam.Link v u ∧ Ahead cam.Link (· ∈ cam.pathPool) u := by
          rcases reflTransGen_iff_eq_or_transGen.mp hreach with heq | hreach
          · exact .inl heq
          · exact .inr ⟨hreach, hahead⟩
        rcases honward v hv u hfrom b hstep with hb | hb
        · exact .inr ⟨b, hb, hpast⟩
        · have hcrossed : cam.Crossed b := ⟨hb, v, hv, hreach.tail hstep⟩
          rcases reflTransGen_iff_eq_or_transGen.mp hpast with heq | hpast
          · exact absurd (heq ▸ hcrossed) hw
          · obtain ⟨y, hby, -⟩ := TransGen.head'_iff.mp hpast
            exact absurd hcrossed hby.1
      · exact .inl (.head ⟨hu, hstep⟩ hpast)
    · exact .inr hpath

theorem paths_iff (honward : cam.SourcesOnward) :
    (∀ p ∈ cam.pathPool,
      (∀ d ∈ cam.dstPool,
        EndsAt cam.Link cam.Goal cam.Crossed (fun w x => x ∈ cam.pathPool ∧ TransGen cam.Link w x) p d ↔
          TransGen cam.Link p d) ∧
      ∀ x, EndsAt cam.Link cam.Goal cam.Crossed
          (fun w x => x ∈ cam.pathPool ∧ TransGen cam.Link w x) p x →
        x ∈ cam.dstPool) ↔
      cam.PathsOnward ∧ cam.CrossedOnward ∧ cam.OutputsLast := by
  constructor
  · intro h
    refine ⟨fun p hp w hw hnot x hstep => ?_, fun p hp w hpw hw x hx hwx => ?_, fun p hp d hd hpd => ?_⟩
    · by_contra hastray
      rw [not_or] at hastray
      obtain ⟨hx, hlast⟩ := hastray
      rcases hw with rfl | ⟨hpw, hahead⟩
      · exact hx ((h w hp).2 x (.stop hnot hstep hlast))
      · rcases past_of_reflTransGen honward hnot hpw.to_reflTransGen with hpast | ⟨q, hq, hpast⟩
        · exact hx ((h p hp).2 x (EndsAt.prepend hahead (.stop hnot hstep hlast) hpast))
        · exact hx ((h q hq).2 x (EndsAt.prepend hahead (.stop hnot hstep hlast) hpast))
    · exact (h p hp).2 x (EndsAt.of_known (.inl hx) (fun n _ hnx => ⟨hx, hnx⟩) hw hwx hpw)
    · exact EndsAt.cases_past (((h p hp).1 d hd).mpr hpd)
  · rintro ⟨hpaths, hcrossed, houtputs⟩ p hp
    refine ⟨fun d hd => ⟨EndsAt.transGen fun _ _ _ hx => hx.2, fun hpd => ?_⟩, fun x hx => ?_⟩
    · rcases houtputs p hp d hd hpd with ⟨hlast, hpast⟩ | ⟨w, hpw, hw, hdpath, hwd⟩
      · exact EndsAt.of_past (.inr hd) hlast hpast
      · exact EndsAt.of_known (.inr hd) (fun n _ hnd => ⟨hdpath, hnd⟩) hw hwd hpw
    · refine EndsAt.forall_of_onward (fun w y hw hk hy => ?_) (fun w hw hnot y hstep hlast => ?_) hx
      · refine hcrossed p hp w ?_ hk y hy.1 hy.2
        exact hw.elim (fun heq => heq ▸ .refl) fun hpw => hpw.to_reflTransGen
      · exact (hpaths p hp w hw hnot y hstep).resolve_right hlast

theorem sources_iff (h₁ : Half cam (· ∈ cam.pathPool) cam.srcPool SearchState.init s₁) :
    (∀ v ∈ cam.srcPool, (∀ p ∈ cam.pathPool, (∃ r ∈ s₁.route v, r.dst = p) ↔ TransGen cam.Link v p) ∧
      ∀ r ∈ s₁.route v, r.dst ∈ cam.pathPool) ↔ cam.PathsLast ∧ cam.SourcesOnward := by
  have hsrc : ∀ v ∈ cam.srcPool,
    ((∀ p ∈ cam.pathPool, (∃ r ∈ s₁.route v, r.dst = p) ↔ TransGen cam.Link v p) ∧
      ∀ r ∈ s₁.route v, r.dst ∈ cam.pathPool) ↔
      (∀ p ∈ cam.pathPool, TransGen cam.Link v p → ¬Ahead cam.Link (· ∈ cam.pathPool) p) ∧
        ∀ w, (w = v ∨ TransGen cam.Link v w ∧ Ahead cam.Link (· ∈ cam.pathPool) w) →
          ∀ x, cam.Link w x → x ∈ cam.pathPool ∨ Ahead cam.Link (· ∈ cam.pathPool) x := by
    intro v hv
    rw [← ends_complete_iff, ← ends_sound_iff]
    simp only [← ends_of_src h₁ hv, forall_exists_index, and_imp, forall_apply_eq_imp_iff₂]
  exact ⟨fun h => ⟨fun v hv => ((hsrc v hv).mp (h v hv)).1, fun v hv => ((hsrc v hv).mp (h v hv)).2⟩,
    fun h v hv => (hsrc v hv).mpr ⟨h.1 v hv, h.2 v hv⟩⟩

/-- A search that succeeds finds the routes that there are exactly on orderly graphs. -/
theorem routed_iff (hcam : cam.Meshed) (hR : Acyclic cam.Link) {fuel : Nat}
    (hfuel : searchFuel cam ≤ fuel)
    (hrun : mediaLibSearchRoute cam fuel SearchState.init = .ok (0, s)) :
    cam.Routed s.route ↔ cam.Orderly := by
  obtain ⟨s₁, s₂, hphase₁, hphase₂, hroute, hwf₁, hfirst₁, -⟩ :=
    mediaLibSearchRoute_eq_ok (hcam.down_eq hR ▸ hR) hrun
  have h₁ := half_of_searchPhase hcam hR hfuel (waiting_paths _ _) SearchState.wf_init
    firstIn_init hphase₁
  have h₂ : Half cam cam.Goal cam.pathPool s₁ s₂ :=
    half_of_searchPhase hcam hR hfuel (Relaxation.waiting_start h₁.depth fun _ => Iff.rfl)
      hwf₁ hfirst₁ hphase₂
  have hsrc : ∀ v ∈ cam.srcPool, s.route v = s₁.route v :=
    fun v hv => by rw [hroute, route_src_eq h₁ h₂ hv]
  have hpaths : cam.PathsLast → cam.SourcesOnward → ((∀ p ∈ cam.pathPool,
      (∀ d ∈ cam.dstPool, (∃ r ∈ s.route p, r.dst = d) ↔ TransGen cam.Link p d) ∧
        ∀ r ∈ s.route p, r.dst ∈ cam.dstPool) ↔
          cam.PathsOnward ∧ cam.CrossedOnward ∧ cam.OutputsLast) := by
    intro hlast honward
    rw [← paths_iff honward]
    refine forall₂_congr fun p hp => ?_
    simp only [hroute, ← endsAt_of_path h₁ h₂ hlast honward hp, forall_exists_index, and_imp,
      forall_apply_eq_imp_iff₂]
  constructor
  · rintro ⟨hsrcPath, hsrcEnd, hpathDst, hpathEnd⟩
    obtain ⟨hlast, honward⟩ := (sources_iff h₁).mp fun v hv =>
      ⟨fun p hp => by rw [← hsrc v hv]; exact hsrcPath v hv p hp,
        fun r hr => hsrcEnd v hv r (hsrc v hv ▸ hr)⟩
    obtain ⟨hpathsOnward, hcrossed, houtputs⟩ :=
      (hpaths hlast honward).mp fun p hp => ⟨hpathDst p hp, hpathEnd p hp⟩
    exact ⟨hlast, honward, hpathsOnward, hcrossed, houtputs⟩
  · rintro ⟨hlast, honward, hpathsOnward, hcrossed, houtputs⟩
    have hs := (sources_iff h₁).mpr ⟨hlast, honward⟩
    have hp := (hpaths hlast honward).mpr ⟨hpathsOnward, hcrossed, houtputs⟩
    exact {
      src := fun v hv p hp => by rw [hsrc v hv]; exact (hs v hv).1 p hp
      srcEnd := fun v hv r hr => (hs v hv).2 r (hsrc v hv ▸ hr)
      path := fun p hpool => (hp p hpool).1
      pathEnd := fun p hpool => (hp p hpool).2 }

end

theorem routed_smallBoard :
    ∃ s, mediaLibSearchRoute smallGraph (searchFuel smallGraph) SearchState.init = .ok (0, s) ∧
    (smallGraph.Routed s.route ↔ smallGraph.Orderly) := by
  have hseen :
      (mediaLibSearchRoute smallGraph (searchFuel smallGraph) SearchState.init).toOption.map (·.1) =
        some 0 := by
    decide +kernel
  obtain ⟨⟨ret, s⟩, hsearch, rfl⟩ := exists_of_map_eq_some hseen
  exact ⟨s, hsearch, routed_iff meshed_smallTable acyclic_smallTable le_rfl hsearch⟩

/-- A sensor, an ISP input, a path with its output, and an entity behind the ISP input that leads
nowhere. -/
def strayBoard : MediaDevice where
  entities := [
    ⟨1, "s5k2p2", .subdevSensor, [⟨false, true⟩]⟩,
    ⟨2, "b52isd-IDI1", .other, [⟨true, false⟩, ⟨false, true⟩]⟩,
    ⟨3, "b52isd-Pipeline#1", .other, [⟨true, false⟩, ⟨false, true⟩]⟩,
    ⟨4, "b52isd-stats", .other, [⟨true, false⟩]⟩,
    ⟨5, "b52isd-output0", .devnodeV4l, [⟨true, false⟩]⟩]
  links := [⟨⟨0, 0⟩, ⟨1, 0⟩⟩, ⟨⟨1, 1⟩, ⟨2, 0⟩⟩, ⟨⟨1, 1⟩, ⟨3, 0⟩⟩, ⟨⟨2, 1⟩, ⟨4, 0⟩⟩]

def strayTable : NodeTable := (createNodes strayBoard (fun _ => true) ME_CNT NodeTable.empty).get rfl

def strayGraph : CamGraph := findNodes strayBoard strayTable

theorem not_routed_strayBoard : strayGraph.Meshed ∧ Acyclic strayGraph.Link ∧
    ∃ s, mediaLibSearchRoute strayGraph (searchFuel strayGraph) SearchState.init = .ok (0, s) ∧
      ¬strayGraph.Routed s.route := by
  have htable : createNodes strayBoard (fun _ => true) ME_CNT NodeTable.empty = some strayTable := rfl
  have hmeshed := meshed_findNodes (created_of_init htable).1 (by decide +kernel) (by decide +kernel)
  refine ⟨hmeshed, acyclic_findNodes (by decide +kernel), ?_⟩
  have hseen : (mediaLibSearchRoute strayGraph (searchFuel strayGraph) SearchState.init).toOption.map
      (fun p => (p.1, (p.2.route 0).map CamRoute.dst)) = some (0, [2, 3]) := by decide +kernel
  obtain ⟨⟨ret, s⟩, hsearch, heq⟩ := exists_of_map_eq_some hseen
  obtain ⟨rfl, hdst⟩ := Prod.mk.inj heq
  refine ⟨s, hsearch, fun hrouted => ?_⟩
  -- node 3, the entity that leads nowhere, stands as the end of a route of the sensor
  obtain ⟨r, hr, hr3⟩ := List.mem_map.mp (hdst ▸ (by simp : 3 ∈ [2, 3]))
  have hpool := hrouted.srcEnd 0 (by decide +kernel) r hr
  rw [hr3] at hpool
  exact absurd hpool (by decide +kernel)

end G361FPlatform.MediaLib
