import G361FPlatform.MediaLib.RecursionLaws
import G361FPlatform.MediaLib.RoundLaws

namespace G361FPlatform.MediaLib

open Library Outcome Relation

namespace CamGraph

def ShieldedFrom (cam : CamGraph) (goals : List NodeId) (s : SearchState) : Prop :=
  ∀ ret s₁, pushPool goals s.qReset = .ok (ret, s₁) → 0 ≤ ret →
    ∀ s', ReflTransGen cam.Round s₁ s' → cam.Shielded s'

def UnloopedFrom (cam : CamGraph) : List NodeId → SearchState → Prop
  | [], _ => True
  | node :: owners, s => cam.Unlooped (node, s) ∧
    ∀ fuel ret s', camNodeSetupRoute cam fuel node s = .ok (ret, s') → 0 ≤ ret → cam.UnloopedFrom owners s'

structure SearchShielded (cam : CamGraph) : Prop where
  paths : cam.ShieldedFrom cam.pathPool SearchState.init
  dsts : ∀ fuel ret s, searchPhase cam fuel cam.pathPool cam.srcPool SearchState.init = .ok (ret, s) → 0 ≤ ret →
    cam.ShieldedFrom cam.dstPool s

structure SearchUnlooped (cam : CamGraph) : Prop where
  srcs : ∀ fuel ret s, relaxPool cam fuel cam.pathPool SearchState.init = .ok (ret, s) → 0 ≤ ret →
    cam.UnloopedFrom cam.srcPool s
  paths : ∀ fuel ret s, searchPhase cam fuel cam.pathPool cam.srcPool SearchState.init = .ok (ret, s) → 0 ≤ ret →
    ∀ fuel' ret' s', relaxPool cam fuel' cam.dstPool s = .ok (ret', s') → 0 ≤ ret' →
      cam.UnloopedFrom cam.pathPool s'

end CamGraph

section

variable {cam : CamGraph} {s : SearchState}

theorem steady_relaxPool (cam : CamGraph) (goals : List NodeId) (s : SearchState) :
    Steady fun fuel => relaxPool cam fuel goals s :=
  (steady_const (pushPool goals s.qReset)).andThen fun _ s₁ => steady_propagate cam s₁

theorem steady_setupPool (cam : CamGraph) (owners : List NodeId) (s : SearchState) :
    Steady fun fuel => setupPool cam fuel owners s := by
  induction owners generalizing s with
  | nil => exact steady_const _
  | cons node owners ih => exact (steady_camNodeSetupRoute cam node s).andThen fun _ s' => ih s'

theorem steady_searchPhase (cam : CamGraph) (goals owners : List NodeId) (s : SearchState) :
    Steady fun fuel => searchPhase cam fuel goals owners s := by
  simp only [searchPhase_eq]
  exact (steady_relaxPool cam goals s).andThen fun _ s' => steady_setupPool cam owners s'

theorem exists_pushPool (cam : CamGraph) (goals : List NodeId) (s : SearchState) :
    ∃ ret s₁, pushPool goals s.qReset = .ok (ret, s₁) ∧ (0 ≤ ret → ∃ n, cam.Waits n s₁) := by
  rcases SearchState.pushPool_at (SearchState.At.qReset s) goals with ⟨-, s₁, hpush, h₁⟩ | ⟨-, s₁, hpush⟩
  · exact ⟨0, s₁, hpush, fun _ => ⟨_, _, h₁.queue, le_rfl⟩⟩
  · exact ⟨-ENOMEM, s₁, hpush, fun h => absurd h (by decide)⟩

theorem settles_relaxPool (hcam : cam.Sized) (goals : List NodeId) (s : SearchState) :
    Settles fun fuel => relaxPool cam fuel goals s := by
  obtain ⟨ret, s₁, hpush, hwaits⟩ := exists_pushPool cam goals s
  refine (settles_andThen_iff (steady_const _) fun _ s' => steady_propagate cam s').mpr ⟨⟨0, ?_⟩, ?_⟩
  · rw [hpush]
    exact nofun
  · intro n ret' s' hpush' hret
    rw [hpush] at hpush'
    cases hpush'
    obtain ⟨m, h₁⟩ := hwaits hret
    exact ⟨m + 1, settles_propagate hcam h₁⟩

theorem faults_relaxPool_iff (hcam : cam.Sized) (goals : List NodeId) (s : SearchState) :
    (Faults fun fuel => relaxPool cam fuel goals s) ↔ ¬cam.ShieldedFrom goals s := by
  obtain ⟨ret, s₁, hpush, hwaits⟩ := exists_pushPool cam goals s
  unfold relaxPool
  rw [faults_andThen_iff (steady_const _) fun _ s' => steady_propagate cam s']
  constructor
  · rintro (⟨n, hfault⟩ | ⟨n, ret', s', hpush', hret, hfault⟩) hshield
    · rw [hpush] at hfault
      cases hfault
    · rw [hpush] at hpush'
      cases hpush'
      obtain ⟨m, h₁⟩ := hwaits hret
      obtain ⟨s', hrounds, hbare⟩ := (faults_propagate_iff hcam h₁).mp hfault
      exact hbare (hshield ret s₁ hpush hret s' hrounds)
  · intro hbare
    right
    unfold CamGraph.ShieldedFrom at hbare
    push Not at hbare
    obtain ⟨ret', s', hpush', hret, s'', hrounds, hbare⟩ := hbare
    rw [hpush] at hpush'
    cases hpush'
    obtain ⟨m, h₁⟩ := hwaits hret
    exact ⟨0, ret, s₁, hpush, hret, (faults_propagate_iff hcam h₁).mpr ⟨s'', hrounds, hbare⟩⟩

theorem settles_setupPool_iff (owners : List NodeId) (s : SearchState) :
    (Settles fun fuel => setupPool cam fuel owners s) ↔ cam.UnloopedFrom owners s := by
  induction owners generalizing s with
  | nil => exact iff_of_true ⟨0, nofun⟩ trivial
  | cons node owners ih =>
    unfold setupPool CamGraph.UnloopedFrom
    rw [settles_andThen_iff (steady_camNodeSetupRoute cam node s) fun _ s' => steady_setupPool cam owners s',
      ← settles_camNodeSetupRoute_iff]
    simp only [ih]

theorem not_faults_setupPool (owners : List NodeId) (s : SearchState) :
    ¬Faults fun fuel => setupPool cam fuel owners s :=
  fun ⟨fuel, hfault⟩ => (safe_setupPool cam fuel owners).noFault hfault

theorem settles_searchPhase_iff (hcam : cam.Sized) (goals owners : List NodeId) (s : SearchState) :
    (Settles fun fuel => searchPhase cam fuel goals owners s) ↔
      ∀ fuel ret s', relaxPool cam fuel goals s = .ok (ret, s') → 0 ≤ ret → cam.UnloopedFrom owners s' := by
  simp only [searchPhase_eq]
  rw [settles_andThen_iff (steady_relaxPool cam goals s) fun _ s' => steady_setupPool cam owners s']
  simp only [settles_relaxPool hcam goals s, settles_setupPool_iff, true_and]

theorem faults_searchPhase_iff (hcam : cam.Sized) (goals owners : List NodeId) (s : SearchState) :
    (Faults fun fuel => searchPhase cam fuel goals owners s) ↔ ¬cam.ShieldedFrom goals s := by
  simp only [searchPhase_eq]
  rw [faults_andThen_iff (steady_relaxPool cam goals s) fun _ s' => steady_setupPool cam owners s',
    faults_relaxPool_iff hcam]
  simp only [not_faults_setupPool, and_false, exists_false, or_false]

theorem steady_search (cam : CamGraph) : Steady fun fuel => mediaLibSearchRoute cam fuel SearchState.init :=
  Steady.map ((steady_searchPhase cam cam.pathPool cam.srcPool SearchState.init).andThen fun _ s =>
    steady_searchPhase cam cam.dstPool cam.pathPool s) _

/-- The search comes to a link without a source where a round is not shielded. -/
theorem faults_search_iff (hcam : cam.Sized) :
    (Faults fun fuel => mediaLibSearchRoute cam fuel SearchState.init) ↔ ¬cam.SearchShielded := by
  unfold mediaLibSearchRoute
  rw [faults_map_iff, faults_andThen_iff (steady_searchPhase cam cam.pathPool cam.srcPool SearchState.init)
    fun _ s => steady_searchPhase cam cam.dstPool cam.pathPool s]
  simp only [faults_searchPhase_iff hcam]
  constructor
  · rintro (hbare | ⟨n, ret, s, hphase, hret, hbare⟩) hshield
    · exact hbare hshield.paths
    · exact hbare (hshield.dsts n ret s hphase hret)
  · intro hbare
    by_contra hnone
    push Not at hnone
    exact hbare ⟨hnone.1, hnone.2⟩

/-- It comes to an end where no call of the set-up leads back to itself. -/
theorem settles_search_iff (hcam : cam.Sized) :
    (Settles fun fuel => mediaLibSearchRoute cam fuel SearchState.init) ↔ cam.SearchUnlooped := by
  unfold mediaLibSearchRoute
  rw [settles_map_iff, settles_andThen_iff (steady_searchPhase cam cam.pathPool cam.srcPool SearchState.init)
    fun _ s => steady_searchPhase cam cam.dstPool cam.pathPool s]
  simp only [settles_searchPhase_iff hcam]
  exact ⟨fun h => ⟨h.1, h.2⟩, fun h => ⟨h.srcs, h.paths⟩⟩

end

end G361FPlatform.MediaLib
