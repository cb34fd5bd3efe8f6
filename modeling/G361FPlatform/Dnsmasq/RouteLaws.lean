import Mathlib.Data.List.Basic
import G361FPlatform.Library.Run
import G361FPlatform.Dnsmasq.Route

namespace G361FPlatform.Dnsmasq

open Library

section

variable {body : Route → κ → Route × κ} {p : Route → Bool}

theorem countP_forRoutes (h : ∀ r k, p (body r k).1 = p r) (rs : List Route) (k : κ) :
    (forRoutes body rs k).1.countP p = rs.countP p := by
  induction rs generalizing k with
  | nil => rfl
  | cons r rs ih => rw [forRoutes, List.countP_cons, List.countP_cons, h, ih]

theorem exists_of_mem_forRoutes {rs : List Route} {k : κ} {r' : Route}
    (h : r' ∈ (forRoutes body rs k).1) : ∃ r ∈ rs, ∃ k', r' = (body r k').1 := by
  induction rs generalizing k with
  | nil => cases h
  | cons r rs ih =>
    rcases List.mem_cons.mp h with heq | htail
    · exact ⟨r, List.mem_cons_self, k, heq⟩
    · obtain ⟨r₁, hr₁, k', heq⟩ := ih htail
      exact ⟨r₁, List.mem_cons_of_mem _ hr₁, k', heq⟩

theorem exists_mem_forRoutes {rs : List Route} {r : Route} (h : r ∈ rs) (k : κ) :
    ∃ k', (body r k').1 ∈ (forRoutes body rs k).1 := by
  induction rs generalizing k with
  | nil => cases h
  | cons r₁ rs ih =>
    rcases List.mem_cons.mp h with rfl | htail
    · exact ⟨k, List.mem_cons_self⟩
    · obtain ⟨k', hk'⟩ := ih htail (body r₁ k).2
      exact ⟨k', List.mem_cons_of_mem _ hk'⟩

theorem forRoutes_inv {I : κ → Prop} {rs : List Route} (h : ∀ r ∈ rs, ∀ k, I k → I (body r k).2) {k : κ}
    (hk : I k) : I (forRoutes body rs k).2 := by
  induction rs generalizing k with
  | nil => exact hk
  | cons r rs ih =>
    exact ih (fun r' h' => h r' (List.mem_cons_of_mem _ h')) (h r List.mem_cons_self k hk)

end

section

variable (exec : Exec κ)

theorem isAt_reactiveRoute (tableNum : Int) (dst : In6Addr) (prefixLen : Nat) (interface : CString)
    (dst' : In6Addr) (interface' : CString) (r : Route) (k : κ) :
    (reactiveRoute exec tableNum dst prefixLen interface r k).1.isAt dst' interface' = r.isAt dst' interface' := by
  unfold reactiveRoute
  split <;> rfl

theorem isAt_deleteRoute (tableNum : Int) (interface : CString) (dst' : In6Addr) (interface' : CString)
    (r : Route) (k : κ) :
    (deleteRoute exec tableNum interface r k).1.isAt dst' interface' = r.isAt dst' interface' := by
  unfold deleteRoute
  split <;> rfl

structure Admits (dst : In6Addr) (interface : CString) (s : Routes κ) : Prop where
  idle : ∀ r ∈ s.activeRoute, r.isAt dst interface = true → r.active = false
  routed : (exec interface (ifcActOnIpv6Route .add interface dst) s.kernel).1 = true
  ruled : s.tableNum = -1 ∨ (exec interface (modifyFromRule s.tableNum .add (some dst))
    (exec interface (ifcActOnIpv6Route .add interface dst) s.kernel).2).1 = true

variable {exec}

theorem addRoute_eq_true_iff {tableNum : Int} {dst : In6Addr} {interface : CString} {k : κ} :
    (addRoute exec tableNum dst interface k).1 = true ↔
      (exec interface (ifcActOnIpv6Route .add interface dst) k).1 = true ∧
        (tableNum = -1 ∨ (exec interface (modifyFromRule tableNum .add (some dst))
          (exec interface (ifcActOnIpv6Route .add interface dst) k).2).1 = true) := by
  unfold addRoute
  dsimp only
  split
  next hrouted => simp [hrouted]
  next hrouted =>
    rw [Bool.not_eq_false] at hrouted
    split
    next hnone => simp [hrouted, hnone]
    next hsome =>
      split
      next hruled => simp [hrouted, hsome, hruled]
      next hruled =>
        rw [Bool.not_eq_false] at hruled
        simp [hrouted, hruled]

theorem addRouteToActiveLists_admits {dst : In6Addr} {interface : CString} {s : Routes κ}
    (h : Admits exec dst interface s) :
    (addRouteToActiveLists exec dst interface s).2 = { s with
      activeRoute := ⟨interface, dst, true⟩ :: s.activeRoute
      routeCount := s.routeCount + 1
      kernel := (exec interface (modifyFromRoute 97 .add (some dst) interface)
        (addRoute exec s.tableNum dst interface s.kernel).2).2 } := by
  have hany : ¬(s.activeRoute.any fun r => r.isAt dst interface && r.active) = true := by
    intro hany
    obtain ⟨r, hr, hbusy⟩ := List.any_eq_true.mp hany
    rw [Bool.and_eq_true] at hbusy
    rw [h.idle r hr hbusy.1] at hbusy
    exact Bool.noConfusion hbusy.2
  have hadded : ¬(addRoute exec s.tableNum dst interface s.kernel).1 = false := by
    rw [Bool.not_eq_false]
    exact addRoute_eq_true_iff.mpr ⟨h.routed, h.ruled⟩
  unfold addRouteToActiveLists
  dsimp only
  rw [if_neg hany, if_neg hadded]

theorem addRouteToActiveLists_refuses {dst : In6Addr} {interface : CString} {s : Routes κ}
    (h : ¬Admits exec dst interface s) :
    ∃ k, (addRouteToActiveLists exec dst interface s).2 = { s with kernel := k } := by
  unfold addRouteToActiveLists
  dsimp only
  split
  · exact ⟨s.kernel, rfl⟩
  next hany =>
    split
    · exact ⟨_, rfl⟩
    next hadded =>
      rw [Bool.not_eq_false] at hadded
      rw [addRoute_eq_true_iff] at hadded
      refine absurd ⟨fun r hr hat => ?_, hadded.1, hadded.2⟩ h
      rw [← Bool.not_eq_true]
      intro hactive
      exact hany <| List.any_eq_true.mpr ⟨r, hr, by rw [hat, hactive]; rfl⟩

end

/-- The list has no second active entry, and no second entry, for one address and interface. -/
structure Unique (s : Routes κ) : Prop where
  active : ∀ dst interface, s.activeRoute.countP (fun r => r.isAt dst interface && r.active) ≤ 1
  entry : ∀ dst interface, s.activeRoute.countP (Route.isAt dst interface) ≤ 1

theorem unique_of_entry {s : Routes κ}
    (h : ∀ dst interface, s.activeRoute.countP (Route.isAt dst interface) ≤ 1) : Unique s := by
  refine ⟨fun dst interface => Nat.le_trans ?_ (h dst interface), h⟩
  exact List.countP_mono_left fun r _ hr => (Bool.and_eq_true_iff.mp hr).1

theorem unique_congr {s s' : Routes κ} (h : ∀ dst interface,
    s'.activeRoute.countP (Route.isAt dst interface) = s.activeRoute.countP (Route.isAt dst interface))
    (hs : Unique s) : Unique s' :=
  unique_of_entry fun dst interface => (h dst interface).symm ▸ hs.entry dst interface

/-- No call that makes an entry finds a dormant one for the same host. -/
def Fresh (exec : Exec κ) (s : Routes κ) : Call → Prop
  | .addRouteToActiveLists dst interface =>
    Admits exec dst interface s → ∀ r ∈ s.activeRoute, r.isAt dst interface = true → r.active = true
  | _ => True

theorem unique_call_iff (exec : Exec κ) {s : Routes κ} (hs : Unique s) (c : Call) :
    Unique (s.call exec c) ↔ Fresh exec s c := by
  cases c with
  | setTableNumber tableNum => exact iff_of_true (unique_of_entry hs.entry) trivial
  | reactiveActiveLists dst prefixLen interface =>
    refine iff_of_true (unique_congr (fun dst' interface' => ?_) hs) trivial
    exact countP_forRoutes (isAt_reactiveRoute exec _ _ _ _ dst' interface') _ _
  | deleteActiveLists interface =>
    refine iff_of_true (unique_congr (fun dst' interface' => ?_) hs) trivial
    exact countP_forRoutes (isAt_deleteRoute exec _ _ dst' interface') _ _
  | addRouteToActiveLists dst interface =>
    by_cases hadmits : Admits exec dst interface s
    · have hcall : (s.call exec (.addRouteToActiveLists dst interface)).activeRoute =
          ⟨interface, dst, true⟩ :: s.activeRoute := by
        rw [Routes.call, addRouteToActiveLists_admits hadmits]
      have hnew : Route.isAt dst interface ⟨interface, dst, true⟩ = true := by simp [Route.isAt]
      constructor
      · intro hunique _ r hr hat
        have hle := hunique.entry dst interface
        rw [hcall, List.countP_cons, if_pos hnew] at hle
        have hpos : 0 < s.activeRoute.countP (Route.isAt dst interface) :=
          List.countP_pos_iff.mpr ⟨r, hr, hat⟩
        omega
      · intro hfresh
        have hnone : s.activeRoute.countP (Route.isAt dst interface) = 0 := by
          rw [List.countP_eq_zero]
          intro r hr hat
          have hbusy := hfresh hadmits r hr hat
          rw [hadmits.idle r hr hat] at hbusy
          exact Bool.noConfusion hbusy
        refine unique_of_entry fun dst' interface' => ?_
        rw [hcall, List.countP_cons]
        split
        next hat =>
          obtain ⟨rfl, rfl⟩ : dst' = dst ∧ interface' = interface := by simpa [Route.isAt] using hat
          rw [hnone]
        · exact hs.entry dst' interface'
    · obtain ⟨k, hcall⟩ := addRouteToActiveLists_refuses hadmits
      refine iff_of_true (unique_congr (fun _ _ => ?_) hs) fun h => absurd h hadmits
      rw [Routes.call, hcall]

/-- A host has one entry at most as long as it is not added while it has a dormant one, however
the commands end. -/
theorem unique_iff_fresh (exec : Exec κ) (k : κ) (calls : List Call) :
    Always (Routes.call exec) Unique (.init k) calls ↔ Every (Routes.call exec) (Fresh exec) (.init k) calls :=
  always_iff_every (fun _ h => h) (fun _ c h => unique_call_iff exec h c) (fun _ _ _ h => h)
    (unique_of_entry fun _ _ => Nat.zero_le _) calls

/-- A host leaves and comes back: first it has two entries, then two active ones. -/
theorem not_unique_returningHost : ¬∀ (exec : Exec Unit) (calls : List Call),
    Always (Routes.call exec) Unique (.init ()) calls := by
  intro h
  have hrun := h (fun _ _ _ => (true, ())) [.addRouteToActiveLists 1 ("wlan0" : CString), .deleteActiveLists ("wlan0" : CString),
    .addRouteToActiveLists 1 ("wlan0" : CString), .reactiveActiveLists 1 64 ("wlan0" : CString)]
  have hlast := hrun.2.2.2.2.active 1 ("wlan0" : CString)
  revert hlast
  decide +kernel

end G361FPlatform.Dnsmasq
