import Mathlib.Data.Finset.Insert
import Mathlib.Data.Finset.Filter
import G361FPlatform.Dnsmasq.RouteLaws

namespace G361FPlatform.Dnsmasq

open Library

abbrev Installed := Finset (Object × CString)

/-- Every command succeeds: to add what is there and to delete what is not changes nothing. -/
def mirror : Exec Installed := fun owner c k =>
  (true, match c.action with
    | .add => insert (c.object, owner) k
    | .del => k.filter fun x => x.1 ≠ c.object)

def Object.num : Object → Option Int
  | .main .. => none
  | .table num .. => some num
  | .rule num _ => some num

def Route.Owns (r : Route) (x : Object × CString) : Prop :=
  x.2 = r.interface ∧ match x.1 with
    | .main interface dst => interface = r.interface ∧ dst = r.dst
    | .table _ addr interface => addr = some r.dst ∧ interface = r.interface
    | .rule _ addr => addr = some r.dst

/-- Everything that is installed belongs to an active entry. -/
def Mirrored (s : Routes Installed) : Prop :=
  ∀ x ∈ s.kernel, ∃ r ∈ s.activeRoute, r.active = true ∧ r.Owns x

/-- After the call nothing is left of what was installed for the interface it deletes. -/
def Cleared (s : Routes Installed) : Call → Prop
  | .deleteActiveLists interface =>
    ∀ x ∈ (s.call mirror (.deleteActiveLists interface)).kernel, x.2 ≠ interface
  | _ => True

/-- What a deletion has to take out of a table is in the table that is set. -/
def Covered (s : Routes Installed) : Call → Prop
  | .deleteActiveLists interface =>
    ∀ x ∈ s.kernel, x.2 = interface → ∀ num, x.1.num = some num → num = s.tableNum ∧ num ≠ -1
  | _ => True

theorem mem_mirror_add {owner : CString} {o : Object} {k : Installed} {x : Object × CString} :
    x ∈ (mirror owner ⟨.add, o⟩ k).2 ↔ x = (o, owner) ∨ x ∈ k := Finset.mem_insert

theorem mem_mirror_del {owner : CString} {o : Object} {k : Installed} {x : Object × CString} :
    x ∈ (mirror owner ⟨.del, o⟩ k).2 ↔ x ∈ k ∧ x.1 ≠ o := Finset.mem_filter

section

variable {body : Route → Installed → Route × Installed} {x : Object × CString}

theorem mem_forRoutes_kernel {Q : Route → Prop} (h : ∀ r k, x ∈ (body r k).2 → x ∈ k ∨ Q (body r k).1)
    {rs : List Route} {k : Installed} (hx : x ∈ (forRoutes body rs k).2) :
    x ∈ k ∨ ∃ r ∈ (forRoutes body rs k).1, Q r := by
  induction rs generalizing k with
  | nil => exact .inl hx
  | cons r rs ih =>
    rcases ih hx with hhead | ⟨r', hr', hq⟩
    · exact (h r k hhead).imp_right fun hq => ⟨_, List.mem_cons_self, hq⟩
    · exact .inr ⟨r', List.mem_cons_of_mem _ hr', hq⟩

theorem mem_of_mem_forRoutes (h : ∀ r k, x ∈ (body r k).2 → x ∈ k) {rs : List Route} {k : Installed}
    (hx : x ∈ (forRoutes body rs k).2) : x ∈ k := by
  induction rs generalizing k with
  | nil => exact hx
  | cons r rs ih => exact h r k (ih hx)

theorem exists_turn_of_mem_forRoutes (h : ∀ r k, x ∈ (body r k).2 → x ∈ k) {rs : List Route} {k : Installed}
    (hx : x ∈ (forRoutes body rs k).2) {r : Route} (hr : r ∈ rs) : ∃ k', x ∈ (body r k').2 := by
  induction rs generalizing k with
  | nil => cases hr
  | cons r₁ rs ih =>
    rcases List.mem_cons.mp hr with rfl | hr
    · exact ⟨k, mem_of_mem_forRoutes h hx⟩
    · exact ih hx hr

end

section

variable {tableNum : Int} {dst : In6Addr} {prefixLen : Nat} {interface : CString} {x : Object × CString}

theorem mem_addRoute {k : Installed} (hx : x ∈ (addRoute mirror tableNum dst interface k).2) :
    x ∈ k ∨ Route.Owns ⟨interface, dst, true⟩ x := by
  unfold addRoute at hx
  simp only [mirror, Bool.true_eq_false, if_false] at hx
  split at hx
  · rcases Finset.mem_insert.mp hx with rfl | hx
    · exact .inr ⟨rfl, rfl, rfl⟩
    · exact .inl hx
  · rcases Finset.mem_insert.mp hx with rfl | hx
    · exact .inr ⟨rfl, rfl⟩
    · rcases Finset.mem_insert.mp hx with rfl | hx
      · exact .inr ⟨rfl, rfl, rfl⟩
      · exact .inl hx

theorem addRoute_mirror (k : Installed) : (addRoute mirror tableNum dst interface k).1 = true :=
  addRoute_eq_true_iff.mpr ⟨rfl, .inr rfl⟩

theorem mirrored_addRouteToActiveLists {s : Routes Installed} (h : Mirrored s) :
    Mirrored (addRouteToActiveLists mirror dst interface s).2 := by
  unfold addRouteToActiveLists
  dsimp only
  rw [addRoute_mirror, if_neg (show ¬true = false from Bool.noConfusion)]
  split
  · exact h
  · intro x hx
    rcases mem_mirror_add.mp hx with rfl | hx
    · exact ⟨_, List.mem_cons_self, rfl, rfl, rfl, rfl⟩
    · rcases mem_addRoute hx with hx | howns
      · obtain ⟨r, hr, hactive, howns⟩ := h x hx
        exact ⟨r, List.mem_cons_of_mem _ hr, hactive, howns⟩
      · exact ⟨_, List.mem_cons_self, rfl, howns⟩

theorem mem_reactiveRoute (r : Route) (k : Installed)
    (hx : x ∈ (reactiveRoute mirror tableNum dst prefixLen interface r k).2) :
    x ∈ k ∨ (reactiveRoute mirror tableNum dst prefixLen interface r k).1.active = true ∧
      (reactiveRoute mirror tableNum dst prefixLen interface r k).1.Owns x := by
  unfold reactiveRoute at hx ⊢
  split at hx
  next hmatch =>
    rw [if_pos hmatch]
    obtain ⟨-, rfl, -⟩ := hmatch
    have hmain : x ∈ (mirror r.interface (ifcActOnIpv6Route .add r.interface r.dst) k).2 →
        x ∈ k ∨ Route.Owns { r with active := true } x := by
      intro hx
      rcases mem_mirror_add.mp hx with rfl | hx
      · exact .inr ⟨rfl, rfl, rfl⟩
      · exact .inl hx
    dsimp only at hx
    split at hx
    · exact (hmain hx).imp_right fun howns => ⟨rfl, howns⟩
    · rcases mem_mirror_add.mp hx with rfl | hx
      · exact .inr ⟨rfl, rfl, rfl, rfl⟩
      · rcases mem_mirror_add.mp hx with rfl | hx
        · exact .inr ⟨rfl, rfl, rfl⟩
        · exact (hmain hx).imp_right fun howns => ⟨rfl, howns⟩
  · exact .inl hx

theorem reactiveRoute_active {r : Route} (h : r.active = true) (k : Installed) :
    (reactiveRoute mirror tableNum dst prefixLen interface r k).1 = r := by
  unfold reactiveRoute
  rw [if_neg (by simp [h])]

theorem mirrored_reactiveActiveLists {s : Routes Installed} (h : Mirrored s) :
    Mirrored (reactiveActiveLists mirror dst prefixLen interface s) := by
  intro x hx
  rcases mem_forRoutes_kernel (Q := fun r => r.active = true ∧ r.Owns x) mem_reactiveRoute hx with hx | hnew
  · obtain ⟨r, hr, hactive, howns⟩ := h x hx
    obtain ⟨k', hmem⟩ := exists_mem_forRoutes hr s.kernel
    rw [reactiveRoute_active hactive] at hmem
    exact ⟨r, hmem, hactive, howns⟩
  · exact hnew

theorem mem_deleteRoute (r : Route) (k : Installed) :
    x ∈ (deleteRoute mirror tableNum interface r k).2 ↔
      x ∈ k ∧ (interface = r.interface ∧ r.active = true → x.1 ≠ .main r.interface r.dst ∧
        if tableNum = -1 then x.1 ≠ .table tableNum none interface
        else x.1 ≠ .rule tableNum (some r.dst) ∧ x.1 ≠ .table tableNum (some r.dst) interface) := by
  unfold deleteRoute
  split
  next hmatch =>
    dsimp only
    split <;> simp only [mem_mirror_del, hmatch, modifyFromRoute, modifyFromRule, ifcActOnIpv6Route]
    · simp [and_assoc]
    · simp [and_assoc]
  next hmatch => simp [hmatch]

theorem deleteRoute_other {r : Route} (h : interface ≠ r.interface) (k : Installed) :
    (deleteRoute mirror tableNum interface r k).1 = r := by
  unfold deleteRoute
  rw [if_neg fun hmatch => h hmatch.1]

theorem not_active_deleteActiveLists {s : Routes Installed} {r : Route}
    (hr : r ∈ (deleteActiveLists mirror interface s).activeRoute) (h : r.interface = interface) :
    ¬r.active = true := by
  obtain ⟨r₀, -, k, rfl⟩ := exists_of_mem_forRoutes hr
  unfold deleteRoute at h ⊢
  split at h
  · rw [if_pos (by assumption)]
    exact Bool.noConfusion
  next hmatch =>
    rw [if_neg hmatch]
    exact fun hactive => hmatch ⟨h.symm, hactive⟩

theorem cleared_of_mirrored {s : Routes Installed} {c : Call} (h : Mirrored (s.call mirror c)) :
    Cleared s c := by
  cases c with
  | deleteActiveLists interface =>
    intro x hx heq
    obtain ⟨r, hr, hactive, howns⟩ := h x hx
    exact not_active_deleteActiveLists hr (howns.1 ▸ heq) hactive
  | _ => trivial

theorem mirrored_deleteActiveLists_iff {s : Routes Installed} (h : Mirrored s) :
    Mirrored (deleteActiveLists mirror interface s) ↔ Covered s (.deleteActiveLists interface) := by
  constructor
  · intro hmirrored x hx hi num hnum
    by_contra hnot
    obtain ⟨r, -, -, howns⟩ := h x hx
    have hstays : x ∈ (deleteActiveLists mirror interface s).kernel := by
      refine forRoutes_inv (I := fun k => x ∈ k) (fun r' _ k hk => ?_) hx
      refine (mem_deleteRoute r' k).mpr ⟨hk, fun _ => ?_⟩
      obtain ⟨o, owner⟩ := x
      cases o with
      | main _ _ => cases hnum
      | table num' addr _ =>
        cases hnum
        have haddr : addr = some r.dst := howns.2.1
        refine ⟨Object.noConfusion, ?_⟩
        split
        · simp [haddr]
        next hset =>
          refine ⟨Object.noConfusion, fun heq => hnot ?_⟩
          cases heq
          exact ⟨rfl, hset⟩
      | rule num' addr =>
        cases hnum
        refine ⟨Object.noConfusion, ?_⟩
        split
        · exact Object.noConfusion
        next hset =>
          refine ⟨fun heq => hnot ?_, Object.noConfusion⟩
          cases heq
          exact ⟨rfl, hset⟩
    obtain ⟨r', hr', hactive, howns'⟩ := hmirrored x hstays
    exact not_active_deleteActiveLists hr' (howns'.1 ▸ hi) hactive
  · intro hcovered x hx
    have hshrinks : ∀ r k, x ∈ (deleteRoute mirror s.tableNum interface r k).2 → x ∈ k :=
      fun r k hx => ((mem_deleteRoute r k).mp hx).1
    have hbefore : x ∈ s.kernel := mem_of_mem_forRoutes hshrinks hx
    obtain ⟨r, hr, hactive, howns⟩ := h x hbefore
    by_cases hi : interface = r.interface
    · -- the turn of this entry took it out
      obtain ⟨k', hturn⟩ := exists_turn_of_mem_forRoutes hshrinks hx hr
      obtain ⟨hmain, htable⟩ := ((mem_deleteRoute r k').mp hturn).2 ⟨hi, hactive⟩
      have hnum := hcovered x hbefore (howns.1.trans hi.symm)
      obtain ⟨o, owner⟩ := x
      cases o with
      | main i d => exact absurd (by rw [howns.2.1, howns.2.2]) hmain
      | table num addr i =>
        obtain ⟨rfl, hset⟩ := hnum num rfl
        rw [if_neg hset] at htable
        exact absurd (by rw [howns.2.1, howns.2.2, hi]) htable.2
      | rule num addr =>
        obtain ⟨rfl, hset⟩ := hnum num rfl
        rw [if_neg hset] at htable
        exact absurd (by rw [show addr = some r.dst from howns.2]) htable.1
    · obtain ⟨k', hmem⟩ := exists_mem_forRoutes hr s.kernel
      rw [deleteRoute_other hi] at hmem
      exact ⟨r, hmem, hactive, howns⟩

end

theorem mirrored_call_iff {s : Routes Installed} (h : Mirrored s) (c : Call) :
    Mirrored (s.call mirror c) ↔ Covered s c := by
  cases c with
  | setTableNumber tableNum => exact iff_of_true h trivial
  | addRouteToActiveLists dst interface => exact iff_of_true (mirrored_addRouteToActiveLists h) trivial
  | reactiveActiveLists dst prefixLen interface => exact iff_of_true (mirrored_reactiveActiveLists h) trivial
  | deleteActiveLists interface => exact mirrored_deleteActiveLists_iff h

/-- The kernel mirrors the list, and is cleared by deletions, exactly in the runs where each
deletion finds what it deletes in the table that is set. -/
theorem mirrored_iff_covered (calls : List Call) :
    Always (Routes.call mirror) Mirrored (.init ∅) calls ∧ Every (Routes.call mirror) Cleared (.init ∅) calls ↔
      Every (Routes.call mirror) Covered (.init ∅) calls := by
  have hinit : Mirrored (.init ∅) := fun x hx => absurd hx (Finset.notMem_empty x)
  have hiff := always_iff_every (I := Mirrored) (P := Mirrored) (fun _ h => h)
    (fun _ c h => mirrored_call_iff h c) (fun _ _ _ h => h) hinit calls
  constructor
  · exact fun h => hiff.mp h.1
  · intro h
    have hrun := hiff.mpr h
    exact ⟨hrun, hrun.every fun s c h => cleared_of_mirrored h⟩

/-- The route of table 97 outlives its entry where no table is set. -/
theorem not_mirrored_table97 : ¬∀ calls : List Call,
    Always (Routes.call mirror) Mirrored (.init ∅) calls ∧
      Every (Routes.call mirror) Cleared (.init ∅) calls := by
  intro h
  have hcleared := (h [.addRouteToActiveLists 1 ("wlan0" : CString), .deleteActiveLists ("wlan0" : CString)]).2.2.1
  exact hcleared (.table 97 (some 1) ("wlan0" : CString), ("wlan0" : CString)) (by decide +kernel) rfl

end G361FPlatform.Dnsmasq
