import Mathlib.Data.Finset.Insert
import Mathlib.Data.Finset.Filter
import Mathlib.Data.Finset.Erase
import G361FPlatform.Dnsmasq.RouteLaws

namespace G361FPlatform.Dnsmasq

open Library

/-- How a command ends.  `ip` may run and still do nothing, which `run_ip_cmd` does not see. -/
inductive Ending
  | refused | ignored | done
  deriving DecidableEq, Repr

def Ending.told (o : Object) : Ending → Bool
  | .refused => false
  | .ignored => match o with
    | .main .. => false
    | _ => true
  | .done => true

/-- The kernel's routes and rules, and how many commands it has seen. -/
structure KernelTables where
  seen : Nat
  objects : Finset Object

/-- The kernel, where the `n`-th command ends as `endings n` says. -/
def answering (endings : Nat → Ending) : Exec KernelTables := fun _ c k =>
  ((endings k.seen).told c.object,
    { seen := k.seen + 1
      objects :=
        if endings k.seen = .done then
          match c.action with
          | .add => insert c.object k.objects
          | .del => k.objects.erase c.object
        else k.objects })

def Object.tracked : Object → Bool
  | .table .. => false
  | _ => true

structure NoTrace (s s' : Routes KernelTables) : Prop where
  list : s'.activeRoute = s.activeRoute
  count : s'.routeCount = s.routeCount
  kernel : s'.kernel.objects.filter (fun o => o.tracked) = s.kernel.objects.filter fun o => o.tracked

/-- The call ends in front of the rule, the rule is made, or the route was there before. -/
def Undoable (endings : Nat → Ending) (dst : In6Addr) (interface : CString) (s : Routes KernelTables) : Prop :=
  (∃ r ∈ s.activeRoute, r.isAt dst interface = true ∧ r.active = true) ∨ endings s.kernel.seen ≠ .done ∨
    s.tableNum = -1 ∨ endings (s.kernel.seen + 1) ≠ .refused ∨ Object.main interface dst ∈ s.kernel.objects

section

variable {endings : Nat → Ending} {dst : In6Addr} {interface : CString} {k : KernelTables} {tableNum : Int}

theorem told_main (e : Ending) : e.told (.main interface dst) = decide (e = .done) := by
  cases e <;> rfl

theorem told_rule (e : Ending) (addr : Option In6Addr) :
    e.told (.rule tableNum addr) = decide (e ≠ .refused) := by
  cases e <;> rfl

theorem answering_add (o : Object) (owner : CString) : answering endings owner ⟨.add, o⟩ k =
    ((endings k.seen).told o,
      ⟨k.seen + 1, if endings k.seen = .done then insert o k.objects else k.objects⟩) := rfl

theorem addRoute_unrouted (h : endings k.seen ≠ .done) :
    addRoute (answering endings) tableNum dst interface k = (false, ⟨k.seen + 1, k.objects⟩) := by
  rw [addRoute, ifcActOnIpv6Route, answering_add, told_main, if_pos (decide_eq_false h), if_neg h, decide_eq_false h]

theorem answering_routed (h : endings k.seen = .done) :
    answering endings interface (ifcActOnIpv6Route .add interface dst) k =
      (true, ⟨k.seen + 1, insert (.main interface dst) k.objects⟩) := by
  rw [ifcActOnIpv6Route, answering_add, told_main, if_pos h, decide_eq_true h]

theorem addRoute_unruled (h : endings k.seen = .done) (hnum : tableNum ≠ -1)
    (hrule : endings (k.seen + 1) = .refused) :
    addRoute (answering endings) tableNum dst interface k =
      (false, ⟨k.seen + 3, insert (.main interface dst) k.objects⟩) := by
  have hruled : answering endings interface (modifyFromRule tableNum .add (some dst))
      ⟨k.seen + 1, insert (.main interface dst) k.objects⟩ =
        (false, ⟨k.seen + 2, insert (.main interface dst) k.objects⟩) := by
    rw [modifyFromRule, answering_add, told_rule, hrule]
    rfl
  simp only [addRoute, answering_routed h, hnum, hruled, if_false, if_true, Bool.true_eq_false]
  rw [ifcActOnIpv6Route, answering_add]
  simp only [Finset.insert_idem, ite_self]

theorem addRoute_ruled (h : endings k.seen = .done)
    (hrule : tableNum = -1 ∨ endings (k.seen + 1) ≠ .refused) :
    (addRoute (answering endings) tableNum dst interface k).1 = true := by
  rw [addRoute_eq_true_iff, answering_routed h]
  refine ⟨rfl, hrule.imp_right fun hrule => ?_⟩
  rw [modifyFromRule, answering_add, told_rule]
  exact decide_eq_true hrule

end

/-- A call that fails leaves no trace exactly where it needs no undo, or undoing could change nothing. -/
theorem addRouteToActiveLists_noTrace (endings : Nat → Ending) (dst : In6Addr) (interface : CString)
    (s : Routes KernelTables) :
    ((addRouteToActiveLists (answering endings) dst interface s).1 = -1 →
        NoTrace s (addRouteToActiveLists (answering endings) dst interface s).2) ↔
      Undoable endings dst interface s := by
  unfold Undoable
  by_cases hbusy : s.activeRoute.any (fun r => r.isAt dst interface && r.active) = true
  · have hactive : ∃ r ∈ s.activeRoute, r.isAt dst interface = true ∧ r.active = true := by
      obtain ⟨r, hr, hand⟩ := List.any_eq_true.mp hbusy
      exact ⟨r, hr, Bool.and_eq_true_iff.mp hand⟩
    rw [addRouteToActiveLists, if_pos hbusy]
    exact iff_of_true (fun _ => ⟨rfl, rfl, rfl⟩) (.inl hactive)
  have hidle : ¬∃ r ∈ s.activeRoute, r.isAt dst interface = true ∧ r.active = true := by
    rintro ⟨r, hr, hand⟩
    exact hbusy (List.any_eq_true.mpr ⟨r, hr, Bool.and_eq_true_iff.mpr hand⟩)
  by_cases hdone : endings s.kernel.seen = .done
  swap
  · rw [addRouteToActiveLists, if_neg hbusy, addRoute_unrouted hdone]
    exact iff_of_true (fun _ => ⟨rfl, rfl, rfl⟩) (.inr (.inl hdone))
  by_cases hrule : s.tableNum = -1 ∨ endings (s.kernel.seen + 1) ≠ .refused
  · have hadded := @addRoute_ruled endings dst interface s.kernel s.tableNum hdone hrule
    refine iff_of_true (fun hret => ?_) (.inr (.inr (by rcases hrule with h | h <;> simp [h])))
    rw [addRouteToActiveLists, if_neg hbusy] at hret
    dsimp only at hret
    rw [hadded, if_neg (show ¬true = false from Bool.noConfusion)] at hret
    exact absurd hret (show (1 : Int) ≠ -1 by decide)
  · rw [not_or, not_not] at hrule
    rw [addRouteToActiveLists, if_neg hbusy, addRoute_unruled hdone hrule.1 hrule.2]
    simp only [if_true, true_imp_iff, hidle, hdone, hrule.1, hrule.2, ne_eq, not_true_eq_false, false_or]
    constructor
    · intro htrace
      -- the route is in the table now
      have hmem : Object.main interface dst ∈
          (insert (Object.main interface dst) s.kernel.objects).filter fun o => o.tracked :=
        Finset.mem_filter.mpr ⟨Finset.mem_insert_self _ _, rfl⟩
      rw [htrace.kernel] at hmem
      exact (Finset.mem_filter.mp hmem).1
    · intro hmem
      exact ⟨rfl, rfl, congrArg _ (Finset.insert_eq_of_mem hmem)⟩

def popenFails : Nat → Ending := fun n => if n = 1 then .refused else .done

def noRoutes : Routes KernelTables := ⟨[], 0, 1007, ⟨0, ∅⟩⟩

/-- The rule is refused, and the route stays. -/
theorem not_addRouteToActiveLists_noTrace :
    (addRouteToActiveLists (answering popenFails) 1 ("wlan0" : CString) noRoutes).1 = -1 ∧
      ¬NoTrace noRoutes (addRouteToActiveLists (answering popenFails) 1 ("wlan0" : CString) noRoutes).2 :=
  ⟨by decide +kernel, fun h => absurd h.kernel (by decide +kernel)⟩

end G361FPlatform.Dnsmasq
