import G361FPlatform.Library.Chain
import G361FPlatform.Dnsmasq.Route

namespace G361FPlatform.Dnsmasq

open Library

/-- The route list as it lies in memory, with the addresses `free` was called for. -/
structure RouteHeap where
  cells : Heap Route
  activeRoute : Option Nat
  routeCount : Int
  freed : List Nat

def RouteHeap.free (p : Nat) (s : RouteHeap) : Except Stuck RouteHeap :=
  match s.cells p with
  | none => .error .fault
  | some _ => .ok { s with cells := s.cells.remove p, freed := s.freed ++ [p] }

def flushLoop : Nat → Option Nat → RouteHeap → Except Stuck RouteHeap
  | _, none, s => .ok s
  | 0, some _, _ => .error .fuel
  | n + 1, some p, s =>
    match s.cells p with
    | none => .error .fault
    | some route =>
      if route.val.active = false then
        (RouteHeap.free p { s with routeCount := s.routeCount - 1 }).bind (flushLoop n route.next)
      else flushLoop n route.next s

def flushActiveLists (fuel : Nat) (s : RouteHeap) : Except Stuck RouteHeap :=
  (flushLoop fuel s.activeRoute s).map fun s => { s with activeRoute := none }

def dormant (entries : List (Nat × Route)) : List (Nat × Route) := entries.filter fun e => !e.2.active

/-- What a filter leaves of a list with the given entries. -/
structure Filtered (entries : List (Nat × Route)) (s s' : RouteHeap) : Prop where
  list : s'.cells.Chain s'.activeRoute (entries.filter fun e => e.2.active)
  count : s'.routeCount = s.routeCount - (dormant entries).length
  freed : ∀ p, s'.freed.count p = s.freed.count p + if p ∈ (dormant entries).map Prod.fst then 1 else 0
  /-- no pointer of an entry that is left leads to one that was freed -/
  pointers : ∀ e ∈ entries, ∀ cell, s'.cells e.1 = some cell →
    ∀ p, cell.next = some p → s'.cells p ≠ none

theorem free_eq {s : RouteHeap} {p : Nat} {cell : Cell Route} (h : s.cells p = some cell) :
    s.free p = .ok { s with cells := s.cells.remove p, freed := s.freed ++ [p] } := by
  rw [RouteHeap.free, h]

theorem flushLoop_eq {n : Nat} {p : Option Nat} {entries : List (Nat × Route)} {s : RouteHeap}
    (hchain : s.cells.Chain p entries) (hfuel : entries.length ≤ n) :
    ∃ cells, flushLoop n p s = .ok { s with
        cells
        routeCount := s.routeCount - (dormant entries).length
        freed := s.freed ++ (dormant entries).map Prod.fst } ∧
      ∀ q, cells q = if q ∈ (dormant entries).map Prod.fst then none else s.cells q := by
  induction entries generalizing n p s with
  | nil =>
    rw [show p = none from hchain]
    refine ⟨s.cells, ?_, fun q => rfl⟩
    cases n <;> simp [flushLoop, dormant]
  | cons e rest ih =>
    have hnodup := hchain.nodup
    rw [List.map_cons, List.nodup_cons] at hnodup
    obtain ⟨rfl, next, hcell, hrest⟩ := hchain
    obtain ⟨n, rfl⟩ : ∃ m, n = m + 1 := ⟨n - 1, by rw [List.length_cons] at hfuel; omega⟩
    have hfuel' : rest.length ≤ n := Nat.le_of_succ_le_succ hfuel
    simp only [flushLoop, hcell]
    by_cases hactive : e.2.active = false
    · have hdormant : dormant (e :: rest) = e :: dormant rest := List.filter_cons_of_pos (by rw [hactive]; rfl)
      rw [if_pos hactive, free_eq (s := { s with routeCount := s.routeCount - 1 }) hcell, bind_ok, hdormant]
      obtain ⟨cells, heq, hcells⟩ := @ih n next
        { s with cells := s.cells.remove e.1, routeCount := s.routeCount - 1, freed := s.freed ++ [e.1] }
        (hrest.remove hnodup.1) hfuel'
      refine ⟨cells, ?_, fun q => ?_⟩
      · rw [heq, List.length_cons, List.map_cons, List.append_assoc, List.singleton_append]
        congr 2
        push_cast
        omega
      · rw [hcells, List.map_cons]
        by_cases hq : q ∈ (dormant rest).map Prod.fst
        · rw [if_pos hq, if_pos (List.mem_cons_of_mem _ hq)]
        · by_cases he : q = e.1
          · rw [if_neg hq, if_pos (he ▸ List.mem_cons_self), he]
            exact Heap.remove_self _ _
          · rw [if_neg hq, if_neg fun h => (List.mem_cons.mp h).elim he hq]
            exact Heap.remove_of_ne _ he
    · have hdormant : dormant (e :: rest) = dormant rest :=
        List.filter_cons_of_neg (by rw [Bool.not_eq_false] at hactive; rw [hactive]; decide)
      rw [if_neg hactive, hdormant]
      exact ih hrest hfuel'

/-- Flushing is a filter exactly where no entry is active: it forgets the list. -/
theorem flushActiveLists_filtered {s : RouteHeap} {entries : List (Nat × Route)} {fuel : Nat}
    (hchain : s.cells.Chain s.activeRoute entries) (hfuel : entries.length ≤ fuel) :
    (∃ s', flushActiveLists fuel s = .ok s' ∧ Filtered entries s s') ↔
      ∀ e ∈ entries, e.2.active = false := by
  obtain ⟨cells, heq, hcells⟩ := flushLoop_eq hchain hfuel
  rw [flushActiveLists, heq, map_ok]
  constructor
  · rintro ⟨s', hok, hfiltered⟩ e he
    cases hok
    have hlist := hfiltered.list
    cases hleft : entries.filter fun e => e.2.active with
    | nil => exact Bool.not_eq_true _ ▸ List.filter_eq_nil_iff.mp hleft e he
    | cons e' rest =>
      rw [hleft] at hlist
      cases hlist.1
  · intro hall
    have hkept : (entries.filter fun e => e.2.active) = [] :=
      List.filter_eq_nil_iff.mpr fun e he => by rw [hall e he]; decide
    have hgone : dormant entries = entries := List.filter_eq_self.mpr fun e he => by rw [hall e he]; rfl
    refine ⟨_, rfl, ?_, rfl, fun p => ?_, fun e he cell hcell => ?_⟩
    · rw [hkept]
      rfl
    · change (s.freed ++ _).count p = _
      rw [List.count_append, hgone]
      congr 1
      exact List.Nodup.count hchain.nodup
    · have hnone : cells e.1 = none := by
        rw [hcells, hgone, if_pos (List.mem_map_of_mem he)]
      change cells e.1 = some cell at hcell
      rw [hnone] at hcell
      cases hcell

def twoRoutes (active : Bool) : List (Nat × Route) :=
  [(8, ⟨("wlan0" : CString), 1, false⟩), (16, ⟨("wlan0" : CString), 2, active⟩)]

def twoRoutesHeap (active : Bool) : RouteHeap where
  cells p :=
    if p = 8 then some ⟨⟨("wlan0" : CString), 1, false⟩, some 16⟩
    else if p = 16 then some ⟨⟨("wlan0" : CString), 2, active⟩, none⟩
    else none
  activeRoute := some 8
  routeCount := 2
  freed := []

theorem chain_twoRoutes (active : Bool) :
    (twoRoutesHeap active).cells.Chain (some 8) (twoRoutes active) :=
  ⟨rfl, _, rfl, rfl, _, rfl, rfl⟩

theorem flushActiveLists_filtered_twoRoutes :
    (∃ s', flushActiveLists 2 (twoRoutesHeap false) = .ok s' ∧
        Filtered (twoRoutes false) (twoRoutesHeap false) s') ↔
      ∀ e ∈ twoRoutes false, e.2.active = false :=
  flushActiveLists_filtered (chain_twoRoutes false) (Nat.le_refl 2)

/-- The active entry is in memory yet, but no pointer leads to it. -/
theorem not_flushActiveLists_filtered : ¬∃ s', flushActiveLists 2 (twoRoutesHeap true) = .ok s' ∧
    Filtered (twoRoutes true) (twoRoutesHeap true) s' := by
  rintro ⟨s', hok, hfiltered⟩
  cases hok
  cases hfiltered.list.1

end G361FPlatform.Dnsmasq
