import Mathlib.Data.List.Flatten
import G361FPlatform.Library.Chain

namespace G361FPlatform.Library.Heap

def set (h : Heap α) (p : Nat) (cell : Cell α) : Heap α := fun q => if q = p then some cell else h q

def addresses (lists : List (Option Nat × List (Nat × α))) : List Nat :=
  lists.flatMap fun l => l.2.map Prod.fst

/-- The heap is made of the lists, no two of which share a cell, and of the frame. -/
structure Owns (h frame : Heap α) (lists : List (Option Nat × List (Nat × α))) : Prop where
  chains : ∀ l ∈ lists, h.Chain l.1 l.2
  nodup : (addresses lists).Nodup
  apart : ∀ q ∈ addresses lists, frame q = none
  rest : ∀ q, q ∉ addresses lists → h q = frame q

variable {h frame : Heap α} {p : Option Nat} {entries : List (Nat × α)}
  {lists lists' : List (Option Nat × List (Nat × α))}

@[simp] theorem set_self (h : Heap α) (p : Nat) (cell : Cell α) : h.set p cell p = some cell :=
  if_pos rfl

theorem set_of_ne (h : Heap α) {p q : Nat} {cell : Cell α} (hne : q ≠ p) : h.set p cell q = h q :=
  if_neg hne

theorem set_remove (h : Heap α) (p : Nat) (cell : Cell α) : (h.remove p).set p cell = h.set p cell := by
  funext q
  by_cases hq : q = p
  · rw [hq, set_self, set_self]
  · rw [set_of_ne _ hq, set_of_ne _ hq, remove_of_ne h hq]

theorem Chain.set {q : Nat} (hchain : Chain h p entries) (hq : q ∉ entries.map Prod.fst)
    (cell : Cell α) : Chain (h.set q cell) p entries :=
  hchain.congr fun _ he => set_of_ne h fun heq => hq (heq ▸ List.mem_map_of_mem he)

theorem Chain.ne_none {q : Nat} (hchain : Chain h p entries) (hq : q ∈ entries.map Prod.fst) :
    h q ≠ none := by
  induction entries generalizing p with
  | nil => cases hq
  | cons e rest ih =>
    obtain ⟨-, next, hcell, hrest⟩ := hchain
    rcases List.mem_cons.mp hq with rfl | hq
    · rw [hcell]
      exact Option.some_ne_none _
    · exact ih hrest hq

theorem mem_addresses {l : Option Nat × List (Nat × α)} {q : Nat} (hl : l ∈ lists)
    (hq : q ∈ l.2.map Prod.fst) : q ∈ addresses lists := List.mem_flatMap.mpr ⟨l, hl, hq⟩

/-- What is left of a heap without the cells of a list. -/
def without (h : Heap α) (entries : List (Nat × α)) : Heap α :=
  fun q => if q ∈ entries.map Prod.fst then none else h q

theorem owns_of_chain (hchain : Chain h p entries) : Owns h (h.without entries) [(p, entries)] := by
  have haddr : addresses [(p, entries)] = entries.map Prod.fst := List.append_nil _
  refine ⟨fun l hl => ?_, haddr ▸ hchain.nodup, fun q hq => ?_, fun q hq => ?_⟩
  · rw [List.mem_singleton.mp hl]
    exact hchain
  · exact if_pos (haddr ▸ hq)
  · exact (if_neg (haddr ▸ hq)).symm

theorem Owns.perm (howns : Owns h frame lists) (hperm : lists.Perm lists') : Owns h frame lists' := by
  have haddr : (addresses lists).Perm (addresses lists') := hperm.flatMap_right _
  exact ⟨fun l hl => howns.chains l (hperm.mem_iff.mpr hl), haddr.nodup_iff.mp howns.nodup,
    fun q hq => howns.apart q (haddr.mem_iff.mpr hq), fun q hq => howns.rest q (mt haddr.mem_iff.mp hq)⟩

theorem Owns.cons_nil (howns : Owns h frame lists) : Owns h frame ((none, []) :: lists) where
  chains := List.forall_mem_cons.mpr ⟨rfl, howns.chains⟩
  nodup := howns.nodup
  apart := howns.apart
  rest := howns.rest

theorem Owns.of_cons_nil (howns : Owns h frame ((p, []) :: lists)) : Owns h frame lists where
  chains := (List.forall_mem_cons.mp howns.chains).2
  nodup := howns.nodup
  apart := howns.apart
  rest := howns.rest

theorem Owns.uncons {e : Nat × α} (howns : Owns h frame ((p, e :: entries) :: lists)) :
    p = some e.1 ∧ ∃ next, h e.1 = some ⟨e.2, next⟩ ∧
      Owns (h.remove e.1) frame ((next, entries) :: lists) := by
  obtain ⟨⟨hp, next, hcell, hrest⟩, hchains⟩ := List.forall_mem_cons.mp howns.chains
  obtain ⟨hhead, hnodup⟩ := List.nodup_cons.mp howns.nodup
  refine ⟨hp, next, hcell, List.forall_mem_cons.mpr ⟨?_, fun l hl => ?_⟩, hnodup,
    fun q hq => ?_, fun q hq => ?_⟩
  · exact hrest.remove fun hmem => hhead (List.mem_append_left _ hmem)
  · exact (hchains l hl).remove fun hmem => hhead (List.mem_append_right _ (mem_addresses hl hmem))
  · exact howns.apart q (List.mem_cons_of_mem _ hq)
  · by_cases heq : q = e.1
    · rw [heq, remove_self]
      exact (howns.apart e.1 List.mem_cons_self).symm
    · rw [remove_of_ne h heq]
      exact howns.rest q fun hmem => (List.mem_cons.mp hmem).elim heq hq

theorem Owns.push {q : Nat} (howns : Owns h frame ((p, entries) :: lists)) (hq : h q = none) (a : α) :
    Owns (h.set q ⟨a, p⟩) frame ((some q, (q, a) :: entries) :: lists) := by
  have hfresh : q ∉ addresses ((p, entries) :: lists) := fun hmem => by
    obtain ⟨l, hl, hmem⟩ := List.mem_flatMap.mp hmem
    exact (howns.chains l hl).ne_none hmem hq
  obtain ⟨hchain, hchains⟩ := List.forall_mem_cons.mp howns.chains
  refine ⟨List.forall_mem_cons.mpr ⟨⟨rfl, p, set_self _ _ _, ?_⟩, fun l hl => ?_⟩,
    List.nodup_cons.mpr ⟨hfresh, howns.nodup⟩, List.forall_mem_cons.mpr ⟨?_, howns.apart⟩,
    fun q' hq' => ?_⟩
  · exact hchain.set (fun hmem => hfresh (List.mem_append_left _ hmem)) _
  · exact (hchains l hl).set (fun hmem => hfresh (List.mem_append_right _ (mem_addresses hl hmem))) _
  · rw [← howns.rest q hfresh]
    exact hq
  · obtain ⟨hne, hq'⟩ := not_or.mp (mt List.mem_cons.mpr hq')
    rw [set_of_ne h hne]
    exact howns.rest q' hq'

theorem Owns.move {e : Nat × α} {p' : Option Nat} {entries' : List (Nat × α)}
    (howns : Owns h frame ((p, e :: entries) :: (p', entries') :: lists)) (a : α) :
    p = some e.1 ∧ ∃ next, h e.1 = some ⟨e.2, next⟩ ∧
      Owns (h.set e.1 ⟨a, p'⟩) frame ((next, entries) :: (some e.1, (e.1, a) :: entries') :: lists) := by
  obtain ⟨hp, next, hcell, hleft⟩ := howns.uncons
  have hpushed := (hleft.perm (List.Perm.swap _ _ _)).push (remove_self h e.1) a
  rw [set_remove] at hpushed
  exact ⟨hp, next, hcell, hpushed.perm (List.Perm.swap _ _ _)⟩

theorem Owns.eq_frame (howns : Owns h frame [(p, entries)]) {q : Nat} (hq : q ∉ entries.map Prod.fst) :
    h q = frame q := howns.rest q fun hmem => hq (List.append_nil (entries.map Prod.fst) ▸ hmem)

end G361FPlatform.Library.Heap
