import Mathlib.Data.List.Nodup
import G361FPlatform.Library.Outcome

namespace G361FPlatform.Library

/-- A cell of a singly linked list; `next` is `none` for NULL. -/
structure Cell (α : Type u) where
  val : α
  next : Option Nat

/-- The cells of a heap; at other addresses there is none, or none any more. -/
abbrev Heap (α : Type u) := Nat → Option (Cell α)

namespace Heap

/-- From `p` on the cells hold the given values at the given addresses, and then NULL. -/
def Chain (h : Heap α) : Option Nat → List (Nat × α) → Prop
  | p, [] => p = none
  | p, (q, a) :: rest => p = some q ∧ ∃ next, h q = some ⟨a, next⟩ ∧ Chain h next rest

def remove (h : Heap α) (p : Nat) : Heap α := fun q => if q = p then none else h q

variable {h h' : Heap α} {p : Option Nat} {entries entries' : List (Nat × α)}

@[simp] theorem remove_self (h : Heap α) (p : Nat) : h.remove p p = none := if_pos rfl

theorem remove_of_ne (h : Heap α) {p q : Nat} (hne : q ≠ p) : h.remove p q = h q := if_neg hne

theorem Chain.congr (hchain : Chain h p entries) (heq : ∀ e ∈ entries, h' e.1 = h e.1) : Chain h' p entries := by
  induction entries generalizing p with
  | nil => exact hchain
  | cons e rest ih =>
    obtain ⟨hp, next, hcell, hrest⟩ := hchain
    exact ⟨hp, next, (heq e List.mem_cons_self).trans hcell,
      ih hrest fun e' he' => heq e' (List.mem_cons_of_mem _ he')⟩

theorem Chain.unique (hchain : Chain h p entries) (hchain' : Chain h p entries') :
    entries = entries' := by
  induction entries generalizing p entries' with
  | nil =>
    cases entries' with
    | nil => rfl
    | cons e' rest' =>
      rw [show p = none from hchain] at hchain'
      cases hchain'.1
  | cons e rest ih =>
    obtain ⟨rfl, next, hcell, hrest⟩ := hchain
    cases entries' with
    | nil => cases hchain'
    | cons e' rest' =>
      obtain ⟨hp, next', hcell', hrest'⟩ := hchain'
      have haddr : e.1 = e'.1 := Option.some.inj hp
      rw [← haddr, hcell] at hcell'
      obtain ⟨hval, rfl⟩ := Cell.mk.inj (Option.some.inj hcell')
      rw [ih hrest hrest', Prod.ext haddr hval]

theorem Chain.suffix {pre : List (Nat × α)} {e : Nat × α} (hchain : Chain h p (pre ++ e :: entries)) :
    Chain h (some e.1) (e :: entries) := by
  induction pre generalizing p with
  | nil => exact ⟨rfl, hchain.2⟩
  | cons e' pre ih =>
    obtain ⟨-, next, -, hrest⟩ := hchain
    exact ih hrest

theorem Chain.nodup (hchain : Chain h p entries) : (entries.map Prod.fst).Nodup := by
  induction entries generalizing p with
  | nil => exact List.nodup_nil
  | cons e rest ih =>
    obtain ⟨-, next, hcell, hrest⟩ := hchain
    rw [List.map_cons, List.nodup_cons]
    refine ⟨fun hmem => ?_, ih hrest⟩
    obtain ⟨e', he', haddr⟩ := List.mem_map.mp hmem
    obtain ⟨pre, post, rfl⟩ := List.append_of_mem he'
    -- the list from the second place on would be the whole list
    have hsuffix := hrest.suffix
    rw [haddr] at hsuffix
    have hwhole : Chain h (some e.1) (e :: (pre ++ e' :: post)) := ⟨rfl, next, hcell, hrest⟩
    have hlen := congrArg List.length (hsuffix.unique hwhole)
    simp only [List.length_cons, List.length_append] at hlen
    omega

theorem Chain.remove {q : Nat} (hchain : Chain h p entries) (hq : q ∉ entries.map Prod.fst) :
    Chain (h.remove q) p entries :=
  hchain.congr fun _ he => remove_of_ne h fun heq => hq (heq ▸ List.mem_map_of_mem he)

end Heap

end G361FPlatform.Library
