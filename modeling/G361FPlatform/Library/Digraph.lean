import Mathlib.Data.Finset.Card
import Mathlib.Logic.Relation

namespace G361FPlatform.Library

/-- `n` steps of `R` lead from `a` to the third argument. -/
inductive Walk (R : α → α → Prop) : α → α → Nat → Prop
  | nil (a : α) : Walk R a a 0
  | cons {a b c : α} {n : Nat} : R a b → Walk R b c n → Walk R a c (n + 1)

def Acyclic (R : α → α → Prop) : Prop := ∀ a, ¬Relation.TransGen R a a

/-- `n` is the length of the longest walk from `v` to a goal, and 0 if there is none. -/
structure Depth (R : α → α → Prop) (goal : α → Prop) (v : α) (n : Nat) : Prop where
  le : ∀ g m, goal g → Walk R v g m → m ≤ n
  attained : n = 0 ∨ ∃ g, goal g ∧ Walk R v g n

section

variable {α : Type u} {R S : α → α → Prop} {a b c : α} {m n : Nat}

theorem Depth.unique {goal : α → Prop} (h₁ : Depth R goal a m) (h₂ : Depth R goal a n) : m = n := by
  have hle : ∀ {m n}, Depth R goal a m → Depth R goal a n → m ≤ n := by
    intro m n h₁ h₂
    rcases h₁.attained with rfl | ⟨g, hg, hwalk⟩
    · exact Nat.zero_le n
    · exact h₂.le g m hg hwalk
  exact Nat.le_antisymm (hle h₁ h₂) (hle h₂ h₁)

theorem Walk.trans (h₁ : Walk R a b m) (h₂ : Walk R b c n) : Walk R a c (m + n) := by
  induction h₁ with
  | nil => rwa [Nat.zero_add]
  | cons hstep _ ih =>
    rw [Nat.add_right_comm]
    exact .cons hstep (ih h₂)

theorem Walk.reflTransGen (h : Walk R a b n) : Relation.ReflTransGen R a b := by
  induction h with
  | nil => exact .refl
  | cons hstep _ ih => exact .head hstep ih

theorem exists_walk_iff : (∃ n, Walk R a b n) ↔ Relation.ReflTransGen R a b := by
  constructor
  · rintro ⟨n, h⟩
    exact h.reflTransGen
  · intro h
    induction h using Relation.ReflTransGen.head_induction_on with
    | refl => exact ⟨0, .nil b⟩
    | head hstep _ ih =>
      obtain ⟨n, h⟩ := ih
      exact ⟨n + 1, .cons hstep h⟩

theorem Walk.places (h : Walk R a b n) :
    ∃ l : List α, l.length = n ∧ (a :: l).Pairwise (Relation.TransGen R) ∧ ∀ x ∈ l, ∃ y, R y x := by
  induction h with
  | nil a => exact ⟨[], rfl, List.pairwise_singleton _ a, by simp⟩
  | @cons a b c n hstep _ ih =>
    obtain ⟨l, hlen, hpair, hmem⟩ := ih
    refine ⟨b :: l, by rw [List.length_cons, hlen], List.pairwise_cons.mpr ⟨?_, hpair⟩, ?_⟩
    · intro x hx
      rcases List.mem_cons.mp hx with rfl | hx
      · exact .single hstep
      · exact .head hstep ((List.pairwise_cons.mp hpair).1 x hx)
    · intro x hx
      rcases List.mem_cons.mp hx with rfl | hx
      · exact ⟨a, hstep⟩
      · exact hmem x hx

theorem Acyclic.mono (h : Acyclic S) (hRS : ∀ a b, R a b → S a b) : Acyclic R :=
  fun a hcycle => h a (Relation.TransGen.mono hRS a a hcycle)

theorem acyclic_of_lt [Preorder α] (h : ∀ a b, R a b → a < b) : Acyclic R := by
  have hlt : ∀ {a b}, Relation.TransGen R a b → a < b := by
    intro a b hab
    induction hab with
    | single hstep => exact h _ _ hstep
    | tail _ hstep ih => exact ih.trans (h _ _ hstep)
  exact fun a hcycle => lt_irrefl a (hlt hcycle)

theorem Acyclic.ne (h : Acyclic R) (hstep : R a b) : a ≠ b := by
  rintro rfl
  exact h a (.single hstep)

theorem Walk.length_le (hR : Acyclic R) {s : Finset α} (hs : ∀ a b, R a b → b ∈ s) (h : Walk R a b n) :
    n ≤ s.card := by
  obtain ⟨l, rfl, hpair, hmem⟩ := h.places
  have hnodup : l.Nodup := by
    refine (List.pairwise_cons.mp hpair).2.imp fun hxy heq => ?_
    exact hR _ (heq ▸ hxy)
  classical
  rw [← List.toFinset_card_of_nodup hnodup]
  refine Finset.card_le_card fun x hx => ?_
  obtain ⟨y, hyx⟩ := hmem x (List.mem_toFinset.mp hx)
  exact hs y x hyx

theorem Walk.swap (h : Walk R a b n) : Walk (Function.swap R) b a n := by
  induction h with
  | nil a => exact .nil a
  | cons hstep _ ih => exact ih.trans (.cons hstep (.nil _))

theorem Acyclic.swap (h : Acyclic R) : Acyclic (Function.swap R) :=
  fun a hcycle => h a (Relation.transGen_swap.mp hcycle)

theorem Walk.length_le_of_start (hR : Acyclic R) {s : Finset α} (hs : ∀ a b, R a b → a ∈ s)
    (h : Walk R a b n) : n ≤ s.card :=
  h.swap.length_le hR.swap fun a b hab => hs b a hab

end

end G361FPlatform.Library
