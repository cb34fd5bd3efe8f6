import Mathlib.Data.List.Basic

namespace G361FPlatform.Library

variable {α : Type u} {β : Type v}

def takeParts : Nat → List (List α) → List (List α)
  | _, [] => []
  | n, x :: xs => x.take n :: takeParts (n - x.length) xs

def dropParts : Nat → List (List α) → List (List α)
  | _, [] => []
  | n, x :: xs => x.drop n :: dropParts (n - x.length) xs

theorem flatten_takeParts (n : Nat) (xs : List (List α)) :
    (takeParts n xs).flatten = xs.flatten.take n := by
  induction xs generalizing n with
  | nil => simp [takeParts]
  | cons x xs ih => rw [takeParts, List.flatten_cons, List.flatten_cons, List.take_append, ih]

theorem flatten_dropParts (n : Nat) (xs : List (List α)) :
    (dropParts n xs).flatten = xs.flatten.drop n := by
  induction xs generalizing n with
  | nil => simp [dropParts]
  | cons x xs ih => rw [dropParts, List.flatten_cons, List.flatten_cons, List.drop_append, ih]

theorem dropParts_zero (xs : List (List α)) : dropParts 0 xs = xs := by
  induction xs with
  | nil => rfl
  | cons x xs ih => rw [dropParts, List.drop_zero, Nat.zero_sub, ih]

theorem dropParts_dropParts (m n : Nat) (xs : List (List α)) :
    dropParts n (dropParts m xs) = dropParts (m + n) xs := by
  induction xs generalizing m n with
  | nil => rfl
  | cons x xs ih =>
    rw [dropParts, dropParts, dropParts, List.drop_drop, ih, List.length_drop]
    congr 2
    omega

variable {f : List α → List β}

theorem flatMap_takeParts_zero (hf : f [] = []) (xs : List (List α)) :
    (takeParts 0 xs).flatMap f = [] := by
  induction xs with
  | nil => rfl
  | cons x xs ih => rw [takeParts, List.flatMap_cons, List.take_zero, Nat.zero_sub, hf, ih, List.append_nil]

theorem flatMap_takeParts_dropParts (hf : f [] = []) {n : Nat} {xs : List (List α)}
    (h : ∀ x y z, xs.flatten.take n = x ++ y → y ≠ [] → f (y ++ z) = f y ++ f z) :
    xs.flatMap f = (takeParts n xs).flatMap f ++ (dropParts n xs).flatMap f := by
  induction xs generalizing n with
  | nil => rfl
  | cons x xs ih =>
    rw [takeParts, dropParts, List.flatMap_cons, List.flatMap_cons, List.flatMap_cons]
    rcases Nat.le_total x.length n with hle | hge
    · rw [List.take_of_length_le hle, List.drop_eq_nil_of_le hle, hf, List.nil_append, List.append_assoc]
      congr 1
      refine ih fun p y z heq hy => h (x ++ p) y z ?_ hy
      rw [List.flatten_cons, List.take_append, List.take_of_length_le hle, heq, List.append_assoc]
    · rw [Nat.sub_eq_zero_of_le hge, flatMap_takeParts_zero hf, dropParts_zero, List.append_nil, ← List.append_assoc]
      congr 1
      by_cases hnil : x.take n = []
      · have hdrop := List.take_append_drop n x
        rw [hnil, List.nil_append] at hdrop
        rw [hnil, hdrop, hf, List.nil_append]
      · rw [← h [] (x.take n) (x.drop n) ?_ hnil, List.take_append_drop]
        rw [List.flatten_cons, List.take_append, Nat.sub_eq_zero_of_le hge, List.take_zero, List.append_nil,
          List.nil_append]

theorem flatMap_eq_nil_of_flatten (hf : f [] = []) {xs : List (List α)} (h : xs.flatten = []) :
    xs.flatMap f = [] := by
  rw [List.flatMap_eq_nil_iff]
  intro x hx
  rw [List.flatten_eq_nil_iff.mp h x hx, hf]

theorem flatMap_filter_ne_nil [DecidableEq α] (hf : f [] = []) (xs : List (List α)) :
    (xs.filter (· ≠ [])).flatMap f = xs.flatMap f := by
  induction xs with
  | nil => rfl
  | cons x xs ih =>
    rw [List.filter_cons]
    split
    · rw [List.flatMap_cons, List.flatMap_cons, ih]
    next hx =>
      have hnil : x = [] := by simpa using hx
      rw [List.flatMap_cons, hnil, hf, List.nil_append, ih]

theorem exists_first_flatMap {xs : List (List α)} (h : xs.flatMap f ≠ []) :
    ∃ as x bs, xs = as ++ x :: bs ∧ as.flatMap f = [] ∧ f x ≠ [] := by
  induction xs with
  | nil => exact absurd rfl h
  | cons x xs ih =>
    by_cases hx : f x = []
    · rw [List.flatMap_cons, hx, List.nil_append] at h
      obtain ⟨as, y, bs, heq, has, hy⟩ := ih h
      exact ⟨x :: as, y, bs, by rw [heq, List.cons_append], by rw [List.flatMap_cons, hx, has, List.nil_append], hy⟩
    · exact ⟨[], x, xs, rfl, rfl, hx⟩

end G361FPlatform.Library
