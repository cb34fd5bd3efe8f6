import Mathlib.Tactic.Common
import Mathlib.Tactic.Ring
import Mathlib.Algebra.BigOperators.Group.List.Basic

namespace G361FPlatform.Library

namespace OnesComplement

/-- Carries are added back in until none is left. -/
def fold (sum : Nat) : Nat :=
  if sum < 65536 then sum else fold (sum % 65536 + sum / 65536)
termination_by sum
decreasing_by omega

def words : List UInt8 → List Nat
  | lo :: hi :: rest => (lo.toNat + 256 * hi.toNat) :: words rest
  | [lo] => [lo.toNat]
  | [] => []

def foldStep (sum : Nat) : Nat := sum % 65536 + sum / 65536

def add (x y : Nat) : Nat := if x + y < 65536 then x + y else x + y - 65535

theorem fold_of_lt {n : Nat} (h : n < 65536) : fold n = n := by
  rw [fold, if_pos h]

/-- Folding is reduction modulo 65535, with 65535 for the multiples but 0 for 0 only. -/
theorem fold_eq (n : Nat) : fold n = if n = 0 then 0 else (n - 1) % 65535 + 1 := by
  induction n using fold.induct with
  | case1 n h =>
    rw [fold_of_lt h]
    split <;> omega
  | case2 n h ih =>
    rw [fold, if_neg h, ih]
    have hpos : n % 65536 + n / 65536 ≠ 0 := by omega
    rw [if_neg hpos, if_neg (by omega)]
    omega

theorem fold_le (n : Nat) : fold n ≤ 65535 := by
  rw [fold_eq]
  split <;> omega

theorem fold_eq_max {n : Nat} (hpos : 0 < n) : fold n = 65535 ↔ n % 65535 = 0 := by
  rw [fold_eq, if_neg (by omega)]
  omega

theorem fold_fold_add (n m : Nat) : fold (fold n + m) = fold (n + m) := by
  rw [fold_eq n]
  split
  next h => rw [h]
  · rw [fold_eq, fold_eq, if_neg (by omega), if_neg (by omega)]
    omega

theorem exists_foldStep {n : Nat} (h : n < 2 ^ 32) :
    ∃ k ≤ 2, foldStep^[k] n = fold n ∧ ∀ i < k, foldStep^[i] n / 65536 ≠ 0 := by
  have hstep : ∀ m, ¬m < 65536 → fold m = fold (foldStep m) := by
    intro m hm
    rw [fold, if_neg hm, foldStep]
  by_cases h₀ : n < 65536
  · exact ⟨0, by omega, (fold_of_lt h₀).symm, by omega⟩
  by_cases h₁ : foldStep n < 65536
  · refine ⟨1, by omega, ?_, ?_⟩
    · rw [hstep n h₀, fold_of_lt h₁, Function.iterate_one]
    · intro i hi
      obtain rfl : i = 0 := by omega
      rw [Function.iterate_zero_apply]
      omega
  · have h₂ : foldStep (foldStep n) < 65536 := by
      simp only [foldStep] at *
      omega
    refine ⟨2, le_rfl, ?_, ?_⟩
    · rw [hstep n h₀, hstep _ h₁, fold_of_lt h₂]
      rfl
    · intro i hi
      obtain rfl | rfl : i = 0 ∨ i = 1 := by omega
      · rw [Function.iterate_zero_apply]
        omega
      · rw [Function.iterate_one]
        omega

theorem iterate_foldStep_lt {n : Nat} (h : n < 2 ^ 32) (i : Nat) : foldStep^[i] n < 2 ^ 32 := by
  induction i with
  | zero => exact h
  | succ i ih =>
    rw [Function.iterate_succ_apply']
    simp only [foldStep]
    omega

theorem add_eq_fold {x y : Nat} (hx : x ≤ 65535) (hy : y ≤ 65535) : add x y = fold (x + y) := by
  rw [add, fold_eq]
  split_ifs <;> omega

theorem fold_add_sum {ws : List Nat} (hws : ∀ w ∈ ws, w ≤ 65535) {s : Nat} (hs : s ≤ 65535) :
    fold (s + ws.sum) = ws.foldl add s := by
  induction ws generalizing s with
  | nil => exact fold_of_lt (by simpa using Nat.lt_succ_of_le hs)
  | cons w ws ih =>
    have hw : w ≤ 65535 := hws w List.mem_cons_self
    have hadd : add s w ≤ 65535 := by
      rw [add_eq_fold hs hw]
      exact fold_le _
    calc fold (s + (w :: ws).sum)
      _ = fold (s + w + ws.sum) := by rw [List.sum_cons, Nat.add_assoc]
      _ = fold (add s w + ws.sum) := by rw [add_eq_fold hs hw, fold_fold_add]
      _ = ws.foldl add (add s w) := ih (fun v hv => hws v (List.mem_cons_of_mem w hv)) hadd

theorem fold_eq_zero {n : Nat} : fold n = 0 ↔ n = 0 := by
  rw [fold_eq]
  split <;> omega

theorem fold_add_complement {n : Nat} (hpos : 0 < n) : fold (n + (65535 - fold n)) = 65535 := by
  have hle := fold_le n
  rw [fold_eq_max (by omega)]
  rw [fold_eq, if_neg (by omega)] at hle ⊢
  omega

theorem sum_words_le (bs : List UInt8) : (words bs).sum ≤ 65535 * bs.length := by
  induction bs using words.induct with
  | case1 lo hi rest ih =>
    have := lo.toNat_lt
    have := hi.toNat_lt
    simp only [words, List.sum_cons, List.length_cons]
    omega
  | case2 lo =>
    have := lo.toNat_lt
    simp only [words, List.sum_singleton, List.length_singleton]
    omega
  | case3 => simp [words]

theorem words_le {bs : List UInt8} : ∀ w ∈ words bs, w ≤ 65535 := by
  induction bs using words.induct with
  | case1 lo hi rest ih =>
    have hlo := lo.toNat_lt
    have hhi := hi.toNat_lt
    simp only [words, List.forall_mem_cons]
    exact ⟨by omega, ih⟩
  | case2 lo =>
    have hlo := lo.toNat_lt
    simp only [words, List.forall_mem_singleton]
    omega
  | case3 => simp [words]

theorem words_append {as : List UInt8} (h : as.length % 2 = 0) (bs : List UInt8) :
    words (as ++ bs) = words as ++ words bs := by
  induction as using words.induct with
  | case1 lo hi rest ih =>
    have hrest : rest.length % 2 = 0 := by
      simp only [List.length_cons] at h
      omega
    simp [words, ih hrest]
  | case2 lo => simp at h
  | case3 => rfl

end OnesComplement

end G361FPlatform.Library
