import Mathlib.Data.Nat.Bitwise
import Mathlib.Data.Nat.Find

namespace G361FPlatform.Library

namespace TopBits

/-- The word of `w` bits with the `k` highest ones set. -/
def top (w k : Nat) : Nat := 2 ^ w - 2 ^ (w - k)

/-- With a bit of the word, all higher ones are set. -/
def IsPrefix (w m : Nat) : Prop := ∀ i j, i ≤ j → j < w → m.testBit i = true → m.testBit j = true

variable {w k m : Nat}

@[simp] theorem top_zero (w : Nat) : top w 0 = 0 := by rw [top, Nat.sub_zero, Nat.sub_self]

theorem top_lt (w k : Nat) : top w k < 2 ^ w := by
  have h₁ := Nat.two_pow_pos w
  have h₂ := Nat.two_pow_pos (w - k)
  unfold top
  omega

theorem top_eq_mul (h : k ≤ w) : top w k = (2 ^ k - 1) * 2 ^ (w - k) := by
  have hw : 2 ^ k * 2 ^ (w - k) = 2 ^ w := by rw [← Nat.pow_add, Nat.add_sub_cancel' h]
  rw [top, Nat.sub_mul, hw, Nat.one_mul]

theorem testBit_top (h : k ≤ w) (i : Nat) : (top w k).testBit i = (w - k ≤ i ∧ i < w : Bool) := by
  rw [top_eq_mul h, Nat.testBit_mul_two_pow, Nat.testBit_two_pow_sub_one, Bool.decide_and]
  by_cases hi : w - k ≤ i
  · rw [decide_eq_true hi]
    congr 1
    exact decide_eq_decide.mpr (by omega)
  · rw [decide_eq_false hi, Bool.false_and, Bool.false_and]

theorem two_mul_top (h : k < w) : 2 * top w (k + 1) = top w k + 2 ^ w := by
  have hhalf : 2 ^ (w - k) = 2 * 2 ^ (w - (k + 1)) := by
    rw [← Nat.pow_succ', show w - k = w - (k + 1) + 1 by omega]
  have hle : 2 ^ (w - k) ≤ 2 ^ w := Nat.pow_le_pow_right (by decide) (by omega)
  unfold top
  omega

/-- A set of bits is a prefix if it is one of the `w + 1` words. -/
theorem isPrefix_iff (hm : m < 2 ^ w) : IsPrefix w m ↔ ∃ k, k ≤ w ∧ m = top w k := by
  constructor
  · intro h
    by_cases hzero : m = 0
    · exact ⟨0, Nat.zero_le w, by rw [hzero, top_zero]⟩
    · obtain ⟨j, hj, hleast⟩ : ∃ j, m.testBit j = true ∧ ∀ i, i < j → m.testBit i = false := by
        have hex := Nat.exists_testBit_of_ne_zero hzero
        exact ⟨Nat.find hex, Nat.find_spec hex, fun i hi => Bool.eq_false_of_not_eq_true (Nat.find_min hex hi)⟩
      have hbound : ∀ i, w ≤ i → m.testBit i = false :=
        fun i hi => Nat.testBit_lt_two_pow (hm.trans_le (Nat.pow_le_pow_right (by decide) hi))
      have hjw : j < w := by
        by_contra hjw
        rw [hbound j (Nat.not_lt.mp hjw)] at hj
        cases hj
      refine ⟨w - j, Nat.sub_le w j, Nat.eq_of_testBit_eq fun i => ?_⟩
      rw [testBit_top (Nat.sub_le w j), Nat.sub_sub_self hjw.le]
      by_cases hi : j ≤ i ∧ i < w
      · rw [decide_eq_true hi, h j i hi.1 hi.2 hj]
      · rw [decide_eq_false hi]
        by_cases hij : i < j
        · exact hleast i hij
        · exact hbound i (by omega)
  · rintro ⟨k, hk, rfl⟩ i j hij hj hi
    rw [testBit_top hk, decide_eq_true_eq] at hi ⊢
    omega

end TopBits

end G361FPlatform.Library
