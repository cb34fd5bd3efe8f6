import Mathlib.Tactic.Common

namespace G361FPlatform.Library

namespace LittleEndian

def bytes16 (x : UInt16) : List UInt8 := [UInt8.ofNat x.toNat, UInt8.ofNat (x.toNat / 256)]

def word16 (lo hi : UInt8) : UInt16 := UInt16.ofNat (lo.toNat + 256 * hi.toNat)

def bytes32 (x : UInt32) : List UInt8 :=
  [UInt8.ofNat x.toNat, UInt8.ofNat (x.toNat / 256), UInt8.ofNat (x.toNat / 65536),
    UInt8.ofNat (x.toNat / 16777216)]

def word32 (b₀ b₁ b₂ b₃ : UInt8) : UInt32 :=
  UInt32.ofNat (b₀.toNat + 256 * (b₁.toNat + 256 * (b₂.toNat + 256 * b₃.toNat)))

def swap16 (x : UInt16) : UInt16 := UInt16.ofNat (x.toNat % 256 * 256 + x.toNat / 256)

def swap32 (x : UInt32) : UInt32 :=
  word32 (UInt8.ofNat (x.toNat / 16777216)) (UInt8.ofNat (x.toNat / 65536))
    (UInt8.ofNat (x.toNat / 256)) (UInt8.ofNat x.toNat)

@[simp] theorem length_bytes16 (x : UInt16) : (bytes16 x).length = 2 := rfl

@[simp] theorem length_bytes32 (x : UInt32) : (bytes32 x).length = 4 := rfl

theorem toNat_word16 (lo hi : UInt8) : (word16 lo hi).toNat = lo.toNat + 256 * hi.toNat := by
  have := lo.toNat_lt
  have := hi.toNat_lt
  simp only [word16, UInt16.toNat_ofNat']
  omega

theorem toNat_word32 (b₀ b₁ b₂ b₃ : UInt8) :
    (word32 b₀ b₁ b₂ b₃).toNat =
      b₀.toNat + 256 * (b₁.toNat + 256 * (b₂.toNat + 256 * b₃.toNat)) := by
  have := b₀.toNat_lt
  have := b₁.toNat_lt
  have := b₂.toNat_lt
  have := b₃.toNat_lt
  simp only [word32, UInt32.toNat_ofNat']
  omega

theorem word16_bytes16 (x : UInt16) :
    word16 (UInt8.ofNat x.toNat) (UInt8.ofNat (x.toNat / 256)) = x := by
  have := x.toNat_lt
  apply UInt16.toNat_inj.mp
  rw [toNat_word16, UInt8.toNat_ofNat', UInt8.toNat_ofNat']
  omega

theorem word32_bytes32 (x : UInt32) :
    word32 (UInt8.ofNat x.toNat) (UInt8.ofNat (x.toNat / 256)) (UInt8.ofNat (x.toNat / 65536))
      (UInt8.ofNat (x.toNat / 16777216)) = x := by
  have := x.toNat_lt
  apply UInt32.toNat_inj.mp
  simp only [toNat_word32, UInt8.toNat_ofNat']
  omega

theorem bytes16_inj {x y : UInt16} (h : bytes16 x = bytes16 y) : x = y := by
  simp only [bytes16, List.cons.injEq, and_true] at h
  rw [← word16_bytes16 x, ← word16_bytes16 y, h.1, h.2]

theorem bytes32_inj {x y : UInt32} (h : bytes32 x = bytes32 y) : x = y := by
  simp only [bytes32, List.cons.injEq, and_true] at h
  rw [← word32_bytes32 x, ← word32_bytes32 y, h.1, h.2.1, h.2.2.1, h.2.2.2]

theorem bytes16_word16 (lo hi : UInt8) : bytes16 (word16 lo hi) = [lo, hi] := by
  have := lo.toNat_lt
  have := hi.toNat_lt
  simp only [bytes16, toNat_word16, List.cons.injEq, and_true]
  constructor <;> apply UInt8.toNat_inj.mp <;> rw [UInt8.toNat_ofNat'] <;> omega

theorem bytes32_word32 (b₀ b₁ b₂ b₃ : UInt8) : bytes32 (word32 b₀ b₁ b₂ b₃) = [b₀, b₁, b₂, b₃] := by
  have := b₀.toNat_lt
  have := b₁.toNat_lt
  have := b₂.toNat_lt
  have := b₃.toNat_lt
  simp only [bytes32, toNat_word32, List.cons.injEq, and_true]
  refine ⟨?_, ?_, ?_, ?_⟩ <;> apply UInt8.toNat_inj.mp <;> rw [UInt8.toNat_ofNat'] <;> omega

theorem toNat_swap16 (x : UInt16) : (swap16 x).toNat = x.toNat % 256 * 256 + x.toNat / 256 := by
  have := x.toNat_lt
  simp only [swap16, UInt16.toNat_ofNat']
  omega

theorem swap32_word32 (b₀ b₁ b₂ b₃ : UInt8) : swap32 (word32 b₀ b₁ b₂ b₃) = word32 b₃ b₂ b₁ b₀ := by
  have h := bytes32_word32 b₀ b₁ b₂ b₃
  simp only [bytes32, List.cons.injEq, and_true] at h
  rw [swap32, h.1, h.2.1, h.2.2.1, h.2.2.2]

@[simp] theorem swap32_swap32 (x : UInt32) : swap32 (swap32 x) = x := by
  rw [← word32_bytes32 x, swap32_word32, swap32_word32]

@[simp] theorem swap16_swap16 (x : UInt16) : swap16 (swap16 x) = x := by
  have := x.toNat_lt
  apply UInt16.toNat_inj.mp
  rw [toNat_swap16, toNat_swap16]
  omega

end LittleEndian

end G361FPlatform.Library
