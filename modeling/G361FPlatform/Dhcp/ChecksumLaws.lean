import G361FPlatform.Dhcp.PacketLaws

namespace G361FPlatform.Dhcp

open Library OnesComplement

def sums : List UInt8 → Nat → List Nat
  | lo :: hi :: rest, sum => sum :: sums rest ((sum + (lo.toNat + 256 * hi.toNat)) % 2 ^ 32)
  | [lo], sum => [sum, (sum + lo.toNat) % 2 ^ 32]
  | [], sum => [sum]

/-- No addition of the two loops wraps: `sum` goes through the sums in ℕ. -/
def NoWrap (bs : List UInt8) (sum : Nat) : Prop := sums bs sum = (words bs).scanl (· + ·) sum

theorem noWrap_of_sum_lt {bs : List UInt8} {sum : Nat} (h : sum + (words bs).sum < 2 ^ 32) :
    NoWrap bs sum := by
  induction bs, sum using addWords.induct with
  | case1 lo hi rest sum ih =>
    rw [words, List.sum_cons] at h
    have hlt : sum + (lo.toNat + 256 * hi.toNat) < 2 ^ 32 := by omega
    rw [Nat.mod_eq_of_lt hlt] at ih
    rw [NoWrap, sums, Nat.mod_eq_of_lt hlt, words, List.scanl_cons, ih (by omega)]
  | case2 lo sum =>
    rw [words, List.sum_singleton] at h
    rw [NoWrap, sums, Nat.mod_eq_of_lt h]
    rfl
  | case3 sum => rfl

theorem noWrap_of_length_le {bs : List UInt8} (hlen : bs.length ≤ 65536) {sum : Nat} (hsum : sum ≤ 65535) :
    NoWrap bs sum := by
  have hle := sum_words_le bs
  exact noWrap_of_sum_lt (by omega)

theorem checksum_le (bs : List UInt8) (sum : Nat) : checksum bs sum ≤ 65535 := fold_le _

theorem checksum_append {a b : List UInt8} (heven : a.length % 2 = 0) (hlen : a.length + b.length ≤ 65536)
    {sum : Nat} (hsum : sum ≤ 65535) : checksum b (checksum a sum) = checksum (a ++ b) sum := by
  calc checksum b (checksum a sum)
    _ = checksum b (fold (sum + (words a).sum)) := by rw [checksum_eq (by omega) hsum]
    _ = fold (sum + (words a).sum + (words b).sum) := checksum_fold (by omega) _
    _ = fold (sum + (words (a ++ b)).sum) := by
        rw [words_append heven, List.sum_append, Nat.add_assoc]
    _ = checksum (a ++ b) sum := by
        rw [checksum_eq (by rw [List.length_append]; exact hlen) hsum]

theorem checksum_eq_foldl_add {bs : List UInt8} (hlen : bs.length ≤ 65536) {sum : Nat} (hsum : sum ≤ 65535) :
    checksum bs sum = (words bs).foldl OnesComplement.add sum := by
  rw [checksum_eq hlen hsum, fold_add_sum words_le hsum]

theorem checksum_eq_zero {bs : List UInt8} (hlen : bs.length ≤ 65536) {sum : Nat} (hsum : sum ≤ 65535) :
    checksum bs sum = 0 ↔ sum = 0 ∧ ∀ w ∈ words bs, w = 0 := by
  rw [checksum_eq hlen hsum, fold_eq_zero, Nat.add_eq_zero_iff, List.sum_eq_zero_iff_forall_eq_nat]

theorem addWords_lt (bs : List UInt8) {sum : Nat} (h : sum < 2 ^ 32) : addWords bs sum < 2 ^ 32 := by
  induction bs, sum using addWords.induct with
  | case1 lo hi rest sum ih => exact ih (Nat.mod_lt _ (by decide))
  | case2 lo sum => exact Nat.mod_lt _ (by decide)
  | case3 sum => exact h

/-- `send_packet` may sum up its pieces one after another: neither the sums of the words nor the
rounds of the folding loop wrap, the loop is over after two rounds, and its value is the
ones' complement sum. -/
theorem checksum_composes {a b : List UInt8} (heven : a.length % 2 = 0)
    (hlen : a.length + b.length ≤ 65536) {s : Nat} (hs : s ≤ 65535) :
    checksum b (checksum a s) = checksum (a ++ b) s ∧
      NoWrap a s ∧ NoWrap b (checksum a s) ∧ NoWrap (a ++ b) s ∧
      (∃ k ≤ 2, foldStep^[k] (addWords (a ++ b) s) = checksum (a ++ b) s ∧
        ∀ i < k, foldStep^[i] (addWords (a ++ b) s) / 65536 ≠ 0) ∧
      (∀ i, foldStep^[i] (addWords (a ++ b) s) < 2 ^ 32) ∧
      checksum (a ++ b) s ≤ 65535 ∧
      checksum (a ++ b) s = (words (a ++ b)).foldl OnesComplement.add s ∧
      (checksum (a ++ b) s = 0 → s = 0 ∧ ∀ w ∈ words (a ++ b), w = 0) := by
  have hall : (a ++ b).length ≤ 65536 := by
    rw [List.length_append]
    exact hlen
  have hs32 : s < 2 ^ 32 := by omega
  refine ⟨checksum_append heven hlen hs, noWrap_of_length_le (by omega) hs,
    noWrap_of_length_le (by omega) (checksum_le a s), noWrap_of_length_le hall hs,
    exists_foldStep (addWords_lt _ hs32), iterate_foldStep_lt (addWords_lt _ hs32), checksum_le _ s,
    checksum_eq_foldl_add hall hs, (checksum_eq_zero hall hs).mp⟩

/-- Two carries, and an odd tail. -/
theorem checksum_composes_carries :
    checksum [0xff] (checksum [0xff, 0xff, 0x01, 0x00] 0xffff) =
        checksum ([0xff, 0xff, 0x01, 0x00] ++ [0xff]) 0xffff :=
  (checksum_composes (by decide) (by decide) (by decide)).1

end G361FPlatform.Dhcp
