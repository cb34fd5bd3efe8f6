import Mathlib.Data.List.Basic
import Mathlib.Logic.Function.Iterate

namespace G361FPlatform.Library.Crc

/-! A cyclic redundancy check whose register is shifted to the left, its polynomial without the highest term. -/

section

variable {w : Nat} (poly : BitVec w)

def shift (r : BitVec w) : BitVec w := if r.msb then (r <<< 1) ^^^ poly else r <<< 1

def place (c : BitVec 8) : BitVec w := c.setWidth w <<< (w - 8)

def feed (r : BitVec w) (c : BitVec 8) : BitVec w := Nat.iterate (shift poly) 8 (r ^^^ place c)

def run (r : BitVec w) (cs : List (BitVec 8)) : BitVec w := cs.foldl (feed poly) r

def word : List (BitVec 8) → BitVec w
  | [] => 0
  | c :: cs => place c ^^^ word cs >>> 8

def difference (x y : List (BitVec 8)) : List (BitVec 8) := List.zipWith (· ^^^ ·) x y

variable {poly}

theorem xor_left_cancel {a b c : BitVec w} (h : a ^^^ b = c) : a = b ^^^ c := by
  rw [← h, BitVec.xor_comm a b, ← BitVec.xor_assoc, BitVec.xor_self, BitVec.zero_xor]

theorem xor_eq_zero {a b : BitVec w} (h : a ^^^ b = 0) : a = b := by
  rw [xor_left_cancel h]
  exact BitVec.xor_zero

theorem shift_xor (a b : BitVec w) : shift poly (a ^^^ b) = shift poly a ^^^ shift poly b := by
  unfold shift
  rw [BitVec.msb_xor, BitVec.shiftLeft_xor_distrib]
  cases a.msb <;> cases b.msb
  · rfl
  · exact BitVec.xor_assoc _ _ _
  · change a <<< 1 ^^^ b <<< 1 ^^^ poly = a <<< 1 ^^^ poly ^^^ b <<< 1
    ac_rfl
  · change a <<< 1 ^^^ b <<< 1 = a <<< 1 ^^^ poly ^^^ (b <<< 1 ^^^ poly)
    rw [BitVec.xor_comm (b <<< 1), ← BitVec.xor_assoc, BitVec.xor_assoc (a <<< 1) poly poly, BitVec.xor_self,
      BitVec.xor_zero]

theorem iterate_shift_xor (n : Nat) (a b : BitVec w) :
    Nat.iterate (shift poly) n (a ^^^ b) = Nat.iterate (shift poly) n a ^^^ Nat.iterate (shift poly) n b := by
  induction n generalizing a b with
  | zero => rfl
  | succ n ih => rw [Function.iterate_succ_apply, shift_xor, ih]; rfl

theorem eq_zero_of_shift (hw : 0 < w) (hpoly : poly.getLsbD 0 = true) {d : BitVec w} (h : shift poly d = 0) :
    d = 0 := by
  have hmsb : d.msb = false := by
    cases hmsb : d.msb with
    | false => rfl
    | true =>
      have h0 := congrArg (fun r => BitVec.getLsbD r 0) h
      simp [shift, hmsb, hpoly] at h0
  apply BitVec.eq_of_getLsbD_eq
  intro i hi
  rw [shift, hmsb] at h
  by_cases hlast : i = w - 1
  · rw [BitVec.msb_eq_getLsbD_last] at hmsb
    rw [hlast, hmsb]
    simp
  · have hbit := congrArg (fun r => BitVec.getLsbD r (i + 1)) h
    simp only [Bool.false_eq_true, if_false, BitVec.getLsbD_shiftLeft, Nat.add_sub_cancel] at hbit
    simpa [show i + 1 < w by omega] using hbit

theorem shift_injective (hw : 0 < w) (hpoly : poly.getLsbD 0 = true) : Function.Injective (shift poly) := by
  intro a b h
  apply xor_eq_zero
  apply eq_zero_of_shift hw hpoly
  rw [shift_xor, h, BitVec.xor_self]
  rfl

theorem iterate_shift_of_clear (n : Nat) {x : BitVec w} (hx : ∀ i, w ≤ i + n → x.getLsbD i = false) :
    Nat.iterate (shift poly) n x = x <<< n := by
  induction n generalizing x with
  | zero => simp
  | succ n ih =>
    have hmsb : x.msb = false := by
      rw [BitVec.msb_eq_getLsbD_last]
      exact hx _ (by omega)
    have hshift : shift poly x = x <<< 1 := by simp [shift, hmsb]
    rw [Function.iterate_succ_apply, hshift, ih, ← BitVec.shiftLeft_add, Nat.add_comm 1 n]
    intro i hi
    by_cases h0 : i < 1
    · simp [h0]
    · rw [BitVec.getLsbD_shiftLeft, hx (i - 1) (by omega), Bool.and_false]

theorem word_low (cs : List (BitVec 8)) {i : Nat} (hi : i + 8 * cs.length < w) :
    (word cs : BitVec w).getLsbD i = false := by
  induction cs generalizing i with
  | nil => simp [word]
  | cons c cs ih =>
    rw [List.length_cons] at hi
    rw [word, BitVec.getLsbD_xor, BitVec.getLsbD_ushiftRight, ih (by omega), Bool.xor_false, place,
      BitVec.getLsbD_shiftLeft]
    simp [show i < w - 8 by omega]

theorem iterate_shift_word (cs : List (BitVec 8)) (hcs : 8 * cs.length + 8 ≤ w) :
    Nat.iterate (shift poly) 8 (word cs >>> 8) = word cs := by
  rw [iterate_shift_of_clear]
  · apply BitVec.eq_of_getLsbD_eq
    intro i hi
    rw [BitVec.getLsbD_shiftLeft, BitVec.getLsbD_ushiftRight]
    by_cases h8 : i < 8
    · rw [word_low cs (i := i) (by omega)]
      simp [h8]
    · simp [hi, h8, show 8 + (i - 8) = i by omega]
  · intro i hi
    rw [BitVec.getLsbD_ushiftRight]
    exact BitVec.getLsbD_of_ge _ _ (by omega)

theorem eq_word_of_run (hw : 0 < w) (hpoly : poly.getLsbD 0 = true) {cs : List (BitVec 8)} (hcs : 8 * cs.length ≤ w)
    {r : BitVec w} (h : run poly r cs = 0) : r = word cs := by
  induction cs generalizing r with
  | nil => exact h
  | cons c cs ih =>
    rw [List.length_cons] at hcs
    have hfeed : feed poly r c = word cs := ih (by omega) h
    rw [feed, ← @iterate_shift_word _ poly cs (by omega)] at hfeed
    have hxor := (shift_injective hw hpoly).iterate 8 hfeed
    rw [word, ← hxor, BitVec.xor_comm r, ← BitVec.xor_assoc, BitVec.xor_self, BitVec.zero_xor]

theorem eq_zero_of_word {cs : List (BitVec 8)} (hcs : 8 * cs.length ≤ w) (h : (word cs : BitVec w) = 0) :
    ∀ c ∈ cs, c = 0 := by
  induction cs with
  | nil => simp
  | cons c cs ih =>
    rw [List.length_cons] at hcs
    have hc : c = 0 := by
      apply BitVec.eq_of_getLsbD_eq
      intro i hi
      have hbit := congrArg (fun r => BitVec.getLsbD r (w - 8 + i)) h
      simp only [word, BitVec.getLsbD_xor, place, BitVec.getLsbD_shiftLeft, BitVec.getLsbD_ushiftRight] at hbit
      rw [BitVec.getLsbD_of_ge (word cs) _ (by omega)] at hbit
      simpa [show w - 8 + i < w by omega, show i < w by omega] using hbit
    refine List.forall_mem_cons.mpr ⟨hc, ih (by omega) ?_⟩
    apply BitVec.eq_of_getLsbD_eq
    intro i hi
    by_cases h8 : i < 8
    · rw [word_low cs (i := i) (by omega)]
      simp
    · have hbit := congrArg (fun r => BitVec.getLsbD r (i - 8)) h
      simp only [word, hc, place, BitVec.getLsbD_xor, BitVec.getLsbD_ushiftRight,
        show 8 + (i - 8) = i by omega] at hbit
      simpa using hbit

theorem feed_xor (r s : BitVec w) (c d : BitVec 8) :
    feed poly (r ^^^ s) (c ^^^ d) = feed poly r c ^^^ feed poly s d := by
  have hplace : (place (c ^^^ d) : BitVec w) = place c ^^^ place d := by
    rw [place, BitVec.setWidth_xor, BitVec.shiftLeft_xor_distrib]
    rfl
  rw [feed, feed, feed, ← iterate_shift_xor, hplace]
  congr 1
  ac_rfl

theorem run_difference {x y : List (BitVec 8)} (hlen : x.length = y.length) (r s : BitVec w) :
    run poly (r ^^^ s) (difference x y) = run poly r x ^^^ run poly s y := by
  induction x generalizing y r s with
  | nil =>
    cases y with
    | nil => rfl
    | cons d y => cases hlen
  | cons c x ih =>
    cases y with
    | nil => cases hlen
    | cons d y =>
      have hstep := ih (y := y) (Nat.succ.inj hlen) (feed poly r c) (feed poly s d)
      rw [← feed_xor] at hstep
      exact hstep

theorem feed_injective (hw : 0 < w) (hpoly : poly.getLsbD 0 = true) (c : BitVec 8) :
    Function.Injective (feed poly · c) := by
  intro r s h
  have hxor := (shift_injective hw hpoly).iterate 8 h
  rw [xor_left_cancel hxor, BitVec.xor_comm s, ← BitVec.xor_assoc, BitVec.xor_self, BitVec.zero_xor]

theorem run_injective (hw : 0 < w) (hpoly : poly.getLsbD 0 = true) (cs : List (BitVec 8)) :
    Function.Injective (run poly · cs) := by
  induction cs with
  | nil => exact fun _ _ h => h
  | cons c cs ih => exact fun _ _ h => feed_injective hw hpoly c (ih h)

theorem eq_of_difference {x y : List (BitVec 8)} (hlen : x.length = y.length) (h : ∀ c ∈ difference x y, c = 0) :
    x = y := by
  induction x generalizing y with
  | nil =>
    cases y with
    | nil => rfl
    | cons d y => cases hlen
  | cons c x ih =>
    cases y with
    | nil => cases hlen
    | cons d y =>
      obtain ⟨hc, hrest⟩ := List.forall_mem_cons.mp h
      rw [xor_eq_zero hc, ih (Nat.succ.inj hlen) hrest]

/-- Two messages that differ only in a stretch no longer than the register have different checks. -/
theorem run_ne_of_burst (hw : 0 < w) (hpoly : poly.getLsbD 0 = true) (r : BitVec w) (a b : List (BitVec 8))
    {x y : List (BitVec 8)} (hlen : x.length = y.length) (hx : 8 * x.length ≤ w) (hne : x ≠ y) :
    run poly r (a ++ x ++ b) ≠ run poly r (a ++ y ++ b) := by
  intro h
  simp only [run, List.foldl_append] at h
  have hxy : run poly (run poly r a) x = run poly (run poly r a) y := run_injective hw hpoly b h
  have hdiff : run poly 0 (difference x y) = 0 := by
    have := @run_difference _ poly _ _ hlen (run poly r a) (run poly r a)
    rwa [hxy, BitVec.xor_self, BitVec.xor_self] at this
  have hlen' : 8 * (difference x y).length ≤ w := by
    rw [difference, List.length_zipWith]
    omega
  exact hne (eq_of_difference hlen (eq_zero_of_word hlen' (eq_word_of_run hw hpoly hlen' hdiff).symm))

end

end G361FPlatform.Library.Crc
