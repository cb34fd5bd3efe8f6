import Mathlib.Data.List.TakeWhile
import G361FPlatform.Dhcp.Netmask
import G361FPlatform.Library.TopBits

namespace G361FPlatform.Dhcp

open Library LittleEndian TopBits

theorem inetPart_decimal (b : UInt8) : inetPart (decimal b) = some b.toNat ∧ 46 ∉ decimal b := by
  have hall : ∀ n : Fin 256, inetPart (decimal (UInt8.ofNat n)) = some n.val ∧ 46 ∉ decimal (UInt8.ofNat n) := by
    decide +kernel
  have hb := hall ⟨b.toNat, b.toNat_lt⟩
  rwa [UInt8.ofNat_toNat] at hb

theorem notSpace_decimal (b : UInt8) : ∀ c ∈ decimal b, (!CString.isSpace c) = true := by
  have hall : ∀ n : Fin 256, (decimal (UInt8.ofNat n)).all fun c => !CString.isSpace c := by decide +kernel
  have hb := hall ⟨b.toNat, b.toNat_lt⟩
  rw [UInt8.ofNat_toNat] at hb
  exact List.all_eq_true.mp hb

theorem inetAddr_dottedForm (addr : UInt32) : inetAddr (dottedForm addr) = addr := by
  obtain ⟨a, b, c, d, hbytes⟩ : ∃ a b c d, bytes32 addr = [a, b, c, d] := ⟨_, _, _, _, rfl⟩
  have ha := a.toNat_lt
  have hb := b.toNat_lt
  have hc := c.toNat_lt
  have hd := d.toNat_lt
  have hform : dottedForm addr = decimal a ++ 46 :: (decimal b ++ 46 :: (decimal c ++ 46 :: decimal d)) := by
    rw [dottedForm, hbytes]
  have hspace : (dottedForm addr).takeWhile (fun c => !CString.isSpace c) = dottedForm addr := by
    refine List.takeWhile_eq_self_iff.mpr fun x hx => ?_
    simp only [hform, List.mem_append, List.mem_cons] at hx
    rcases hx with hx | rfl | hx | rfl | hx | rfl | hx
    · exact notSpace_decimal a x hx
    · rfl
    · exact notSpace_decimal b x hx
    · rfl
    · exact notSpace_decimal c x hx
    · rfl
    · exact notSpace_decimal d x hx
  have htokens : CString.tokens 46 (dottedForm addr) = [decimal a, decimal b, decimal c, decimal d] := by
    rw [hform, CString.tokens_append (inetPart_decimal a).2, CString.tokens_append (inetPart_decimal b).2,
      CString.tokens_append (inetPart_decimal c).2, CString.tokens_of_notMem (inetPart_decimal d).2]
  have hparts : [decimal a, decimal b, decimal c, decimal d].mapM inetPart =
      some [a.toNat, b.toNat, c.toNat, d.toNat] := by
    simp [(inetPart_decimal a).1, (inetPart_decimal b).1, (inetPart_decimal c).1, (inetPart_decimal d).1]
  have hword : word32 a b c d = addr := bytes32_inj ((bytes32_word32 a b c d).trans hbytes.symm)
  rw [inetAddr, hspace, htokens, hparts, Option.bind_some, inetWord, if_pos ⟨ha, hb, hc, hd⟩]
  have hhost : UInt32.ofNat (a.toNat * 2 ^ 24 + b.toNat * 2 ^ 16 + c.toNat * 2 ^ 8 + d.toNat) =
      word32 d c b a := by
    rw [word32]
    congr 1
    omega
  dsimp only
  rw [hhost, swap32_word32, hword]

theorem maskLoop_top {k : Nat} (p : Nat) (h : p + k ≤ 32) : maskLoop (top 32 k) p = some (p + k) := by
  induction k generalizing p with
  | zero =>
    rw [maskLoop, top_zero, if_pos rfl, ite_self, Nat.add_zero]
  | succ k ih =>
    have htwo := two_mul_top (show k < 32 by omega)
    have hlt := top_lt 32 k
    have hlt' := top_lt 32 (k + 1)
    rw [maskLoop, if_neg (by omega), if_neg (by omega), if_neg (by omega),
      show 2 * top 32 (k + 1) % 2 ^ 32 = top 32 k by omega, ih (p + 1) (by omega)]
    congr 1
    omega

theorem eq_top_of_maskLoop {m p q : Nat} (h : maskLoop m p = some q) (hm : m < 2 ^ 32) (hp : p ≤ 32)
    (hdvd : 2 ^ p ∣ m) : ∃ k, p + k ≤ 32 ∧ m = top 32 k := by
  fun_induction maskLoop m p with
  | case1 m p hend =>
    have hp32 : p = 32 := by omega
    subst hp32
    exact ⟨0, by omega, by rw [top_zero, Nat.eq_zero_of_dvd_of_lt hdvd hm]⟩
  | case2 p hend => exact ⟨0, hp, by rw [top_zero]⟩
  | case3 m p hend hzero hbit => cases h
  | case4 m p hend hzero hbit ih =>
    have hdvd' : 2 ^ (p + 1) ∣ 2 * m % 2 ^ 32 := by
      rw [Nat.dvd_mod_iff (Nat.pow_dvd_pow 2 (by omega)), Nat.pow_succ']
      exact Nat.mul_dvd_mul_left 2 hdvd
    obtain ⟨k, hk, hm'⟩ := ih h (Nat.mod_lt _ (by decide)) (by omega) hdvd'
    have htwo := two_mul_top (show k < 32 by omega)
    exact ⟨k + 1, by omega, by omega⟩

theorem prefixLoop_top {k : Nat} (n : Nat) (h : k ≤ 32) : prefixLoop (top 32 k) n = n + k := by
  induction k generalizing n with
  | zero => rw [prefixLoop, top_zero, if_neg (by decide), Nat.add_zero]
  | succ k ih =>
    have htwo := two_mul_top (show k < 32 by omega)
    have hlt := top_lt 32 k
    have hlt' := top_lt 32 (k + 1)
    rw [prefixLoop, if_pos (by omega), show 2 * top 32 (k + 1) % 2 ^ 32 = top 32 k by omega,
      ih (n + 1) (by omega)]
    omega

theorem prefixLengthToIpv4Netmask_eq {k : Nat} (h : k ≤ 32) :
    prefixLengthToIpv4Netmask k = swap32 (UInt32.ofNat (top 32 k)) := by
  unfold prefixLengthToIpv4Netmask
  by_cases hzero : k = 0
  · subst hzero
    rw [if_pos (.inl (by decide)), top_zero]
    decide
  · have hpos := Nat.two_pow_pos (32 - k)
    have hle : 2 ^ (32 - k) ≤ 2 ^ 32 := Nat.pow_le_pow_right (by decide) (Nat.sub_le 32 k)
    rw [if_neg (by omega), Int.toNat_natCast, top]
    congr 2
    omega

theorem fillPrefixLength_dottedForm (mask : UInt32) : fillPrefixLength (dottedForm mask) =
    match maskLoop (swap32 mask).toNat 0 with
    | none => .error (maskError (dottedForm mask))
    | some p => .ok p := by
  rw [fillPrefixLength, inetAddr_dottedForm]
  refine if_neg fun ⟨hnone, hne⟩ => hne ?_
  have hmask : mask = INADDR_NONE := by
    rw [← swap32_swap32 mask, hnone]
    decide
  rw [hmask]
  decide

/-- The three netmask conversions agree: which masks are accepted, and as what. -/
theorem netmask_agrees (mask : UInt32) :
    ((∃ p, fillPrefixLength (dottedForm mask) = .ok p) ↔ IsPrefix 32 (swap32 mask).toNat) ∧
      ∀ p, fillPrefixLength (dottedForm mask) = .ok p →
        p ≤ 32 ∧ p = ipv4NetmaskToPrefixLength mask ∧ prefixLengthToIpv4Netmask p = mask := by
  have hlt := (swap32 mask).toNat_lt
  have htop : ∀ p, fillPrefixLength (dottedForm mask) = .ok p ↔ p ≤ 32 ∧ (swap32 mask).toNat = top 32 p := by
    intro p
    rw [fillPrefixLength_dottedForm]
    constructor
    · intro h
      cases hloop : maskLoop (swap32 mask).toNat 0 with
      | none =>
        rw [hloop] at h
        cases h
      | some q =>
        obtain ⟨k, hk, hm⟩ := eq_top_of_maskLoop hloop hlt (by decide) (one_dvd _)
        rw [hm, maskLoop_top 0 hk] at h
        cases h
        rw [Nat.zero_add] at hk ⊢
        exact ⟨hk, hm⟩
    · rintro ⟨hp, hm⟩
      rw [hm, maskLoop_top 0 (by omega), Nat.zero_add]
  constructor
  · rw [isPrefix_iff hlt]
    exact exists_congr htop
  · intro p h
    obtain ⟨hp, hm⟩ := (htop p).mp h
    refine ⟨hp, ?_, ?_⟩
    · rw [ipv4NetmaskToPrefixLength, hm, prefixLoop_top 0 hp, Nat.zero_add]
    · rw [prefixLengthToIpv4Netmask_eq hp, ← hm, UInt32.ofNat_toNat, swap32_swap32]

end G361FPlatform.Dhcp
