import G361FPlatform.Dnsmasq.RaLaws

namespace G361FPlatform.Dnsmasq

open Library

/-- The prefix has the high bits of the address and no host bits, and no shift was as wide as its
operand. -/
structure ClearsHost (plen : Nat) (a addr : In6Addr) : Prop where
  defined : plen ≠ 64 → 128 - plen < 64
  high : ∀ i, 128 - plen ≤ i → addr.getLsbD i = a.getLsbD i
  low : ∀ i, i < 128 - plen → addr.getLsbD i = false

theorem getLsbD_ones {n : Nat} (hn : n < 64) (i : Nat) :
    ((1 : BitVec 64) <<< n - 1).getLsbD i = decide (i < n) := by
  have hpow : 2 ^ n < 2 ^ 64 := Nat.pow_lt_pow_right (by decide) hn
  have hnat : ((1 : BitVec 64) <<< n - 1).toNat = 2 ^ n - 1 := by
    have hpos : 0 < 2 ^ n := Nat.two_pow_pos n
    rw [BitVec.toNat_sub, BitVec.toNat_shiftLeft, Nat.shiftLeft_eq, show (1 : BitVec 64).toNat = 1 from rfl]
    omega
  rw [BitVec.getLsbD, hnat, Nat.testBit_two_pow_sub_one]

section

variable (wild : Nat → BitVec 64) {plen : Nat} (a : In6Addr)

theorem zeroHost_high {i : Nat} (hi : 64 ≤ i) : (zeroHost wild plen a).getLsbD i = a.getLsbD i := by
  have hsame : 64 + (i - 64) = i := by omega
  by_cases hlt : i < 128
  · simp [zeroHost, setaddr6part, hi, hlt, hsame, Nat.not_lt.mpr hi]
  · rw [BitVec.getLsbD_of_ge _ _ (Nat.not_lt.mp hlt), BitVec.getLsbD_of_ge _ _ (Nat.not_lt.mp hlt)]

theorem zeroHost_low {i : Nat} (hi : i < 64) :
    (zeroHost wild plen a).getLsbD i = (a.getLsbD i && !(hostMask wild plen).getLsbD i) := by
  simp [zeroHost, setaddr6part, addr6part, hi, Nat.lt_of_lt_of_le hi (show 64 ≤ 128 by decide)]

theorem getLsbD_hostMask (hplen : 64 ≤ plen) (i : Nat) :
    (hostMask wild plen).getLsbD i = decide (i < 128 - plen) := by
  unfold hostMask
  split
  next h =>
    rw [show (-1 : BitVec 64) = BitVec.allOnes 64 from rfl, BitVec.getLsbD_allOnes, h]
  next h => rw [if_pos (by omega), getLsbD_ones (by omega)]

theorem clearsHost_iff (hplen : plen ≤ 128) :
    ClearsHost plen a (zeroHost wild plen a) ↔ 64 ≤ plen := by
  refine ⟨fun h => ?_, fun h => ⟨fun _ => by omega, fun i hi => ?_, fun i hi => ?_⟩⟩
  · by_cases heq : plen = 64
    · omega
    · have := h.defined heq
      omega
  · rcases Nat.lt_or_ge i 64 with hlow | hhigh
    · rw [zeroHost_low wild a hlow, getLsbD_hostMask wild h, decide_eq_false (Nat.not_lt.mpr hi),
        Bool.not_false, Bool.and_true]
    · exact zeroHost_high wild a hhigh
  · have hlow : i < 64 := by omega
    rw [zeroHost_low wild a hlow, getLsbD_hostMask wild h, decide_eq_true hi, Bool.not_true, Bool.and_false]

end

theorem addPrefixes_addr {wild : Nat → BitVec 64} {optRa : Bool} {a : IfAddr} {r : Advert} {opt : PrefixOpt}
    (h : (addPrefixes wild optRa a r).options = r.options ++ [.prefixInfo opt]) :
    opt.addr = zeroHost wild a.plen (if r.globals.gDeprecate then r.globals.lastPrefix else a.addr) := by
  have hnone : r.options ≠ r.options ++ [.prefixInfo opt] := fun heq => by
    have := congrArg List.length heq
    rw [List.length_append, List.length_singleton] at this
    omega
  unfold addPrefixes at h
  split at h
  · exact absurd h hnone
  next name hname =>
    dsimp only at h
    have hvisited := visitContexts_eq r.globals optRa r.contexts
      ⟨false, false, false, 0xffffffff, a.addr, { r.param with
      linkLocal := if a.ifIndex = r.param.ind ∧ a.addr.isLinkLocal then a.addr else r.param.linkLocal }⟩
    generalize visitContexts r.globals optRa r.contexts _ = visited at h hvisited
    split at h
    swap
    · exact absurd h hnone
    split at h
    swap
    · exact absurd h hnone
    next hprefix =>
      cases List.append_cancel_left h
      change zeroHost wild a.plen _ = _
      rw [hvisited.doPrefix, Bool.false_or] at hprefix
      have hused : r.contexts.any (·.used optRa) = true := by
        obtain ⟨c, hc, hfresh⟩ := List.any_eq_true.mp hprefix
        exact List.any_eq_true.mpr ⟨c, hc, (Bool.and_eq_true_iff.mp hfresh).1⟩
      rw [hvisited.addr, hused, Bool.and_true]

/-- The prefix in an option has its host bits cleared exactly where it is no shorter than 64. -/
theorem addPrefixes_clearsHost_iff {wild : Nat → BitVec 64} {optRa : Bool} {a : IfAddr} {r : Advert}
    {opt : PrefixOpt} (hplen : 1 ≤ a.plen ∧ a.plen ≤ 128)
    (hopt : (addPrefixes wild optRa a r).options = r.options ++ [.prefixInfo opt]) :
    ClearsHost a.plen (if r.globals.gDeprecate then r.globals.lastPrefix else a.addr) opt.addr ↔
      64 ≤ a.plen := by
  rw [addPrefixes_addr hopt]
  exact clearsHost_iff wild _ hplen.2

def upstreamAdvert : Advert :=
  ⟨⟨0, 0, ("rmnet0" : CString), false⟩, [⟨true, false, false, false, false, false, 3600, 0, none, true⟩],
    ⟨3, false, false, false, true, [], 0⟩, []⟩

def upstreamAddr (plen : Nat) : IfAddr :=
  ⟨0x20010db8000100020000000000000001, plen, 7, some ("rmnet0" : CString)⟩

theorem addPrefixes_clearsHost_iff_upstream : ∃ opt,
    (addPrefixes (fun _ => 0) false (upstreamAddr 80) upstreamAdvert).options =
        upstreamAdvert.options ++ [.prefixInfo opt] ∧
      (ClearsHost 80 (upstreamAddr 80).addr opt.addr ↔ 64 ≤ (upstreamAddr 80).plen) :=
  ⟨_, rfl, addPrefixes_clearsHost_iff (a := upstreamAddr 80) (r := upstreamAdvert) (by decide) rfl⟩

/-- With /48 the 2 of the fourth group stays, whatever the shift by 80 gives. -/
theorem not_addPrefixes_clearsHost : ¬∃ wild : Nat → BitVec 64, ∀ opt,
    (addPrefixes wild false (upstreamAddr 48) upstreamAdvert).options =
        upstreamAdvert.options ++ [.prefixInfo opt] →
      ClearsHost 48 (upstreamAddr 48).addr opt.addr := by
  rintro ⟨wild, h⟩
  have hhigh : (zeroHost wild 48 (upstreamAddr 48).addr).getLsbD 65 = true := by
    rw [zeroHost_high wild _ (by decide)]
    rfl
  have hlow : (zeroHost wild 48 (upstreamAddr 48).addr).getLsbD 65 = false := (h _ rfl).low 65 (by decide)
  rw [hhigh] at hlow
  cases hlow

end G361FPlatform.Dnsmasq
