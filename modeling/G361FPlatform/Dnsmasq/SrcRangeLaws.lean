import G361FPlatform.Library.Inet6
import G361FPlatform.Dnsmasq.Ipv6Forward
import G361FPlatform.Dnsmasq.Ra

namespace G361FPlatform.Dnsmasq

open Library CString Inet6

section Text

theorem bestRun_upper : ∀ a b c d : Bool, ∃ k, k ≤ 4 ∧
    bestRun [a, b, c, d, true, true, true, true] = some (k, 8 - k) ∧
    [a, b, c, d].drop k = List.replicate (4 - k) true := by
  decide

structure Upper (p : In6Addr) (gs : List Nat) : Prop where
  length_le : gs.length ≤ 4
  lt : ∀ g ∈ gs, g < 65536
  groups_eq : groups p = gs ++ List.replicate (8 - gs.length) 0
  text : inetNtop p = lead gs ++ (terminated gs ++ [58])

theorem toNat_mod_of_addr6part {p : In6Addr} (hp : addr6part p = 0) : p.toNat % 2 ^ 64 = 0 := by
  have h := congrArg BitVec.toNat hp
  rwa [addr6part, BitVec.toNat_setWidth] at h

theorem groups_upper {p : In6Addr} (hp : addr6part p = 0) :
    ∃ a b c d, groups p = [a, b, c, d] ++ List.replicate 4 0 ∧ ∀ g ∈ [a, b, c, d], g < 65536 := by
  have hlow := toNat_mod_of_addr6part hp
  refine ⟨p.toNat / 65536 ^ 7 % 65536, p.toNat / 65536 ^ 6 % 65536, p.toNat / 65536 ^ 5 % 65536,
    p.toNat / 65536 ^ 4 % 65536, ?_, ?_⟩
  · simp [groups, List.range, List.range.loop]
    omega
  · simp only [List.mem_cons, List.not_mem_nil, or_false, forall_eq_or_imp, forall_eq]
    omega

theorem exists_upper {p : In6Addr} (hp : addr6part p = 0) : ∃ gs, Upper p gs := by
  obtain ⟨a, b, c, d, hgroups, hlt⟩ := groups_upper hp
  obtain ⟨k, hk, hrun, hzero⟩ := bestRun_upper (a = 0) (b = 0) (c = 0) (d = 0)
  have hlen : ([a, b, c, d].take k).length = k := List.length_take_of_le hk
  have hrest : [a, b, c, d].drop k = List.replicate (4 - k) 0 := by
    refine List.eq_replicate_iff.mpr ⟨List.length_drop, fun g hg => ?_⟩
    have hmem : decide (g = 0) ∈ List.replicate (4 - k) true := by
      rw [← hzero]
      have := List.mem_map_of_mem (f := fun g => decide (g = 0)) hg
      rwa [List.map_drop] at this
    exact of_decide_eq_true (List.eq_of_mem_replicate hmem)
  have hsplit : groups p = [a, b, c, d].take k ++ List.replicate (8 - k) 0 := by
    have hcount : 4 - k + 4 = 8 - k := by omega
    calc
      groups p = ([a, b, c, d].take k ++ [a, b, c, d].drop k) ++ List.replicate 4 0 := by
        rw [List.take_append_drop, hgroups]
      _ = [a, b, c, d].take k ++ List.replicate (8 - k) 0 := by
        rw [hrest, List.append_assoc, List.replicate_append_replicate, hcount]
  refine ⟨[a, b, c, d].take k, ?_, fun g hg => hlt g (List.mem_of_mem_take hg), ?_, ?_⟩
  · rw [hlen]
    exact hk
  · rw [hlen]
    exact hsplit
  · have hflags : (groups p).map (fun g => decide (g = 0)) =
        [decide (a = 0), decide (b = 0), decide (c = 0), decide (d = 0), true, true, true, true] := by
      rw [hgroups]
      rfl
    have htake : (groups p).take k = [a, b, c, d].take k := by
      rw [hsplit, List.take_left' hlen]
    have hdrop : (groups p).drop (k + (8 - k)) = [] := by
      apply List.drop_eq_nil_of_le
      rw [hsplit, List.length_append, List.length_replicate, hlen]
    rw [inetNtop, hflags, hrun]
    dsimp only
    rw [if_neg (by omega), htake, hdrop, ← joined_append_colons]
    exact List.append_nil _

end Text

section Range

variable {p : In6Addr} {gs : List Nat}

theorem delLastColonOfPrefix_eq (h : Upper p gs) :
    delLastColonOfPrefix (inetNtop p) = decide (gs.length = 4) := by
  have hcount : (tokens 58 (inetNtop p)).countP (· ≠ []) = gs.length := by
    rw [h.text]
    cases hgs : gs with
    | nil => rfl
    | cons g rest =>
      rw [← hgs, lead, if_neg (hgs ▸ List.cons_ne_nil g rest), List.nil_append, tokens_terminated h.lt,
        List.countP_append, List.countP_eq_length.mpr, List.length_map]
      · rfl
      · intro t ht
        obtain ⟨g, hg, rfl⟩ := List.mem_map.mp ht
        exact decide_eq_true (hexText_ne_nil (h.lt g hg))
  rw [delLastColonOfPrefix, hcount]

theorem Upper.ofGroups_eq (h : Upper p gs) :
    ofGroups (gs ++ List.replicate (8 - gs.length) 0) = p := by
  rw [← h.groups_eq]
  exact ofGroups_groups p

theorem inetPton_lower (h : Upper p gs) : inetPton (lead gs ++ (terminated gs ++ [58])) = some p := by
  have hlen := h.length_le
  rw [inetPton_terminated h.lt (by omega) (List.cons_ne_nil _ _) fun _ => rfl, inetPtonLoop_gap, inetPtonLoop]
  change (Reader.finish ⟨gs, some gs.length, 0, 0⟩).map ofGroups = some p
  have hfinish : Reader.finish ⟨gs, some gs.length, 0, 0⟩ = some (gs ++ List.replicate (8 - gs.length) 0) := by
    have hfew : gs.length ≠ 8 := by omega
    simp [Reader.finish, hfew]
  rw [hfinish, Option.map_some, h.ofGroups_eq]

theorem inetPtonLoop_ones (hlen : gs.length ≤ 4) (colonp : Option Nat) :
    ∃ seen, seen ≠ 0 ∧ inetPtonLoop ("ffff:ffff:ffff:ffff" : CString) ("ffff:ffff:ffff:ffff" : CString)
      ⟨gs, colonp, 0, 0⟩ = some ⟨gs ++ [0xffff, 0xffff, 0xffff], colonp, seen, 0xffff⟩ := by
  have htext : ("ffff:ffff:ffff:ffff" : CString) = terminated [0xffff, 0xffff, 0xffff] ++ hexText 0xffff := by decide
  obtain ⟨seen, hseen, hread⟩ := inetPtonLoop_hexText (show 0xffff < 65536 by decide) (hexText 0xffff) []
    (gs ++ [0xffff, 0xffff, 0xffff]) colonp
  refine ⟨seen, hseen, ?_⟩
  rw [htext, inetPtonLoop_terminated (by decide) (hexText_ne_nil (by decide)) (by simp; omega)]
  rw [List.append_nil] at hread
  exact hread

theorem ofGroups_append_four (us : List Nat) (t : Nat) : ofGroups (us ++ List.replicate 4 t) =
    BitVec.ofNat 128 (us.foldl (fun n g => n * 65536 + g) 0 * 65536 ^ 4 +
      t * (65536 ^ 3 + 65536 ^ 2 + 65536 + 1)) := by
  unfold ofGroups
  rw [List.foldl_append]
  apply congrArg (BitVec.ofNat 128)
  simp only [List.replicate, List.foldl_cons, List.foldl_nil]
  omega

theorem ofGroups_ones (hp : addr6part p = 0) (h : Upper p gs) :
    ofGroups (gs ++ List.replicate (4 - gs.length) 0 ++ List.replicate 4 0xffff) =
      setaddr6part p (BitVec.allOnes 64) := by
  have hlow : ∀ i, i < 64 → p.getLsbD i = false := by
    intro i hi
    have hbit := congrArg (BitVec.getLsbD · i) hp
    simpa [addr6part, hi] using hbit
  have hkeep : p >>> 64 <<< 64 = p := by
    apply BitVec.eq_of_getLsbD_eq
    intro i hi
    by_cases hlt : i < 64
    · simp [hlt, hlow i hlt]
    · simp [hlt, hi, show 64 + (i - 64) = i by omega]
  have hdisjoint : p &&& (BitVec.allOnes 64).setWidth 128 = 0#128 := by
    apply BitVec.eq_of_getLsbD_eq
    intro i hi
    by_cases hlt : i < 64
    · rw [BitVec.getLsbD_and, hlow i hlt, Bool.false_and, BitVec.getLsbD_zero]
    · rw [BitVec.getLsbD_and, BitVec.getLsbD_setWidth, BitVec.getLsbD_allOnes, decide_eq_false hlt, Bool.and_false,
        Bool.and_false, BitVec.getLsbD_zero]
  have hpad : gs ++ List.replicate (8 - gs.length) 0 =
      gs ++ List.replicate (4 - gs.length) 0 ++ List.replicate 4 0 := by
    have hcount : 4 - gs.length + 4 = 8 - gs.length := by
      have := h.length_le
      omega
    rw [List.append_assoc, List.replicate_append_replicate, hcount]
  have hup := h.ofGroups_eq
  rw [hpad, ofGroups_append_four, Nat.zero_mul, Nat.add_zero] at hup
  calc
    ofGroups (gs ++ List.replicate (4 - gs.length) 0 ++ List.replicate 4 0xffff) =
      p + (BitVec.allOnes 64).setWidth 128 := by
      have hones : BitVec.ofNat 128 (0xffff * (65536 ^ 3 + 65536 ^ 2 + 65536 + 1)) =
          (BitVec.allOnes 64).setWidth 128 := by
        decide
      rw [ofGroups_append_four, BitVec.ofNat_add, hup, hones]
    _ = p ||| (BitVec.allOnes 64).setWidth 128 := BitVec.add_eq_or_of_and_eq_zero _ _ hdisjoint
    _ = setaddr6part p (BitVec.allOnes 64) := by rw [setaddr6part, hkeep]

theorem inetPton_upper_gap (hp : addr6part p = 0) (h : Upper p gs) (hlen : gs.length ≠ 4) :
    inetPton (lead gs ++ (terminated gs ++ 58 :: ("ffff:ffff:ffff:ffff" : CString))) =
      some (setaddr6part p (BitVec.allOnes 64)) := by
  have hle := h.length_le
  obtain ⟨seen, hseen, hread⟩ := inetPtonLoop_ones hle (some gs.length)
  rw [inetPton_terminated h.lt (by omega) (List.cons_ne_nil _ _) fun _ => rfl, inetPtonLoop_gap, hread]
  have hfinish : Reader.finish ⟨gs ++ [0xffff, 0xffff, 0xffff], some gs.length, seen, 0xffff⟩ =
      some (gs ++ List.replicate (4 - gs.length) 0 ++ List.replicate 4 0xffff) := by
    have hcount : 8 - (gs.length + 4) = 4 - gs.length := by omega
    simp [Reader.finish, hseen, hcount, show ¬8 < gs.length + 3 + 1 by omega, show gs.length + 4 ≠ 8 by omega]
  rw [Option.bind_some, hfinish, Option.map_some, ofGroups_ones hp h]

theorem inetPton_upper_full (hp : addr6part p = 0) (h : Upper p gs) (hlen : gs.length = 4) :
    inetPton (lead gs ++ (terminated gs ++ ("ffff:ffff:ffff:ffff" : CString))) =
      some (setaddr6part p (BitVec.allOnes 64)) := by
  obtain ⟨seen, hseen, hread⟩ := inetPtonLoop_ones h.length_le none
  have hne : gs ≠ [] := fun hnil => absurd hlen (by rw [hnil]; decide)
  rw [inetPton_terminated h.lt (by omega) (by decide) fun hnil => absurd hnil hne, hread]
  have hfinish : Reader.finish ⟨gs ++ [0xffff, 0xffff, 0xffff], none, seen, 0xffff⟩ =
      some (gs ++ List.replicate (4 - gs.length) 0 ++ List.replicate 4 0xffff) := by
    simp [Reader.finish, hseen, hlen]
  rw [Option.bind_some, hfinish, Option.map_some, ofGroups_ones hp h]

/-- The argument is two addresses with a dash between them. -/
def Denotes (src : CString) (first last : In6Addr) : Prop :=
  ∃ lower upper, strsep 45 src = (lower, some upper) ∧ inetPton lower = some first ∧ inetPton upper = some last

theorem notMem_lead (gs : List Nat) : 45 ∉ lead gs := by
  unfold lead
  split <;> decide

theorem srcRange_eq (h : Upper p gs) : srcRange inetNtop p =
    lead gs ++ (terminated gs ++ [58]) ++ 45 :: (lead gs ++ (terminated gs ++
      ((if gs.length = 4 then [] else [58]) ++ ("ffff:ffff:ffff:ffff" : CString)))) := by
  rw [srcRange, delLastColonOfPrefix_eq h, h.text]
  by_cases hlen : gs.length = 4
  · rw [if_pos (decide_eq_true hlen), if_pos hlen]
    have hdrop : (lead gs ++ (terminated gs ++ [58])).dropLast = lead gs ++ terminated gs := by
      rw [← List.append_assoc, List.dropLast_concat]
    dsimp only
    rw [hdrop]
    simp only [List.append_assoc]
    rfl
  · rw [if_neg (mt of_decide_eq_true hlen), if_neg hlen]
    simp only [List.append_assoc]
    rfl

end Range

section Commands

variable (tables : Tables κ)

def recorded : Tables (κ × List ChainCommand) := fun c k =>
  let done := tables c k.1
  (done.1, done.2, k.2 ++ [c])

def srcRanges (commands : List ChainCommand) : List CString := commands.filterMap fun c =>
  match c.rule with
  | .range _ _ src => some src
  | _ => none

theorem srcRanges_setForward (p : In6Addr) (inf outf : CString) (add : Bool) (k : κ) : ∃ n,
    srcRanges (setForwardFromIntToExt (recorded tables) inetNtop p inf outf add (k, [])).2.2 =
      List.replicate (n + 1) (srcRange inetNtop p) := by
  cases add
  · exact ⟨0, rfl⟩
  · unfold setForwardFromIntToExt recorded
    dsimp only
    by_cases hflushed : (tables ⟨.delete, .range inf outf (srcRange inetNtop p)⟩ k).1 = false
    · rw [if_pos rfl, if_pos hflushed]
      exact ⟨0, rfl⟩
    · rw [if_pos rfl, if_neg hflushed]
      -- the command that takes the other rule out has no range
      split
      · exact ⟨1, rfl⟩
      · exact ⟨1, rfl⟩

theorem srcRange_denotes {p : In6Addr} (hp : addr6part p = 0) :
    Denotes (srcRange inetNtop p) p (setaddr6part p (BitVec.allOnes 64)) := by
  obtain ⟨gs, h⟩ := exists_upper hp
  have hdash : 45 ∉ lead gs ++ (terminated gs ++ [58]) := by
    simp only [List.mem_append, not_or]
    exact ⟨notMem_lead gs, notMem_terminated h.lt, by decide⟩
  refine ⟨_, _, (srcRange_eq h ▸ strsep_append hdash _ :), inetPton_lower h, ?_⟩
  by_cases hlen : gs.length = 4
  · rw [if_pos hlen]
    exact inetPton_upper_full hp h hlen
  · rw [if_neg hlen]
    exact inetPton_upper_gap hp h hlen

/-- The argument is a range from the prefix to the prefix with 64 one bits, and the same one wherever it is used. -/
theorem setForwardFromIntToExt_srcRange (p : In6Addr) (hp : addr6part p = 0) (inf outf : CString)
    (add : Bool) (k : κ) :
    Denotes (srcRange inetNtop p) p (setaddr6part p (BitVec.allOnes 64)) ∧
      ∃ n, srcRanges (setForwardFromIntToExt (recorded tables) inetNtop p inf outf add (k, [])).2.2 =
        List.replicate (n + 1) (srcRange inetNtop p) :=
  ⟨srcRange_denotes hp, srcRanges_setForward tables p inf outf add k⟩

/-- 2001:db8:0:1::, where a colon is taken off the text. -/
theorem setForwardFromIntToExt_srcRange_four :
    Denotes (srcRange inetNtop 0x20010db8000000010000000000000000) 0x20010db8000000010000000000000000
        (setaddr6part 0x20010db8000000010000000000000000 (BitVec.allOnes 64)) ∧
      ∃ n, srcRanges (setForwardFromIntToExt (recorded fun _ k => (true, k)) inetNtop
          0x20010db8000000010000000000000000 ("wlan0" : CString) ("rmnet0" : CString) true ((), [])).2.2 =
        List.replicate (n + 1) (srcRange inetNtop 0x20010db8000000010000000000000000) :=
  setForwardFromIntToExt_srcRange _ _ rfl _ _ _ _

end Commands

end G361FPlatform.Dnsmasq
