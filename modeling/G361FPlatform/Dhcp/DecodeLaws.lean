import G361FPlatform.Dhcp.Decode
import G361FPlatform.Dhcp.ReceiveLaws

namespace G361FPlatform.Dhcp

open Library LittleEndian

theorem read32_append {x : List UInt8} (h : 4 ≤ x.length) (rest : List UInt8) :
    read32 (x ++ rest) = read32 x := by
  match x, h with
  | b₀ :: b₁ :: b₂ :: b₃ :: x, _ => rfl

theorem decodeOption_append {opt optlen : UInt8} {x : List UInt8} (h : optlen.toNat ≤ x.length)
    (hpos : 0 < x.length) (rest : List UInt8) (info : DhcpInfo) :
    decodeOption opt optlen (x ++ rest) info = decodeOption opt optlen x info := by
  have hle : ∀ n : Nat, n < 256 → UInt8.ofNat n ≤ optlen → n ≤ x.length := by
    intro n hn hoptlen
    have := UInt8.le_iff_toNat_le.mp hoptlen
    rw [UInt8.toNat_ofNat'] at this
    omega
  have h₀ : 4 ≤ optlen → read32 (x ++ rest) = read32 x :=
    fun h₄ => read32_append (hle 4 (by decide) h₄) rest
  have h₄ : 8 ≤ optlen → read32 ((x ++ rest).drop 4) = read32 (x.drop 4) := by
    intro h₈
    have hx := hle 8 (by decide) h₈
    rw [List.drop_append_of_le_length (by omega)]
    exact read32_append (by rw [List.length_drop]; omega) rest
  obtain ⟨b, x, rfl⟩ := List.exists_cons_of_length_pos hpos
  rw [List.cons_append] at h₀ h₄ ⊢
  unfold decodeOption
  by_cases h4 : 4 ≤ optlen
  · by_cases h8 : 8 ≤ optlen
    · simp only [h4, h8, if_true, h₀ h4, h₄ h8]
    · simp only [h4, h8, if_true, if_false, h₀ h4]
  · by_cases h8 : 8 ≤ optlen
    · simp only [h4, h8, if_true, if_false, h₄ h8]
    · simp only [h4, h8, if_false]

theorem decodeOptions_append (len : Nat) {x : List UInt8} (h : x.length = len) (rest : List UInt8)
    (info : DhcpInfo) : decodeOptions (x ++ rest) len info = decodeOptions x len info := by
  induction len using Nat.strong_induction_on generalizing x info with
  | _ len ih =>
    unfold decodeOptions
    by_cases hlen : len ≤ 2
    · rw [if_pos hlen, if_pos hlen]
    rw [if_neg hlen, if_neg hlen]
    obtain ⟨opt, x, rfl⟩ := List.exists_cons_of_length_pos (show 0 < x.length by omega)
    rw [List.length_cons] at h
    obtain ⟨optlen, x, rfl⟩ := List.exists_cons_of_length_pos (show 0 < x.length by omega)
    have hlen' := h
    rw [List.length_cons] at hlen'
    simp only [List.cons_append]
    split
    · exact ih (len - 1) (by omega) (x := optlen :: x) (by omega) info
    · split
      · rfl
      · split
        · rfl
        next hfits =>
          rw [decodeOption_append (by omega) (by omega)]
          congr 1
          funext info'
          rw [List.drop_append_of_le_length (by omega)]
          exact ih _ (by omega) (by rw [List.length_drop]; omega) info'

/-- Two messages with the same first `r` bytes, as far as a client looks at them. -/
structure SameUpTo (r : Nat) (m m' : DhcpMsg) : Prop where
  op : DHCP_MSG_FIXED_SIZE ≤ r → m'.op = m.op
  htype : DHCP_MSG_FIXED_SIZE ≤ r → m'.htype = m.htype
  hlen : DHCP_MSG_FIXED_SIZE ≤ r → m'.hlen = m.hlen
  xid : DHCP_MSG_FIXED_SIZE ≤ r → m'.xid = m.xid
  yiaddr : DHCP_MSG_FIXED_SIZE ≤ r → m'.yiaddr = m.yiaddr
  chaddr : DHCP_MSG_FIXED_SIZE ≤ r → m'.chaddr = m.chaddr
  options : m'.options.toList.take (r - DHCP_MSG_FIXED_SIZE) =
    m.options.toList.take (r - DHCP_MSG_FIXED_SIZE)

namespace SameUpTo

variable {m m' : DhcpMsg} {r : Nat}

theorem isValidReply (h : SameUpTo r m m') (asked : DhcpMsg) :
    isValidReply asked m' r = isValidReply asked m r := by
  unfold Dhcp.isValidReply
  by_cases hr : r < DHCP_MSG_FIXED_SIZE
  · rw [if_pos hr, if_pos hr]
  · have hle := Nat.not_lt.mp hr
    rw [h.op hle, h.htype hle, h.hlen hle, h.xid hle, h.chaddr hle]

theorem dump (h : SameUpTo r m m') : SameUpTo r (dumpDhcpMsg m r) (dumpDhcpMsg m' r) := by
  unfold dumpDhcpMsg
  split
  · exact h
  · exact ⟨h.op, h.htype, h.hlen, h.xid, h.yiaddr, h.chaddr, h.options⟩

theorem getElem_options (h : SameUpTo r m m') {i : Nat} (hi : i < 1024)
    (hr : DHCP_MSG_FIXED_SIZE + i < r) : m'.options[i] = m.options[i] := by
  have heq := congrArg (·[i]?) h.options
  simp only [List.getElem?_take, show i < r - DHCP_MSG_FIXED_SIZE by omega, if_true,
    Vector.getElem?_toList] at heq
  simpa [hi] using heq

theorem decodeDhcpMsg (h : SameUpTo r m m') (hr : r ≤ DHCP_MSG_SIZE) :
    decodeDhcpMsg m' r = decodeDhcpMsg m r := by
  unfold Dhcp.decodeDhcpMsg
  by_cases hshort : r < DHCP_MSG_FIXED_SIZE + 4
  · rw [if_pos hshort, if_pos hshort]
  have hopts : ∀ x : DhcpMsg, decodeOptions (x.options.toList.drop 4)
      (r - (DHCP_MSG_FIXED_SIZE + 4)) .zero =
      decodeOptions ((x.options.toList.take (r - DHCP_MSG_FIXED_SIZE)).drop 4)
        (r - (DHCP_MSG_FIXED_SIZE + 4)) .zero := by
    intro x
    have hsize : DHCP_MSG_SIZE = DHCP_MSG_FIXED_SIZE + 1024 := rfl
    conv_lhs => rw [← List.take_append_drop (r - DHCP_MSG_FIXED_SIZE) x.options.toList]
    have hlen : (x.options.toList.take (r - DHCP_MSG_FIXED_SIZE)).length = r - DHCP_MSG_FIXED_SIZE := by
      rw [List.length_take, Vector.length_toList]
      omega
    rw [List.drop_append_of_le_length (by omega)]
    exact decodeOptions_append _ (by rw [List.length_drop]; omega) _ _
  rw [if_neg hshort, if_neg hshort, h.getElem_options (i := 0) (by decide) (by omega),
    h.getElem_options (i := 1) (by decide) (by omega), h.getElem_options (i := 2) (by decide) (by omega),
    h.getElem_options (i := 3) (by decide) (by omega), hopts m', hopts m, h.options,
    h.yiaddr (by omega)]

end SameUpTo

theorem getD_append_left {data rest : List UInt8} {i : Nat} (h : i < data.length) :
    (data ++ rest).getD i 0 = data.getD i 0 := by
  rw [List.getD_eq_getElem?_getD, List.getD_eq_getElem?_getD, List.getElem?_append_left h]

theorem word32At_append_left {data rest : List UInt8} {i : Nat} (h : i + 3 < data.length) :
    word32At i (data ++ rest) = word32At i data := by
  rw [word32At, getD_append_left (by omega), getD_append_left (by omega), getD_append_left (by omega),
    getD_append_left h, word32At]

theorem field_append_left {data rest : List UInt8} {n i : Nat} (h : i + n ≤ data.length) :
    field n i (data ++ rest) = field n i data := by
  apply Vector.ext
  intro j hj
  simp only [field, Vector.getElem_ofFn]
  exact getD_append_left (by omega)

theorem sameUpTo_copyFrom {data : List UInt8} (h : data.length ≤ DHCP_MSG_SIZE) (m m' : DhcpMsg) :
    SameUpTo data.length (m.copyFrom data) (m'.copyFrom data) := by
  have hfixed : ∀ x : DhcpMsg, DHCP_MSG_FIXED_SIZE ≤ data.length →
      (x.copyFrom data).op = data.getD 0 0 ∧ (x.copyFrom data).htype = data.getD 1 0 ∧
        (x.copyFrom data).hlen = data.getD 2 0 ∧ (x.copyFrom data).xid = word32At 4 data ∧
          (x.copyFrom data).yiaddr = word32At 16 data ∧ (x.copyFrom data).chaddr = field 16 28 data := by
    intro x hlen
    have hlen' : 236 ≤ data.length := hlen
    exact ⟨getD_append_left (by omega), getD_append_left (by omega), getD_append_left (by omega),
      word32At_append_left (by omega), word32At_append_left (by omega), field_append_left (by omega)⟩
  have hoptions : ∀ x : DhcpMsg, (x.copyFrom data).options.toList.take
      (data.length - DHCP_MSG_FIXED_SIZE) = data.drop DHCP_MSG_FIXED_SIZE := by
    intro x
    have hsize : DHCP_MSG_SIZE = DHCP_MSG_FIXED_SIZE + 1024 := rfl
    have hfield : (x.copyFrom data).options.toList =
        ((data ++ x.bytes.drop data.length).drop DHCP_MSG_FIXED_SIZE).take 1024 := by
      apply DhcpMsg.toList_field
      rw [List.length_append, List.length_drop, x.length_bytes]
      have : DHCP_MSG_SIZE = 236 + 1024 := rfl
      omega
    rw [hfield, List.take_take, Nat.min_eq_left (by omega)]
    by_cases hlen : DHCP_MSG_FIXED_SIZE ≤ data.length
    · rw [List.drop_append_of_le_length hlen, List.take_left' (by rw [List.length_drop])]
    · have hshort := Nat.not_le.mp hlen
      rw [List.drop_eq_nil_of_le hshort.le, Nat.sub_eq_zero_of_le hshort.le, List.take_zero]
  refine ⟨fun hr => ?_, fun hr => ?_, fun hr => ?_, fun hr => ?_, fun hr => ?_, fun hr => ?_, ?_⟩
  · rw [(hfixed m' hr).1, (hfixed m hr).1]
  · rw [(hfixed m' hr).2.1, (hfixed m hr).2.1]
  · rw [(hfixed m' hr).2.2.1, (hfixed m hr).2.2.1]
  · rw [(hfixed m' hr).2.2.2.1, (hfixed m hr).2.2.2.1]
  · rw [(hfixed m' hr).2.2.2.2.1, (hfixed m hr).2.2.2.2.1]
  · rw [(hfixed m' hr).2.2.2.2.2, (hfixed m hr).2.2.2.2.2]
  · rw [hoptions m', hoptions m]

/-- What `receive_packet` does, whatever message it is given. -/
inductive Receives (buffer : Packet) (read : Read) : Prop
  | fault : (∀ msg, ∃ e, receivePacket buffer read msg = .error e) → Receives buffer read
  | refused : (∀ msg, receivePacket buffer read msg = .ok (-1, msg)) → Receives buffer read
  | got (data : List UInt8) : data.length ≤ DHCP_MSG_SIZE →
      (∀ msg, receivePacket buffer read msg = .ok (data.length, msg.copyFrom data)) →
      Receives buffer read

theorem receives (buffer : Packet) (read : Read) : Receives buffer read := by
  cases read with
  | failed errno => exact .refused fun _ => rfl
  | got bytes h =>
    by_cases haccepts : Accepts (readOver buffer bytes) bytes.length
    case neg => exact .refused fun msg => by rw [receivePacket_got, if_neg haccepts]
    by_cases hfits : dhcpSize (readOver buffer bytes) < 0 ∨
        (DHCP_MSG_SIZE : Int) < dhcpSize (readOver buffer bytes)
    case pos => exact .fault fun msg => ⟨_, by rw [receivePacket_got, if_pos haccepts, if_pos hfits]⟩
    have hlen : (((readOver buffer bytes).dhcp.bytes.take
        (dhcpSize (readOver buffer bytes)).toNat).length : Int) = dhcpSize (readOver buffer bytes) := by
      rw [List.length_take, DhcpMsg.length_bytes]
      omega
    refine .got ((readOver buffer bytes).dhcp.bytes.take (dhcpSize (readOver buffer bytes)).toNat)
      (by omega) fun msg => ?_
    rw [receivePacket_got, if_pos haccepts, if_neg hfits, hlen]

end G361FPlatform.Dhcp
