import G361FPlatform.Dhcp.PacketLaws

namespace G361FPlatform.Dhcp

open Library LittleEndian OnesComplement

def Accepts (packet : Packet) (nread : Nat) : Prop :=
  isValidPacket packet nread = true ∧ finishSum (checksum packet.ip.bytes 0) = 0 ∧
    packet.udp.check.toNat = receiveUdpSum packet

instance (packet : Packet) (nread : Nat) : Decidable (Accepts packet nread) :=
  inferInstanceAs (Decidable (_ ∧ _ ∧ _))

def dhcpSize (packet : Packet) : Int := (ntohs packet.udp.len).toNat - UdpHdr.size

/-- What is copied was received, and lies in what the checksum covers; else nothing is. -/
inductive Contained (packet : Packet) (msg : DhcpMsg) : Read → Outcome DhcpMsg → Prop
  | refused {read} : Contained packet msg read (.ok (-1, msg))
  | copied {bytes h msg'} {n : Nat} :
      (n : Int) ≤ (ntohs (readOver packet bytes).ip.totLen).toNat - 28 →
      ((ntohs (readOver packet bytes).ip.totLen).toNat : Int) - 28 ≤ bytes.length - 28 →
      n ≤ DHCP_MSG_SIZE → msg'.bytes = (bytes.drop 28).take n ++ msg.bytes.drop n →
      Contained packet msg (.got bytes h) (.ok (n, msg'))

theorem receivePacket_got (packet : Packet) {bytes : List UInt8} (h : bytes.length ≤ Packet.size)
    (msg : DhcpMsg) : receivePacket packet (.got bytes h) msg =
      if Accepts (readOver packet bytes) bytes.length then
        if dhcpSize (readOver packet bytes) < 0 ∨
            (DHCP_MSG_SIZE : Int) < dhcpSize (readOver packet bytes) then .error .fault
        else .ok (dhcpSize (readOver packet bytes), msg.copyFrom
          ((readOver packet bytes).dhcp.bytes.take (dhcpSize (readOver packet bytes)).toNat))
      else .ok (-1, msg) := by
  unfold receivePacket
  dsimp only
  by_cases hvalid : isValidPacket (readOver packet bytes) bytes.length = true
  case neg =>
    have hno : ¬Accepts (readOver packet bytes) bytes.length := fun hacc => hvalid hacc.1
    rw [if_pos (by simpa using hvalid), if_neg hno]
  by_cases hip : finishSum (checksum (readOver packet bytes).ip.bytes 0) = 0
  case neg =>
    have hno : ¬Accepts (readOver packet bytes) bytes.length := fun hacc => hip hacc.2.1
    rw [if_neg (by simpa using hvalid), if_pos hip, if_neg hno]
  by_cases hudp : (readOver packet bytes).udp.check.toNat = receiveUdpSum (readOver packet bytes)
  case neg =>
    have hno : ¬Accepts (readOver packet bytes) bytes.length := fun hacc => hudp hacc.2.2
    rw [if_neg (by simpa using hvalid), if_neg (not_not.mpr hip), if_pos hudp, if_neg hno]
  have hacc : Accepts (readOver packet bytes) bytes.length := ⟨hvalid, hip, hudp⟩
  rw [if_neg (by simpa using hvalid), if_neg (not_not.mpr hip), if_neg (not_not.mpr hudp), if_pos hacc]
  rfl

theorem Accepts.totLen_le {packet : Packet} {nread : Nat} (h : Accepts packet nread) :
    (ntohs packet.ip.totLen).toNat ≤ nread := by
  have hvalid := h.1
  by_contra hlt
  unfold isValidPacket at hvalid
  rw [if_pos (Nat.not_le.mp hlt)] at hvalid
  simp at hvalid

theorem bytes_dhcp_readOver (packet : Packet) {bytes : List UInt8} (h : bytes.length ≤ Packet.size) :
    (readOver packet bytes).dhcp.bytes =
      (bytes ++ packet.bytes.drop bytes.length).drop (IpHdr.size + UdpHdr.size) := by
  apply DhcpMsg.bytes_ofBytes
  have hsize : Packet.size = IpHdr.size + UdpHdr.size + DHCP_MSG_SIZE := rfl
  simp only [List.length_append, List.length_drop, Packet.length_bytes]
  omega

theorem take_dhcp_readOver (packet : Packet) {bytes : List UInt8} (h : bytes.length ≤ Packet.size)
    {n : Nat} (hn : IpHdr.size + UdpHdr.size + n ≤ bytes.length) :
    (readOver packet bytes).dhcp.bytes.take n = (bytes.drop 28).take n := by
  rw [bytes_dhcp_readOver packet h, List.drop_append_of_le_length (by omega),
    List.take_append_of_le_length (by rw [List.length_drop]; omega)]
  rfl

theorem Contained.ret_le {packet : Packet} {msg msg' : DhcpMsg} {bytes : List UInt8}
    {h : bytes.length ≤ Packet.size} {ret : Int}
    (hc : Contained packet msg (.got bytes h) (.ok (ret, msg'))) :
    ret = -1 ∨ ret ≤ (ntohs (readOver packet bytes).ip.totLen).toNat - 28 := by
  cases hc with
  | refused => exact .inl rfl
  | copied hn => exact .inr hn

theorem Contained.not_error {packet : Packet} {msg : DhcpMsg} {read : Read} {e : Stuck} :
    ¬Contained packet msg read (.error e) := nofun

/-- `receive_packet` copies what it may, as long as the packets that pass its checks have a UDP
length that fits between the headers and `tot_len`: no check looks at that. -/
theorem contained_iff (packet : Packet) (read : Read) (msg : DhcpMsg) :
    Contained packet msg read (receivePacket packet read msg) ↔
      ∀ bytes h, read = .got bytes h → Accepts (readOver packet bytes) bytes.length →
        8 ≤ (ntohs (readOver packet bytes).udp.len).toNat ∧
          (ntohs (readOver packet bytes).udp.len).toNat + 20 ≤
            (ntohs (readOver packet bytes).ip.totLen).toNat := by
  cases read with
  | failed errno => exact iff_of_true .refused (by simp)
  | got bytes h =>
    rw [receivePacket_got]
    by_cases haccepts : Accepts (readOver packet bytes) bytes.length
    case neg =>
      rw [if_neg haccepts]
      refine iff_of_true .refused ?_
      rintro _ _ ⟨⟩ hacc
      exact absurd hacc haccepts
    have hle := haccepts.totLen_le
    rw [if_pos haccepts]
    constructor
    · rintro hcontained _ _ ⟨⟩ -
      split at hcontained
      · exact absurd hcontained Contained.not_error
      next hfits =>
        have hret := hcontained.ret_le
        unfold dhcpSize UdpHdr.size at hret hfits
        omega
    · intro hlen
      obtain ⟨hlow, hhigh⟩ := hlen bytes h rfl haccepts
      obtain ⟨n, hn⟩ : ∃ n : Nat, dhcpSize (readOver packet bytes) = n :=
        Int.eq_ofNat_of_zero_le (by unfold dhcpSize UdpHdr.size; omega)
      have hudpLen : (ntohs (readOver packet bytes).udp.len).toNat = n + 8 := by
        unfold dhcpSize UdpHdr.size at hn
        omega
      have hread : IpHdr.size + UdpHdr.size + n ≤ bytes.length := by
        unfold IpHdr.size UdpHdr.size
        omega
      have hmax : n ≤ DHCP_MSG_SIZE := by
        have hsize : Packet.size = IpHdr.size + UdpHdr.size + DHCP_MSG_SIZE := rfl
        omega
      have htake : ((bytes.drop 28).take n).length = n := by
        rw [List.length_take, List.length_drop]
        unfold IpHdr.size UdpHdr.size at hread
        omega
      rw [hn, if_neg (by omega), Int.toNat_natCast, take_dhcp_readOver packet h hread]
      refine .copied (by omega) (by omega) hmax ?_
      rw [msg.bytes_copyFrom (by omega), htake]

def headersOnly : List UInt8 :=
  [0x45, 0, 0, 28, 0, 0, 0, 0, 64, 17, 0x7a, 0xd2, 0, 0, 0, 0, 255, 255, 255, 255,
    0, 67, 0, 68, 0, 36, 0xff, 0x1f]

theorem length_headersOnly : headersOnly.length ≤ Packet.size := by decide

/-- 28 bytes that nobody sent come out of the stack. -/
theorem not_contained_headersOnly :
    ¬Contained (Packet.ofBytes []) (DhcpMsg.ofBytes []) (.got headersOnly length_headersOnly)
      (receivePacket (Packet.ofBytes []) (.got headersOnly length_headersOnly) (DhcpMsg.ofBytes [])) := by
  have hseen : (receivePacket (Packet.ofBytes []) (.got headersOnly length_headersOnly)
      (DhcpMsg.ofBytes [])).toOption.map Prod.fst = some 28 := by decide +kernel
  have htotLen : (ntohs (readOver (Packet.ofBytes []) headersOnly).ip.totLen).toNat = 28 := by
    decide +kernel
  obtain ⟨⟨ret, msg'⟩, hret, rfl⟩ := exists_of_map_eq_some hseen
  intro hcontained
  rw [hret] at hcontained
  have hle := hcontained.ret_le
  omega

end G361FPlatform.Dhcp
