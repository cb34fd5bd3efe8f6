import G361FPlatform.Dhcp.Packet

namespace G361FPlatform.Dhcp

open Library LittleEndian OnesComplement

theorem addWords_eq {bs : List UInt8} {sum : Nat} (h : sum + (words bs).sum < 2 ^ 32) :
    addWords bs sum = sum + (words bs).sum := by
  induction bs, sum using addWords.induct with
  | case1 lo hi rest sum ih =>
    simp only [words, List.sum_cons] at h ⊢
    have hlt : sum + (lo.toNat + 256 * hi.toNat) < 2 ^ 32 := by omega
    rw [Nat.mod_eq_of_lt hlt] at ih
    rw [addWords, Nat.mod_eq_of_lt hlt, ih (by omega)]
    omega
  | case2 lo sum =>
    simp only [words, List.sum_singleton] at h ⊢
    rw [addWords, Nat.mod_eq_of_lt h]
  | case3 sum => simp [addWords, words]

theorem checksum_eq {bs : List UInt8} (hlen : bs.length ≤ 65536) {sum : Nat} (hsum : sum ≤ 65535) :
    checksum bs sum = fold (sum + (words bs).sum) := by
  have hle := sum_words_le bs
  rw [checksum, addWords_eq (by omega)]

theorem checksum_fold {bs : List UInt8} (hlen : bs.length ≤ 65536) (n : Nat) :
    checksum bs (fold n) = fold (n + (words bs).sum) := by
  rw [checksum_eq hlen (fold_le n), fold_fold_add]

theorem finishSum_fold (n : Nat) : finishSum (fold n) = 65535 - fold n := by
  have := fold_le n
  rw [finishSum]
  omega

@[simp] theorem IpHdr.length_bytes (ip : IpHdr) : ip.bytes.length = IpHdr.size := rfl

@[simp] theorem UdpHdr.length_bytes (udp : UdpHdr) : udp.bytes.length = UdpHdr.size := rfl

@[simp] theorem Packet.length_bytes (p : Packet) : p.bytes.length = Packet.size := by
  simp [Packet.bytes, Packet.size, DhcpMsg.length_bytes]
  rfl

theorem IpHdr.ofBytes_bytes (ip : IpHdr) (rest : List UInt8) :
    IpHdr.ofBytes (ip.bytes ++ rest) = ip := by
  have hihl := ip.ihl.isLt
  have hversion := ip.version.isLt
  have hlow : BitVec.ofNat 4 (UInt8.ofNat (ip.ihl.toNat + 16 * ip.version.toNat)).toNat = ip.ihl := by
    apply BitVec.eq_of_toNat_eq
    rw [BitVec.toNat_ofNat, UInt8.toNat_ofNat']
    omega
  have hhigh :
      BitVec.ofNat 4 ((UInt8.ofNat (ip.ihl.toNat + 16 * ip.version.toNat)).toNat / 16) = ip.version := by
    apply BitVec.eq_of_toNat_eq
    rw [BitVec.toNat_ofNat, UInt8.toNat_ofNat']
    omega
  have htotLen : word16At 2 (ip.bytes ++ rest) = ip.totLen := word16_bytes16 ip.totLen
  have hid : word16At 4 (ip.bytes ++ rest) = ip.id := word16_bytes16 ip.id
  have hfragOff : word16At 6 (ip.bytes ++ rest) = ip.fragOff := word16_bytes16 ip.fragOff
  have hcheck : word16At 10 (ip.bytes ++ rest) = ip.check := word16_bytes16 ip.check
  have hsaddr : word32At 12 (ip.bytes ++ rest) = ip.saddr := word32_bytes32 ip.saddr
  have hdaddr : word32At 16 (ip.bytes ++ rest) = ip.daddr := word32_bytes32 ip.daddr
  rw [IpHdr.ofBytes, htotLen, hid, hfragOff, hcheck, hsaddr, hdaddr]
  rw [IpHdr.mk.injEq]
  exact ⟨hlow, hhigh, rfl, rfl, rfl, rfl, rfl, rfl, rfl, rfl, rfl⟩

theorem UdpHdr.ofBytes_bytes (udp : UdpHdr) (rest : List UInt8) :
    UdpHdr.ofBytes (udp.bytes ++ rest) = udp := by
  have hsource : word16At 0 (udp.bytes ++ rest) = udp.source := word16_bytes16 udp.source
  have hdest : word16At 2 (udp.bytes ++ rest) = udp.dest := word16_bytes16 udp.dest
  have hlen : word16At 4 (udp.bytes ++ rest) = udp.len := word16_bytes16 udp.len
  have hcheck : word16At 6 (udp.bytes ++ rest) = udp.check := word16_bytes16 udp.check
  rw [UdpHdr.ofBytes, hsource, hdest, hlen, hcheck]

theorem Packet.ofBytes_headers (ip : IpHdr) (udp : UdpHdr) (rest : List UInt8) :
    Packet.ofBytes (ip.bytes ++ (udp.bytes ++ rest)) = ⟨ip, udp, DhcpMsg.ofBytes rest⟩ := by
  have hudp : (ip.bytes ++ (udp.bytes ++ rest)).drop IpHdr.size = udp.bytes ++ rest :=
    List.drop_left' rfl
  have hrest : (ip.bytes ++ (udp.bytes ++ rest)).drop (IpHdr.size + UdpHdr.size) = rest := by
    rw [← List.append_assoc]
    exact List.drop_left' rfl
  rw [Packet.ofBytes, hudp, hrest, IpHdr.ofBytes_bytes, UdpHdr.ofBytes_bytes]

theorem ntohs_htons (x : UInt16) : ntohs (htons x) = x := swap16_swap16 x

/-- The words the UDP checksum covers: addresses, protocol and length of the pseudo header,
ports and length of the UDP header, and the data. -/
def udpWords (data : List UInt8) (saddr daddr sport dport : UInt32) : List Nat :=
  words (bytes32 saddr) ++ words (bytes32 daddr) ++
    [htons (UInt16.ofNat IPPROTO_UDP.toNat), htons (UInt16.ofNat (UdpHdr.size + data.length)),
      htons sport.toUInt16, htons dport.toUInt16,
      htons (UInt16.ofNat (UdpHdr.size + data.length))].map UInt16.toNat ++
    words data

theorem sum_words_bytes16 (x : UInt16) : (words (bytes16 x)).sum = x.toNat := by
  have := x.toNat_lt
  simp only [bytes16, words, List.sum_cons, List.sum_nil, UInt8.toNat_ofNat']
  omega

theorem IpHdr.sum_words (ip : IpHdr) : (words ip.bytes).sum =
    (ip.ihl.toNat + 16 * ip.version.toNat) + 256 * ip.tos.toNat + ip.totLen.toNat + ip.id.toNat +
      ip.fragOff.toNat + (ip.ttl.toNat + 256 * ip.protocol.toNat) + ip.check.toNat +
      (words (bytes32 ip.saddr)).sum + (words (bytes32 ip.daddr)).sum := by
  have hihl := ip.ihl.isLt
  have hversion := ip.version.isLt
  have htotLen := sum_words_bytes16 ip.totLen
  have hid := sum_words_bytes16 ip.id
  have hfragOff := sum_words_bytes16 ip.fragOff
  have hcheck := sum_words_bytes16 ip.check
  simp only [IpHdr.bytes, bytes16, bytes32, words, List.sum_cons, List.sum_nil, List.cons_append,
    List.nil_append, UInt8.toNat_ofNat'] at *
  omega

theorem UdpHdr.sum_words (udp : UdpHdr) : (words udp.bytes).sum =
    udp.source.toNat + udp.dest.toNat + udp.len.toNat + udp.check.toNat := by
  have hsource := sum_words_bytes16 udp.source
  have hdest := sum_words_bytes16 udp.dest
  have hlen := sum_words_bytes16 udp.len
  have hcheck := sum_words_bytes16 udp.check
  simp only [UdpHdr.bytes, bytes16, words, List.sum_cons, List.sum_nil, List.cons_append,
    List.nil_append, UInt8.toNat_ofNat'] at *
  omega

section

variable {data : List UInt8} {saddr daddr sport dport : UInt32}

theorem sum_udpWords : (udpWords data saddr daddr sport dport).sum =
    (words (bytes32 saddr)).sum + (words (bytes32 daddr)).sum + 4352 +
      2 * (sendUdp data.length sport dport).len.toNat + (sendUdp data.length sport dport).source.toNat +
      (sendUdp data.length sport dport).dest.toNat + (words data).sum := by
  have hproto : (htons (UInt16.ofNat IPPROTO_UDP.toNat)).toNat = 4352 := by decide
  simp only [udpWords, List.sum_append, List.map_cons, List.map_nil, List.sum_cons, List.sum_nil,
    hproto, sendUdp]
  omega

theorem sum_words_received :
    (words ((pseudoHeader saddr daddr (sendUdp data.length sport dport).len).bytes ++
      (sendUdp data.length sport dport).bytes ++ data)).sum =
        (udpWords data saddr daddr sport dport).sum := by
  rw [words_append (by simp [IpHdr.size, UdpHdr.size]), words_append (by simp [IpHdr.size]),
    List.sum_append, List.sum_append, IpHdr.sum_words, UdpHdr.sum_words, sum_udpWords]
  have hzero : (0 : BitVec 4).toNat = 0 := rfl
  simp only [pseudoHeader, IpHdr.zero, IPPROTO_UDP, sendUdp, UInt16.toNat_zero, UInt8.toNat_ofNat, hzero]
  omega

theorem checksum_zero {bs : List UInt8} (hlen : bs.length ≤ 65536) :
    checksum bs 0 = fold (words bs).sum := by
  rw [checksum_eq hlen (Nat.zero_le _), Nat.zero_add]

theorem sendUdpSum_eq (hlen : data.length ≤ DHCP_MSG_SIZE) (size : Nat) :
    sendUdpSum (sendIp size saddr daddr) (sendUdp data.length sport dport) data =
      fold (udpWords data saddr daddr sport dport).sum := by
  have hdata : data.length ≤ 65536 := le_trans hlen (by decide)
  have hproto : (words (bytes16 (htons (UInt16.ofNat IPPROTO_UDP.toNat)))).sum = 4352 := by decide
  rw [sendUdpSum, checksum_zero (by simp), checksum_fold (by simp), checksum_fold (by simp),
    checksum_fold (by simp), checksum_fold (by simp [UdpHdr.size]), checksum_fold hdata, hproto,
    sum_words_bytes16, UdpHdr.sum_words, sum_udpWords]
  congr 1
  simp only [sendIp, sendUdp, UInt16.toNat_zero]
  omega

end

theorem toNat_len {n : Nat} (h : n < 65536) : (ntohs (htons (UInt16.ofNat n))).toNat = n := by
  rw [ntohs_htons, UInt16.toNat_ofNat']
  omega

def sentIp (size : Nat) (saddr daddr : UInt32) : IpHdr :=
  { sendIp size saddr daddr with
    check := UInt16.ofNat (finishSum (checksum (sendIp size saddr daddr).bytes 0)) }

def sentUdp (data : List UInt8) (saddr daddr sport dport : UInt32) : UdpHdr :=
  { sendUdp data.length sport dport with
    check := UInt16.ofNat (finishSum (sendUdpSum (sendIp data.length saddr daddr)
      (sendUdp data.length sport dport) data)) }

section

variable {msg : DhcpMsg} {size : Nat} {data : List UInt8} {saddr daddr sport dport : UInt32}

theorem length_take (msg : DhcpMsg) (hsize : size ≤ DHCP_MSG_SIZE) :
    (msg.bytes.take size).length = size := by
  rw [List.length_take, msg.length_bytes]
  omega

theorem sendPacket_eq (hsize : size ≤ DHCP_MSG_SIZE) :
    sendPacket msg size saddr daddr sport dport =
      .ok ((sentIp size saddr daddr).bytes ++
        ((sentUdp (msg.bytes.take size) saddr daddr sport dport).bytes ++ msg.bytes.take size)) := by
  rw [sendPacket, if_neg (Nat.not_lt.mpr hsize), sentUdp, length_take msg hsize]
  exact congrArg Except.ok (List.append_assoc _ _ _)

theorem checksum_sentIp (size : Nat) (saddr daddr : UInt32) :
    finishSum (checksum (sentIp size saddr daddr).bytes 0) = 0 := by
  have hsum := IpHdr.sum_words (sendIp size saddr daddr)
  have hsum' := IpHdr.sum_words (sentIp size saddr daddr)
  have hpos : 0 < (words (sendIp size saddr daddr).bytes).sum := by
    have hihl : (sendIp size saddr daddr).ihl.toNat = 5 := rfl
    omega
  have hcheck : (sentIp size saddr daddr).check.toNat =
      65535 - fold (words (sendIp size saddr daddr).bytes).sum := by
    rw [sentIp, checksum_zero (by simp [IpHdr.size]), finishSum_fold, UInt16.toNat_ofNat']
    omega
  have hzero : (sendIp size saddr daddr).check.toNat = 0 := rfl
  have heq : (words (sentIp size saddr daddr).bytes).sum =
      (words (sendIp size saddr daddr).bytes).sum +
        (65535 - fold (words (sendIp size saddr daddr).bytes).sum) := by
    rw [hsum', hcheck]
    rw [hzero] at hsum
    simp only [sentIp] at *
    omega
  rw [checksum_zero (by simp [IpHdr.size]), heq, fold_add_complement hpos]
  rfl

theorem isValidPacket_sent (hlen : data.length ≤ DHCP_MSG_SIZE) (rest : DhcpMsg) {nread : Nat}
    (hread : IpHdr.size + UdpHdr.size + data.length ≤ nread) :
    isValidPacket ⟨sentIp data.length saddr daddr,
      sentUdp data saddr daddr sport (UInt32.ofNat PORT_BOOTP_CLIENT), rest⟩ nread = true := by
  have hsmall : IpHdr.size + UdpHdr.size + data.length < 65536 := by
    have : IpHdr.size + UdpHdr.size + DHCP_MSG_SIZE < 65536 := by decide
    omega
  have htotLen : (ntohs (sentIp data.length saddr daddr).totLen).toNat =
      IpHdr.size + UdpHdr.size + data.length := toNat_len hsmall
  unfold isValidPacket
  dsimp only
  rw [if_neg (by omega), if_neg (by simp [sentIp, sendIp]), if_neg (by omega),
    if_neg (by simp [sentIp, sendIp]), if_neg (by simp only [sentUdp, sendUdp]; decide)]

theorem receiveUdpSum_sent (hlen : data.length ≤ DHCP_MSG_SIZE) {rest : DhcpMsg}
    (hrest : rest.bytes.take data.length = data) :
    (sentUdp data saddr daddr sport dport).check.toNat =
      receiveUdpSum ⟨sentIp data.length saddr daddr, sentUdp data saddr daddr sport dport, rest⟩ ↔
        (udpWords data saddr daddr sport dport).sum % 65535 ≠ 0 := by
  have hsmall : IpHdr.size + UdpHdr.size + data.length < 65536 := by
    have : IpHdr.size + UdpHdr.size + DHCP_MSG_SIZE < 65536 := by decide
    omega
  have htotLen : (ntohs (sentIp data.length saddr daddr).totLen).toNat =
      IpHdr.size + UdpHdr.size + data.length := toNat_len hsmall
  have hcovered : (withPseudoHeader ⟨sentIp data.length saddr daddr,
      sentUdp data saddr daddr sport dport, rest⟩).bytes.take
        (IpHdr.size + UdpHdr.size + data.length) =
      (pseudoHeader saddr daddr (sendUdp data.length sport dport).len).bytes ++
        (sendUdp data.length sport dport).bytes ++ data := by
    rw [Packet.bytes, List.take_append, List.length_append, IpHdr.length_bytes, UdpHdr.length_bytes,
      Nat.add_sub_cancel_left, List.take_of_length_le (by simp)]
    congr 1
  have hpos : 0 < (udpWords data saddr daddr sport dport).sum := by
    rw [sum_udpWords]
    omega
  have hsum : receiveUdpSum ⟨sentIp data.length saddr daddr, sentUdp data saddr daddr sport dport, rest⟩ =
      if 65535 - fold (udpWords data saddr daddr sport dport).sum = 0 then 65535
      else 65535 - fold (udpWords data saddr daddr sport dport).sum := by
    rw [receiveUdpSum, htotLen, hcovered, checksum_zero, sum_words_received, finishSum_fold]
    · split
      next h => rw [h]; rfl
      · rfl
    · simp only [List.length_append, IpHdr.length_bytes, UdpHdr.length_bytes]
      omega
  have hcheck : (sentUdp data saddr daddr sport dport).check.toNat =
      65535 - fold (udpWords data saddr daddr sport dport).sum := by
    rw [sentUdp, sendUdpSum_eq hlen, finishSum_fold, UInt16.toNat_ofNat']
    omega
  have hle := fold_le (udpWords data saddr daddr sport dport).sum
  rw [hsum, hcheck, ne_eq, ← fold_eq_max hpos]
  split <;> omega

theorem receivePacket_sent (saddr daddr sport : UInt32) (hlen : data.length ≤ DHCP_MSG_SIZE) {bytes rest : List UInt8}
    (hbytes : bytes = (sentIp data.length saddr daddr).bytes ++
      ((sentUdp data saddr daddr sport (UInt32.ofNat PORT_BOOTP_CLIENT)).bytes ++ (data ++ rest)))
    (h : bytes.length ≤ Packet.size) (packet : Packet) (msg : DhcpMsg) :
    receivePacket packet (.got bytes h) msg =
      if (udpWords data saddr daddr sport (UInt32.ofNat PORT_BOOTP_CLIENT)).sum % 65535 ≠ 0 then
        .ok (data.length, msg.copyFrom data)
      else .ok (-1, msg) := by
  have hbytes_len : bytes.length = IpHdr.size + UdpHdr.size + (data.length + rest.length) := by
    rw [hbytes]
    simp only [List.length_append, IpHdr.length_bytes, UdpHdr.length_bytes]
    omega
  have hmemory : bytes ++ packet.bytes.drop bytes.length = (sentIp data.length saddr daddr).bytes ++
      ((sentUdp data saddr daddr sport (UInt32.ofNat PORT_BOOTP_CLIENT)).bytes ++
        (data ++ (rest ++ packet.bytes.drop bytes.length))) := by
    rw [hbytes]
    simp only [List.append_assoc]
  have htail : (DhcpMsg.ofBytes (data ++ (rest ++ packet.bytes.drop bytes.length))).bytes =
      data ++ (rest ++ packet.bytes.drop bytes.length) := by
    apply DhcpMsg.bytes_ofBytes
    have hsize : Packet.size = IpHdr.size + UdpHdr.size + DHCP_MSG_SIZE := rfl
    simp only [List.length_append, List.length_drop, Packet.length_bytes]
    omega
  have hdata : (DhcpMsg.ofBytes (data ++ (rest ++ packet.bytes.drop bytes.length))).bytes.take
      data.length = data := by
    rw [htail, List.take_left]
  have hudpLen : ((ntohs (sentUdp data saddr daddr sport (UInt32.ofNat PORT_BOOTP_CLIENT)).len).toNat : Int) -
      UdpHdr.size = data.length := by
    have hsmall : UdpHdr.size + data.length < 65536 := by
      have : UdpHdr.size + DHCP_MSG_SIZE < 65536 := by decide
      omega
    have hlen : (ntohs (sentUdp data saddr daddr sport (UInt32.ofNat PORT_BOOTP_CLIENT)).len).toNat =
        UdpHdr.size + data.length := toNat_len hsmall
    omega
  unfold receivePacket readOver
  dsimp only
  rw [hmemory, Packet.ofBytes_headers, isValidPacket_sent hlen _ (by omega)]
  dsimp only
  rw [checksum_sentIp, hudpLen, Int.toNat_natCast, hdata]
  simp only [Bool.not_true, Bool.false_eq_true, if_false, ne_eq, not_true_eq_false,
    receiveUdpSum_sent hlen hdata]
  by_cases hsum : (udpWords data saddr daddr sport (UInt32.ofNat PORT_BOOTP_CLIENT)).sum % 65535 = 0
  · simp only [hsum, not_true_eq_false, not_false_eq_true, if_true, if_false]
  · rw [if_neg (not_not.mpr hsum), if_pos hsum, if_neg (by omega)]

end

/-- The receiver takes the datagram and its message is the one that was sent. -/
def Delivered (msg : DhcpMsg) (size : Nat) (received : Outcome DhcpMsg) : Prop :=
  ∃ got, received = .ok (size, got) ∧ got.bytes.take size = msg.bytes.take size

/-- What `send_packet` sends arrives, unless the words under the UDP checksum add up to a
multiple of 0xffff: it then sends a checksum of 0, where the receiver wants 0xffff. -/
theorem delivered_iff (msg : DhcpMsg) {size : Nat} (hsize : size ≤ DHCP_MSG_SIZE)
    (saddr daddr sport : UInt32) :
    ∃ wire, sendPacket msg size saddr daddr sport (UInt32.ofNat PORT_BOOTP_CLIENT) = .ok wire ∧
      ∀ (padding : List UInt8) (h : (wire ++ padding).length ≤ Packet.size) (packet : Packet)
        (old : DhcpMsg),
        Delivered msg size (receivePacket packet (.got (wire ++ padding) h) old) ↔
          (udpWords (msg.bytes.take size) saddr daddr sport
            (UInt32.ofNat PORT_BOOTP_CLIENT)).sum % 65535 ≠ 0 := by
  have hlen := length_take msg hsize
  refine ⟨_, sendPacket_eq hsize, fun padding h packet old => ?_⟩
  have hreceived := receivePacket_sent saddr daddr sport (hlen.trans_le hsize)
    (by rw [hlen, List.append_assoc, List.append_assoc]) h packet old
  rw [hreceived, hlen]
  by_cases hsum : (udpWords (msg.bytes.take size) saddr daddr sport
      (UInt32.ofNat PORT_BOOTP_CLIENT)).sum % 65535 = 0
  · rw [if_neg (not_not.mpr hsum)]
    refine iff_of_false ?_ (not_not.mpr hsum)
    rintro ⟨got, hgot, -⟩
    have hret := (Prod.mk.inj (Except.ok.inj hgot)).1
    omega
  · rw [if_pos hsum]
    refine iff_of_true ⟨_, rfl, ?_⟩ hsum
    rw [old.bytes_copyFrom (by omega), List.take_left' hlen]

def helloMsg (xid : List UInt8) : DhcpMsg := DhcpMsg.ofBytes ([1, 1, 6, 0] ++ xid)

theorem delivered_helloMsg : ∃ wire,
    sendPacket (helloMsg [1, 2, 3, 4]) 8 0 0xffffffff 68 (UInt32.ofNat PORT_BOOTP_CLIENT) = .ok wire ∧
      ∀ (padding : List UInt8) (h : (wire ++ padding).length ≤ Packet.size) (packet : Packet)
        (old : DhcpMsg),
        Delivered (helloMsg [1, 2, 3, 4]) 8 (receivePacket packet (.got (wire ++ padding) h) old) := by
  obtain ⟨wire, hwire, hiff⟩ := delivered_iff (helloMsg [1, 2, 3, 4]) (show 8 ≤ DHCP_MSG_SIZE by decide)
    0 0xffffffff 68
  have hsum : (udpWords ((helloMsg [1, 2, 3, 4]).bytes.take 8) 0 0xffffffff 68
      (UInt32.ofNat PORT_BOOTP_CLIENT)).sum % 65535 ≠ 0 := by decide +kernel
  exact ⟨wire, hwire, fun padding h packet old => (hiff padding h packet old).mpr hsum⟩

theorem not_delivered_helloMsg : ∃ wire h,
    sendPacket (helloMsg [0xf8, 0x45, 0, 0]) 8 0 0xffffffff 68 (UInt32.ofNat PORT_BOOTP_CLIENT) =
        .ok wire ∧
      ∀ packet old, ¬Delivered (helloMsg [0xf8, 0x45, 0, 0]) 8 (receivePacket packet (.got wire h) old) := by
  have hsize : 8 ≤ DHCP_MSG_SIZE := by decide
  have hlen := length_take (helloMsg [0xf8, 0x45, 0, 0]) hsize
  have hsum : (udpWords ((helloMsg [0xf8, 0x45, 0, 0]).bytes.take 8) 0 0xffffffff 68
      (UInt32.ofNat PORT_BOOTP_CLIENT)).sum % 65535 = 0 := by decide +kernel
  refine ⟨_, ?_, sendPacket_eq hsize, fun packet old => ?_⟩
  · simp only [List.length_append, IpHdr.length_bytes, UdpHdr.length_bytes, hlen]
    decide
  · rw [receivePacket_sent 0 0xffffffff 68 (hlen.trans_le hsize) (by rw [hlen, List.append_nil]),
      if_neg (not_not.mpr hsum)]
    rintro ⟨got, hgot, -⟩
    exact absurd (Prod.mk.inj (Except.ok.inj hgot)).1 (by decide)

end G361FPlatform.Dhcp
