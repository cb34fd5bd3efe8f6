import G361FPlatform.Dhcp.Msg
import G361FPlatform.Library.OnesComplement
import G361FPlatform.Library.Outcome

namespace G361FPlatform.Dhcp

open Library LittleEndian OnesComplement

def IPVERSION : BitVec 4 := 4
def IPDEFTTL : UInt8 := 64
def IPPROTO_UDP : UInt8 := 17

def htons (x : UInt16) : UInt16 := swap16 x
def ntohs (x : UInt16) : UInt16 := swap16 x

/-- `struct iphdr` -/
structure IpHdr where
  ihl : BitVec 4
  version : BitVec 4
  tos : UInt8
  totLen : UInt16
  id : UInt16
  fragOff : UInt16
  ttl : UInt8
  protocol : UInt8
  check : UInt16
  saddr : UInt32
  daddr : UInt32
  deriving DecidableEq

namespace IpHdr

def size : Nat := 20

def bytes (ip : IpHdr) : List UInt8 :=
  [UInt8.ofNat (ip.ihl.toNat + 16 * ip.version.toNat), ip.tos] ++ bytes16 ip.totLen ++
    bytes16 ip.id ++ bytes16 ip.fragOff ++ [ip.ttl, ip.protocol] ++ bytes16 ip.check ++
    bytes32 ip.saddr ++ bytes32 ip.daddr

def ofBytes (bs : List UInt8) : IpHdr where
  ihl := BitVec.ofNat 4 (bs.getD 0 0).toNat
  version := BitVec.ofNat 4 ((bs.getD 0 0).toNat / 16)
  tos := bs.getD 1 0
  totLen := word16At 2 bs
  id := word16At 4 bs
  fragOff := word16At 6 bs
  ttl := bs.getD 8 0
  protocol := bs.getD 9 0
  check := word16At 10 bs
  saddr := word32At 12 bs
  daddr := word32At 16 bs

def zero : IpHdr := ⟨0, 0, 0, 0, 0, 0, 0, 0, 0, 0, 0⟩

end IpHdr

/-- `struct udphdr` -/
structure UdpHdr where
  source : UInt16
  dest : UInt16
  len : UInt16
  check : UInt16
  deriving DecidableEq

namespace UdpHdr

def size : Nat := 8

def bytes (udp : UdpHdr) : List UInt8 :=
  bytes16 udp.source ++ bytes16 udp.dest ++ bytes16 udp.len ++ bytes16 udp.check

def ofBytes (bs : List UInt8) : UdpHdr where
  source := word16At 0 bs
  dest := word16At 2 bs
  len := word16At 4 bs
  check := word16At 6 bs

end UdpHdr

/-- `struct dhcp_packet` of `receive_packet`. -/
structure Packet where
  ip : IpHdr
  udp : UdpHdr
  dhcp : DhcpMsg
  deriving DecidableEq

namespace Packet

def size : Nat := IpHdr.size + UdpHdr.size + DHCP_MSG_SIZE

def bytes (p : Packet) : List UInt8 := p.ip.bytes ++ p.udp.bytes ++ p.dhcp.bytes

def ofBytes (bs : List UInt8) : Packet where
  ip := .ofBytes bs
  udp := .ofBytes (bs.drop IpHdr.size)
  dhcp := .ofBytes (bs.drop (IpHdr.size + UdpHdr.size))

end Packet

/-- The two loops that add up 16-bit words, in a `uint32_t`. -/
def addWords : List UInt8 → Nat → Nat
  | lo :: hi :: rest, sum => addWords rest ((sum + (lo.toNat + 256 * hi.toNat)) % 2 ^ 32)
  | [lo], sum => (sum + lo.toNat) % 2 ^ 32
  | [], sum => sum

def checksum (buffer : List UInt8) (startsum : Nat) : Nat := fold (addWords buffer startsum)

/-- `~sum & 0xffff` -/
def finishSum (sum : Nat) : Nat := (2 ^ 32 - 1 - sum) % 65536

/-- The IP header `send_packet` makes, but for the checksum. -/
def sendIp (size : Nat) (saddr daddr : UInt32) : IpHdr where
  version := IPVERSION
  ihl := BitVec.ofNat 4 (IpHdr.size / 4)
  tos := 0
  totLen := htons (UInt16.ofNat (IpHdr.size + UdpHdr.size + size))
  id := 0
  fragOff := 0
  ttl := IPDEFTTL
  protocol := IPPROTO_UDP
  check := 0
  saddr := saddr
  daddr := daddr

def sendUdp (size : Nat) (sport dport : UInt32) : UdpHdr where
  source := htons sport.toUInt16
  dest := htons dport.toUInt16
  len := htons (UInt16.ofNat (UdpHdr.size + size))
  check := 0

/-- `udpsum` of `send_packet`. -/
def sendUdpSum (ip : IpHdr) (udp : UdpHdr) (data : List UInt8) : Nat :=
  let udpsum := checksum (bytes32 ip.saddr) 0
  let udpsum := checksum (bytes32 ip.daddr) udpsum
  let udpsum := checksum (bytes16 (htons (UInt16.ofNat IPPROTO_UDP.toNat))) udpsum
  let udpsum := checksum (bytes16 udp.len) udpsum
  let udpsum := checksum udp.bytes udpsum
  checksum data udpsum

/-- The bytes `send_packet` hands to `sendmsg`.  It reads `size` bytes of the message. -/
def sendPacket (msg : DhcpMsg) (size : Nat) (saddr daddr sport dport : UInt32) :
    Except Stuck (List UInt8) :=
  if DHCP_MSG_SIZE < size then .error .fault
  else
    let data := msg.bytes.take size
    let ip := sendIp size saddr daddr
    let ip := { ip with check := UInt16.ofNat (finishSum (checksum ip.bytes 0)) }
    let udp := sendUdp size sport dport
    let udp := { udp with check := UInt16.ofNat (finishSum (sendUdpSum ip udp data)) }
    .ok (ip.bytes ++ udp.bytes ++ data)

/-- What `read` on the raw socket can do with a buffer of `sizeof(packet)` bytes. -/
inductive Read
  | failed (errno : Nat)
  | got (bytes : List UInt8) (h : bytes.length ≤ Packet.size)

/-- The packet in the buffer once `bytes` have been read over what it held. -/
def readOver (packet : Packet) (bytes : List UInt8) : Packet :=
  Packet.ofBytes (bytes ++ packet.bytes.drop bytes.length)

/-- The filter of `receive_packet`, on the packet in its buffer. -/
def isValidPacket (packet : Packet) (nread : Nat) : Bool :=
  if nread < IpHdr.size + UdpHdr.size then false
  else if packet.ip.version ≠ IPVERSION ∨ packet.ip.ihl ≠ BitVec.ofNat 4 (IpHdr.size / 4) then false
  else if nread < (ntohs packet.ip.totLen).toNat then false
  else if packet.ip.protocol ≠ IPPROTO_UDP then false
  else if packet.udp.dest ≠ htons (UInt16.ofNat PORT_BOOTP_CLIENT) then false
  else true

/-- The "borrowed" IP header: `memset` to 0, with what the pseudo header has. -/
def pseudoHeader (saddr daddr : UInt32) (len : UInt16) : IpHdr :=
  { IpHdr.zero with saddr := saddr, daddr := daddr, protocol := IPPROTO_UDP, totLen := len }

/-- The packet as the UDP checksum is computed over it. -/
def withPseudoHeader (packet : Packet) : Packet where
  ip := pseudoHeader packet.ip.saddr packet.ip.daddr packet.udp.len
  udp := { packet.udp with check := 0 }
  dhcp := packet.dhcp

/-- The sum `receive_packet` compares `udp.check` with. -/
def receiveUdpSum (packet : Packet) : Nat :=
  let nread := (ntohs packet.ip.totLen).toNat
  let sum := finishSum (checksum ((withPseudoHeader packet).bytes.take nread) 0)
  if sum = 0 then finishSum sum else sum

/-- `packet` is what the buffer holds before the call.  A `memcpy` of a negative number of
bytes, or of more than there are, faults. -/
def receivePacket (packet : Packet) (read : Read) (msg : DhcpMsg) : Outcome DhcpMsg :=
  match read with
  | .failed _ => .ok (-1, msg)
  | .got bytes _ =>
    let packet := readOver packet bytes
    if !isValidPacket packet bytes.length then .ok (-1, msg)
    else if finishSum (checksum packet.ip.bytes 0) ≠ 0 then .ok (-1, msg)
    else if packet.udp.check.toNat ≠ receiveUdpSum packet then .ok (-1, msg)
    else
      let dhcpSize : Int := (ntohs packet.udp.len).toNat - UdpHdr.size
      if dhcpSize < 0 ∨ (DHCP_MSG_SIZE : Int) < dhcpSize then .error .fault
      else .ok (dhcpSize, msg.copyFrom (packet.dhcp.bytes.take dhcpSize.toNat))

end G361FPlatform.Dhcp
