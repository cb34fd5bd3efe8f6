import G361FPlatform.Library.LittleEndian

namespace G361FPlatform.Dhcp

open Library LittleEndian

def PORT_BOOTP_CLIENT : Nat := 68

def OP_BOOTREQUEST : UInt8 := 1
def OP_BOOTREPLY : UInt8 := 2

def FLAGS_BROADCAST : UInt16 := 0x8000

def HTYPE_ETHER : UInt8 := 1

def DHCP_MSG_FIXED_SIZE : Nat := 236

def OPT_COOKIE1 : UInt8 := 0x63
def OPT_COOKIE2 : UInt8 := 0x82
def OPT_COOKIE3 : UInt8 := 0x53
def OPT_COOKIE4 : UInt8 := 0x63

def OPT_PAD : UInt8 := 0
def OPT_SUBNET_MASK : UInt8 := 1
def OPT_GATEWAY : UInt8 := 3
def OPT_DNS : UInt8 := 6
def OPT_BROADCAST_ADDR : UInt8 := 28
def OPT_REQUESTED_IP : UInt8 := 50
def OPT_LEASE_TIME : UInt8 := 51
def OPT_MESSAGE_TYPE : UInt8 := 53
def OPT_SERVER_ID : UInt8 := 54
def OPT_PARAMETER_LIST : UInt8 := 55
def OPT_END : UInt8 := 255

def DHCPDISCOVER : UInt8 := 1
def DHCPOFFER : UInt8 := 2
def DHCPREQUEST : UInt8 := 3
def DHCPACK : UInt8 := 5
def DHCPNAK : UInt8 := 6

/-- `struct dhcp_msg`; the words are kept as they are in memory. -/
structure DhcpMsg where
  op : UInt8
  htype : UInt8
  hlen : UInt8
  hops : UInt8
  xid : UInt32
  secs : UInt16
  flags : UInt16
  ciaddr : UInt32
  yiaddr : UInt32
  siaddr : UInt32
  giaddr : UInt32
  chaddr : Vector UInt8 16
  sname : Vector UInt8 64
  file : Vector UInt8 128
  options : Vector UInt8 1024
  deriving DecidableEq

/-- `sizeof(struct dhcp_msg)` -/
def DHCP_MSG_SIZE : Nat := 1260

/-- The `n` bytes at offset `off`. -/
def field (n off : Nat) (bs : List UInt8) : Vector UInt8 n := Vector.ofFn fun i => bs.getD (off + i) 0

def word16At (off : Nat) (bs : List UInt8) : UInt16 := word16 (bs.getD off 0) (bs.getD (off + 1) 0)

def word32At (off : Nat) (bs : List UInt8) : UInt32 :=
  word32 (bs.getD off 0) (bs.getD (off + 1) 0) (bs.getD (off + 2) 0) (bs.getD (off + 3) 0)

namespace DhcpMsg

def bytes (m : DhcpMsg) : List UInt8 :=
  [m.op, m.htype, m.hlen, m.hops] ++ bytes32 m.xid ++ bytes16 m.secs ++ bytes16 m.flags ++
    bytes32 m.ciaddr ++ bytes32 m.yiaddr ++ bytes32 m.siaddr ++ bytes32 m.giaddr ++
    m.chaddr.toList ++ m.sname.toList ++ m.file.toList ++ m.options.toList

def ofBytes (bs : List UInt8) : DhcpMsg where
  op := bs.getD 0 0
  htype := bs.getD 1 0
  hlen := bs.getD 2 0
  hops := bs.getD 3 0
  xid := word32At 4 bs
  secs := word16At 8 bs
  flags := word16At 10 bs
  ciaddr := word32At 12 bs
  yiaddr := word32At 16 bs
  siaddr := word32At 20 bs
  giaddr := word32At 24 bs
  chaddr := field 16 28 bs
  sname := field 64 44 bs
  file := field 128 108 bs
  options := field 1024 236 bs

/-- `memcpy` of some bytes to the start of a message. -/
def copyFrom (m : DhcpMsg) (bs : List UInt8) : DhcpMsg := ofBytes (bs ++ m.bytes.drop bs.length)

/-- `*x++ = ...` for one byte after the other, from option byte `x` on. -/
def writeOptions (x : Nat) (bs : List UInt8) (m : DhcpMsg) : DhcpMsg :=
  { m with options := Vector.ofFn fun i =>
      if x ≤ i.val ∧ i.val < x + bs.length then bs.getD (i - x) 0 else m.options[i] }

def zero : DhcpMsg where
  op := 0
  htype := 0
  hlen := 0
  hops := 0
  xid := 0
  secs := 0
  flags := 0
  ciaddr := 0
  yiaddr := 0
  siaddr := 0
  giaddr := 0
  chaddr := Vector.replicate 16 0
  sname := Vector.replicate 64 0
  file := Vector.replicate 128 0
  options := Vector.replicate 1024 0

theorem length_bytes (m : DhcpMsg) : m.bytes.length = DHCP_MSG_SIZE := by
  simp [bytes, DHCP_MSG_SIZE]

theorem toList_field {n off : Nat} {bs : List UInt8} (h : off + n ≤ bs.length) :
    (field n off bs).toList = (bs.drop off).take n := by
  apply List.ext_getElem
  · simp
    omega
  · intro i h₁ h₂
    simp only [Vector.length_toList] at h₁
    have hi : off + i < bs.length := by omega
    simp [field, hi]

theorem take_succ_drop {bs : List UInt8} {i : Nat} (h : i < bs.length) :
    bs.drop i = bs.getD i 0 :: bs.drop (i + 1) := by
  rw [List.drop_eq_getElem_cons h, List.getD_eq_getElem?_getD, List.getElem?_eq_getElem h,
    Option.getD_some]

theorem bytes_ofBytes {bs : List UInt8} (h : bs.length = DHCP_MSG_SIZE) :
    (ofBytes bs).bytes = bs := by
  have hlen : bs.length = 1260 := h
  have hhead : ∀ i, i < 28 → bs.drop i = bs.getD i 0 :: bs.drop (i + 1) :=
    fun i hi => take_succ_drop (by omega)
  have hfields : (field 16 28 bs).toList ++ ((field 64 44 bs).toList ++
      ((field 128 108 bs).toList ++ (field 1024 236 bs).toList)) = bs.drop 28 := by
    rw [toList_field (by omega), toList_field (by omega), toList_field (by omega),
      toList_field (by omega)]
    rw [List.take_of_length_le (l := bs.drop 236) (by rw [List.length_drop]; omega)]
    rw [show bs.drop 236 = (bs.drop 108).drop 128 by simp, List.take_append_drop]
    rw [show bs.drop 108 = (bs.drop 44).drop 64 by simp, List.take_append_drop]
    rw [show bs.drop 44 = (bs.drop 28).drop 16 by simp, List.take_append_drop]
  simp only [bytes, ofBytes, word16At, word32At, bytes16_word16, bytes32_word32, List.append_assoc]
  rw [hfields]
  conv_rhs => rw [← List.drop_zero (l := bs)]
  simp only [hhead, List.cons_append, List.nil_append, Nat.reduceLT, Nat.reduceAdd]

theorem bytes_copyFrom (m : DhcpMsg) {bs : List UInt8} (h : bs.length ≤ DHCP_MSG_SIZE) :
    (m.copyFrom bs).bytes = bs ++ m.bytes.drop bs.length := by
  apply bytes_ofBytes
  rw [List.length_append, List.length_drop, length_bytes]
  omega

end DhcpMsg

/-- The message, and `x - msg->options`. -/
def initDhcpMsg (type : UInt8) (hwaddr : Vector UInt8 6) (xid : UInt32) : DhcpMsg × Nat :=
  let msg := { DhcpMsg.zero with
    op := OP_BOOTREQUEST
    htype := HTYPE_ETHER
    hlen := 6
    hops := 0
    flags := swap16 FLAGS_BROADCAST
    xid := xid
    chaddr := hwaddr ++ Vector.replicate 10 (0 : UInt8) }
  (msg.writeOptions 0
    [OPT_COOKIE1, OPT_COOKIE2, OPT_COOKIE3, OPT_COOKIE4, OPT_MESSAGE_TYPE, 1, type], 7)

def parameterList : List UInt8 :=
  [OPT_PARAMETER_LIST, 4, OPT_SUBNET_MASK, OPT_GATEWAY, OPT_DNS, OPT_BROADCAST_ADDR]

def initDhcpDiscoverMsg (hwaddr : Vector UInt8 6) (xid : UInt32) : DhcpMsg × Nat :=
  let (msg, x) := initDhcpMsg DHCPDISCOVER hwaddr xid
  let tail := parameterList ++ [OPT_END]
  (msg.writeOptions x tail, DHCP_MSG_FIXED_SIZE + (x + tail.length))

def initDhcpRequestMsg (hwaddr : Vector UInt8 6) (xid ipaddr serveraddr : UInt32) : DhcpMsg × Nat :=
  let (msg, x) := initDhcpMsg DHCPREQUEST hwaddr xid
  let tail := parameterList ++ [OPT_REQUESTED_IP, 4] ++ bytes32 ipaddr ++ [OPT_SERVER_ID, 4] ++
    bytes32 serveraddr ++ [OPT_END]
  (msg.writeOptions x tail, DHCP_MSG_FIXED_SIZE + (x + tail.length))

end G361FPlatform.Dhcp
