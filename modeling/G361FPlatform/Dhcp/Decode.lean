import Mathlib.Algebra.Group.Nat.Defs
import G361FPlatform.Dhcp.Msg
import G361FPlatform.Library.Outcome

namespace G361FPlatform.Dhcp

open Library LittleEndian

structure DhcpInfo where
  type : UInt32
  ipaddr : UInt32
  gateway : UInt32
  prefixLength : UInt32
  dns1 : UInt32
  dns2 : UInt32
  serveraddr : UInt32
  lease : UInt32
  deriving DecidableEq, Repr

def DhcpInfo.zero : DhcpInfo := ⟨0, 0, 0, 0, 0, 0, 0, 0⟩

/-- `while (m & 0x80000000)`, on the value of the 32-bit word. -/
def prefixLoop (m prefixLength : Nat) : Nat :=
  if m / 2 ^ 31 % 2 = 1 then prefixLoop (2 * m % 2 ^ 32) (prefixLength + 1) else prefixLength
termination_by m
decreasing_by omega

def ipv4NetmaskToPrefixLength (mask : UInt32) : Nat := prefixLoop (swap32 mask).toNat 0

/-- `memcpy(&v, x, 4)` -/
def read32 : List UInt8 → Except Stuck UInt32
  | b₀ :: b₁ :: b₂ :: b₃ :: _ => .ok (word32 b₀ b₁ b₂ b₃)
  | _ => .error .fault

/-- The `switch` of `decode_dhcp_msg`; `x` is the memory from the value of the option on. -/
def decodeOption (opt optlen : UInt8) (x : List UInt8) (info : DhcpInfo) : Except Stuck DhcpInfo :=
  if opt = OPT_SUBNET_MASK then
    if 4 ≤ optlen then
      (read32 x).map fun mask => { info with prefixLength := UInt32.ofNat (ipv4NetmaskToPrefixLength mask) }
    else .ok info
  else if opt = OPT_GATEWAY then
    if 4 ≤ optlen then (read32 x).map fun v => { info with gateway := v } else .ok info
  else if opt = OPT_DNS then
    (if 4 ≤ optlen then (read32 x).map fun v => { info with dns1 := v } else .ok info).bind fun info =>
      if 8 ≤ optlen then (read32 (x.drop 4)).map fun v => { info with dns2 := v } else .ok info
  else if opt = OPT_LEASE_TIME then
    if 4 ≤ optlen then (read32 x).map fun v => { info with lease := swap32 v } else .ok info
  else if opt = OPT_SERVER_ID then
    if 4 ≤ optlen then (read32 x).map fun v => { info with serveraddr := v } else .ok info
  else if opt = OPT_MESSAGE_TYPE then
    match x with
    | [] => .error .fault
    | type :: _ => .ok { info with type := type.toUInt32 }
  else .ok info

/-- `while (len > 2)`; `x` is the memory from where the pointer stands. -/
def decodeOptions (x : List UInt8) (len : Nat) (info : DhcpInfo) : Except Stuck DhcpInfo :=
  if len ≤ 2 then .ok info
  else
    match x with
    | [] => .error .fault
    | opt :: x =>
      if opt = OPT_PAD then decodeOptions x (len - 1) info
      else if opt = OPT_END then .ok info
      else
        match x with
        | [] => .error .fault
        | optlen :: x =>
          if len - 2 < optlen.toNat then .ok info
          else
            (decodeOption opt optlen x info).bind
              (decodeOptions (x.drop optlen.toNat) (len - 2 - optlen.toNat))
termination_by len

/-- The result of `decode_dhcp_msg`, and `*info`. -/
def decodeDhcpMsg (msg : DhcpMsg) (len : Nat) : Outcome DhcpInfo :=
  if len < DHCP_MSG_FIXED_SIZE + 4 then .ok (-1, .zero)
  else if msg.options[0] ≠ OPT_COOKIE1 then .ok (-1, .zero)
  else if msg.options[1] ≠ OPT_COOKIE2 then .ok (-1, .zero)
  else if msg.options[2] ≠ OPT_COOKIE3 then .ok (-1, .zero)
  else if msg.options[3] ≠ OPT_COOKIE4 then .ok (-1, .zero)
  else
    (decodeOptions (msg.options.toList.drop 4) (len - (DHCP_MSG_FIXED_SIZE + 4)) .zero).map fun info =>
      (0, { info with ipaddr := msg.yiaddr })

/-- A loop of `dump_dhcp_msg`: what does not print becomes a dot, up to the first NUL. -/
def dotted : List UInt8 → List UInt8
  | [] => []
  | x :: xs =>
    if x < 32 ∨ 127 < x then
      if x = 0 then x :: xs else 46 :: dotted xs
    else x :: dotted xs

theorem length_dotted (xs : List UInt8) : (dotted xs).length = xs.length := by
  induction xs with
  | nil => rfl
  | cons x xs ih =>
    rw [dotted]
    split
    · split
      · rfl
      · rw [List.length_cons, ih, List.length_cons]
    · rw [List.length_cons, ih, List.length_cons]

/-- A dumped text field: dotted, with a NUL at its end. -/
def dumpText (text : Vector UInt8 (n + 1)) : Vector UInt8 (n + 1) :=
  (⟨(dotted text.toList).toArray, by simp [length_dotted]⟩ : Vector UInt8 (n + 1)).set n 0

/-- What `dump_dhcp_msg` does to the message it logs. -/
def dumpDhcpMsg (msg : DhcpMsg) (len : Nat) : DhcpMsg :=
  if len < DHCP_MSG_FIXED_SIZE then msg
  else { msg with sname := dumpText msg.sname, file := dumpText msg.file }

/-- `msg` is one of ours, with 6 for `hlen`. -/
def isValidReply (msg reply : DhcpMsg) (sz : Nat) : Bool :=
  if sz < DHCP_MSG_FIXED_SIZE then false
  else if reply.op ≠ OP_BOOTREPLY then false
  else if reply.xid ≠ msg.xid then false
  else if reply.htype ≠ msg.htype then false
  else if reply.hlen ≠ msg.hlen then false
  else if msg.chaddr.toList.take msg.hlen.toNat ≠ reply.chaddr.toList.take msg.hlen.toNat then false
  else true

def HasCookie (msg : DhcpMsg) : Prop :=
  msg.options[0] = OPT_COOKIE1 ∧ msg.options[1] = OPT_COOKIE2 ∧ msg.options[2] = OPT_COOKIE3 ∧
    msg.options[3] = OPT_COOKIE4

instance (msg : DhcpMsg) : Decidable (HasCookie msg) := inferInstanceAs (Decidable (_ ∧ _))

end G361FPlatform.Dhcp
