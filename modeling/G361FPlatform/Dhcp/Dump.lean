import G361FPlatform.Dhcp.Decode
import G361FPlatform.Library.Block

namespace G361FPlatform.Dhcp

open Library LittleEndian

def OPT_DOMAIN_NAME : UInt8 := 15
def OPT_MESSAGE : UInt8 := 56

def DHCPDECLINE : UInt8 := 4
def DHCPRELEASE : UInt8 := 7
def DHCPINFORM : UInt8 := 8

def dhcpTypeToName (type : UInt8) : String :=
  if type = DHCPDISCOVER then "discover"
  else if type = DHCPOFFER then "offer"
  else if type = DHCPREQUEST then "request"
  else if type = DHCPDECLINE then "decline"
  else if type = DHCPACK then "ack"
  else if type = DHCPNAK then "nak"
  else if type = DHCPRELEASE then "release"
  else if type = DHCPINFORM then "inform"
  else "???"

def hexDigit (n : Nat) : UInt8 := UInt8.ofNat (if n < 10 then 48 + n else 87 + n)

/-- What `sprintf(cp, " %02x ", b)` writes, with the NUL at its end. -/
def hexText (b : UInt8) : List UInt8 := [32, hexDigit (b.toNat / 16), hexDigit (b.toNat % 16), 32, 0]

/-- The loop of `hex2str`, from `cp - buf` on. -/
def hex2str (buf : Block) (cp : Nat) : List UInt8 → Except Stuck Block
  | [] => .ok buf
  | b :: array => (buf.store cp (hexText b)).bind fun buf => hex2str buf (cp + 4) array

/-- The string in a buffer, as `%s` shows it.  It may not have been written at all. -/
def shownText (buf : Block) : Block := buf.takeWhile (· ≠ some 0)

/-- `sizeof(buf)` -/
def DUMP_BUF_SIZE : Nat := 2048

/-- What an option of size `optsz` leaves in `buf`; `x` is the memory from its value on. -/
def dumpValue (op optsz : UInt8) (x : List UInt8) (buf : Block) : Except Stuck Block :=
  if op = OPT_DOMAIN_NAME ∨ op = OPT_MESSAGE then
    let n := if optsz.toNat < DUMP_BUF_SIZE - 1 then optsz.toNat else DUMP_BUF_SIZE - 1
    (Block.slice x 0 n).bind fun bs => (buf.store 0 bs).bind fun buf => buf.store n [0]
  else (Block.slice x 0 optsz.toNat).bind fun bs => hex2str buf 0 bs

def dumpName (op : UInt8) (x : List UInt8) : Except Stuck String :=
  if op = OPT_MESSAGE_TYPE then (Block.byteAt x 0).map dhcpTypeToName else .ok ""

/-- An option, by its code, its length and where its value stands among the options. -/
structure Visit where
  code : UInt8
  length : UInt8
  offset : Nat
  deriving DecidableEq, Repr

/-- `"op %d len %d {%s} %s"` -/
structure ShownOption where
  visit : Visit
  text : Block
  name : String

/-- `while (len > 2)` of `dump_dhcp_msg`; `x` is the memory from option byte `off` on. -/
def dumpOptions (x : List UInt8) (off len : Nat) (buf : Block) : Except Stuck (List ShownOption) :=
  if len ≤ 2 then .ok []
  else
    match x with
    | [] => .error .fault
    | op :: x =>
      if op = 0 then dumpOptions x (off + 1) (len - 1) buf
      else if op = OPT_END then .ok []
      else
        match x with
        | [] => .error .fault
        | optsz :: x =>
          if len - 2 < optsz.toNat then .ok []
          else
            (dumpValue op optsz x buf).bind fun buf =>
              (dumpName op x).bind fun name =>
                (dumpOptions (x.drop optsz.toNat) (off + (optsz.toNat + 2)) (len - 2 - optsz.toNat) buf).map
                  (⟨⟨op, optsz, off + 2⟩, shownText buf, name⟩ :: ·)
termination_by len

/-- `for (n = 0; n < bound; n++)` over a text of the message. -/
def dotLoop (bound n : Nat) (text : List UInt8) : Except Stuck (List UInt8) :=
  if bound ≤ n then .ok text
  else
    match text[n]? with
    | none => .error .fault
    | some x =>
      if x < 32 ∨ 127 < x then
        if x = 0 then .ok text else dotLoop bound (n + 1) (text.set n 46)
      else dotLoop bound (n + 1) text
termination_by bound - n

/-- `text[n] = b` -/
def setByte (text : List UInt8) (n : Nat) (b : UInt8) : Except Stuck (List UInt8) :=
  if n < text.length then .ok (text.set n b) else .error .fault

def dotText (bound : Nat) (text : List UInt8) : Except Stuck (List UInt8) :=
  (dotLoop bound 0 text).bind fun text => setByte text (bound - 1) 0

/-- The lines that are logged before the options. -/
inductive DumpLine
  | start
  | invalidLength (len : Int)
  | op (name : String) (op htype hlen hops : UInt8)
  | xid (xid : UInt32) (secs flags : UInt16) (optlen : Int)
  | addresses (ciaddr yiaddr siaddr giaddr : UInt32)
  | chaddr (text : Block)
  | texts (sname file : List UInt8)

/-- What `dump_dhcp_msg` leaves: the texts it has written over, and the log. -/
structure Dump where
  sname : List UInt8
  file : List UInt8
  lines : List DumpLine
  options : List ShownOption

def opName (op : UInt8) : String :=
  if op = OP_BOOTREQUEST then "BOOTREQUEST" else if op = OP_BOOTREPLY then "BOOTREPLY" else "????"

/-- The lines before the options; `len` is the length of the options. -/
def dumpLines (msg : DhcpMsg) (len : Int) (buf : Block) (sname file : List UInt8) : List DumpLine :=
  [.start,
    .op (opName msg.op) msg.op msg.htype msg.hlen msg.hops,
    .xid (swap32 msg.xid) (swap16 msg.secs) (swap16 msg.flags) len,
    .addresses msg.ciaddr msg.yiaddr msg.siaddr msg.giaddr,
    .chaddr (shownText buf),
    .texts (sname.takeWhile (· ≠ 0)) (file.takeWhile (· ≠ 0))]

/-- `dump_dhcp_msg`, with its options in the given memory and whatever is in `buf`. -/
def dump (msg : DhcpMsg) (options : List UInt8) (len : Int) (buf : Block) : Except Stuck Dump :=
  if len < DHCP_MSG_FIXED_SIZE then
    .ok ⟨msg.sname.toList, msg.file.toList, [.start, .invalidLength len], []⟩
  else
    let len := len - DHCP_MSG_FIXED_SIZE
    let c := if 16 < msg.hlen then 16 else msg.hlen.toNat
    (Block.slice msg.chaddr.toList 0 c).bind fun hwaddr =>
      (hex2str buf 0 hwaddr).bind fun buf =>
        (dotText 64 msg.sname.toList).bind fun sname =>
          (dotText 128 msg.file.toList).bind fun file =>
            let lines := dumpLines msg len buf sname file
            if len < 4 then .ok ⟨sname, file, lines, []⟩
            else (dumpOptions (options.drop 4) 4 (len - 4).toNat buf).map (⟨sname, file, lines, ·⟩)

/-- The loop of `decode_dhcp_msg`, with the options it visits. -/
def visitOptions (x : List UInt8) (off len : Nat) (info : DhcpInfo) :
    Except Stuck (DhcpInfo × List Visit) :=
  if len ≤ 2 then .ok (info, [])
  else
    match x with
    | [] => .error .fault
    | opt :: x =>
      if opt = OPT_PAD then visitOptions x (off + 1) (len - 1) info
      else if opt = OPT_END then .ok (info, [])
      else
        match x with
        | [] => .error .fault
        | optlen :: x =>
          if len - 2 < optlen.toNat then .ok (info, [])
          else
            (decodeOption opt optlen x info).bind fun info =>
              (visitOptions (x.drop optlen.toNat) (off + 2 + optlen.toNat) (len - 2 - optlen.toNat) info).map
                fun (info, visits) => (info, ⟨opt, optlen, off + 2⟩ :: visits)
termination_by len

end G361FPlatform.Dhcp
