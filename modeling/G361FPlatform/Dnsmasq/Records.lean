import G361FPlatform.Dnsmasq.Names

namespace G361FPlatform.Dnsmasq

open Library

/-- `PUTSHORT` -/
def putShort (s : UInt16) : List UInt8 := [(s >>> 8).toUInt8, s.toUInt8]

/-- `PUTLONG` -/
def putLong (l : UInt32) : List UInt8 := [(l >>> 24).toUInt8, (l >>> 16).toUInt8, (l >>> 8).toUInt8, l.toUInt8]

/-- `GETLONG` -/
def Packet.getLong (header : Packet) (p : Nat) : UInt32 :=
  (header.mem p).toUInt32 <<< 24 ||| (header.mem (p + 1)).toUInt32 <<< 16 ||| (header.mem (p + 2)).toUInt32 <<< 8 |||
    (header.mem (p + 3)).toUInt32

/-- A character of `format` with its argument. -/
inductive RecordArg
  /-- `6` and `4`: an address. -/
  | addr (sval : List UInt8)
  /-- `s` -/
  | short (usval : UInt16)
  /-- `l` -/
  | long (lval : UInt32)
  /-- `d` -/
  | domain (sval : CString)
  /-- `t` -/
  | text (sval : List UInt8)
  /-- `z` -/
  | string (sval : CString)

def RecordArg.bytes : RecordArg → List UInt8
  | addr sval => sval
  | short usval => putShort usval
  | long lval => putLong lval
  | domain sval => doRfc1035Name sval ++ [0]
  | text sval => sval
  | string sval =>
    -- the length goes through an `unsigned short`
    let usval := min (sval.length % 0x10000) 255
    UInt8.ofNat usval :: sval.take usval

/-- What `add_resource_record` is called with. -/
structure Record where
  nameoffset : UInt16
  ttl : UInt32
  type : UInt16
  rclass : UInt16
  args : List RecordArg

def Record.rdata (r : Record) : List UInt8 := r.args.flatMap RecordArg.bytes

def Record.bytes (r : Record) : List UInt8 :=
  putShort (r.nameoffset ||| 0xc000) ++ putShort r.type ++ putShort r.rclass ++ putLong r.ttl ++
    putShort (UInt16.ofNat r.rdata.length) ++ r.rdata

/-- A packet up to where the next record goes, and `*truncp`. -/
structure Building where
  packet : List UInt8
  trunc : Bool

/-- What is written behind `limit` does not count. -/
def addResourceRecord (limit : Option Nat) (r : Record) (b : Building) : Bool × Building :=
  if b.trunc then (false, b)
  else
    let packet := b.packet ++ r.bytes
    if limit.any (· < packet.length) then (false, { b with trunc := true }) else (true, { b with packet })

/-- A record as it is read. -/
structure ReadRecord where
  name : CString
  type : UInt16
  rclass : UInt16
  ttl : UInt32
  rdata : List UInt8
  deriving DecidableEq, Repr

/-- The fields of a record as `extract_addresses` reads them, and where the next one is. -/
def readRecord (header : Packet) (p : Nat) : Option (ReadRecord × Nat) :=
  (extractName header p 10).bind fun (p, name) =>
    let ardlen := (header.getShort (p + 8)).toNat
    let endrr := p + 10 + ardlen
    if ¬header.checkLen endrr 0 then none
    else some (⟨name, header.getShort p, header.getShort (p + 2), header.getLong (p + 4),
      header.bytes (p + 10) ardlen⟩, endrr)

def readRecords (header : Packet) : Nat → Nat → Option (List ReadRecord × Nat)
  | 0, p => some ([], p)
  | n + 1, p =>
    (readRecord header p).bind fun r => (readRecords header n r.2).map fun rs => (r.1 :: rs.1, rs.2)

/-- The bytes are stored from `p` on. -/
def Packet.store (header : Packet) (p : Nat) (bs : List UInt8) : Packet :=
  { header with mem := fun i => if p ≤ i then bs.getD (i - p) (header.mem i) else header.mem i }

/-- A TTL above `max_ttl` is replaced in the packet, though not in what has been read.  It stands before the length
of the data, which end at `endrr`. -/
def Packet.clampTtl (header : Packet) (maxTtl : UInt32) (r : ReadRecord) (endrr : Nat) : Packet :=
  if maxTtl ≠ 0 ∧ maxTtl < r.ttl then header.store (endrr - r.rdata.length - 6) (putLong maxTtl) else header

/-- The records that the loops of `extract_addresses` take one after the other, where they end, and what becomes of
the packet.  `maxTtl` is `daemon->max_ttl`, or 0 where `is_sign` is set. -/
def takeRecords (maxTtl : UInt32) (header : Packet) : Nat → Nat → Option (List ReadRecord × Nat × Packet)
  | 0, p => some ([], p, header)
  | n + 1, p =>
    (readRecord header p).bind fun r =>
      (takeRecords maxTtl (header.clampTtl maxTtl r.1 r.2) n r.2).map fun rs => (r.1 :: rs.1, rs.2)

/-- `skip_section` -/
def skipSection (header : Packet) : Nat → Nat → Option Nat
  | 0, ansp => some ansp
  | i + 1, ansp =>
    (skipName header ansp 10).bind fun ansp =>
      let rdlen := (header.getShort (ansp + 8)).toNat
      if ¬header.checkLen (ansp + 10) rdlen then none else skipSection header i (ansp + 10 + rdlen)

end G361FPlatform.Dnsmasq
