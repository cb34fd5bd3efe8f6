import Mathlib.Logic.Function.Iterate
import G361FPlatform.Library.CString

namespace G361FPlatform.Dnsmasq

open Library

/-- A buffer with a DNS packet at its start: behind the first `plen` bytes lies whatever was there before. -/
structure Packet where
  mem : Nat → UInt8
  plen : Nat

def Packet.ofBytes (bs : List UInt8) : Packet := ⟨fun i => bs.getD i 0, bs.length⟩

def MAXDNAME : Nat := 1025

def lowerCase (c : UInt8) : UInt8 := if 65 ≤ c ∧ c ≤ 90 then c + 32 else c

def hostnameIsequal (a b : CString) : Bool := a.map lowerCase = b.map lowerCase

namespace Packet

variable (header : Packet)

/-- `CHECK_LEN` -/
def checkLen (p len : Nat) : Bool := p + len ≤ header.plen

/-- The `len` bytes at `p`. -/
def bytes (p len : Nat) : List UInt8 := (List.range len).map fun j => header.mem (p + j)

/-- `GETSHORT` -/
def getShort (p : Nat) : UInt16 := (header.mem p).toUInt16 <<< 8 ||| (header.mem (p + 1)).toUInt16

def labelType (p : Nat) : UInt8 := header.mem p &&& 0xc0

/-- Where the compression pointer at `p` leads. -/
def pointer (p : Nat) : Nat := (header.mem p &&& 0x3f).toNat * 256 + (header.mem (p + 1)).toNat

/-- The length of the label at `p`. -/
def labelLen (p : Nat) : Nat := (header.mem p).toNat

/-- The number of bits in the bitstring at `p`. -/
def bitCount (p : Nat) : Nat := if header.mem (p + 1) = 0 then 256 else (header.mem (p + 1)).toNat

/-- The number of hexadecimal digits that it is written with. -/
def bitDigits (p : Nat) : Nat := (header.bitCount p - 1) / 4 + 1

def hexDigit (dig : UInt8) : UInt8 := if dig < 10 then dig + 48 else dig + 55

def hexDigits (p : Nat) : List UInt8 :=
  (List.range (header.bitDigits p)).map fun j =>
    hexDigit (if j % 2 = 0 then header.mem (p + 2 + j / 2) >>> 4 else header.mem (p + 2 + j / 2) &&& 0x0f)

/-- `\[x<hex>/siz].` -/
def bitstring (p : Nat) : CString :=
  [92, 91, 120] ++ header.hexDigits p ++ [47] ++ CString.ofString (toString (header.bitCount p)) ++ [93, 46]

end Packet

def isNameChar (c : UInt8) : Bool := 32 ≤ c ∧ c < 127 ∧ c ≠ 46

/-- `extract_name` with `isExtract`, from `p` on: `p1` is where the first jump has to go back to, `text` what
lies in `name` so far. -/
def extractFrom (header : Packet) (extrabytes p : Nat) (p1 : Option Nat) (hops : Nat) (text : CString) :
    Option (Nat × CString) :=
  if ¬header.checkLen p 1 then none
  else if header.mem p = 0 then
    if ¬header.checkLen (p + 1) extrabytes then none else some (p1.getD (p + 1), text.dropLast)
  else if header.labelType p = 0xc0 then
    if ¬header.checkLen (p + 1) 1 then none
    else if hops + 1 > 255 then none
    else extractFrom header extrabytes (header.pointer p) (p1.or (some (p + 2))) (hops + 1) text
  else if header.labelType p = 0x80 then none
  else if header.labelType p = 0x40 then
    if header.mem p &&& 0x3f ≠ 1 then none
    else if text.length + header.bitDigits p + 9 ≥ MAXDNAME then none
    else if ¬header.checkLen (p + 2) ((header.bitCount p - 1) / 8) then none
    -- only every second digit moves `p`
    else extractFrom header extrabytes (p + 2 + header.bitDigits p / 2) p1 hops (text ++ header.bitstring p)
  else if text.length + header.labelLen p + 1 ≥ MAXDNAME then none
  else if ¬header.checkLen (p + 1) (header.labelLen p) then none
  else if (header.bytes (p + 1) (header.labelLen p)).all isNameChar then
    extractFrom header extrabytes (p + 1 + header.labelLen p) p1 hops
      (text ++ header.bytes (p + 1) (header.labelLen p) ++ [46])
  else none
termination_by (256 - hops, header.plen + 1 - p)
decreasing_by
  all_goals simp only [Packet.checkLen, decide_eq_true_eq, Decidable.not_not] at *
  · exact Prod.Lex.left _ _ (by omega)
  · exact Prod.Lex.right _ (by omega)
  · exact Prod.Lex.right _ (by omega)

/-- `extract_name` that fills `name`: where the packet goes on, and the name. -/
def extractName (header : Packet) (p extrabytes : Nat) : Option (Nat × CString) :=
  extractFrom header extrabytes p none 0 []

/-- The characters of a label against those at `cp`; `same` as long as no difference has been seen. -/
def compareLabel : List UInt8 → CString → Bool → CString × Bool
  | [], cp, same => (cp, same)
  | _ :: label, [], _ => compareLabel label [] false
  | c2 :: label, c1 :: cp, same => compareLabel label cp (same && lowerCase c1 = lowerCase c2)

def compareDot : CString × Bool → CString × Bool
  | ([], same) => ([], same)
  | (c :: cp, same) => (cp, same && c = 46)

/-- `extract_name` without `isExtract`, from `p` on, with `cp` left of `name`. -/
def compareFrom (header : Packet) (name : CString) (extrabytes p : Nat) (p1 : Option Nat) (hops : Nat)
    (cp : CString) (same : Bool) : Option (Nat × Bool) :=
  if ¬header.checkLen p 1 then none
  else if header.mem p = 0 then
    if ¬header.checkLen (p + 1) extrabytes then none else some (p1.getD (p + 1), same && cp.isEmpty)
  else if header.labelType p = 0xc0 then
    if ¬header.checkLen (p + 1) 1 then none
    else if hops + 1 > 255 then none
    else compareFrom header name extrabytes (header.pointer p) (p1.or (some (p + 2))) (hops + 1) cp same
  else if header.labelType p = 0x80 then none
  else if header.labelType p = 0x40 then none
  else if name.length - cp.length + header.labelLen p + 1 ≥ MAXDNAME then none
  else if ¬header.checkLen (p + 1) (header.labelLen p) then none
  else
    let compared := compareDot (compareLabel (header.bytes (p + 1) (header.labelLen p)) cp same)
    compareFrom header name extrabytes (p + 1 + header.labelLen p) p1 hops compared.1 compared.2
termination_by (256 - hops, header.plen + 1 - p)
decreasing_by
  all_goals simp only [Packet.checkLen, decide_eq_true_eq, Decidable.not_not] at *
  · exact Prod.Lex.left _ _ (by omega)
  · exact Prod.Lex.right _ (by omega)

/-- `extract_name` that compares with `name`: where the packet goes on, and whether 1 is returned rather than 2. -/
def compareName (header : Packet) (p : Nat) (name : CString) (extrabytes : Nat) : Option (Nat × Bool) :=
  compareFrom header name extrabytes p none 0 name true

def skipName (header : Packet) (ansp extrabytes : Nat) : Option Nat :=
  let finish (ansp : Nat) := if ¬header.checkLen ansp extrabytes then none else some ansp
  if ¬header.checkLen ansp 1 then none
  else if header.labelType ansp = 0xc0 then finish (ansp + 2)
  else if header.labelType ansp = 0x80 then none
  else if header.labelType ansp = 0x40 then
    if ¬header.checkLen ansp 2 then none
    else if header.mem ansp &&& 0x3f ≠ 1 then none
    else skipName header (ansp + 2 + if header.mem (ansp + 1) = 0 then 32 else (header.bitCount ansp - 1) / 8 + 1)
      extrabytes
  else
    let len := (header.mem ansp &&& 0x3f).toNat
    if ¬header.checkLen (ansp + 1) len then none
    else if len = 0 then finish (ansp + 1)
    else skipName header (ansp + 1 + len) extrabytes
termination_by header.plen + 1 - ansp
decreasing_by
  all_goals simp only [Packet.checkLen, decide_eq_true_eq, Decidable.not_not] at *; omega

/-- `do_rfc1035_name`: what it puts at `p`. -/
def doRfc1035Name (sval : CString) : List UInt8 :=
  match sval with
  | [] => []
  | c :: s =>
    let label := (c :: s).takeWhile (· ≠ 46)
    UInt8.ofNat label.length :: label ++ doRfc1035Name (((c :: s).drop label.length).drop 1)
termination_by sval.length
decreasing_by simp only [List.length_drop, List.length_cons]; omega

section Header

variable (header : Packet)

def HEADER_SIZE : Nat := 12

def Packet.id : UInt16 := header.getShort 0
def Packet.hb3 : UInt8 := header.mem 2
def Packet.hb4 : UInt8 := header.mem 3
def Packet.qdcount : UInt16 := header.getShort 4

def crcShift (crc : UInt32) : UInt32 :=
  if crc &&& 0x80000000 ≠ 0 then (crc <<< 1) ^^^ 0x04c11db7 else crc <<< 1

def crcByte (crc : UInt32) (c : UInt8) : UInt32 := Nat.iterate crcShift 8 (crc ^^^ (c.toUInt32 <<< 24))

/-- `questions_crc` where `q` questions are left. -/
def questionsCrcFrom : Nat → UInt32 → Nat → UInt32
  | 0, crc, _ => crc
  | q + 1, crc, p =>
    match extractName header p 4 with
    | none => crc
    | some (p, name) =>
      let crc := (name.map lowerCase).foldl crcByte crc
      let crc := (header.bytes p 4).foldl crcByte crc
      if ¬header.checkLen (p + 4) 0 then crc else questionsCrcFrom q crc (p + 4)

def questionsCrc : UInt32 := questionsCrcFrom header header.qdcount.toNat 0xffffffff HEADER_SIZE

def skipQuestionsFrom : Nat → Nat → Option Nat
  | 0, ansp => some ansp
  | q + 1, ansp => (skipName header ansp 4).bind fun ansp => skipQuestionsFrom q (ansp + 4)

def skipQuestions : Option Nat := skipQuestionsFrom header header.qdcount.toNat HEADER_SIZE

def F_IPV4 : UInt32 := 0x80
def F_IPV6 : UInt32 := 0x100
def F_QUERY : UInt32 := 0x80000

def QUERY : UInt8 := 0
def C_IN : UInt16 := 1
def T_A : UInt16 := 1
def T_AAAA : UInt16 := 28
def T_ANY : UInt16 := 255

/-- `OPCODE` -/
def Packet.opcode : UInt8 := (header.hb3 &&& 0x78) >>> 3

/-- `RCODE` -/
def Packet.rcode : UInt8 := header.hb4 &&& 0x0f

/-- `extract_request`: the flags with the name, or none where it returns 0. -/
def extractRequest : Option (UInt32 × CString) :=
  if header.qdcount ≠ 1 ∨ header.opcode ≠ QUERY then none
  else (extractName header HEADER_SIZE 4).map fun (p, name) =>
    let qtype := header.getShort p
    let flags :=
      if header.getShort (p + 2) ≠ C_IN then F_QUERY
      else if qtype = T_A then F_IPV4
      else if qtype = T_AAAA then F_IPV6
      else if qtype = T_ANY then F_IPV4 ||| F_IPV6
      else F_QUERY
    (flags, name)

end Header

end G361FPlatform.Dnsmasq
