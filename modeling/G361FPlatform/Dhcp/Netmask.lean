import G361FPlatform.Dhcp.Decode
import G361FPlatform.Library.CString

namespace G361FPlatform.Dhcp

open Library LittleEndian

def INADDR_NONE : UInt32 := 0xffffffff

def digitValue (c : UInt8) : Nat :=
  if 48 ≤ c ∧ c ≤ 57 then c.toNat - 48
  else if 97 ≤ c ∧ c ≤ 102 then c.toNat - 87
  else if 65 ≤ c ∧ c ≤ 70 then c.toNat - 55
  else 16

def digitsValue (base : Nat) : CString → Nat → Option Nat
  | [], v => some v
  | c :: s, v => if digitValue c < base then digitsValue base s (v * base + digitValue c) else none

/-- A part of an address: hexadecimal, octal or decimal, as in C. -/
def inetPart : CString → Option Nat
  | [] => none
  | c :: s =>
    if c = 48 then
      match s with
      | [] => some 0
      | x :: s =>
        if x = 120 ∨ x = 88 then
          if s = [] then none else digitsValue 16 s 0
        else digitsValue 8 (x :: s) 0
    else digitsValue 10 (c :: s) 0

/-- The address with the given parts, in host order: all but the last are bytes. -/
def inetWord : List Nat → Option Nat
  | [a] => if a < 2 ^ 32 then some a else none
  | [a, b] => if a < 2 ^ 8 ∧ b < 2 ^ 24 then some (a * 2 ^ 24 + b) else none
  | [a, b, c] =>
    if a < 2 ^ 8 ∧ b < 2 ^ 8 ∧ c < 2 ^ 16 then some (a * 2 ^ 24 + b * 2 ^ 16 + c) else none
  | [a, b, c, d] =>
    if a < 2 ^ 8 ∧ b < 2 ^ 8 ∧ c < 2 ^ 8 ∧ d < 2 ^ 8 then
      some (a * 2 ^ 24 + b * 2 ^ 16 + c * 2 ^ 8 + d)
    else none
  | _ => none

/-- `inet_addr` of the C library: `INADDR_NONE` for what is no address.  White space ends one. -/
def inetAddr (cp : CString) : UInt32 :=
  match ((CString.tokens 46 (cp.takeWhile fun c => !CString.isSpace c)).mapM inetPart).bind inetWord with
  | some w => swap32 (UInt32.ofNat w)
  | none => INADDR_NONE

def decimal (b : UInt8) : CString :=
  let digit (n : Nat) : UInt8 := UInt8.ofNat (48 + n)
  if b < 10 then [digit b.toNat]
  else if b < 100 then [digit (b.toNat / 10), digit (b.toNat % 10)]
  else [digit (b.toNat / 100), digit (b.toNat / 10 % 10), digit (b.toNat % 10)]

/-- The dotted form of an address in network order. -/
def dottedForm (addr : UInt32) : CString :=
  match bytes32 addr with
  | [a, b, c, d] => decimal a ++ 46 :: (decimal b ++ 46 :: (decimal c ++ 46 :: decimal d))
  | _ => []

/-- `for (p = 0; p < 32; p++)` of `fill_ip_info`, from `p` on. -/
def maskLoop (mask p : Nat) : Option Nat :=
  if 32 ≤ p then some p
  else if mask = 0 then some p
  else if mask / 2 ^ 31 % 2 = 0 then none
  else maskLoop (2 * mask % 2 ^ 32) (p + 1)
termination_by 32 - p

/-- `sizeof(errmsg)` -/
def ERRMSG_SIZE : Nat := 100

def maskError (propValue : CString) : CString :=
  ((("DHCP gave invalid net mask " : CString) ++ propValue).take (ERRMSG_SIZE - 1))

/-- What `fill_ip_info` makes of the property with the mask: `*prefixLength`, or `errmsg`. -/
def fillPrefixLength (propValue : CString) : Except CString Nat :=
  let mask := swap32 (inetAddr propValue)
  if mask = INADDR_NONE ∧ propValue ≠ ("255.255.255.255" : CString) then .error (maskError propValue)
  else
    match maskLoop mask.toNat 0 with
    | none => .error (maskError propValue)
    | some p => .ok p

def prefixLengthToIpv4Netmask (prefixLength : Int) : UInt32 :=
  if prefixLength ≤ 0 ∨ 32 < prefixLength then 0
  else swap32 (UInt32.ofNat ((2 ^ 32 - 1) * 2 ^ (32 - prefixLength.toNat) % 2 ^ 32))

end G361FPlatform.Dhcp
