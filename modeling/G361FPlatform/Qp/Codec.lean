import Mathlib.Algebra.Group.Nat.Defs
import G361FPlatform.Library.Outcome

namespace G361FPlatform.Qp

open Library

def CR : UInt8 := 13
def LF : UInt8 := 10
def EQ : UInt8 := 61
def HT : UInt8 := 9
def SP : UInt8 := 32
def DOT : UInt8 := 46

def EQCRLF : List UInt8 := [EQ, CR, LF]

def hexmap : List UInt8 := [48, 49, 50, 51, 52, 53, 54, 55, 56, 57, 65, 66, 67, 68, 69, 70]

/-- What the two methods throw: an index outside an array, or `XDSMimeException`, which quotes
the bytes that are no code. -/
inductive QpError
  | arrayIndexOutOfBounds
  | invalidCode (code : List UInt8)
  | badParameter
  deriving DecidableEq, Repr

/-- A Java `byte`, as arithmetic and comparison see it. -/
def signed (b : UInt8) : Int := b.toInt8.toInt

/-- The variables of `encodeQP`.  `buf` is the part of `l_bufenc` in front of `linelen`. -/
structure EncodeState where
  output : List UInt8
  buf : List UInt8
  previous : UInt8
  written : Int32
  lastspace : Bool
  nullCount : Nat

namespace EncodeState

def init : EncodeState := ⟨[], [], 0, 0, false, 0⟩

def linelen (s : EncodeState) : Nat := s.buf.length

/-- `l_bufenc[linelen++] = b` for each byte, and `written` counts them; `l_bufenc` has 80. -/
def put (bs : List UInt8) (s : EncodeState) : Except QpError EncodeState :=
  if s.linelen + bs.length ≤ 80 then
    .ok { s with buf := s.buf ++ bs, written := s.written + Int32.ofNat bs.length }
  else .error .arrayIndexOutOfBounds

/-- `output.write(l_bufenc, 0, linelen); linelen = 0;` -/
def flush (s : EncodeState) : EncodeState := { s with output := s.output ++ s.buf, buf := [] }

/-- `if (linelen > 74)`: a soft line break. -/
def breakLine (s : EncodeState) : EncodeState :=
  if 74 < s.linelen then { s with output := s.output ++ s.buf ++ EQCRLF, written := s.written + 3, buf := [] }
  else s

def code (b : UInt8) : List UInt8 :=
  [EQ, hexmap.getD ((b.toNat >>> 4) &&& 0xF) 0, hexmap.getD (b.toNat &&& 0xF) 0]

/-- `for (int idx = 1; idx <= nullCount; idx++)` -/
def putNulls : Nat → EncodeState → Except QpError EncodeState
  | 0, s => .ok s
  | n + 1, s => (s.put (code 0)).bind fun s => putNulls n s.breakLine

/-- The soft line break in front of a hard one, behind a blank or a lone dot. -/
def guardLine (s : EncodeState) : Except QpError EncodeState :=
  if s.lastspace ∨ (s.previous = DOT ∧ s.linelen = 1) then s.put EQCRLF else .ok s

/-- The chain of `if`s on a byte other than NUL. -/
def putByte (current : UInt8) (s : EncodeState) : Except QpError EncodeState :=
  if signed SP < signed current ∧ signed current < 0x7F ∧ current ≠ EQ ∧ current ≠ 40 ∧
      current ≠ 41 ∧ current ≠ 59 ∧ current ≠ 58 then
    (s.put [current]).map fun s => { s with lastspace := false, previous := current }
  else if current = SP ∨ current = HT then
    (s.put [current]).map fun s => { s with lastspace := true, previous := current }
  else if current = LF ∧ s.previous = CR then .ok { s with previous := 0 }
  else if current = LF then
    s.guardLine.bind fun s => (s.put (code LF)).map fun s =>
      { s.flush with lastspace := false, previous := 0 }
  else if current = CR then
    s.guardLine.bind fun s => (s.put [CR, LF]).map fun s =>
      { s.flush with lastspace := false, previous := 0 }
  else if signed current < signed SP ∨ current = EQ ∨ 0x7F ≤ signed current ∨ current = 40 ∨
      current = 41 ∨ current = 59 ∨ current = 58 then
    (s.put (code current)).map fun s => { s with lastspace := false, previous := current }
  else (s.put [current]).map fun s => { s with lastspace := false, previous := current }

/-- One round of `while (true)`, on a byte that was read. -/
def step (current : UInt8) (s : EncodeState) : Except QpError EncodeState :=
  let s := if 74 < s.linelen then { s.breakLine with previous := 0 } else s
  if current = 0 then
    .ok { s with nullCount := s.nullCount + 1, previous := current, lastspace := false }
  else if 0 < s.nullCount then
    (s.putNulls s.nullCount).bind fun s => { s with previous := 0, nullCount := 0 }.putByte current
  else s.putByte current

def encodeLoop : List UInt8 → EncodeState → Except QpError EncodeState
  | [], s => .ok s
  | b :: bs, s => (s.step b).bind (encodeLoop bs)

end EncodeState

/-- What `encodeQP` writes, and the number it returns. -/
def encodeQP (input : List UInt8) : Except QpError (List UInt8 × Int32) :=
  (EncodeState.init.encodeLoop input).map fun s =>
    (if 0 < s.linelen then s.output ++ s.buf else s.output, s.written)

/-- `Character.digit(ch, 16)` of a byte taken for a `char`. -/
def digit (b : UInt8) : Option Nat :=
  if 48 ≤ b ∧ b ≤ 57 then some (b.toNat - 48)
  else if 65 ≤ b ∧ b ≤ 70 then some (b.toNat - 55)
  else if 97 ≤ b ∧ b ≤ 102 then some (b.toNat - 87)
  else none

/-- The variables of `decodeQP`.  `res` is the part of the array in front of `j`. -/
structure DecodeState where
  res : List UInt8
  last : Nat

namespace DecodeState

/-- `res[j++] = b`; the array has `size` bytes. -/
def push (size : Nat) (b : UInt8) (s : DecodeState) : Except QpError DecodeState :=
  if s.res.length < size then .ok { s with res := s.res ++ [b] } else .error .arrayIndexOutOfBounds

/-- `last = j` -/
def mark (s : DecodeState) : DecodeState := { s with last := s.res.length }

end DecodeState

/-- `src[i]` -/
def at_ (src : List UInt8) (i : Nat) : Except QpError UInt8 :=
  match src[i]? with
  | none => .error .arrayIndexOutOfBounds
  | some b => .ok b

/-- What follows a `=`; `i` is behind it. -/
def decodeCode (src : List UInt8) (size i : Nat) (s : DecodeState) :
    Except QpError (Nat × DecodeState) :=
  (at_ src i).bind fun b =>
    if b = LF ∨ b = CR then
      if b = CR then (at_ src (i + 1)).map fun b' => (if b' = LF then i + 2 else i + 1, s.mark)
      else .ok (i + 1, s.mark)
    else
      (at_ src (i + 1)).bind fun b' =>
        match digit b, digit b' with
        | some hi, some lo => (s.push size (UInt8.ofNat (hi <<< 4 ||| lo))).map fun s => (i + 2, s.mark)
        | _, _ => .error (.invalidCode [EQ, b, b'])

/-- What follows a hard line break; `nl` is the line separator of the system. -/
def decodeBreak (nl src : List UInt8) (size i : Nat) (ch : UInt8) (s : DecodeState) :
    Except QpError (Nat × DecodeState) :=
  (if ch = CR then (at_ src i).map fun b => if b = LF then i + 1 else i else .ok i).bind fun i =>
    if s.last + nl.length ≤ size then .ok (i, { s with res := s.res.take s.last ++ nl }.mark)
    else .error .arrayIndexOutOfBounds

def decodeStep (nl src : List UInt8) (size i : Nat) (s : DecodeState) :
    Except QpError (Nat × DecodeState) :=
  (at_ src i).bind fun ch =>
    if ch = EQ then decodeCode src size (i + 1) s
    else if ch = LF ∨ ch = CR then decodeBreak nl src size (i + 1) ch s
    else (s.push size ch).map fun s => (i + 1, if ch = SP ∨ ch = HT then s else s.mark)

theorem decodeStep_lt {nl src : List UInt8} {size i i' : Nat} {s s' : DecodeState}
    (h : decodeStep nl src size i s = .ok (i', s')) : i < i' := by
  obtain ⟨ch, -, h⟩ := bind_eq_ok h
  split at h
  · obtain ⟨b, -, h⟩ := bind_eq_ok h
    split at h
    · split at h
      · obtain ⟨b', -, h⟩ := map_eq_ok h
        have := (Prod.mk.inj h).1
        split at this <;> omega
      · cases h
        omega
    · obtain ⟨b', -, h⟩ := bind_eq_ok h
      split at h
      · obtain ⟨s₁, -, h⟩ := map_eq_ok h
        cases h
        omega
      · cases h
  · split at h
    · obtain ⟨i₁, h₁, h⟩ := bind_eq_ok h
      have hle : i + 1 ≤ i₁ := by
        split at h₁
        · obtain ⟨b, -, h₁⟩ := map_eq_ok h₁
          split at h₁ <;> omega
        · cases h₁
          omega
      split at h
      · cases h
        omega
      · cases h
    · obtain ⟨s₁, -, h⟩ := map_eq_ok h
      cases h
      omega

/-- `for (int i = 0; i < len;)` -/
def decodeLoop (nl src : List UInt8) (len i : Nat) (s : DecodeState) : Except QpError DecodeState :=
  if i < len then
    match h : decodeStep nl src (len + 1) i s with
    | .error e => .error e
    | .ok (i', s') =>
      have : i < i' := decodeStep_lt h
      decodeLoop nl src len i' s'
  else .ok s
termination_by len - i

/-- `bytesIn` is `none` for a null reference. -/
def decodeQP (nl : List UInt8) (bytesIn : Option (List UInt8)) (len : Nat) :
    Except QpError (List UInt8) :=
  match bytesIn with
  | none => .error .badParameter
  | some src => (decodeLoop nl src len 0 ⟨[], 0⟩).map DecodeState.res

end G361FPlatform.Qp
