import G361FPlatform.Qp.Codec

namespace G361FPlatform.Qp

open Library

/-- What `encodeQP` does to an array: a store into `l_bufenc`, or a write of the first bytes of one. -/
inductive Access
  | store (index : Int32)
  | write (len : Int32)
  deriving DecidableEq, Repr

/-- The access is inside an array of 80 bytes. -/
def Access.InBounds : Access → Prop
  | .store index => 0 ≤ index.toInt ∧ index.toInt < 80
  | .write len => 0 ≤ len.toInt ∧ len.toInt ≤ 80

instance : (a : Access) → Decidable a.InBounds
  | .store _ => inferInstanceAs (Decidable (_ ∧ _))
  | .write _ => inferInstanceAs (Decidable (_ ∧ _))

/-- The variables of `encodeQP`, the array as a whole among them, and what was done so far. -/
structure Encoder where
  output : List UInt8
  l_bufenc : Vector UInt8 80
  previous : UInt8
  linelen : Int32
  written : Int32
  lastspace : Int32
  nullCount : Int32
  accesses : List Access

namespace Encoder

def init : Encoder := ⟨[], Vector.replicate 80 0, 0, 0, 0, 0, 0, []⟩

/-- `l_bufenc[linelen++] = b;` -/
def store (b : UInt8) (m : Encoder) : Except QpError Encoder :=
  if h : 0 ≤ m.linelen.toInt ∧ m.linelen.toInt < 80 then
    .ok { m with
      l_bufenc := m.l_bufenc.set m.linelen.toInt.toNat b (by omega)
      linelen := m.linelen + 1
      accesses := m.accesses ++ [.store m.linelen] }
  else .error .arrayIndexOutOfBounds

def stores : List UInt8 → Encoder → Except QpError Encoder
  | [], m => .ok m
  | b :: bs, m => (m.store b).bind (stores bs)

/-- A few stores, and `written` counts them. -/
def put (bs : List UInt8) (m : Encoder) : Except QpError Encoder :=
  (m.stores bs).map fun m => { m with written := m.written + Int32.ofNat bs.length }

/-- `output.write(l_bufenc, 0, linelen);` -/
def write (m : Encoder) : Except QpError Encoder :=
  if 0 ≤ m.linelen.toInt ∧ m.linelen.toInt ≤ 80 then
    .ok { m with
      output := m.output ++ m.l_bufenc.toList.take m.linelen.toInt.toNat
      accesses := m.accesses ++ [.write m.linelen] }
  else .error .arrayIndexOutOfBounds

/-- `if (linelen > 74)` -/
def breakLine (m : Encoder) : Except QpError Encoder :=
  if 74 < m.linelen then
    m.write.map fun m => { m with
      output := m.output ++ EQCRLF
      written := m.written + 3
      linelen := 0
      accesses := m.accesses ++ [.write (Int32.ofNat EQCRLF.length)] }
  else .ok m

/-- `for (int idx = 1; idx <= nullCount; idx++)`; a stream is full long before `idx` wraps. -/
def putNulls : Nat → Encoder → Except QpError Encoder
  | 0, m => .ok m
  | n + 1, m => (m.put (EncodeState.code 0)).bind fun m => m.breakLine.bind (putNulls n)

def guardLine (m : Encoder) : Except QpError Encoder :=
  if m.lastspace = 1 ∨ (m.previous = DOT ∧ m.linelen = 1) then m.put EQCRLF else .ok m

/-- The end of a branch that has written the line. -/
def newLine (m : Encoder) : Encoder := { m with lastspace := 0, previous := 0, linelen := 0 }

def putByte (current : UInt8) (m : Encoder) : Except QpError Encoder :=
  if signed SP < signed current ∧ signed current < 0x7F ∧ current ≠ EQ ∧ current ≠ 40 ∧
      current ≠ 41 ∧ current ≠ 59 ∧ current ≠ 58 then
    (m.put [current]).map fun m => { m with lastspace := 0, previous := current }
  else if current = SP ∨ current = HT then
    (m.put [current]).map fun m => { m with lastspace := 1, previous := current }
  else if current = LF ∧ m.previous = CR then .ok { m with previous := 0 }
  else if current = LF then
    m.guardLine.bind fun m => (m.put [EQ, 48, 65]).bind fun m => m.write.map newLine
  else if current = CR then
    m.guardLine.bind fun m => (m.put [CR, LF]).bind fun m => m.write.map newLine
  else if signed current < signed SP ∨ current = EQ ∨ 0x7F ≤ signed current ∨ current = 40 ∨
      current = 41 ∨ current = 59 ∨ current = 58 then
    (m.put (EncodeState.code current)).map fun m => { m with lastspace := 0, previous := current }
  else (m.put [current]).map fun m => { m with lastspace := 0, previous := current }

def step (current : UInt8) (m : Encoder) : Except QpError Encoder :=
  (if 74 < m.linelen then m.breakLine.map fun m => { m with previous := 0 } else .ok m).bind fun m =>
    if current = 0 then
      .ok { m with nullCount := m.nullCount + 1, previous := current, lastspace := 0 }
    else if 0 < m.nullCount then
      (m.putNulls m.nullCount.toInt.toNat).bind fun m =>
        { m with previous := 0, nullCount := 0 }.putByte current
    else m.putByte current

def loop : List UInt8 → Encoder → Except QpError Encoder
  | [], m => if 0 < m.linelen then m.write else .ok m
  | b :: bs, m => (m.step b).bind (loop bs)

end Encoder

/-- `encodeQP` with its array: the state it returns in, and the `long` it returns. -/
def encodeQPArray (input : List UInt8) : Except QpError (Encoder × Int) :=
  (Encoder.init.loop input).map fun m => (m, m.written.toInt)

end G361FPlatform.Qp
