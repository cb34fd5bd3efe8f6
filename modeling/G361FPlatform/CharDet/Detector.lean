import G361FPlatform.CharDet.Prober
import Mathlib.Data.List.DropRight

namespace G361FPlatform.CharDet

def CHARSET_ISO_2022_JP : JString := "ISO-2022-JP".toList
def CHARSET_ISO_2022_CN : JString := "ISO-2022-CN".toList
def CHARSET_ISO_2022_KR : JString := "ISO-2022-KR".toList
def CHARSET_WINDOWS_1252 : JString := "WINDOWS-1252".toList
def CHARSET_UTF_16BE : JString := "UTF-16BE".toList
def CHARSET_UTF_16LE : JString := "UTF-16LE".toList
def CHARSET_UTF_32BE : JString := "UTF-32BE".toList
def CHARSET_UTF_32LE : JString := "UTF-32LE".toList
def CHARSET_HZ_GB_2312 : JString := "HZ-GB-2312".toList
def CHARSET_X_ISO_10646_UCS_4_3412 : JString := "X-ISO-10646-UCS-4-3412".toList
def CHARSET_X_ISO_10646_UCS_4_2143 : JString := "X-ISO-10646-UCS-4-2143".toList

/-- What a method throws. -/
inductive Thrown
  | nullPointer | arrayIndexOutOfBounds
  deriving DecidableEq, Repr

/-- A position of `codingSM`, with the number of the model: HZ, ISO-2022-CN, -JP and -KR. -/
structure CodingStateMachine where
  model : Fin 4
  currentState : Nat

namespace SMModel

def START : Nat := 0
def ERROR : Nat := 1
def ITSME : Nat := 2

def name : Fin 4 → JString :=
  ![CHARSET_HZ_GB_2312, CHARSET_ISO_2022_CN, CHARSET_ISO_2022_JP, CHARSET_ISO_2022_KR]

end SMModel

structure EscCharsetProber where
  codingSM : Nat → CodingStateMachine
  activeSM : Nat
  state : ProbingState
  detectedCharset : Option JString

namespace EscCharsetProber

def reset (s : EscCharsetProber) : EscCharsetProber where
  state := .detecting
  codingSM := fun j => { s.codingSM j with currentState := SMModel.START }
  activeSM := 4
  detectedCharset := none

/-- `new EscCharsetProber()` -/
def new : EscCharsetProber :=
  reset ⟨fun j => ⟨Fin.ofNat 4 j, SMModel.START⟩, 0, .detecting, none⟩

def swap (j k : Nat) (s : EscCharsetProber) : EscCharsetProber :=
  { s with codingSM := Function.update (Function.update s.codingSM k (s.codingSM j)) j (s.codingSM k) }

/-- `for (int j = this.activeSM - 1; j >= 0; --j)`; the number is `j + 1`.  `nextState` is what the
tables of the four models say. -/
def tryMachines (nextState : Fin 4 → UInt8 → Nat → Nat) (c : UInt8) : Nat → EscCharsetProber → EscCharsetProber
  | 0, s => s
  | j + 1, s =>
    let sm := s.codingSM j
    let codingState := nextState sm.model c sm.currentState
    let s := { s with codingSM := Function.update s.codingSM j { sm with currentState := codingState } }
    if codingState = SMModel.ERROR then
      let s := { s with activeSM := s.activeSM - 1 }
      if s.activeSM = 0 then { s with state := .notMe }
      else tryMachines nextState c j (if j ≠ s.activeSM then s.swap j s.activeSM else s)
    else if codingState = SMModel.ITSME then
      { s with state := .foundIt, detectedCharset := some (SMModel.name sm.model) }
    else tryMachines nextState c j s

def handleBytes (nextState : Fin 4 → UInt8 → Nat → Nat) : List UInt8 → EscCharsetProber → EscCharsetProber
  | [], s => s
  | c :: cs, s =>
    if s.state = .detecting then handleBytes nextState cs (tryMachines nextState c s.activeSM s) else s

def handleData (nextState : Fin 4 → UInt8 → Nat → Nat) (buf : List UInt8) (s : EscCharsetProber) :
    ProbingState × EscCharsetProber :=
  let s := handleBytes nextState buf s
  (s.state, s)

def getCharSetName (s : EscCharsetProber) : Option JString := s.detectedCharset

end EscCharsetProber

/-- `0.20f`, exactly. -/
def MINIMUM_THRESHOLD : ℚ := 13421773 / 2 ^ 26

/-- The probers at the bottom, whose verdicts and confidences are left open, and the tables of
the coding state machines. -/
structure Engine where
  mbcs : Probers 7
  sbcs : NamedProbers 13
  latin1 : Probers 1
  nextState : Fin 4 → UInt8 → Nat → Nat

abbrev Engine.latin1Confidence (e : Engine) (s : e.latin1.State) : ℚ := e.latin1.getConfidence 0 s

/-- The positions 0, 1 and 2 of the array `probers` of the detector. -/
inductive Place
  | mbcs | sbcs | latin1
  deriving DecidableEq, Repr

def Place.all : List Place := [mbcs, sbcs, latin1]

/-- The array itself.  Its three elements are created together. -/
structure Groups (e : Engine) where
  mbcs : MBCSGroupProber e.mbcs
  sbcs : SBCSGroupProber e.sbcs
  latin1 : e.latin1.State

namespace Groups

variable {e : Engine}

def new : Groups e := ⟨MBCSGroupProber.new, SBCSGroupProber.new, e.latin1.new⟩

def reset (g : Groups e) : Groups e := ⟨g.mbcs.reset, Group.reset g.sbcs, e.latin1.reset 0 g.latin1⟩

def handleData (buf : List UInt8) : Place → Groups e → ProbingState × Groups e
  | .mbcs, g =>
    let (st, mbcs) := g.mbcs.handleData buf
    (st, { g with mbcs := mbcs })
  | .sbcs, g =>
    let (st, sbcs) := SBCSGroupProber.handleData buf g.sbcs
    (st, { g with sbcs := sbcs })
  | .latin1, g =>
    let (st, latin1) := e.latin1.handleData 0 buf g.latin1
    (st, { g with latin1 := latin1 })

def getConfidence : Place → Groups e → ℚ × Groups e
  | .mbcs, g =>
    let (cf, mbcs) := g.mbcs.getConfidence
    (cf, { g with mbcs := mbcs })
  | .sbcs, g =>
    let (cf, sbcs) := SBCSGroupProber.getConfidence g.sbcs
    (cf, { g with sbcs := sbcs })
  | .latin1, g => (e.latin1Confidence g.latin1, g)

def getCharSetName : Place → Groups e → JString × Groups e
  | .mbcs, g =>
    let (name, mbcs) := g.mbcs.getCharSetName
    (name, { g with mbcs := mbcs })
  | .sbcs, g =>
    let (name, sbcs) := SBCSGroupProber.getCharSetName g.sbcs
    (name, { g with sbcs := sbcs })
  | .latin1, g => (CHARSET_WINDOWS_1252, g)

/-- The loop of `handleData` over `probers`, with the name of the one that has found its charset. -/
def feed (buf : List UInt8) : List (Place) → Groups e → Option JString × Groups e
  | [], g => (none, g)
  | i :: is, g =>
    let (st, g) := g.handleData buf i
    if st = .foundIt then
      let (name, g) := g.getCharSetName i
      (some name, g)
    else feed buf is g

end Groups

/-- The local variables of `dataEnd`, and `detectedAllCharset`. -/
structure Poll where
  maxProberConfidence : ℚ
  maxProber : Place
  detectedAllCharset : Option JString

namespace Poll

def confidence (i : Place) (proberConfidence : ℚ) (v : Poll) : Poll :=
  if v.maxProberConfidence < proberConfidence then
    { v with maxProberConfidence := proberConfidence, maxProber := i }
  else v

def name (name : JString) (v : Poll) : Poll :=
  { v with detectedAllCharset := some (v.detectedAllCharset.elim name (· ++ ' ' :: name)) }

end Poll

/-- The loop of `dataEnd`. -/
def Groups.poll {e : Engine} : List (Place) → Groups e → Poll → Poll × Groups e
  | [], g, v => (v, g)
  | i :: is, g, v =>
    let (proberConfidence, g) := g.getConfidence i
    let v := v.confidence i proberConfidence
    if MINIMUM_THRESHOLD < proberConfidence then
      let (name, g) := g.getCharSetName i
      poll is g (v.name name)
    else poll is g v

inductive InputState
  | pureAscii | escAscii | highbyte
  deriving DecidableEq, Repr

structure UniversalDetector (e : Engine) where
  inputState : InputState
  done : Bool
  start : Bool
  gotData : Bool
  lastChar : UInt8
  detectedCharset : Option JString
  detectedAllCharset : Option JString
  probers : Option (Groups e)
  escCharsetProber : Option EscCharsetProber
  /-- A listener is set. -/
  listener : Bool

/-- `s.split(" ")`: without a blank the string itself, else the parts up to the last that is not
empty. -/
def split (s : JString) : List JString :=
  let parts := s.splitOn ' '
  if parts.length = 1 then parts else parts.rdropWhile (· = [])

/-- The switch over the first four bytes. -/
def byteOrderMark : List UInt8 → Option JString
  | b1 :: b2 :: b3 :: b4 :: _ =>
    if b1 = 0xEF then if b2 = 0xBB ∧ b3 = 0xBF then some CHARSET_UTF_8 else none
    else if b1 = 0xFE then
      if b2 = 0xFF ∧ b3 = 0x00 ∧ b4 = 0x00 then some CHARSET_X_ISO_10646_UCS_4_3412
      else if b2 = 0xFF then some CHARSET_UTF_16BE
      else none
    else if b1 = 0x00 then
      if b2 = 0x00 ∧ b3 = 0xFE ∧ b4 = 0xFF then some CHARSET_UTF_32BE
      else if b2 = 0x00 ∧ b3 = 0xFF ∧ b4 = 0xFE then some CHARSET_X_ISO_10646_UCS_4_2143
      else none
    else if b1 = 0xFF then
      if b2 = 0xFE ∧ b3 = 0x00 ∧ b4 = 0x00 then some CHARSET_UTF_32LE
      else if b2 = 0xFE then some CHARSET_UTF_16LE
      else none
    else none
  | _ => none

namespace UniversalDetector

variable {e : Engine}

def getDetectedAllCharset (s : UniversalDetector e) : Option JString := s.detectedAllCharset

def getDetectedCharset (s : UniversalDetector e) : Except Thrown (Option JString) :=
  match s.detectedCharset with
  | none => .ok none
  | some name =>
    match (split name)[0]? with
    | none => .error .arrayIndexOutOfBounds
    | some word => .ok (some word)

def reset (s : UniversalDetector e) : UniversalDetector e where
  done := false
  start := true
  detectedCharset := none
  gotData := false
  inputState := .pureAscii
  lastChar := 0
  escCharsetProber := s.escCharsetProber.map EscCharsetProber.reset
  probers := s.probers.map Groups.reset
  detectedAllCharset := none
  listener := s.listener

/-- `new UniversalDetector(listener)` -/
def new (listener : Bool) : UniversalDetector e :=
  reset ⟨.pureAscii, false, false, false, 0, none, none, none, none, listener⟩

def inputByte (s : UniversalDetector e) (c : UInt8) : UniversalDetector e :=
  if c &&& 0x80 ≠ 0 ∧ c ≠ 0xA0 then
    if s.inputState ≠ .highbyte then
      { s with
        inputState := .highbyte
        escCharsetProber := none
        probers := some (s.probers.getD Groups.new) }
    else s
  else
    let s :=
      if s.inputState = .pureAscii ∧ (c = 0x1B ∨ (c = 0x7B ∧ s.lastChar = 0x7E)) then
        { s with inputState := .escAscii }
      else s
    { s with lastChar := c }

/-- `handleData` behind the loop over the bytes. -/
def feedProbers (buf : List UInt8) (s : UniversalDetector e) : Except Thrown (UniversalDetector e) :=
  match s.inputState with
  | .escAscii =>
    let (st, esc) := (s.escCharsetProber.getD EscCharsetProber.new).handleData e.nextState buf
    let s := { s with escCharsetProber := some esc }
    if st = .foundIt then .ok { s with done := true, detectedCharset := esc.getCharSetName } else .ok s
  | .highbyte =>
    match s.probers with
    | none => .error .nullPointer
    | some g =>
      match g.feed buf Place.all with
      | (none, g) => .ok { s with probers := some g }
      | (some name, g) => .ok { s with probers := some g, done := true, detectedCharset := some name }
  | .pureAscii => .ok s

/-- `if (this.start)` -/
def handleStart (buf : List UInt8) (s : UniversalDetector e) : UniversalDetector e :=
  if s.start then
    let s := { s with start := false }
    match byteOrderMark buf with
    | none => s
    | some name => { s with detectedCharset := some name }
  else s

def handleData (buf : List UInt8) (s : UniversalDetector e) : Except Thrown (UniversalDetector e) :=
  if s.done then .ok s
  else
    let started := s.start
    let s := if 0 < buf.length then { s with gotData := true } else s
    let s := s.handleStart buf
    if started ∧ 3 < buf.length ∧ s.detectedCharset ≠ none then .ok { s with done := true }
    else feedProbers buf (buf.foldl inputByte s)

def report (s : UniversalDetector e) (name : JString) : Option JString :=
  if s.listener then some name else none

/-- `dataEnd`, with what the listener is told. -/
def dataEnd (s : UniversalDetector e) : Except Thrown (Option JString × UniversalDetector e) :=
  if !s.gotData then .ok (none, s)
  else
    match s.detectedCharset with
    | some name => .ok (s.report name, { s with done := true, detectedAllCharset := some name })
    | none =>
      match s.inputState with
      | .highbyte =>
        match s.probers with
        | none => .error .nullPointer
        | some g =>
          let (v, g) := g.poll Place.all ⟨0, .mbcs, s.detectedAllCharset⟩
          let s := { s with probers := some g, detectedAllCharset := v.detectedAllCharset }
          if MINIMUM_THRESHOLD < v.maxProberConfidence then
            let (name, g) := g.getCharSetName v.maxProber
            .ok (s.report name, { s with probers := some g, detectedCharset := some name })
          else .ok (none, s)
      | .escAscii => .ok (none, s)
      | .pureAscii => .ok (none, s)

end UniversalDetector

end G361FPlatform.CharDet
