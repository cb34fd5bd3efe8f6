import G361FPlatform.Library.Leader
import Mathlib.Data.List.FinRange
import Mathlib.Data.Rat.Defs
import Mathlib.Data.Fin.VecNotation

namespace G361FPlatform.CharDet

open Library

inductive ProbingState
  | detecting | foundIt | notMe
  deriving DecidableEq, Repr

/-- A Java `String`. -/
abbrev JString := List Char

/-- The name of one charset. -/
def Single (name : JString) : Prop := name ≠ [] ∧ ' ' ∉ name

instance (name : JString) : Decidable (Single name) := inferInstanceAs (Decidable (_ ∧ _))

def CHARSET_BIG5 : JString := "BIG5".toList
def CHARSET_GB18030 : JString := "GB18030".toList
def CHARSET_EUC_JP : JString := "EUC-JP".toList
def CHARSET_EUC_KR : JString := "EUC-KR".toList
def CHARSET_EUC_TW : JString := "EUC-TW".toList
def CHARSET_SHIFT_JIS : JString := "SHIFT_JIS".toList
def CHARSET_UTF_8 : JString := "UTF-8".toList

/-- `0.99f`, exactly. -/
def CONFIDENCE_FOUND : ℚ := 16609444 / 2 ^ 24

/-- `0.01f`, exactly. -/
def CONFIDENCE_NOT_ME : ℚ := 10737418 / 2 ^ 30

/-- The probers of a group.  Some may look at others, so they have their state in common;
`new` is what their constructors leave. -/
structure Probers (n : Nat) where
  State : Type
  new : State
  reset : Fin n → State → State
  handleData : Fin n → List UInt8 → State → ProbingState × State
  getConfidence : Fin n → State → ℚ

/-- The fields that both group probers have. -/
structure Group (p : Probers n) where
  state : ProbingState
  probers : p.State
  isActive : Fin n → Bool
  bestGuess : Option (Fin n)
  activeNum : Int

namespace Group

variable {p : Probers n}

def reset (g : Group p) : Group p where
  state := .detecting
  probers := (List.finRange n).foldl (fun s i => p.reset i s) g.probers
  isActive := fun _ => true
  bestGuess := none
  activeNum := n

/-- `for (int i = 0; i < this.probers.length; ++i)` of both `handleData`. -/
def feed (buf : List UInt8) : List (Fin n) → Group p → Group p
  | [], g => g
  | i :: is, g =>
    if !g.isActive i then feed buf is g
    else
      let (st, probers) := p.handleData i buf g.probers
      let g := { g with probers := probers }
      match st with
      | .foundIt => { g with bestGuess := some i, state := .foundIt }
      | .notMe =>
        let g := { g with isActive := Function.update g.isActive i false, activeNum := g.activeNum - 1 }
        if g.activeNum ≤ 0 then { g with state := .notMe } else feed buf is g
      | .detecting => feed buf is g

def active (g : Group p) : List (Fin n) := (List.finRange n).filter (g.isActive ·)

def confidence (g : Group p) (i : Fin n) : ℚ := p.getConfidence i g.probers

end Group

structure MBCSGroupProber (p : Probers 7) extends Group p where
  bestGuess2 : Option (Fin 7)

namespace MBCSGroupProber

variable {p : Probers 7}

/-- What the probers answer to `getCharSetName`, in the order of the constructor. -/
def charSetName : Fin 7 → JString :=
  ![CHARSET_UTF_8, CHARSET_SHIFT_JIS, CHARSET_EUC_JP, CHARSET_GB18030, CHARSET_EUC_KR, CHARSET_BIG5,
    CHARSET_EUC_TW]

/-- The loop of `getConfidence`: `best` is `bestConf`, `first` and `second` are the two guesses. -/
def scan (s : MBCSGroupProber p) : List (Fin 7) → Leader (Fin 7) ℚ → Leader (Fin 7) ℚ
  | [], b => b
  | i :: is, b =>
    if !s.isActive i then scan s is b
    else
      let cf := p.getConfidence i s.probers
      if b.best < cf then scan s is { b with best := cf, first := some i }
      else if b.best = cf then scan s is { b with second := some i } -- just second..
      else scan s is b

def getConfidence (s : MBCSGroupProber p) : ℚ × MBCSGroupProber p :=
  match s.state with
  | .foundIt => (CONFIDENCE_FOUND, s)
  | .notMe => (CONFIDENCE_NOT_ME, s)
  | .detecting =>
    let b := s.scan (List.finRange 7) ⟨0, s.bestGuess, s.bestGuess2⟩
    (b.best, { s with bestGuess := b.first, bestGuess2 := b.second })

/-- The prober `getCharSetName` takes for the best one. -/
def guess (s : MBCSGroupProber p) : Fin 7 × MBCSGroupProber p :=
  match s.bestGuess with
  | some i => (i, s)
  | none =>
    let s := s.getConfidence.2
    match s.bestGuess with
    | some i => (i, s)
    | none => (0, { s with bestGuess := some 0 })

def getCharSetName (s : MBCSGroupProber p) : JString × MBCSGroupProber p :=
  let (i, s) := s.guess
  match s.bestGuess2 with
  | none => (charSetName i, s)
  | some j => (charSetName i ++ ' ' :: charSetName j, s)

/-- What `handleData` copies to `highbyteBuf`: of the ASCII bytes only one at the start or right
behind a high byte. -/
def highBytes : Bool → List UInt8 → List UInt8
  | _, [] => []
  | keepNext, c :: cs =>
    if c &&& 0x80 ≠ 0 then c :: highBytes true cs
    else if keepNext then c :: highBytes false cs
    else highBytes false cs

def handleData (buf : List UInt8) (s : MBCSGroupProber p) : ProbingState × MBCSGroupProber p :=
  let g := s.toGroup.feed (highBytes true buf) (List.finRange 7)
  (g.state, { s with toGroup := g })

def reset (s : MBCSGroupProber p) : MBCSGroupProber p where
  toGroup := s.toGroup.reset
  bestGuess2 := none

/-- `new MBCSGroupProber()` -/
def new : MBCSGroupProber p :=
  reset ⟨⟨.detecting, p.new, fun _ => false, none, 0⟩, none⟩

end MBCSGroupProber

/-- Probers that know the names of their charsets. -/
structure NamedProbers (n : Nat) extends Probers n where
  getCharSetName : Fin n → State → { name : JString // Single name }

abbrev SBCSGroupProber (p : NamedProbers 13) := Group p.toProbers

namespace SBCSGroupProber

variable {p : NamedProbers 13}

/-- The loop of `getConfidence`, with `bestConf` and `bestGuess`. -/
def scan (s : SBCSGroupProber p) : List (Fin 13) → ℚ × Option (Fin 13) → ℚ × Option (Fin 13)
  | [], b => b
  | i :: is, b =>
    if !s.isActive i then scan s is b
    else
      let cf := p.getConfidence i s.probers
      if b.1 < cf then scan s is (cf, some i) else scan s is b

def getConfidence (s : SBCSGroupProber p) : ℚ × SBCSGroupProber p :=
  match s.state with
  | .foundIt => (CONFIDENCE_FOUND, s)
  | .notMe => (CONFIDENCE_NOT_ME, s)
  | .detecting =>
    let (bestConf, bestGuess) := scan s (List.finRange 13) (0, s.bestGuess)
    (bestConf, { s with bestGuess := bestGuess })

def guess (s : SBCSGroupProber p) : Fin 13 × SBCSGroupProber p :=
  match s.bestGuess with
  | some i => (i, s)
  | none =>
    let s := (getConfidence s).2
    match s.bestGuess with
    | some i => (i, s)
    | none => (0, { s with bestGuess := some 0 })

def getCharSetName (s : SBCSGroupProber p) : JString × SBCSGroupProber p :=
  let (i, s) := guess s
  ((p.getCharSetName i s.probers).val, s)

def isAscii (b : UInt8) : Bool := b &&& 0x80 = 0

def isAsciiSymbol (b : UInt8) : Bool := b < 0x41 ∨ (0x5A < b ∧ b < 0x61) ∨ 0x7A < b

/-- `seg` is what lies between `prevPtr` and `curPtr`. -/
def filterSegments : Bool → List UInt8 → List UInt8 → List UInt8
  | meetMSB, seg, [] => if meetMSB ∧ seg ≠ [] then seg else []
  | meetMSB, seg, c :: cs =>
    if !isAscii c then filterSegments true (seg ++ [c]) cs
    else if isAsciiSymbol c then
      if meetMSB ∧ seg ≠ [] then seg ++ 0x20 :: filterSegments false [] cs
      else filterSegments meetMSB [] cs
    else filterSegments meetMSB (seg ++ [c]) cs

def filterWithoutEnglishLetters (buf : List UInt8) : List UInt8 := filterSegments false [] buf

def handleData (buf : List UInt8) (s : SBCSGroupProber p) : ProbingState × SBCSGroupProber p :=
  let newbuf := filterWithoutEnglishLetters buf
  if newbuf.length = 0 then (s.state, s)
  else
    let s := Group.feed newbuf (List.finRange 13) s
    (s.state, s)

/-- `new SBCSGroupProber()` -/
def new : SBCSGroupProber p := Group.reset ⟨.detecting, p.new, fun _ => false, none, 0⟩

end SBCSGroupProber

end G361FPlatform.CharDet
