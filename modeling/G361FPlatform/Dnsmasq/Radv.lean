import G361FPlatform.Dnsmasq.Ipv6Forward
import G361FPlatform.Dnsmasq.Ra
import G361FPlatform.Dnsmasq.Route

namespace G361FPlatform.Dnsmasq

open Library CString

/-- The globals of `radv.c`, and what the calls into the other files work on. -/
structure Radv (κ τ : Type) where
  ra : RaGlobals
  intInterface : CString
  routes : Routes κ
  chain : τ
  /-- The interfaces the snooper was started for. -/
  started : List Int

/-- What is the same in every call: how the system and `ip6tables` answer, the text of an address,
and the shifts that C leaves open. -/
structure World (κ τ : Type) where
  exec : Exec κ
  tables : Tables τ
  ntop : In6Addr → CString
  wild : Nat → BitVec 64

/-- What one `update_ra` or `deprecate_ra` meets. -/
structure Surroundings where
  nametoindex : Option Int
  network : Network

section

variable (w : World κ τ)

/-- Whether it succeeded, the packet it sent, and the state after it. -/
def updateRa (intInterface : CString) (e : Surroundings) (s : Radv κ τ) :
    Bool × Option RaPacket × Radv κ τ :=
  match e.nametoindex with
  | none => (false, none, s)
  | some ifIndex =>
    let sent := sendRa w.wild ifIndex intInterface e.network s.ra
    let s := { s with ra := sent.2 }
    if sent.1 = none then (false, none, s)
    else
      (true, sent.1, { s with
        routes := reactiveActiveLists w.exec s.ra.lastPrefix s.ra.prefixLen intInterface s.routes
        started := s.started ++ [ifIndex] })

def deprecateRa (intInterface : CString) (e : Surroundings) (s : Radv κ τ) :
    Bool × Option RaPacket × Radv κ τ :=
  let s := { s with routes := deleteActiveLists w.exec intInterface s.routes }
  match e.nametoindex with
  | none => (false, none, s)
  | some ifIndex =>
    let sent := sendRa w.wild ifIndex intInterface e.network { s.ra with gDeprecate := s.ra.lastPrefix ≠ 0 }
    (sent.1.isSome, sent.1, { s with ra := { sent.2 with gDeprecate := false } })

/-- `f` three times, or until it fails. -/
def thrice (f : Surroundings → Radv κ τ → Bool × Option RaPacket × Radv κ τ) (e : Fin 3 → Surroundings)
    (s : Radv κ τ) : Bool × Radv κ τ :=
  let first := f (e 0) s
  if first.1 = false then (false, first.2.2)
  else
    let second := f (e 1) first.2.2
    if second.1 = false then (false, second.2.2)
    else
      let third := f (e 2) second.2.2
      (third.1, third.2.2)

/-- `sscanf` with `%d`, where it finds a number: `strtoimax` stops at the ends of 64 bits, and an `int` keeps 32. -/
def scanInt (s : CString) : Option Int :=
  let s := s.dropWhile isSpace
  let negative := s.head? = some 45
  let s := if s.head? = some 45 ∨ s.head? = some 43 then s.tail else s
  let digits := s.takeWhile fun b => 48 ≤ b && b ≤ 57
  if digits = [] then none
  else
    let size : Nat := digits.foldl (fun n b => 10 * n + (b.toNat - 48)) 0
    let value : Int := if negative then -(min size 0x8000000000000000 : Nat) else (min size 0x7fffffffffffffff : Nat)
    some (value.bmod 0x100000000)

/-- What `set_mode_of_ra` reads: the word it switches on, and the fields behind it. -/
structure Mode where
  word : CString
  fields : List CString
  deriving DecidableEq, Repr

def Mode.parse (mode : CString) : Mode :=
  let parts := tokens 124 mode
  ⟨parts.headD [], parts.tail⟩

/-- The interfaces, and the table where one is given. -/
def readTrue (fields : List CString) (s : Radv κ τ) : Radv κ τ :=
  { s with
    intInterface := fields[0]?.getD s.intInterface
    ra := { s.ra with extInterface := fields[1]?.getD s.ra.extInterface }
    routes := match fields[2]? with
      | some field => setTableNumber ((scanInt field).getD 0) s.routes
      | none => s.routes }

def readFalse (fields : List CString) (s : Radv κ τ) : Radv κ τ :=
  { s with intInterface := fields[0]?.getD s.intInterface }

def setModeOfRa (mode : CString) (e : Fin 3 → Surroundings) (s : Radv κ τ) : Int × Radv κ τ :=
  let cmd := Mode.parse mode
  if cmd.word = ("true" : CString) then
    let s := readTrue cmd.fields s
    let updated := thrice (updateRa w s.intInterface) e s
    if updated.1 = false then (-1, updated.2)
    else
      let s := updated.2
      (1, { s with chain :=
        activeNewPrefix w.tables w.ntop s.ra.lastPrefix s.intInterface s.ra.extInterface s.chain })
  else if cmd.word = ("false" : CString) then
    let s := readFalse cmd.fields s
    let s := { s with chain :=
      (deprecateOldPrefix w.tables w.ntop s.ra.lastPrefix s.intInterface s.ra.extInterface s.chain).2 }
    let withdrawn := thrice (deprecateRa w s.intInterface) e s
    if withdrawn.1 = false then (-1, withdrawn.2) else (1, withdrawn.2)
  else (-1, s)

end

end G361FPlatform.Dnsmasq
