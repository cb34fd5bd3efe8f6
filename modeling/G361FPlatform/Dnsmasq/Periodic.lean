import G361FPlatform.Dnsmasq.Ra

namespace G361FPlatform.Dnsmasq

open Library

/-- The kernel has a new unicast route of link scope; the clock and the random numbers at that time. -/
structure RouteChange where
  now : Int
  rand16 : Nat → UInt16

/-- A message as `iface_enumerate` takes it; all others do nothing. -/
inductive NlMessage
  | newAddr (a : IfAddr)
  | newRoute (r : RouteChange)

/-- What the kernel answers to one request.  It is not done where the request cannot be sent, or
where the answers break off. -/
structure Enumeration where
  messages : List NlMessage
  done : Bool

section

variable (callback : IfAddr → σ → Bool × σ) (nlRoutechange : RouteChange → σ → σ)

/-- One message, with `callback_ok`. -/
def ifaceMessage (r : Bool × σ) : NlMessage → Bool × σ
  | .newAddr a => if r.1 then callback a r.2 else r
  | .newRoute c => (r.1, nlRoutechange c r.2)

def ifaceEnumerate (e : Enumeration) (s : σ) : Bool × σ :=
  let seen := e.messages.foldl (ifaceMessage callback nlRoutechange) (true, s)
  (e.done && seen.1, seen.2)

end

/-- `iface` is none as long as nothing has been stored there. -/
structure SearchParam where
  now : Int
  iface : Option Int
  deriving DecidableEq, Repr

/-- A call of `send_ra`: the interface that `periodic_ra` asked for, and the packet if it left. -/
structure Sending where
  iface : Option Int
  packet : Option RaPacket
  deriving DecidableEq, Repr

structure Periodic where
  contexts : List Context
  ra : RaGlobals
  param : SearchParam
  sent : List Sending

/-- What one turn of the loop meets.  `index` is what `param.iface` holds before a store. -/
structure Turn where
  enumeration : Enumeration
  index : Int
  indextoname : Int → Option CString
  network : Network

/-- `ra_start_unsolicted` for all contexts -/
def raStartUnsolicted (r : RouteChange) (contexts : List Context) : List Context :=
  contexts.mapIdx fun i c => { c with raTime := r.now + ((r.rand16 i).toNat / 13000 : Nat) }

def nlRoutechange (r : RouteChange) (s : Periodic) : Periodic :=
  { s with contexts := raStartUnsolicted r s.contexts }

/-- The search is disabled: it returns before it looks at the contexts. -/
def ifaceSearch (_ : IfAddr) (s : Periodic) : Bool × Periodic := (true, s)

inductive Scan
  | overdue (i : Nat)
  | next (event : Int)
  deriving DecidableEq, Repr

/-- The first overdue context, or the time of the first future event. -/
def scan (now : Int) : List Context → Nat → Int → Scan
  | [], _, nextEvent => .next nextEvent
  | c :: cs, i, nextEvent =>
    if c.raTime ≠ 0 then
      if c.raTime ≤ now then .overdue i
      else scan now cs (i + 1) (if nextEvent = 0 ∨ c.raTime < nextEvent then c.raTime else nextEvent)
    else scan now cs (i + 1) nextEvent

section

variable (wild : Nat → BitVec 64)

/-- The body of the loop, where the context at `i` is overdue. -/
def periodicTurn (i : Nat) (c : Turn) (s : Periodic) : Periodic :=
  let found := ifaceEnumerate ifaceSearch nlRoutechange c.enumeration s
  let s := found.2
  if found.1 then { s with contexts := s.contexts.modify i fun c => { c with raTime := 0 } }
  else
    let iface := s.param.iface.getD c.index
    match c.indextoname iface with
    | none => s
    | some interface =>
      let network := { c.network with raContexts := s.contexts }
      let sent := sendRa wild iface interface network s.ra
      { s with
        contexts := (gather wild iface interface network s.ra).contexts
        ra := sent.2
        sent := s.sent ++ [⟨s.param.iface, sent.1⟩] }

/-- The loop; the value that is returned, and the state after it. -/
def periodicLoop : (Nat → Turn) → Nat → Periodic → Option (Int × Periodic)
  | _, 0, _ => none
  | calls, fuel + 1, s =>
    match scan s.param.now s.contexts 0 0 with
    | .next event => some (event, s)
    | .overdue i => periodicLoop (fun n => calls (n + 1)) fuel (periodicTurn wild i (calls 0) s)

def periodicRa (now : Int) (contexts : List Context) (ra : RaGlobals) (calls : Nat → Turn) (fuel : Nat) :
    Option (Int × Periodic) :=
  periodicLoop wild calls fuel ⟨contexts, ra, ⟨now, none⟩, []⟩

end

end G361FPlatform.Dnsmasq
