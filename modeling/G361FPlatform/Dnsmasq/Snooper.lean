import G361FPlatform.Dnsmasq.Route

namespace G361FPlatform.Dnsmasq

open Library

def TIMEOUT_VALUE : Int := 10

def PACKET_MULTICAST : Nat := 2

def PACKET_OUTGOING : Nat := 4

def ND_NEIGHBOR_SOLICIT : UInt8 := 135

/-- Where a snooper thread is in `configure_route_to_host`. -/
inductive Pc
  | opening | naming | stamping | selecting | receiving | resolving | timing | clearing | closing | exited
  deriving DecidableEq, Repr

/-- What `recvfrom` fills: the sender's address and the buffer. -/
structure Frame where
  pkttype : Nat
  ifindex : Int
  buffer : Nat → UInt8

structure Thread where
  pc : Pc
  ifIndex : Int
  interface : CString
  frame : Frame

/-- A thread is on its way to frames, waits for them or works on one. -/
def Pc.working (pc : Pc) : Bool := pc ≠ .closing ∧ pc ≠ .exited

inductive Selected
  | interrupted | failed | timeout | ready
  deriving DecidableEq, Repr

/-- What the system answers to the call a thread makes next.  A `recvfrom` that fails leaves the
frame as it was. -/
inductive Answer
  | socket (ok : Bool)
  | indextoname (name : Option CString)
  | gettimeofday (sec : Option Int)
  | select (selected : Selected)
  | recvfrom (frame : Option Frame)
  | done

/-- The globals of the snooper. -/
structure Snooped (κ : Type u) where
  tId : Nat
  ifIndex : Int
  startTime : Int
  routes : Routes κ

section

variable (exec : Exec κ)

def Thread.step (t : Thread) (g : Snooped κ) : Answer → Option (Thread × Snooped κ)
  | .socket ok =>
    if t.pc = .opening then some ({ t with pc := if ok then .naming else .exited, ifIndex := g.ifIndex }, g)
    else none
  | .indextoname none =>
    if t.pc = .naming ∨ t.pc = .resolving then some ({ t with pc := .closing }, g) else none
  | .indextoname (some name) =>
    if t.pc = .naming then some ({ t with pc := .stamping, interface := name }, g)
    else if t.pc = .resolving then
      let dst := In6Addr.ofBytes ((List.range 16).map fun i => t.frame.buffer (62 + i))
      some ({ t with pc := .timing, interface := name },
        { g with routes := (addRouteToActiveLists exec dst name g.routes).2 })
    else none
  | .gettimeofday none =>
    if t.pc = .stamping ∨ t.pc = .timing then some ({ t with pc := .closing }, g) else none
  | .gettimeofday (some sec) =>
    if t.pc = .stamping then some ({ t with pc := .selecting }, { g with startTime := sec })
    else if t.pc = .timing then
      some ({ t with pc := if sec - g.startTime > TIMEOUT_VALUE then .clearing else .selecting }, g)
    else none
  | .select selected =>
    if t.pc = .selecting then
      some ({ t with
        pc := match selected with
          | .interrupted => .selecting
          | .failed => .closing
          | .timeout => .timing
          | .ready => .receiving }, g)
    else none
  | .recvfrom received =>
    if t.pc = .receiving then
      let frame := received.getD t.frame
      some ({ t with
        frame
        pc :=
          if frame.pkttype = PACKET_OUTGOING then .selecting
          -- the first byte of the address is compared with 256, which it never is
          else if frame.pkttype = PACKET_MULTICAST ∧ frame.buffer 54 = ND_NEIGHBOR_SOLICIT ∧ frame.buffer 63 ≠ 128 then
            .resolving
          else .timing }, g)
    else none
  | .done =>
    if t.pc = .clearing then some ({ t with pc := .closing }, { g with tId := 0 })
    else if t.pc = .closing then some ({ t with pc := .exited }, g)
    else none

/-- Where the main program is in `start_configure_route_to_host`. -/
inductive Main
  | idle | creating | restamping
  deriving DecidableEq, Repr

structure Snooper (κ : Type u) where
  main : Main
  threads : List Thread
  globals : Snooped κ

def Snooper.init (kernel : κ) : Snooper κ := ⟨.idle, [], 0, 0, 0, .init kernel⟩

/-- One step of one party: `start_configure_route_to_host` reads `t_id`, then it creates a thread or
sets the time anew. -/
inductive Event
  | start (ifIndex : Int)
  | create (id : Nat) (frame : Frame)
  | restamp (sec : Option Int)
  | thread (i : Nat) (answer : Answer)

def Snooper.step (s : Snooper κ) : Event → Option (Snooper κ)
  | .start ifIndex =>
    if s.main = .idle then
      some { s with main := if s.globals.tId = 0 then .creating else .restamping, globals.ifIndex := ifIndex }
    else none
  | .create id frame =>
    if s.main = .creating ∧ id ≠ 0 then
      some { main := .idle, threads := s.threads ++ [⟨.opening, 0, [], frame⟩], globals := { s.globals with tId := id } }
    else none
  | .restamp sec =>
    if s.main = .restamping then
      some { s with main := .idle, globals.startTime := sec.getD s.globals.startTime }
    else none
  | .thread i answer => do
    let t ← s.threads[i]?
    let (t, g) ← t.step exec s.globals answer
    pure { s with threads := s.threads.set i t, globals := g }

def Snooper.run (s : Snooper κ) : List Event → Option (Snooper κ)
  | [] => some s
  | e :: es => (s.step exec e).bind fun s => s.run es

end

end G361FPlatform.Dnsmasq
