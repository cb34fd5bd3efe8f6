import G361FPlatform.Dhcp.Client

namespace G361FPlatform.Dhcp

open Library

/-- The result of `open_raw_socket`, and the sockets it has opened. -/
def openRawSocket (socket bind : Int) : Int × List Int :=
  if socket < 0 then (-1, [])
  else if bind < 0 then (-1, [socket])
  else (socket, [socket])

/-- A call of `dhcp_init_ifc`: what the calls before the loop return, what is on the stack, and
what the loop finds. -/
structure Call where
  xid : UInt32
  getHwaddr : Int
  getIfindex : Int
  socket : Int
  bind : Int
  env : Env
  info : DhcpInfo
  discoverMsg : DhcpMsg
  requestMsg : DhcpMsg
  reply : DhcpMsg
  events : List Event

/-- What a call leaves: its result, the sockets it has opened, the arguments of `close`, the
parameters it has configured or tried to, and `last_good_info`. -/
structure Returned where
  ret : Int
  opened : List Int
  closed : List Int
  configured : Option DhcpInfo
  lastGoodInfo : DhcpInfo

def Call.start (call : Call) : Client :=
  Client.start call.env call.xid call.info call.discoverMsg call.requestMsg call.reply

/-- `dhcp_init_ifc`; there is no result as long as the loop goes on. -/
def dhcpInitIfc (call : Call) (lastGoodInfo : DhcpInfo) : Except Stuck (Option Returned) :=
  if call.getHwaddr ≠ 0 then .ok (some ⟨-1, [], [], none, lastGoodInfo⟩)
  else if call.getIfindex ≠ 0 then .ok (some ⟨-1, [], [], none, lastGoodInfo⟩)
  else
    let (s, opened) := openRawSocket call.socket call.bind
    (Client.run call.env call.events call.start).map fun c =>
      c.result.map fun ret =>
        ⟨ret, opened, List.replicate c.closes s, c.configured.head?, c.configured.headD lastGoodInfo⟩

abbrev Completed := { call : Call // ∃ r, dhcpInitIfc call .zero = .ok (some r) }

/-- What outlives the calls: `last_good_info`, what was last configured with success, and for each
raw socket how often it was closed. -/
structure Process where
  lastGoodInfo : DhcpInfo
  lastConfigured : DhcpInfo
  sockets : List Nat

def Process.step (p : Process) (call : Completed) : Process :=
  match dhcpInitIfc call.1 p.lastGoodInfo with
  | .ok (some r) =>
    { lastGoodInfo := r.lastGoodInfo
      lastConfigured :=
        match r.configured with
        | some info => if call.1.env.ifcConfigure info = 0 then info else p.lastConfigured
        | none => p.lastConfigured
      sockets := r.opened.map (fun s => r.closed.count s) ++ p.sockets }
  | _ => p

/-- All raw sockets were closed, once; what is saved is what was last configured. -/
def Process.Clean (p : Process) : Prop :=
  (∀ n ∈ p.sockets, n = 1) ∧ p.lastGoodInfo = p.lastConfigured

end G361FPlatform.Dhcp
