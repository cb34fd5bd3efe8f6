import G361FPlatform.Dhcp.Decode
import G361FPlatform.Dhcp.Packet

namespace G361FPlatform.Dhcp

open Library

def EINTR : Nat := 4
def ENXIO : Nat := 6
def EAGAIN : Nat := 11
def ENETDOWN : Nat := 100

def TIMEOUT_INITIAL : Nat := 4000
def TIMEOUT_MAX : Nat := 32000

/-- `STATE_SELECTING` and `STATE_REQUESTING`. -/
inductive ClientState
  | selecting | requesting
  deriving DecidableEq, Repr

/-- The variables of `dhcp_init_ifc`, and what it has done so far: the messages handed to
`send_packet` (latest first, with their sizes), the calls of `dhcp_configure`, of `close`, and
the value it has returned. -/
structure Client where
  state : ClientState
  timeout : Nat
  xid : UInt32
  info : DhcpInfo
  discoverMsg : DhcpMsg
  requestMsg : DhcpMsg
  reply : DhcpMsg
  sent : List (DhcpMsg × Nat)
  configured : List DhcpInfo
  closes : Nat
  result : Option Int

/-- What the run is given: the address of the interface, and what `ifc_configure` returns. -/
structure Env where
  hwaddr : Vector UInt8 6
  ifcConfigure : DhcpInfo → Int

/-- What one round of the loop finds: `poll` times out or fails, or there is a packet to read
into a buffer with the given content. -/
inductive Event
  | timeout
  | pollFailed (errno : Nat)
  | packet (buffer : Packet) (read : Read)

namespace Client

def return_ (ret : Int) (c : Client) : Client := { c with result := some ret }

def close (c : Client) : Client := { c with closes := c.closes + 1 }

def dhcpConfigure (env : Env) (c : Client) : Client :=
  { c with configured := c.info :: c.configured }.return_ (env.ifcConfigure c.info)

/-- The label `transmit`. -/
def transmit (env : Env) (c : Client) : Client :=
  match c.state with
  | .selecting =>
    let (msg, size) := initDhcpDiscoverMsg env.hwaddr c.xid
    let msg := dumpDhcpMsg msg size
    { c with discoverMsg := msg, sent := (msg, size) :: c.sent }
  | .requesting =>
    let (msg, size) := initDhcpRequestMsg env.hwaddr c.xid c.info.ipaddr c.info.serveraddr
    let msg := dumpDhcpMsg msg size
    { c with requestMsg := msg, sent := (msg, size) :: c.sent }

/-- `if (r == 0)` -/
def timedOut (env : Env) (c : Client) : Client :=
  if TIMEOUT_MAX ≤ c.timeout then
    if c.info.type = DHCPOFFER.toUInt32 then c.dhcpConfigure env else c.close.return_ (-1)
  else { c with timeout := c.timeout * 2 % 2 ^ 32 }.transmit env

def asked (c : Client) : DhcpMsg :=
  match c.state with
  | .selecting => c.discoverMsg
  | .requesting => c.requestMsg

/-- The last `switch`, on a valid reply that is decoded in `info`. -/
def handleReply (env : Env) (c : Client) : Client :=
  match c.state with
  | .selecting =>
    if c.info.type = DHCPOFFER.toUInt32 then
      { c with state := .requesting, timeout := TIMEOUT_INITIAL, xid := c.xid + 1 }.transmit env
    else c
  | .requesting =>
    if c.info.type = DHCPACK.toUInt32 then c.close.dhcpConfigure env
    else if c.info.type = DHCPNAK.toUInt32 then c.close.return_ (-1)
    else c

/-- From `dump_dhcp_msg(&reply, r)` on. -/
def received (env : Env) (c : Client) (r : Nat) : Except Stuck Client :=
  let reply := dumpDhcpMsg c.reply r
  match decodeDhcpMsg reply r with
  | .error e => .error e
  | .ok (_, info) =>
    let c := { c with reply := reply, info := info }
    .ok (if isValidReply c.asked reply r then c.handleReply env else c)

/-- `errno` after a failed `receive_packet`: 0 where the packet was only not ours. -/
def refused (read : Read) (c : Client) : Client :=
  match read with
  | .failed errno => if errno = ENETDOWN ∨ errno = ENXIO then c.return_ (-1) else c
  | .got _ _ => c

/-- One round of `for (;;)`. -/
def step (env : Env) (e : Event) (c : Client) : Except Stuck Client :=
  match e with
  | .timeout => .ok (c.timedOut env)
  | .pollFailed errno => .ok (if errno = EAGAIN ∨ errno = EINTR then c else c.return_ (-1))
  | .packet buffer read =>
    match receivePacket buffer read c.reply with
    | .error e => .error e
    | .ok (r, reply) =>
      if r < 0 then .ok ({ c with reply := reply }.refused read)
      else { c with reply := reply }.received env r.toNat

/-- `dhcp_init_ifc` up to the loop.  The messages and `info` are not initialised, but for
`info.type`. -/
def start (env : Env) (xid : UInt32) (info : DhcpInfo) (discoverMsg requestMsg reply : DhcpMsg) :
    Client :=
  { state := .selecting
    timeout := TIMEOUT_INITIAL
    xid := xid
    info := { info with type := 0 }
    discoverMsg := discoverMsg
    requestMsg := requestMsg
    reply := reply
    sent := []
    configured := []
    closes := 0
    result := none : Client }.transmit env

def run (env : Env) : List Event → Client → Except Stuck Client
  | [], c => .ok c
  | e :: es, c =>
    if c.result.isSome then .ok c
    else
      match c.step env e with
      | .error e => .error e
      | .ok c => run env es c

end Client

end G361FPlatform.Dhcp
