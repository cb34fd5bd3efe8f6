import G361FPlatform.Dhcp.Netmask
import G361FPlatform.Dnsmasq.Listener
import G361FPlatform.Library.Inet6
import G361FPlatform.Library.OwnedLists

namespace G361FPlatform.Dnsmasq

open Library CString Dhcp

def NAMESERVER_PORT : UInt16 := 53

def SERV_FROM_RESOLV : UInt32 := 1
def SERV_NO_ADDR : UInt32 := 2
def SERV_LITERAL_ADDRESS : UInt32 := 4
def SERV_USE_RESOLV : UInt32 := 1024
def SERV_NO_REBIND : UInt32 := 2048

/-- The flags of servers that nothing is sent to. -/
def noSocketFlags : UInt32 := SERV_LITERAL_ADDRESS ||| SERV_NO_ADDR ||| SERV_USE_RESOLV ||| SERV_NO_REBIND

/-- The size of the copy that `set_servers` takes apart. -/
def SERVERS_SIZE : Nat := 1024

/-- A socket address; `unspec` is that of a server without one. Ports are numbers, not the two
bytes in network order. -/
inductive MySockaddr
  | unspec
  | in4 (port : UInt16) (addr : UInt32)
  | in6 (port : UInt16) (flowinfo : UInt32) (addr : BitVec 128) (scopeId : UInt32)
  deriving DecidableEq, Repr

def MySockaddr.port : MySockaddr → UInt16
  | .unspec => 0
  | .in4 port _ => port
  | .in6 port .. => port

def sockaddrIsequal : MySockaddr → MySockaddr → Bool
  | .in4 port addr, .in4 port' addr' => port = port' ∧ addr = addr'
  | .in6 port _ addr _, .in6 port' _ addr' _ => port = port' ∧ addr = addr'
  | _, _ => false

/-- The address 0.0.0.0, whatever the port. -/
def MySockaddr.isNothing : MySockaddr → Bool
  | .in4 _ addr => addr = 0
  | _ => false

/-- `INADDR_ANY` or `in6addr_any` with port 0. -/
def MySockaddr.isAny : MySockaddr → Bool
  | .in4 port addr => addr = 0 ∧ port = 0
  | .in6 port _ addr _ => addr = 0 ∧ port = 0
  | .unspec => false

structure ServerFd where
  fd : Int
  sourceAddr : MySockaddr
  interface : CString
  mark : UInt32
  deriving DecidableEq, Repr

/-- `sfd` is what the pointer leads to: nothing changes it afterwards. -/
structure Server where
  addr : MySockaddr
  sourceAddr : MySockaddr
  interface : CString
  sfd : Option ServerFd
  domain : Option CString
  flags : UInt32
  queries : UInt32
  failedQueries : UInt32
  mark : UInt32
  deriving DecidableEq, Repr

/-- A call that gives a value or sets `errno`, and changes the state of the system. -/
abbrev SysCall (κ : Type) (α : Type) := ExceptT Nat (StateM κ) α

/-- What lies below the program: `unsigned long`, the allocator and the kernel's calls. -/
structure System (κ : Type) where
  ulongBits : Nat
  malloc : SysCall κ Unit
  socket : MySockaddr → SysCall κ Int
  bind : Int → MySockaddr → SysCall κ Unit
  bindToDevice : Int → CString → SysCall κ Unit
  setMark : Int → UInt32 → SysCall κ Unit
  fixFd : Int → SysCall κ Unit
  close : Int → κ → κ
  enumerateInterfaces : List MySockaddr → κ → List MySockaddr × κ

/-- What has happened to the node of a server. -/
inductive NodeEvent
  | gone (p : Nat)
  | malloc (p : Nat)
  | reuse (p : Nat)
  | free (p : Nat)
  deriving DecidableEq, Repr

/-- The sockets that there are, and the state of the system. -/
structure Net (κ : Type) where
  sfds : List ServerFd
  kernel : κ

/-- The state of dnsmasq: `frecs` is `sentto` of every forward record, `supply` the addresses
that `malloc` has for servers. -/
structure Daemon (κ : Type) where
  cells : Heap Server
  servers : Option Nat
  frecs : List (Option Nat)
  lastServer : Option Nat
  srvSave : Option Nat
  interfaces : List MySockaddr
  net : Net κ
  supply : List Nat
  events : List NodeEvent
  osport : Bool
  nowild : Bool
  queryPort : UInt16

section Sockets

variable {κ : Type} (sys : System κ)

/-- `local_bind` for UDP. -/
def localBind (fd : Int) (addr : MySockaddr) (intname : CString) (mark : UInt32) : SysCall κ Unit := do
  sys.bind fd addr
  if intname ≠ [] then sys.bindToDevice fd intname
  if mark ≠ 0 then sys.setMark fd mark

/-- A new socket for `allocate_sfd`; one that cannot be set up is closed again. -/
def makeSfd (addr : MySockaddr) (intname : CString) (mark : UInt32) : SysCall κ Int := do
  sys.malloc
  let fd ← sys.socket addr
  tryCatch (do localBind sys fd addr intname mark; sys.fixFd fd)
    fun errsave => do
      modifyThe κ (sys.close fd)
      throw errsave
  return fd

/-- `allocate_sfd`: the socket, or NULL and `errno`. -/
def allocateSfd (osport : Bool) (addr : MySockaddr) (intname : CString) (mark : UInt32) (net : Net κ) :
    Except Nat ServerFd × Net κ :=
  if !osport && intname = [] && addr.isAny then (.error 0, net)
  else
    match net.sfds.find? fun sfd =>
      sockaddrIsequal sfd.sourceAddr addr && mark = sfd.mark && intname = sfd.interface with
    | some sfd => (.ok sfd, net)
    | none =>
      match (makeSfd sys addr intname mark).run.run net.kernel with
      | (.error errno, kernel) => (.error errno, { net with kernel })
      | (.ok fd, kernel) =>
        let sfd : ServerFd := ⟨fd, addr, intname, mark⟩
        (.ok sfd, ⟨sfd :: net.sfds, kernel⟩)

/-- Why `check_servers` leaves a server out. -/
inductive Rejection
  | nothing
  | localInterface
  | noSocket (errno : Nat)
  deriving DecidableEq, Repr

/-- What `check_servers` decides about a server. -/
def checkServer (osport : Bool) (interfaces : List MySockaddr) (new : Server) (net : Net κ) :
    Except Rejection Server × Net κ :=
  if new.flags &&& noSocketFlags ≠ 0 then (.ok new, net)
  else if new.addr.isNothing then (.error .nothing, net)
  else if interfaces.any (sockaddrIsequal new.addr) then (.error .localInterface, net)
  else if new.sfd.isSome then (.ok new, net)
  else
    match allocateSfd sys osport new.sourceAddr new.interface new.mark net with
    | (.ok sfd, net) => (.ok { new with sfd := some sfd }, net)
    | (.error errno, net) => if errno ≠ 0 then (.error (.noSocket errno), net) else (.ok new, net)

end Sockets

section Lists

variable {κ : Type} (sys : System κ)

def Server.fromResolv (serv : Server) : Bool := serv.flags &&& SERV_FROM_RESOLV ≠ 0

def serverGone (server : Nat) (d : Daemon κ) : Daemon κ where
  __ := d
  frecs := d.frecs.map fun sentto => if sentto = some server then none else sentto
  lastServer := if d.lastServer = some server then none else d.lastServer
  srvSave := if d.srvSave = some server then none else d.srvSave
  events := d.events ++ [.gone server]

/-- The first loop of `set_servers`, with a number of turns left: the two lists that the servers
are put on. -/
def splitLoop : Nat → Option Nat → Option Nat → Option Nat → Daemon κ →
    Except Stuck (Option Nat × Option Nat × Daemon κ)
  | _, none, oldServers, newServers, d => .ok (oldServers, newServers, d)
  | 0, some _, _, _, _ => .error .fuel
  | n + 1, some serv, oldServers, newServers, d =>
    match d.cells serv with
    | none => .error .fault
    | some ⟨val, tmp⟩ =>
      if val.fromResolv then
        splitLoop n tmp (some serv) newServers
          (serverGone serv { d with cells := d.cells.set serv ⟨val, oldServers⟩ })
      else splitLoop n tmp oldServers (some serv) { d with cells := d.cells.set serv ⟨val, newServers⟩ }

def leadingValue (base : Nat) (s : CString) : Nat :=
  (s.takeWhile fun c => digitValue c < base).foldl (fun v c => v * base + digitValue c) 0

/-- A number in the base that its first characters say. -/
def unsignedValue : CString → Nat
  | 48 :: x :: s => if x = 120 ∨ x = 88 then leadingValue 16 s else leadingValue 8 (x :: s)
  | s => leadingValue 10 s

/-- `strtoul(nptr, NULL, 0)` -/
def strtoul (ulongBits : Nat) (nptr : CString) : Nat :=
  let s := nptr.dropWhile fun c => c = 32 ∨ 9 ≤ c ∧ c ≤ 13
  let negative := s.head? = some 45
  let v := unsignedValue (if negative ∨ s.head? = some 43 then s.tail else s)
  if 2 ^ ulongBits ≤ v then 2 ^ ulongBits - 1
  else if negative then (2 ^ ulongBits - v) % 2 ^ ulongBits
  else v

def parseMark (ulongBits : Nat) (markString : CString) : UInt32 := UInt32.ofNat (strtoul ulongBits markString)

/-- The server that `set_servers` makes of an address. -/
def newServer (addr sourceAddr : MySockaddr) (mark : UInt32) : Server where
  addr := addr
  sourceAddr := sourceAddr
  interface := []
  sfd := none
  domain := none
  flags := SERV_FROM_RESOLV
  queries := 0
  failedQueries := 0
  mark := mark

/-- A server as `set_servers` reads it. -/
def parseServer (queryPort : UInt16) (mark : UInt32) (saddr : CString) : Option Server :=
  if inetAddr saddr ≠ INADDR_NONE then
    some (newServer (.in4 NAMESERVER_PORT (inetAddr saddr)) (.in4 queryPort 0) mark)
  else
    match Inet6.inetPton saddr with
    | some addr =>
      -- `sin6_flowinfo` lies where `inet_addr` has left -1
      some (newServer (.in6 NAMESERVER_PORT INADDR_NONE addr 0) (.in6 queryPort 0 0 0) mark)
    | none => none

/-- The loop of `set_servers` over what is left of the string. -/
def addLoop (mark : UInt32) : Nat → Option CString → Option Nat → Option Nat → Daemon κ →
    Except Stuck (Option Nat × Option Nat × Daemon κ)
  | _, none, oldServers, newServers, d => .ok (oldServers, newServers, d)
  | 0, some _, _, _, _ => .error .fuel
  | n + 1, some s, oldServers, newServers, d =>
    let saddr := (strsep BAR s).1
    let next := (strsep BAR s).2
    match parseServer d.queryPort mark saddr with
    | none => addLoop mark n next oldServers newServers d
    | some server =>
      match oldServers with
      | some serv =>
        match d.cells serv with
        | none => .error .fault
        | some cell => addLoop mark n next cell.next (some serv) { d with
            cells := d.cells.set serv ⟨server, newServers⟩
            events := d.events ++ [.reuse serv] }
      | none =>
        match d.supply with
        | [] => addLoop mark n next none newServers d
        | serv :: supply => addLoop mark n next none (some serv) { d with
            cells := d.cells.set serv ⟨server, newServers⟩
            supply
            events := d.events ++ [.malloc serv] }

/-- `while (old_servers)` -/
def freeLoop : Nat → Option Nat → Daemon κ → Except Stuck (Daemon κ)
  | _, none, d => .ok d
  | 0, some _, _ => .error .fuel
  | n + 1, some serv, d =>
    match d.cells serv with
    | none => .error .fault
    | some cell => freeLoop n cell.next { d with
        cells := d.cells.remove serv
        events := d.events ++ [.free serv] }

/-- Every loop gets the same number of turns. -/
def setServers (fuel : Nat) (servers : CString) (d : Daemon κ) : Except Stuck (Daemon κ) :=
  -- `strncpy` leaves a string that does not end
  if SERVERS_SIZE ≤ servers.length then .error .fault
  else
    let mark := parseMark sys.ulongBits (strsep BAR servers).1
    let next := (strsep BAR servers).2
    (splitLoop fuel d.servers none none d).bind fun (oldServers, newServers, d) =>
      (addLoop mark fuel next oldServers newServers d).bind fun (oldServers, newServers, d) =>
        (freeLoop fuel oldServers d).map fun d => { d with servers := newServers }

/-- The loop of `check_servers`. -/
def checkLoop : Nat → Option Nat → Option Nat → Daemon κ → Except Stuck (Option Nat × Daemon κ)
  | _, none, ret, d => .ok (ret, d)
  | 0, some _, _, _ => .error .fuel
  | n + 1, some new, ret, d =>
    match d.cells new with
    | none => .error .fault
    | some ⟨val, tmp⟩ =>
      match checkServer sys d.osport d.interfaces val d.net with
      | (.error _, net) => checkLoop n tmp ret { d with
          cells := d.cells.remove new
          net
          events := d.events ++ [.free new] }
      | (.ok val, net) => checkLoop n tmp (some new) { d with cells := d.cells.set new ⟨val, ret⟩, net }

/-- `enumerate_interfaces`, where `check_servers` calls it. -/
def Daemon.scan (d : Daemon κ) : List MySockaddr × Net κ :=
  if d.nowild then (d.interfaces, d.net)
  else
    match sys.enumerateInterfaces d.interfaces d.net.kernel with
    | (interfaces, kernel) => (interfaces, { d.net with kernel })

def Daemon.enumerated (d : Daemon κ) : Daemon κ :=
  { d with interfaces := (d.scan sys).1, net := (d.scan sys).2 }

def checkServers (fuel : Nat) (d : Daemon κ) : Except Stuck (Daemon κ) :=
  (checkLoop sys fuel d.servers none (d.enumerated sys)).map fun (ret, d) => { d with servers := ret }

/-- The two calls that a command of netd makes. -/
def updateDns (fuel : Nat) (servers : CString) (d : Daemon κ) : Except Stuck (Daemon κ) :=
  (setServers sys fuel servers d).bind (checkServers sys fuel)

end Lists

end G361FPlatform.Dnsmasq
