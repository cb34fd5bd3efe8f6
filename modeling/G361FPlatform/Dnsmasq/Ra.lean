import G361FPlatform.Library.CString
import Mathlib.Data.List.Range

namespace G361FPlatform.Dnsmasq

open Library

/-- A `struct in6_addr`, its first byte the most significant one. -/
abbrev In6Addr := BitVec 128

def In6Addr.s6_addr (a : In6Addr) (i : Nat) : BitVec 8 := (a >>> (8 * (15 - i))).setWidth 8

def In6Addr.ofBytes (bytes : List UInt8) : In6Addr :=
  bytes.foldl (fun a b => a <<< 8 ||| b.toBitVec.setWidth 128) 0

def isSameNet6 (a b : In6Addr) (prefixlen : Nat) : Bool :=
  let pfbytes := prefixlen >>> 3
  let pfbits := prefixlen &&& 7
  if (List.range pfbytes).any fun i => In6Addr.s6_addr a i ≠ In6Addr.s6_addr b i then false
  else pfbits = 0 ∨ In6Addr.s6_addr a pfbytes >>> (8 - pfbits) = In6Addr.s6_addr b pfbytes >>> (8 - pfbits)

def In6Addr.isLoopback (a : In6Addr) : Bool := a = 1

/-- `fe80::/10` -/
def In6Addr.isLinkLocal (a : In6Addr) : Bool := a.s6_addr 0 = 0xfe ∧ a.s6_addr 1 &&& 0xc0 = 0x80

def In6Addr.isMulticast (a : In6Addr) : Bool := a.s6_addr 0 = 0xff

def addr6part (a : In6Addr) : BitVec 64 := a.setWidth 64

def setaddr6part (a : In6Addr) (host : BitVec 64) : In6Addr := a >>> 64 <<< 64 ||| host.setWidth 128

/-- The bits of the host part.  C leaves open what `1LLU << n` is from 64 on. -/
def hostMask (wild : Nat → BitVec 64) (plen : Nat) : BitVec 64 :=
  if plen = 64 then -1
  else (if 128 - plen < 64 then (1 : BitVec 64) <<< (128 - plen) else wild (128 - plen)) - 1

def zeroHost (wild : Nat → BitVec 64) (plen : Nat) (a : In6Addr) : In6Addr :=
  setaddr6part a (addr6part a &&& ~~~hostMask wild plen)

/-- What a `dhcp_context` has to do with router advertisements; its flags bit by bit. -/
structure Context where
  raOnly : Bool
  raName : Bool
  raStateless : Bool
  raDone : Bool
  dhcp : Bool
  deprecated : Bool
  leaseTime : Nat
  raTime : Int
  netid : Option CString
  /-- `netid.next` points to the tag itself: it is in no list yet. -/
  untagged : Bool
  deriving DecidableEq, Repr

structure PrefixOpt where
  prefixLen : Nat
  flags : UInt8
  validLifetime : Nat
  preferredLifetime : Nat
  addr : In6Addr
  deriving DecidableEq, Repr

inductive RaOption
  | prefixInfo (opt : PrefixOpt)
  | mtu (mtu : Nat)
  | sourceMac (mac : List UInt8)
  | rdnss (lifetime : Nat) (servers : List In6Addr)
  | dnssl (lifetime : Nat) (names : List UInt8)
  deriving DecidableEq, Repr

/-- A `ra_packet` with the options behind it. -/
structure RaPacket where
  hopLimit : UInt8
  flags : UInt8
  lifetime : Nat
  options : List RaOption
  deriving DecidableEq, Repr

/-- An option of the configuration that `option_filter` lets through. -/
inductive DhcpOpt6
  | dnsServer (servers : List In6Addr)
  | domainSearch (names : List UInt8)
  | other
  deriving DecidableEq, Repr

/-- An address as `iface_enumerate` reports it, and what `indextoname` says to its index. -/
structure IfAddr where
  addr : In6Addr
  plen : Nat
  ifIndex : Int
  name : Option CString
  deriving DecidableEq, Repr

/-- Everything `send_ra` gets from outside. -/
structure Network where
  raContexts : List Context
  optRa : Bool
  addrs : List IfAddr
  enumerated : Bool
  mtu : Option Nat
  macs : List (Int × List UInt8)
  optionFilter : List CString → List DhcpOpt6
  /-- What `parm.link_local` holds before an address is stored there. -/
  garbage : In6Addr
  sent : Bool

/-- The globals of the router advertisements. -/
structure RaGlobals where
  prefixLen : Nat
  lastPrefix : In6Addr
  extInterface : CString
  gDeprecate : Bool
  deriving DecidableEq, Repr

structure RaParam where
  ind : Int
  managed : Bool
  other : Bool
  foundContext : Bool
  first : Bool
  tags : List CString
  linkLocal : In6Addr
  deriving DecidableEq, Repr

def Context.used (optRa : Bool) (c : Context) : Bool := c.raOnly || c.raName || c.raStateless || optRa

/-- What the loop over the contexts in `add_prefixes` works on. -/
structure Visit where
  doPrefix : Bool
  doSlaac : Bool
  deprecated : Bool
  time : Nat
  addr : In6Addr
  param : RaParam
  deriving DecidableEq, Repr

def visitContext (g : RaGlobals) (optRa : Bool) (c : Context) (v : Visit) : Context × Visit :=
  let ra := c.raOnly || c.raName || c.raStateless
  if ra = false ∧ optRa = false then (c, v)
  else
    let p := v.param
    let p :=
      if ra then
        { p with other := p.other || c.dhcp, managed := p.managed || (c.dhcp && !c.raStateless) }
      else { p with other := true, managed := true }
    let collect := c.untagged && c.netid.isSome
    let p := { p with tags := if collect then c.netid.toList ++ p.tags else p.tags }
    ({ c with
        untagged := c.untagged && !collect
        raTime := if c.raDone = false ∧ p.first = false then 0 else c.raTime
        raDone := true },
      { doPrefix := v.doPrefix || !c.raDone
        doSlaac := v.doSlaac || ra
        deprecated := v.deprecated || c.deprecated || g.gDeprecate
        time := min v.time c.leaseTime
        addr := if g.gDeprecate then g.lastPrefix else v.addr
        param := { p with first := false, foundContext := true } })

def visitContexts (g : RaGlobals) (optRa : Bool) : List Context → Visit → List Context × Visit
  | [], v => ([], v)
  | c :: cs, v =>
    let head := visitContext g optRa c v
    let tail := visitContexts g optRa cs head.2
    (head.1 :: tail.1, tail.2)

/-- What `send_ra` has built while it goes over the addresses. -/
structure Advert where
  globals : RaGlobals
  contexts : List Context
  param : RaParam
  options : List RaOption

/-- The address is one whose prefix is advertised, or the one the old prefix is withdrawn at. -/
def RaGlobals.picks (g : RaGlobals) (ind : Int) (name : CString) (a : IfAddr) : Bool :=
  (name = g.extInterface ∧ !a.addr.isLoopback ∧ !a.addr.isLinkLocal ∧ !a.addr.isMulticast) ∨
    (a.ifIndex = ind ∧ a.addr.isLinkLocal ∧ g.gDeprecate)

def addPrefixes (wild : Nat → BitVec 64) (optRa : Bool) (a : IfAddr) (r : Advert) : Advert :=
  match a.name with
  | none => r
  | some name =>
    let param := { r.param with
      linkLocal := if a.ifIndex = r.param.ind ∧ a.addr.isLinkLocal then a.addr else r.param.linkLocal }
    if r.globals.picks param.ind name a then
      let visited := visitContexts r.globals optRa r.contexts ⟨false, false, false, 0xffffffff, a.addr, param⟩
      let v := visited.2
      if v.doPrefix then
        let addr := zeroHost wild a.plen v.addr
        let time := max v.time 7200
        { globals := { r.globals with lastPrefix := addr, prefixLen := a.plen }
          contexts := visited.1
          param := v.param
          options := r.options ++ [.prefixInfo
            { prefixLen := a.plen
              flags := if v.doSlaac then 0x40 else 0
              validLifetime := time
              preferredLifetime := if v.deprecated then 0 else time
              addr }] }
      else { r with contexts := visited.1, param := v.param }
    else { r with param }

/-- An option of the configuration as it is put into the packet. -/
def DhcpOpt6.options (linkLocal : In6Addr) : DhcpOpt6 → List RaOption
  | .dnsServer servers =>
    -- zero means this host
    if servers = [] then [] else [.rdnss 3600 (servers.map fun a => if a = 0 then linkLocal else a)]
  | .domainSearch names => if names = [] then [] else [.dnssl 3600 names]
  | .other => []

/-- What stands behind the prefix. -/
def trailingOptions (iface : Int) (net : Network) (param : RaParam) : List RaOption :=
  let opts := net.optionFilter param.tags
  net.mtu.toList.map .mtu ++ ((net.macs.find? (·.1 = iface)).toList.map fun m => .sourceMac m.2) ++
    opts.flatMap (·.options param.linkLocal) ++
      if opts.any (fun o => match o with | .dnsServer _ => true | _ => false) then []
      else [.rdnss 3600 [param.linkLocal]]

/-- The advertisement once all addresses have been seen. -/
def gather (wild : Nat → BitVec 64) (iface : Int) (ifaceName : CString) (net : Network) (g : RaGlobals) : Advert :=
  let contexts := net.raContexts.map fun c => { c with raDone := false, untagged := true }
  net.addrs.foldl (fun r a => addPrefixes wild net.optRa a r)
    ⟨g, contexts, ⟨iface, false, false, false, true, [ifaceName], net.garbage⟩, []⟩

def sendRa (wild : Nat → BitVec 64) (iface : Int) (ifaceName : CString) (net : Network) (g : RaGlobals) :
    Option RaPacket × RaGlobals :=
  let r := gather wild iface ifaceName net g
  if net.enumerated = false ∨ r.param.foundContext = false then (none, r.globals)
  else
    let flags : UInt8 := (if r.param.managed then 0x80 else 0) ||| (if r.param.other then 0x40 else 0)
    let packet := ⟨128, flags, 9000, r.options ++ trailingOptions iface net r.param⟩
    (if net.sent then some packet else none, r.globals)

end G361FPlatform.Dnsmasq
