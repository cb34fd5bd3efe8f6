import G361FPlatform.Dnsmasq.Ra
import G361FPlatform.Dnsmasq.Records
import G361FPlatform.Dnsmasq.Servers
import G361FPlatform.Library.LittleEndian

namespace G361FPlatform.Dnsmasq

open Library

def TIMEOUT : Int := 10
def FORWARD_TEST : Nat := 50
def FORWARD_TIME : Int := 20
def RANDOM_SOCKS : Nat := 64

def SERV_HAS_DOMAIN : UInt32 := 8
def SERV_FOR_NODOTS : UInt32 := 32
def SERV_TYPE : UInt32 := SERV_HAS_DOMAIN ||| SERV_FOR_NODOTS

def F_NEG : UInt32 := 0x20
def F_NXDOMAIN : UInt32 := 0x400
def F_NOERR : UInt32 := 0x100000

def NOERROR : UInt8 := 0
def SERVFAIL : UInt8 := 2
def NXDOMAIN : UInt8 := 3
def REFUSED : UInt8 := 5

inductive Family
  | inet | inet6
  deriving DecidableEq, Repr

def MySockaddr.family : MySockaddr → Family
  | .in6 .. => .inet6
  | _ => .inet

/-- A random socket: it is in use as long as `refcount` is not zero. -/
structure Randfd where
  fd : Int
  refcount : Nat
  family : Family

abbrev RandfdId := Fin RANDOM_SOCKS

/-- `daemon->randomsocks`, and the `finger` of `allocate_rfd`. -/
structure RandomSocks where
  sock : RandfdId → Randfd
  finger : Nat

/-- The socket that is looked at after `i` others. -/
def RandomSocks.after (socks : RandomSocks) (i : Nat) : RandfdId :=
  ⟨(i + socks.finger) % RANDOM_SOCKS, Nat.mod_lt _ (by decide)⟩

/-- `sentto` is NULL in a free record; `forwardall` is not 0 when the query went to all servers. -/
structure Frec where
  source : MySockaddr
  dest : BitVec 128
  sentto : Option Nat
  rfd4 : Option RandfdId
  rfd6 : Option RandfdId
  iface : Nat
  origId : UInt16
  newId : UInt16
  fd : Int
  forwardall : Nat
  noRebind : Bool
  checkingDisabled : Bool
  crc : UInt32
  time : Int

abbrev ServerNode := Nat × Server

structure Options where
  order : Bool
  allServers : Bool
  noRebind : Bool
  nodotsLocal : Bool
  addMac : Bool
  ftabsize : Nat
  localTtl : UInt32

/-- The state of the forwarder: `servers` and `frecs` are lists in the order of their links, and a record of
`frecs` goes by its place there. -/
structure Forwarder where
  opts : Options
  servers : List ServerNode
  lastServer : Option Nat
  srvSave : Option Nat
  rfdSave : Option RandfdId
  frecs : List Frec
  socks : RandomSocks
  forwardcount : Nat
  forwardtime : Int

/-- What the forwarder sends, and the random sockets that it opens and closes. -/
inductive Output
  | query (server : Nat) (fd : Int) (packet : Packet)
  | answer (fd : Int) (dst : MySockaddr) (source : BitVec 128) (iface : Nat) (packet : Packet)
  | opened (fd : Int)
  | closed (fd : Int)

/-- What becomes of packets elsewhere: `process_reply` and the query that a reply is turned back into, where that
can be done; `check_for_local_domain`; `add_mac`, for the sender of a query. -/
structure Munge where
  processReply : Packet → Option Nat → Bool → Bool → Option Packet
  queryAgain : Packet → Option Packet
  localDomain : CString → Bool
  addMac : MySockaddr → Packet → Packet

/-- What a call meets: whether there is memory, the socket that can be had for a family, what `sendto` to a
server ends with after its retries, the numbers of `rand16`, and what the other parts of the program, with their
cache and their tables as they are then, make of packets. -/
structure Outside where
  malloc : Bool
  randomSock : Family → Option Int
  sendto : Nat → Bool
  rand16 : List UInt16
  munge : Munge

section Sockets

variable (w : Outside)

/-- `allocate_rfd` -/
def allocateRfd (family : Family) (socks : RandomSocks) : Option RandfdId × RandomSocks × List Output :=
  -- no free ones or no new socket: grab an existing one
  let grab : Option RandfdId × RandomSocks × List Output :=
    match ((List.range RANDOM_SOCKS).map fun i => socks.after i).find? fun j =>
      (socks.sock j).refcount ≠ 0 ∧ (socks.sock j).family = family ∧ (socks.sock j).refcount ≠ 0xffff with
    | some j =>
      let sock := { socks.sock j with refcount := (socks.sock j).refcount + 1 }
      (some j, ⟨Function.update socks.sock j sock, j⟩, [])
    | none => (none, socks, [])
  match (List.finRange RANDOM_SOCKS).find? fun i => (socks.sock i).refcount = 0 with
  | some i =>
    match w.randomSock family with
    | some fd => (some i, { socks with sock := Function.update socks.sock i ⟨fd, 1, family⟩ }, [.opened fd])
    | none => grab
  | none => grab

def dropRfd (rfd : Option RandfdId) (socks : RandomSocks) : RandomSocks × List Output :=
  match rfd with
  | none => (socks, [])
  | some i =>
    let sock := { socks.sock i with refcount := (socks.sock i).refcount - 1 }
    ({ socks with sock := Function.update socks.sock i sock }, if sock.refcount = 0 then [.closed sock.fd] else [])

/-- `free_frec` -/
def freeFrec (f : Frec) (socks : RandomSocks) : Frec × RandomSocks × List Output :=
  let drop4 := dropRfd f.rfd4 socks
  let drop6 := dropRfd f.rfd6 drop4.1
  ({ f with rfd4 := none, rfd6 := none, sentto := none, noRebind := false, checkingDisabled := false },
    drop6.1, drop4.2 ++ drop6.2)

end Sockets

section Table

/-- `lookup_frec`: the first record, with its place. -/
def lookupFrec (frecs : List Frec) (id : UInt16) (crc : UInt32) : Option Nat :=
  frecs.findIdx? fun f => f.sentto.isSome ∧ f.newId = id ∧ (f.crc = crc ∨ crc = 0xffffffff)

def lookupFrecBySender (frecs : List Frec) (id : UInt16) (addr : MySockaddr) (crc : UInt32) : Option Nat :=
  frecs.findIdx? fun f => f.sentto.isSome ∧ f.origId = id ∧ f.crc = crc ∧ sockaddrIsequal f.source addr

/-- `get_id`; there is no result where the random numbers run out. -/
def getId (frecs : List Frec) (crc : UInt32) : List UInt16 → Except Stuck UInt16
  | [] => .error .fuel
  | ret :: rand => if (lookupFrec frecs ret crc).isSome then getId frecs crc rand else .ok ret

/-- The record that `allocate_frec` puts in front; what it does not set is not read. -/
def allocateFrec (now : Int) (frecs : List Frec) : List Frec :=
  { source := .unspec, dest := 0, sentto := none, rfd4 := none, rfd6 := none, iface := 0, origId := 0, newId := 0,
    fd := -1, forwardall := 0, noRebind := false, checkingDisabled := false, crc := 0, time := now } :: frecs

/-- What the loop of `get_new_frec` has found. -/
structure FrecScan where
  frecs : List Frec
  socks : RandomSocks
  target : Option Nat
  oldest : Option (Nat × Int)
  out : List Output

/-- The loop of `get_new_frec`, from the record at `i` on. -/
def scanFrecs (now : Int) : Nat → List Frec → FrecScan → FrecScan
  | _, [], scan => scan
  | i, f :: fs, scan =>
    if f.sentto.isNone then scanFrecs now (i + 1) fs { scan with frecs := scan.frecs ++ [f], target := some i }
    else
      let oldest := if scan.oldest.all fun o => f.time - o.2 ≤ 0 then some (i, f.time) else scan.oldest
      if now - f.time ≥ 4 * TIMEOUT then
        let freed := freeFrec f scan.socks
        scanFrecs now (i + 1) fs
          ⟨scan.frecs ++ [freed.1], freed.2.1, some i, oldest, scan.out ++ freed.2.2⟩
      else scanFrecs now (i + 1) fs { scan with frecs := scan.frecs ++ [f], oldest }

def setTime (now : Int) (f : Frec) : Frec := { f with time := now }

/-- What `get_new_frec` leaves: the record, `*wait`, the table and the sockets. -/
structure NewFrec where
  found : Option Nat
  wait : Int
  frecs : List Frec
  socks : RandomSocks
  out : List Output

/-- `get_new_frec`; `wait` says whether that is what the caller wants to know. -/
def getNewFrec (w : Outside) (ftabsize : Nat) (now : Int) (wait : Bool) (frecs : List Frec) (socks : RandomSocks) :
    NewFrec :=
  let scan := scanFrecs now 0 frecs ⟨[], socks, none, none, []⟩
  let count := frecs.length
  match scan.target, scan.oldest with
  | some target, _ => ⟨some target, 0, scan.frecs.modify target (setTime now), scan.socks, scan.out⟩
  | none, oldest =>
    match oldest.filter fun o => now - o.2 ≥ TIMEOUT with
    | some (i, time) =>
      if now - time < 2 * TIMEOUT ∧ count ≤ ftabsize ∧ w.malloc then
        ⟨some 0, 0, allocateFrec now scan.frecs, scan.socks, scan.out⟩
      else if wait then ⟨some i, 0, scan.frecs, scan.socks, scan.out⟩
      else
        match scan.frecs[i]? with
        | some f =>
          let freed := freeFrec f scan.socks
          ⟨some i, 0, scan.frecs.set i (setTime now freed.1), freed.2.1, scan.out ++ freed.2.2⟩
        | none => ⟨none, 0, scan.frecs, scan.socks, scan.out⟩
    | none =>
      if count > ftabsize then
        ⟨none, if wait then (oldest.map fun o => o.2 + TIMEOUT - now).getD 0 else 0, scan.frecs, scan.socks, scan.out⟩
      else if w.malloc then ⟨some 0, 0, allocateFrec now scan.frecs, scan.socks, scan.out⟩
      else ⟨none, if wait then 1 else 0, scan.frecs, scan.socks, scan.out⟩

end Table

section Search

/-- What the loop of `search_servers` knows. -/
structure ServerSearch where
  type : UInt32
  domain : Option CString
  norebind : Bool
  addr : Option MySockaddr
  flags : UInt32
  matchlen : Nat

def MySockaddr.sflag : MySockaddr → UInt32
  | .in4 .. => F_IPV4
  | _ => F_IPV6

def endsIn (qdomain domain : CString) : Bool :=
  let start := qdomain.length - domain.length
  domain.length ≤ qdomain.length ∧ hostnameIsequal (qdomain.drop start) domain ∧
    (domain.length = 0 ∨ start = 0 ∨ qdomain[start - 1]? = some 46)

def hasNoDots (qdomain : CString) : Bool := 46 ∉ qdomain ∧ qdomain ≠ []

/-- What a literal address does with the flags. -/
def literalAddress (serv : Server) (qtype : UInt32) (search : ServerSearch) : ServerSearch :=
  if serv.addr.sflag &&& qtype ≠ 0 then { search with flags := serv.addr.sflag, addr := some serv.addr }
  else if search.flags = 0 ∨ search.flags &&& F_NXDOMAIN ≠ 0 then { search with flags := F_NOERR }
  else search

/-- One turn of the loop of `search_servers`. -/
def searchServer (qtype : UInt32) (qdomain : CString) (search : ServerSearch) (serv : Server) : ServerSearch :=
  if serv.flags &&& SERV_FOR_NODOTS ≠ 0 ∧ search.type ≠ SERV_HAS_DOMAIN ∧ hasNoDots qdomain then
    let search := { search with type := SERV_FOR_NODOTS }
    if serv.flags &&& SERV_NO_ADDR ≠ 0 then { search with flags := F_NXDOMAIN }
    else if serv.flags &&& SERV_LITERAL_ADDRESS ≠ 0 then literalAddress serv qtype search
    else search
  else if serv.flags &&& SERV_HAS_DOMAIN ≠ 0 then
    let domain := serv.domain.getD []
    if endsIn qdomain domain then
      if serv.flags &&& SERV_NO_REBIND ≠ 0 then { search with norebind := true }
      -- for the same domain an address wins if it is of the right family, a server otherwise
      else if domain.length ≠ 0 ∧ domain.length = search.matchlen ∧
          (if serv.flags &&& SERV_LITERAL_ADDRESS ≠ 0 then
            serv.addr.sflag &&& qtype = 0 ∧ search.flags = 0
          else search.flags &&& (F_IPV4 ||| F_IPV6) ≠ 0) then search
      else if search.matchlen ≤ domain.length then
        let search := { search with
          type := serv.flags &&& (SERV_HAS_DOMAIN ||| SERV_USE_RESOLV ||| SERV_NO_REBIND)
          domain := some domain
          matchlen := domain.length }
        if serv.flags &&& SERV_NO_ADDR ≠ 0 then { search with flags := F_NXDOMAIN }
        else if serv.flags &&& SERV_LITERAL_ADDRESS ≠ 0 then literalAddress serv qtype search
        else { search with flags := 0 }
      else search
    else search
  else search

def searchServers (opts : Options) (localDomain : CString → Bool) (servers : List ServerNode) (qtype : UInt32)
    (qdomain : CString) : ServerSearch :=
  let search := servers.foldl (fun search node => searchServer qtype qdomain search node.2) ⟨0, none, false, none, 0, 0⟩
  let flags :=
    if search.flags = 0 ∧ qtype &&& F_QUERY = 0 ∧ opts.nodotsLocal ∧ hasNoDots qdomain then F_NOERR
    else search.flags
  let flags := if flags = F_NXDOMAIN ∧ localDomain qdomain then F_NOERR else flags
  -- use normal servers for this domain
  if flags = 0 ∧ search.type &&& SERV_USE_RESOLV ≠ 0 then { search with flags, type := 0, domain := none }
  else { search with flags }

end Search

section Forward

/-- A query as `receive_query` passes it on: the socket it came in by, its sender, where it was sent to. -/
structure Query where
  udpfd : Int
  udpaddr : MySockaddr
  dstAddr : BitVec 128
  dstIface : Nat
  header : Packet

def Packet.write (header : Packet) (p : Nat) (bs : List UInt8) : Packet :=
  { header with mem := fun i => if p ≤ i then (bs[i - p]?).getD (header.mem i) else header.mem i }

def Packet.setId (header : Packet) (id : UInt16) : Packet := header.write 0 (putShort id)
def Packet.setHb3 (header : Packet) (b : UInt8) : Packet := header.write 2 [b]
def Packet.setHb4 (header : Packet) (b : UInt8) : Packet := header.write 3 [b]

/-- `SET_RCODE` -/
def Packet.setRcode (header : Packet) (code : UInt8) : Packet := header.setHb4 (header.hb4 &&& 0xf0 ||| code)

/-- The address that an answer to a query for it has, as it lies in the socket address. -/
def MySockaddr.addrBytes : MySockaddr → List UInt8
  | .in4 _ addr => LittleEndian.bytes32 addr
  | .in6 _ _ addr _ => (List.range 16).map fun i => UInt8.ofBitVec (In6Addr.s6_addr addr i)
  | .unspec => List.replicate 16 0

/-- The answer of `setup_reply` where the address is known; `p` is the end of the questions. -/
def knownAddress (header : Packet) (p : Nat) (addrp : Option MySockaddr) (type : UInt16) (ttl : UInt32) : Packet :=
  let header := (header.setRcode NOERROR).write 6 (putShort 1)
  let header := header.setHb3 (header.hb3 ||| 0x04)
  let r : Record := ⟨UInt16.ofNat HEADER_SIZE, ttl, type, C_IN, [.addr ((addrp.map MySockaddr.addrBytes).getD [])]⟩
  { header.write p r.bytes with plen := p + r.bytes.length }

/-- `setup_reply`; without a place for records the length is that of NULL, and nothing can be sent. -/
def setupReply (header : Packet) (addrp : Option MySockaddr) (flags : UInt32) (ttl : UInt32) : Option Packet :=
  (skipQuestions header).map fun p =>
    let header := header.setHb3 (header.hb3 &&& 0xf9 ||| 0x80)
    let header := header.setHb4 (header.hb4 ||| 0x80)
    let header := { header.write 6 (List.replicate 6 0) with plen := p }
    if flags = F_NEG then header.setRcode SERVFAIL
    else if flags = F_NOERR then header.setRcode NOERROR
    else if flags = F_NXDOMAIN then header.setRcode NXDOMAIN
    else if flags = F_IPV4 then knownAddress header p addrp T_A ttl
    else if flags = F_IPV6 then knownAddress header p addrp T_AAAA ttl
    else header.setRcode REFUSED

/-- The servers in a circle, from the one at `p` on. -/
def circleFrom (servers : List ServerNode) (p : Nat) : Except Stuck (List ServerNode) :=
  if servers.any (·.1 = p) then .ok (servers.dropWhile (·.1 ≠ p) ++ servers.takeWhile (·.1 ≠ p))
  else .error .fault

/-- From the one behind `p` on. -/
def circleAfter (servers : List ServerNode) (p : Nat) : Except Stuck (List ServerNode) :=
  (circleFrom servers p).map fun circle => circle.tail ++ circle.take 1

def findServer (servers : List ServerNode) (p : Nat) : Except Stuck Server :=
  match servers.find? (·.1 = p) with
  | some node => .ok node.2
  | none => .error .fault

def updateServer (p : Nat) (f : Server → Server) (servers : List ServerNode) : List ServerNode :=
  servers.map fun node => if node.1 = p then (p, f node.2) else node

def deals (type : UInt32) (domain : Option CString) (serv : Server) : Bool :=
  type = serv.flags &&& SERV_TYPE ∧
    (type ≠ SERV_HAS_DOMAIN ∨ domain.any fun d => serv.domain.any fun d' => hostnameIsequal d d') ∧
    serv.flags &&& SERV_LITERAL_ADDRESS = 0

/-- The loop of `forward_query` that sends, as it goes. -/
structure Forwarding where
  frec : Frec
  servers : List ServerNode
  socks : RandomSocks
  srvSave : Option Nat
  rfdSave : Option RandfdId
  forwarded : Bool
  out : List Output

def pickSocket (w : Outside) (serv : Server) (s : Forwarding) : Option (Int × Forwarding) :=
  match serv.sfd with
  | some sfd => some (sfd.fd, s)
  | none =>
    match serv.addr.family with
    | .inet6 =>
      match s.frec.rfd6 with
      | some i => some ((s.socks.sock i).fd, { s with rfdSave := some i })
      | none =>
        match allocateRfd w .inet6 s.socks with
        | (some i, socks, out) => some ((socks.sock i).fd, { s with
            frec := { s.frec with rfd6 := some i }, socks, rfdSave := some i, out := s.out ++ out })
        | (none, _, _) => none
    | .inet =>
      match s.frec.rfd4 with
      | some i => some ((s.socks.sock i).fd, { s with rfdSave := some i })
      | none =>
        match allocateRfd w .inet s.socks with
        | (some i, socks, out) => some ((socks.sock i).fd, { s with
            frec := { s.frec with rfd4 := some i }, socks, rfdSave := some i, out := s.out ++ out })
        | (none, _, _) => none

def Forwarding.sent (s : Forwarding) (p : Nat) (fd : Int) (packet : Packet) : Forwarding :=
  { s with
    frec := { s.frec with sentto := some p }
    servers := updateServer p (fun serv => { serv with queries := serv.queries + 1 }) s.servers
    srvSave := some p
    forwarded := true
    out := s.out ++ [.query p fd packet] }

/-- The loop of `forward_query` over the circle of servers. -/
def sendLoop (w : Outside) (type : UInt32) (domain : Option CString) (packet : Packet) :
    List ServerNode → Forwarding → Forwarding
  | [], s => s
  | (p, serv) :: circle, s =>
    if deals type domain serv then
      match pickSocket w serv s with
      | none => s
      | some (fd, s) =>
        if w.sendto p then
          let s := s.sent p fd packet
          if s.frec.forwardall = 0 then s
          else sendLoop w type domain packet circle
            { s with frec := { s.frec with forwardall := s.frec.forwardall + 1 } }
        else sendLoop w type domain packet circle s
    else sendLoop w type domain packet circle s

/-- A record that is about to be sent, with the servers it goes to. -/
structure Attempt where
  place : Nat
  frec : Frec
  type : UInt32
  domain : Option CString
  circle : List ServerNode

/-- What `forward_query` does at its end when nothing has been forwarded. -/
def localReply (opts : Options) (q : Query) (header : Packet) (addrp : Option MySockaddr) (flags : UInt32) :
    List Output :=
  if q.udpfd ≠ -1 then
    match setupReply header addrp flags opts.localTtl with
    | some reply => [.answer q.udpfd q.udpaddr q.dstAddr q.dstIface reply]
    | none => []
  else []

/-- The packet with the hardware address of the sender, where that is to be added; a query of the forwarder's own
has no sender. -/
def withMac (w : Outside) (opts : Options) (q : Query) (header : Packet) : Packet :=
  if q.udpaddr ≠ .unspec ∧ opts.addMac then w.munge.addMac q.udpaddr header else header

/-- The sending part of `forward_query`: whether it forwarded, and what then is left. -/
def sendAttempt (w : Outside) (q : Query) (header : Packet) (addrp : Option MySockaddr)
    (a : Attempt) (st : Forwarder) : Bool × Forwarder × List Output :=
  let header := withMac w st.opts q (header.setId a.frec.newId)
  let s := sendLoop w a.type a.domain header a.circle
    ⟨a.frec, st.servers, st.socks, st.srvSave, st.rfdSave, false, []⟩
  let st := { st with servers := s.servers, srvSave := s.srvSave, rfdSave := s.rfdSave }
  if s.forwarded then (true, { st with socks := s.socks, frecs := st.frecs.set a.place s.frec }, s.out)
  else
    let freed := freeFrec s.frec s.socks
    (false, { st with socks := freed.2.1, frecs := st.frecs.set a.place freed.1 },
      s.out ++ freed.2.2 ++ localReply st.opts q (header.setId s.frec.origId) addrp 0)

/-- A query again for which there is a record. -/
def retryAttempt (st : Forwarder) (place : Nat) (f : Frec) : Except Stuck (Attempt × Forwarder) :=
  match f.sentto with
  | none => .error .fault
  | some p =>
    (findServer st.servers p).bind fun serv =>
      (circleAfter st.servers p).map fun circle =>
        let servers := updateServer p (fun serv => { serv with failedQueries := serv.failedQueries + 1 }) st.servers
        let f := if st.opts.order then f else { f with forwardall := 1 }
        (⟨place, f, serv.flags &&& SERV_TYPE, serv.domain, circle⟩,
          { st with servers, lastServer := if st.opts.order then st.lastServer else none })

/-- Where a new query starts, whether it goes to all servers, and the counts. -/
def startNew (now : Int) (type : UInt32) (st : Forwarder) : Except Stuck (List ServerNode × Bool × Forwarder) :=
  if type = 0 then
    if st.opts.order then .ok (st.servers, false, st)
    else
      match st.lastServer with
      | none => .ok (st.servers, true, { st with forwardcount := 0, forwardtime := now })
      | some p =>
        if st.forwardcount > FORWARD_TEST ∨ now - st.forwardtime > FORWARD_TIME then
          .ok (st.servers, true, { st with forwardcount := 0, forwardtime := now })
        else (circleFrom st.servers p).map fun circle =>
          (circle, false, { st with forwardcount := st.forwardcount + 1 })
  else .ok (st.servers, !st.opts.order, st)

def newRecord (q : Query) (crc : UInt32) (newId : UInt16) (norebind all : Bool) (f : Frec) : Frec :=
  { f with
    source := q.udpaddr
    dest := q.dstAddr
    iface := q.dstIface
    origId := q.header.id
    newId
    fd := q.udpfd
    crc
    forwardall := if all then 1 else 0
    noRebind := f.noRebind || norebind
    checkingDisabled := f.checkingDisabled || q.header.hb4 &&& 0x10 ≠ 0 }

def forwardNew (w : Outside) (now : Int) (q : Query) (header : Packet) (search : ServerSearch) (st : Forwarder) :
    Except Stuck (Bool × Forwarder × List Output) :=
  let crc := questionsCrc q.header
  let new := getNewFrec w st.opts.ftabsize now false st.frecs st.socks
  let st := { st with frecs := new.frecs, socks := new.socks }
  match new.found with
  | none => .ok (false, st, new.out ++ localReply st.opts q header search.addr F_NEG)
  | some place =>
    match st.frecs[place]? with
    | none => .error .fault
    | some f =>
      (getId st.frecs crc w.rand16).bind fun newId =>
        (startNew now search.type st).map fun start =>
          let f := newRecord { q with header } crc newId search.norebind start.2.1 f
          let sent := sendAttempt w q header search.addr ⟨place, f, search.type, search.domain, start.1⟩ start.2.2
          (sent.1, sent.2.1, new.out ++ sent.2.2)

def querySearch (w : Outside) (q : Query) (st : Forwarder) : ServerSearch :=
  match extractRequest q.header with
  | some (qtype, name) => searchServers st.opts w.munge.localDomain st.servers qtype name
  | none => ⟨0, none, false, none, 0, 0⟩

/-- The AD bit is not passed on. -/
def Packet.clearAd (header : Packet) : Packet := header.setHb4 (header.hb4 &&& 0xdf)

/-- `forward_query`; `forward` is the record, if the caller has it. -/
def forwardQuery (w : Outside) (now : Int) (q : Query) (forward : Option Nat) (st : Forwarder) :
    Except Stuck (Bool × Forwarder × List Output) :=
  let header := q.header.clearAd
  if st.servers = [] then .ok (false, st, localReply st.opts q header none 0)
  else
    match forward.or (lookupFrecBySender st.frecs header.id q.udpaddr (questionsCrc q.header)) with
    | some place =>
      match st.frecs[place]? with
      | none => .error .fault
      | some f => (retryAttempt st place f).map fun retry => sendAttempt w q header none retry.1 retry.2
    | none =>
      let search := querySearch w q st
      if search.flags ≠ 0 then .ok (false, st, localReply st.opts q header search.addr search.flags)
      else forwardNew w now q header search st

end Forward

section Reply

/-- A packet from a server. -/
structure Datagram where
  serveraddr : MySockaddr
  header : Packet

def isFailure (header : Packet) : Bool := header.rcode = SERVFAIL ∨ header.rcode = REFUSED

/-- The spoof check: whether a packet comes from a known server. -/
def fromServer (servers : List ServerNode) (addr : MySockaddr) : Bool :=
  servers.any fun node =>
    node.2.flags &&& (SERV_LITERAL_ADDRESS ||| SERV_NO_ADDR) = 0 ∧ sockaddrIsequal node.2.addr addr

/-- A general server at an address, which is the good one. -/
def goodServer (servers : List ServerNode) (addr : MySockaddr) : Option Nat :=
  (servers.find? fun node =>
    node.2.flags &&& (SERV_LITERAL_ADDRESS ||| SERV_HAS_DOMAIN ||| SERV_FOR_NODOTS ||| SERV_NO_ADDR) = 0 ∧
      sockaddrIsequal node.2.addr addr).map (·.1)

/-- The server that a reply is taken to come from, and `last_server`. -/
def replyServer (opts : Options) (d : Datagram) (serv : Server) (p : Nat) (st : Forwarder) : Option Nat × Forwarder :=
  if serv.flags &&& SERV_TYPE ≠ 0 then (some p, st)
  else
    let server := if isFailure d.header then none else (goodServer st.servers d.serveraddr).or (some p)
    (server, if opts.allServers then st else { st with lastServer := server })

/-- The end of `reply_query`: the answer to the client, unless others may still give a better one. -/
def finishReply (w : Outside) (d : Datagram) (server : Option Nat) (place : Nat) (f : Frec) (st : Forwarder) :
    Forwarder × List Output :=
  let f' := { f with forwardall := f.forwardall - 1 }
  if f.forwardall = 0 ∨ f'.forwardall = 1 ∨ ¬isFailure d.header then
    let check := st.opts.noRebind && !f.noRebind
    let answer :=
      match w.munge.processReply d.header server check f.checkingDisabled with
      | some header =>
        [.answer f.fd f.source f.dest f.iface ((header.setId f.origId).setHb4 (header.hb4 ||| 0x80))]
      | none => []
    let freed := freeFrec (if f.forwardall = 0 then f else f') st.socks
    ({ st with frecs := st.frecs.set place freed.1, socks := freed.2.1 }, answer ++ freed.2.2)
  else ({ st with frecs := st.frecs.set place f' }, [])

/-- `reply_query` -/
def replyQuery (w : Outside) (now : Int) (d : Datagram) (st : Forwarder) :
    Except Stuck (Forwarder × List Output) :=
  let st := { st with srvSave := none }
  if ¬fromServer st.servers d.serveraddr ∨ d.header.plen < HEADER_SIZE ∨ d.header.hb3 &&& 0x80 = 0 then .ok (st, [])
  else
    match lookupFrec st.frecs d.header.id (questionsCrc d.header) with
    | none => .ok (st, [])
    | some place =>
      match st.frecs[place]? with
      | none => .error .fault
      | some f =>
        match f.sentto with
        | none => .error .fault
        | some p =>
          let again :=
            if isFailure d.header ∧ ¬st.opts.order ∧ f.forwardall = 0 then w.munge.queryAgain d.header else none
          match again with
          | some header =>
            (forwardQuery w now ⟨-1, .unspec, 0, 0, header⟩ (some place) st).map (·.2)
          | none =>
            (findServer st.servers p).map fun serv =>
              let found := replyServer st.opts d serv p st
              finishReply w d found.1 place f found.2

/-- The loop of `server_gone`. -/
def goneFrecs (server : Nat) : List Frec → RandomSocks → List Frec × RandomSocks × List Output
  | [], socks => ([], socks, [])
  | f :: fs, socks =>
    if f.sentto = some server then
      let freed := freeFrec f socks
      let rest := goneFrecs server fs freed.2.1
      (freed.1 :: rest.1, rest.2.1, freed.2.2 ++ rest.2.2)
    else
      let rest := goneFrecs server fs socks
      (f :: rest.1, rest.2)

/-- `server_gone` -/
def forwarderGone (server : Nat) (st : Forwarder) : Forwarder × List Output :=
  let freed := goneFrecs server st.frecs st.socks
  ({ st with
      frecs := freed.1
      socks := freed.2.1
      lastServer := if st.lastServer = some server then none else st.lastServer
      srvSave := if st.srvSave = some server then none else st.srvSave }, freed.2.2)

end Reply

section Run

/-- What can happen to the forwarder. -/
inductive ForwardEvent
  /-- A query that cannot be answered from what is known here. -/
  | query (now : Int) (w : Outside) (q : Query)
  /-- A packet from a server. -/
  | reply (now : Int) (w : Outside) (d : Datagram)
  /-- The main loop asks how long there will be no record. -/
  | wait (now : Int) (w : Outside)
  /-- The servers change: `server_gone` is called for some, and then there are the `new` ones. -/
  | servers (gone : List Nat) (new : List ServerNode)

def serversGone (gone : List Nat) (st : Forwarder) : Forwarder × List Output :=
  gone.foldl (fun acc p => ((forwarderGone p acc.1).1, acc.2 ++ (forwarderGone p acc.1).2)) (st, [])

def Forwarder.step (st : Forwarder) : ForwardEvent → Except Stuck (Forwarder × List Output)
  | .query now w q => (forwardQuery w now q none { st with srvSave := none }).map (·.2)
  | .reply now w d => replyQuery w now d st
  | .wait now w =>
    let new := getNewFrec w st.opts.ftabsize now true st.frecs st.socks
    .ok ({ st with frecs := new.frecs, socks := new.socks }, new.out)
  | .servers gone new =>
    let left := serversGone gone st
    .ok ({ left.1 with servers := new }, left.2)

/-- What has happened, and what came of it. -/
abbrev Log := List (ForwardEvent × List Output)

def Forwarder.run (st : Forwarder) : List ForwardEvent → Except Stuck (Forwarder × Log)
  | [] => .ok (st, [])
  | e :: es => (st.step e).bind fun next => (run next.1 es).map fun rest => (rest.1, (e, next.2) :: rest.2)

end Run

end G361FPlatform.Dnsmasq
