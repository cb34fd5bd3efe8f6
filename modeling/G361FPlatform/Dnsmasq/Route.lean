import G361FPlatform.Library.CString
import G361FPlatform.Dnsmasq.Ra

namespace G361FPlatform.Dnsmasq

open Library

/-- An entry of the host route list. -/
structure Route where
  interface : CString
  dst : In6Addr
  active : Bool
  deriving DecidableEq, Repr

inductive Action
  | add | del
  deriving DecidableEq, Repr

/-- What a command names: a route of the main table, a route of a numbered one, a rule by source
address.  The address is missing where the text for it was never written. -/
inductive Object
  | main (interface : CString) (dst : In6Addr)
  | table (num : Int) (addr : Option In6Addr) (interface : CString)
  | rule (num : Int) (addr : Option In6Addr)
  deriving DecidableEq, Repr

structure Command where
  action : Action
  object : Object
  deriving DecidableEq, Repr

def ifcActOnIpv6Route (action : Action) (ifname : CString) (dst : In6Addr) : Command :=
  ⟨action, .main ifname dst⟩

def modifyFromRule (tableNum : Int) (action : Action) (addr : Option In6Addr) : Command :=
  ⟨action, .rule tableNum addr⟩

def modifyFromRoute (tableNum : Int) (action : Action) (addr : Option In6Addr) (iface : CString) :
    Command :=
  ⟨action, .table tableNum addr iface⟩

/-- How the system answers a command, and what becomes of it.  It also gets the interface of the
list entry that the command is for, which the command need not name. -/
abbrev Exec (κ : Type u) := CString → Command → κ → Bool × κ

structure Routes (κ : Type u) where
  activeRoute : List Route
  routeCount : Int
  tableNum : Int
  kernel : κ

def Routes.init (kernel : κ) : Routes κ := ⟨[], 0, -1, kernel⟩

def setTableNumber (tableNum : Int) (s : Routes κ) : Routes κ := { s with tableNum := tableNum }

def Route.isAt (dst : In6Addr) (interface : CString) (r : Route) : Bool :=
  dst = r.dst ∧ interface = r.interface

variable (exec : Exec κ)

/-- The route, and the rule where a table is set; whether both were made. -/
def addRoute (tableNum : Int) (dst : In6Addr) (interface : CString) (k : κ) : Bool × κ :=
  let routed := exec interface (ifcActOnIpv6Route .add interface dst) k
  if routed.1 = false then routed
  else if tableNum = -1 then routed
  else
    let ruled := exec interface (modifyFromRule tableNum .add (some dst)) routed.2
    if ruled.1 = false then
      -- the undo adds the route once more
      (false, (exec interface (ifcActOnIpv6Route .add interface dst) ruled.2).2)
    else ruled

def addRouteToActiveLists (dst : In6Addr) (interface : CString) (s : Routes κ) : Int × Routes κ :=
  if s.activeRoute.any fun r => r.isAt dst interface && r.active then (-1, s)
  else
    let added := addRoute exec s.tableNum dst interface s.kernel
    if added.1 = false then (-1, { s with kernel := added.2 })
    else
      (1, { s with
        activeRoute := ⟨interface, dst, true⟩ :: s.activeRoute
        routeCount := s.routeCount + 1
        kernel := (exec interface (modifyFromRoute 97 .add (some dst) interface) added.2).2 })

/-- A loop over the list that may change each entry. -/
def forRoutes (body : Route → κ → Route × κ) : List Route → κ → List Route × κ
  | [], k => ([], k)
  | r :: rs, k =>
    let head := body r k
    let tail := forRoutes body rs head.2
    (head.1 :: tail.1, tail.2)

def reactiveRoute (tableNum : Int) (dst : In6Addr) (prefixLen : Nat) (interface : CString) (r : Route)
    (k : κ) : Route × κ :=
  if isSameNet6 dst r.dst prefixLen ∧ interface = r.interface ∧ r.active = false then
    let k := (exec r.interface (ifcActOnIpv6Route .add r.interface r.dst) k).2
    let k := if tableNum = -1 then k else
      let k := (exec r.interface (modifyFromRule tableNum .add (some r.dst)) k).2
      (exec r.interface (modifyFromRoute tableNum .add (some r.dst) interface) k).2
    ({ r with active := true }, k)
  else (r, k)

def reactiveActiveLists (dst : In6Addr) (prefixLen : Nat) (interface : CString) (s : Routes κ) :
    Routes κ :=
  let done := forRoutes (reactiveRoute exec s.tableNum dst prefixLen interface) s.activeRoute s.kernel
  { s with activeRoute := done.1, kernel := done.2 }

def deleteRoute (tableNum : Int) (interface : CString) (r : Route) (k : κ) : Route × κ :=
  if interface = r.interface ∧ r.active then
    let k := (exec r.interface (ifcActOnIpv6Route .del r.interface r.dst) k).2
    let addr := if tableNum = -1 then none else some r.dst
    let k := if tableNum = -1 then k else
      (exec r.interface (modifyFromRule tableNum .del addr) k).2
    ({ r with active := false }, (exec r.interface (modifyFromRoute tableNum .del addr interface) k).2)
  else (r, k)

def deleteActiveLists (interface : CString) (s : Routes κ) : Routes κ :=
  let done := forRoutes (deleteRoute exec s.tableNum interface) s.activeRoute s.kernel
  { s with activeRoute := done.1, kernel := done.2 }

inductive Call
  | setTableNumber (tableNum : Int)
  | addRouteToActiveLists (dst : In6Addr) (interface : CString)
  | reactiveActiveLists (dst : In6Addr) (prefixLen : Nat) (interface : CString)
  | deleteActiveLists (interface : CString)
  deriving DecidableEq, Repr

def Routes.call (s : Routes κ) : Call → Routes κ
  | .setTableNumber tableNum => setTableNumber tableNum s
  | .addRouteToActiveLists dst interface => (addRouteToActiveLists exec dst interface s).2
  | .reactiveActiveLists dst prefixLen interface => reactiveActiveLists exec dst prefixLen interface s
  | .deleteActiveLists interface => deleteActiveLists exec interface s

end G361FPlatform.Dnsmasq
