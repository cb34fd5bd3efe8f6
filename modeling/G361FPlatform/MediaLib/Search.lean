import Mathlib.Algebra.Group.Nat.Defs
import G361FPlatform.Library.Outcome
import G361FPlatform.Library.Ring
import G361FPlatform.MediaLib.Device

namespace G361FPlatform.MediaLib

open Library Outcome

/-- Position of a node in `cam->node`; it stands for the node's address. -/
abbrev NodeId := Nat

/-- The node whose `link` array holds the link, and the position there. -/
abbrev LinkId := NodeId × Nat

/-- Position of a route among all routes ever allocated. -/
abbrev RouteId := Nat

def EINVAL : Int := 22
def ENOMEM : Int := 12
def EPERM : Int := 1
def EPIPE : Int := 32
def ENODEV : Int := 19
def EBUSY : Int := 16

/-- `struct CamLink` without its counter.  An end is `none` where the entity has no node,
that is where `GetContainer` gives NULL. -/
structure CamLink where
  id : LinkId
  src : Option NodeId
  dst : Option NodeId
  mlink : MediaLink
  deriving DecidableEq, Repr

/-- `struct CamRoute` without its counter, together with the chain its `more` leads to;
`last` is a route whose `more` is NULL. -/
inductive CamRoute
  | last (id : RouteId) (src dst : NodeId) (head : CamLink)
  | cons (id : RouteId) (src dst : NodeId) (head : CamLink) (more : CamRoute)
  deriving DecidableEq, Repr

namespace CamRoute

def id : CamRoute → RouteId
  | last id _ _ _ => id
  | cons id _ _ _ _ => id

def src : CamRoute → NodeId
  | last _ src _ _ => src
  | cons _ src _ _ _ => src

def dst : CamRoute → NodeId
  | last _ _ dst _ => dst
  | cons _ _ dst _ _ => dst

def head : CamRoute → CamLink
  | last _ _ _ head => head
  | cons _ _ _ head _ => head

def more : CamRoute → Option CamRoute
  | last _ _ _ _ => none
  | cons _ _ _ _ more => some more

/-- The route and everything behind its `more` pointers. -/
def segments : CamRoute → List CamRoute
  | r@(last _ _ _ _) => [r]
  | r@(cons _ _ _ _ more) => r :: more.segments

end CamRoute

structure CamNode where
  me : EntityId
  link : List CamLink
  deriving Repr

/-- The part of `struct PlatCam` that `MediaLibInit` has filled when it calls
`MediaLibSearchRoute`. -/
structure CamGraph where
  media : MediaDevice
  node : List CamNode
  srcPool : List NodeId
  pathPool : List NodeId
  dstPool : List NodeId
  deriving Repr

namespace CamGraph

def linksOf (cam : CamGraph) (node : NodeId) : List CamLink :=
  (cam.node[node]?).elim [] (·.link)

def meOf (cam : CamGraph) (node : NodeId) : EntityId :=
  (cam.node[node]?).elim 0 (·.me)

end CamGraph

def nodeQueueDepth : Nat := 20

abbrev NodeQ := Library.Ring NodeId

/-- What `MediaLibSearchRoute` reads and writes: `node->level`, `node->route`, the routes
allocated so far, and the queue `__CamNodeQ`. -/
structure SearchState where
  level : NodeId → Nat
  route : NodeId → List CamRoute
  heap : List CamRoute
  queue : NodeQ

/-- Nodes come out of `calloc`, and the queue is a zeroed global. -/
def SearchState.init : SearchState where
  level := fun _ => 0
  route := fun _ => []
  heap := []
  queue := ⟨fun _ => none, 0, 0⟩

namespace SearchState

def qReset (s : SearchState) : SearchState := { s with queue := s.queue.reset }

def qPush (node : NodeId) (s : SearchState) : Outcome SearchState :=
  match s.queue.push nodeQueueDepth node with
  | none => .ok (-ENOMEM, s)
  | some q => .ok (0, { s with queue := q })

def qPop (s : SearchState) : Option NodeId × SearchState :=
  let (node, q) := s.queue.pop nodeQueueDepth
  (node, { s with queue := q })

def setLevel (node : NodeId) (level : Nat) (s : SearchState) : SearchState :=
  { s with level := Function.update s.level node level }

/-- Append `r` to `node->route`. -/
def addRoute (node : NodeId) (r : CamRoute) (s : SearchState) : SearchState :=
  { s with
    route := Function.update s.route node (s.route node ++ [r])
    heap := s.heap ++ [r] }

end SearchState

def camNodeAddRoute (node : NodeId) (head : CamLink) (more : Option CamRoute)
    (s : SearchState) : Outcome SearchState :=
  if head.src ≠ some node then .ok (-EINVAL, s)
  else
    match more with
    | some more =>
      if head.dst ≠ some more.src then .ok (-EINVAL, s)
      else .ok (0, s.addRoute node (.cons s.heap.length node more.dst head more))
    | none =>
      match head.dst with
      | none => .error .fault -- the only caller has tested `dst` for NULL
      | some dst => .ok (0, s.addRoute node (.last s.heap.length node dst head))

/-- `for (j = 0; j < dst->NrRoute; j++)` of `CamNodeSetupRoute`. -/
def addRoutes (node : NodeId) (head : CamLink) : List CamRoute → SearchState → Outcome SearchState
  | [], s => .ok (0, s)
  | r :: rs, s => andThen (camNodeAddRoute node head (some r) s) fun _ => addRoutes node head rs

/-- `for (i = 0; i < node->NrLink; i++)` of `CamNodeSetupRoute`; `setup` is the recursive call. -/
def setupLinks (setup : NodeId → SearchState → Outcome SearchState) (node : NodeId) :
    List CamLink → SearchState → Outcome SearchState
  | [], s => .ok (0, s)
  | l :: ls, s =>
    match l.dst with
    | none => setupLinks setup node ls s
    | some dst =>
      if dst = node then setupLinks setup node ls s
      else if s.level dst ≠ 0 then
        andThen (setup dst s) fun _ s =>
          andThen (addRoutes node l (s.route dst) s) fun _ => setupLinks setup node ls
      else andThen (camNodeAddRoute node l none s) fun _ => setupLinks setup node ls

/-- The first argument bounds the depth of the recursion. -/
def camNodeSetupRoute (cam : CamGraph) : Nat → NodeId → SearchState → Outcome SearchState
  | 0, _, _ => .error .fuel
  | fuel + 1, node, s =>
    if s.route node ≠ [] then .ok ((s.route node).length, s)
    else
      andThen (setupLinks (camNodeSetupRoute cam fuel) node (cam.linksOf node) s) fun _ s =>
        .ok ((s.route node).length, s)

/-- `node->level + 1` in `__u32`. -/
def levelAbove (level : Nat) : Nat := (level + 1) % 2 ^ 32

/-- `for (j = 0; j < node->NrLink; j++)` of `MediaLibSearchRoute`. -/
def relaxLinks (node : NodeId) : List CamLink → SearchState → Outcome SearchState
  | [], s => .ok (0, s)
  | l :: ls, s =>
    if l.src = some node then relaxLinks node ls s
    else
      match l.src with
      | none => .error .fault -- `up->level` with `up == NULL`
      | some up =>
        if s.level up < levelAbove (s.level node) then
          andThen ((s.setLevel up (levelAbove (s.level node))).qPush up) fun _ =>
            relaxLinks node ls
        else relaxLinks node ls s

/-- `do { ... } while(1)`: the first argument bounds the number of rounds. -/
def propagate (cam : CamGraph) : Nat → SearchState → Outcome SearchState
  | 0, _ => .error .fuel
  | fuel + 1, s =>
    match s.qPop with
    | (none, s) => .ok (0, s)
    | (some node, s) =>
      andThen (relaxLinks node (cam.linksOf node) s) fun _ => propagate cam fuel

def pushPool : List NodeId → SearchState → Outcome SearchState
  | [], s => .ok (0, s)
  | node :: pool, s => andThen (s.qPush node) fun _ => pushPool pool

def setupPool (cam : CamGraph) (fuel : Nat) : List NodeId → SearchState → Outcome SearchState
  | [], s => .ok (0, s)
  | node :: pool, s => andThen (camNodeSetupRoute cam fuel node s) fun _ => setupPool cam fuel pool

/-- One half of `MediaLibSearchRoute`: levels towards the nodes of `goals`, then routes for
the nodes of `owners`. -/
def searchPhase (cam : CamGraph) (fuel : Nat) (goals owners : List NodeId) (s : SearchState) :
    Outcome SearchState :=
  andThen (pushPool goals s.qReset) fun _ s =>
    andThen (propagate cam fuel s) fun _ => setupPool cam fuel owners

/-- Both exits reset the queue. -/
def mediaLibSearchRoute (cam : CamGraph) (fuel : Nat) (s : SearchState) : Outcome SearchState :=
  (andThen (searchPhase cam fuel cam.pathPool cam.srcPool s) fun _ =>
    searchPhase cam fuel cam.dstPool cam.pathPool).map fun (ret, s) => (ret, s.qReset)

end G361FPlatform.MediaLib
