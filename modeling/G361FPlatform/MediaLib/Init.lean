import G361FPlatform.MediaLib.Port
import G361FPlatform.MediaLib.Search

namespace G361FPlatform.MediaLib

open Library

def ME_CNT : Nat := 50

def B52_IDI1_NAME : String := "b52isd-IDI1"

def b52PathName : List String := [
  "b52isd-Pipeline#1",
  "b52isd-DataDump#1",
  "b52isd-MemorySensor#1",
  "b52isd-Pipeline#2",
  "b52isd-DataDump#2",
  "b52isd-MemorySensor#2",
  "b52isd-HighSpeed",
  "b52isd-HDRProcess",
  "b52isd-3DStereo",
  "ccic-dma #0",
  "ccic-dma #1"]

/-- `cam->node[i]->me`, and the container every entity points to. -/
structure NodeTable where
  me : List EntityId
  container : EntityId → Option NodeId

namespace NodeTable

def empty : NodeTable := ⟨[], fun _ => none⟩

/-- `CamNodeCreate`, and the node's place in `cam->node`. -/
def camNodeCreate (me : EntityId) (t : NodeTable) : NodeTable where
  me := t.me ++ [me]
  container := Function.update t.container me (some t.me.length)

end NodeTable

/-- The loop that creates the nodes, with as many rounds left as the first argument says; the
round is the number of nodes there are.  `alloc` tells which allocations succeed. -/
def createNodes (media : MediaDevice) (alloc : Nat → Bool) : Nat → NodeTable → Option NodeTable
  | 0, t => some t
  | n + 1, t =>
    match media.mediaGetEntityByIdNext t.me.length with
    | none => some t
    | some me =>
      if alloc t.me.length then createNodes media alloc n (t.camNodeCreate me) else none

def camNodeSetup (media : MediaDevice) (t : NodeTable) (node : NodeId) (me : EntityId) : CamNode where
  me := me
  link := (media.linksOf me).mapIdx fun i l =>
    ⟨(node, i), t.container l.source.entity, t.container l.sink.entity, l⟩

/-- The flag of a node that `MediaLibFindSource` takes. -/
def sourceFlag (media : MediaDevice) (me : EntityId) : Option Nat :=
  if (media.padsOf me).any (·.sink) then none
  else
    match media.typeOf me with
    | .devnodeV4l => some CAMNODE_FL_T_INPUT
    | .subdevSensor => some CAMNODE_FL_T_SOURCE
    | .other => none

/-- The nodes `MediaLibFindDst` takes. -/
def isOutput (media : MediaDevice) (me : EntityId) : Bool :=
  media.typeOf me = .devnodeV4l && !(media.padsOf me).any (·.source)

def mediaLibFindSource (media : MediaDevice) (t : NodeTable) : List NodeId :=
  (List.range t.me.length).filter fun n => t.me[n]?.any fun me => (sourceFlag media me).isSome

def mediaLibFindPath (media : MediaDevice) (t : NodeTable) : List NodeId :=
  b52PathName.filterMap fun name => (media.mediaGetEntityByName name).bind t.container

def mediaLibFindDst (media : MediaDevice) (t : NodeTable) : List NodeId :=
  (List.range t.me.length).filter fun n => t.me[n]?.any (isOutput media)

/-- `cam` as `MediaLibSearchRoute` finds it. -/
def findNodes (media : MediaDevice) (t : NodeTable) : CamGraph where
  media := media
  node := t.me.mapIdx (camNodeSetup media t)
  srcPool := mediaLibFindSource media t
  pathPool := mediaLibFindPath media t
  dstPool := mediaLibFindDst media t

/-- `node->flags` after the three `MediaLibFind` functions. -/
def typeFlags (cam : CamGraph) (n : NodeId) : BitVec 32 :=
  let flags := if n ∈ cam.srcPool then (sourceFlag cam.media (cam.meOf n)).elim 0 (setFlag 0) else 0
  let flags := if n ∈ cam.pathPool then setFlag flags CAMNODE_FL_T_PATH else flags
  if n ∈ cam.dstPool then setFlag flags CAMNODE_FL_T_OUTPUT else flags

/-- Counters come out of `calloc`, and `media_enum_entities` leaves every `fd` at -1. -/
def CamState.init (nodeFlags : NodeId → BitVec 32) : CamState where
  linkRefCnt := fun _ => 0
  routeRefCnt := fun _ => 0
  nodeFlags := nodeFlags
  openCnt := fun _ => 0
  fd := fun _ => -1
  ctx := fun _ => none
  setupCalls := []
  ioctls := []
  files := []
  opens := 0

/-- `MediaLibInit` from `MediaLibSearchRoute` on; `none` is its NULL. -/
def initRoutes (k : Kernel) (fuel : Nat) (cam : CamGraph) (t : NodeTable) :
    Except Stuck (Option (PlatCam × CamState)) :=
  match mediaLibSearchRoute cam fuel SearchState.init with
  | .error e => .error e
  | .ok (ret, s) =>
    if ret < 0 then .ok none
    else
      match (cam.media.mediaGetEntityByName B52_IDI1_NAME).bind t.container with
      | none => .ok none
      | some node =>
        let cam := cam.withRoutes s
        .ok (some (cam, (camNodeOpen cam k node (CamState.init (typeFlags cam.toCamGraph))).2))

/-- `mediaOpen` is what `media_open` returns.  The failing exits go through `MediaLibExit`,
which looks the ISP up in `cam->media` whether or not there is one. -/
def mediaLibInit (k : Kernel) (fuel : Nat) (mediaOpen : Option MediaDevice) (alloc : Nat → Bool) :
    Except Stuck (Option (PlatCam × CamState)) :=
  match mediaOpen with
  | none => .error .fault
  | some media =>
    match createNodes media alloc ME_CNT NodeTable.empty with
    | none => .ok none
    | some t => initRoutes k fuel (findNodes media t) t

end G361FPlatform.MediaLib
