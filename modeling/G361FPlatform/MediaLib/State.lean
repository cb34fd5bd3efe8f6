import G361FPlatform.MediaLib.Search
import Mathlib.Data.BitVec

namespace G361FPlatform.MediaLib

open Library

def CAMNODE_FL_T_SOURCE : Nat := 0
def CAMNODE_FL_T_INPUT : Nat := 1
def CAMNODE_FL_T_PATH : Nat := 3
def CAMNODE_FL_T_OUTPUT : Nat := 5
def CAMNODE_FL_S_OCCUPY : Nat := 6

def CAMCTX_FL_INPUT_BUSY : Nat := 0
def CAMCTX_FL_DST1_BUSY : Nat := 1
def CAMCTX_FL_INIT : Nat := 7

def CONTEXT_PER_PLATFORM : Nat := 10

-- `1 << f` for `f` from 32 on is 0, as the shift of a 32-bit ARM register gives it.
def setFlag (flags : BitVec 32) (f : Nat) : BitVec 32 := flags ||| 1#32 <<< f
def clrFlag (flags : BitVec 32) (f : Nat) : BitVec 32 := flags &&& ~~~(1#32 <<< f)
def tstFlag (flags : BitVec 32) (f : Nat) : Bool := flags &&& 1#32 <<< f ≠ 0#32

/-- `struct PlatCam` once `MediaLibSearchRoute` is through: the part no later call writes. -/
structure PlatCam extends CamGraph where
  route : NodeId → List CamRoute
  heap : List CamRoute

def CamGraph.withRoutes (cam : CamGraph) (s : SearchState) : PlatCam :=
  { cam with route := s.route, heap := s.heap }

structure CamCtx where
  route : CamRoute
  src : NodeId
  crop : Option NodeId
  path : NodeId
  out : List CamRoute
  nrOut : Int
  flags : BitVec 32
  deriving DecidableEq

/-- One call of `media_setup_link`, with its result. -/
structure SetupCall where
  link : LinkId
  flag : Nat
  ret : Int
  deriving DecidableEq, Repr

structure V4l2Rect where
  left : Int
  top : Int
  width : Nat
  height : Nat
  deriving DecidableEq, Repr

/-- The requests MediaLib makes of a driver, with what it fills in. -/
inductive Ioctl
  | sSelection (which pad : Nat) (r : V4l2Rect)
  | gSelection (which pad : Nat)
  | sFmt (which pad width height code : Nat)
  | gFmt (which pad : Nat)
  | topologySnapshot
  deriving DecidableEq, Repr

/-- What a driver leaves behind: its result, `-errno` where it fails, and the fields of the
argument that the caller may read back. -/
structure IoctlReply where
  ret : Int
  r : V4l2Rect
  width : Nat
  height : Nat
  code : Nat
  deriving DecidableEq, Repr

structure IoctlCall where
  me : EntityId
  fd : Int
  request : Ioctl
  reply : IoctlReply
  deriving DecidableEq, Repr

/-- The part of MediaLib that changes after `MediaLibInit`: the counters and flags of the
structures in `PlatCam`, `me->fd`, the context table, the calls of `media_setup_link`
and `ioctl` (latest first), and the descriptors the process holds with the device each one is
open on. -/
structure CamState where
  linkRefCnt : LinkId → Int
  routeRefCnt : RouteId → Int
  nodeFlags : NodeId → BitVec 32
  openCnt : NodeId → Int
  fd : EntityId → Int
  ctx : Nat → Option CamCtx
  setupCalls : List SetupCall
  ioctls : List IoctlCall
  files : List (Int × EntityId)
  opens : Nat

/-- The answers of the kernel: of the `n`-th `media_setup_link`, of the `n`-th `open`
with the given descriptors in use (a descriptor, or `-errno`), and of the `n`-th `ioctl`. -/
structure Kernel where
  setupLink : Nat → Int
  openDev : Nat → List Int → Int
  ioctl : Nat → Int → Ioctl → IoctlReply

namespace CamState

def addLinkRef (l : LinkId) (d : Int) (s : CamState) : CamState :=
  { s with linkRefCnt := Function.update s.linkRefCnt l (s.linkRefCnt l + d) }

def addRouteRef (r : RouteId) (d : Int) (s : CamState) : CamState :=
  { s with routeRefCnt := Function.update s.routeRefCnt r (s.routeRefCnt r + d) }

def addOpenCnt (node : NodeId) (d : Int) (s : CamState) : CamState :=
  { s with openCnt := Function.update s.openCnt node (s.openCnt node + d) }

def setNodeFlag (node : NodeId) (f : Nat) (s : CamState) : CamState :=
  { s with nodeFlags := Function.update s.nodeFlags node (setFlag (s.nodeFlags node) f) }

def clrNodeFlag (node : NodeId) (f : Nat) (s : CamState) : CamState :=
  { s with nodeFlags := Function.update s.nodeFlags node (clrFlag (s.nodeFlags node) f) }

def setFd (me : EntityId) (fd : Int) (s : CamState) : CamState :=
  { s with fd := Function.update s.fd me fd }

def setCtx (id : Nat) (ctx : Option CamCtx) (s : CamState) : CamState :=
  { s with ctx := Function.update s.ctx id ctx }

end CamState

def mediaSetupLink (k : Kernel) (l : CamLink) (flag : Nat) (s : CamState) : Int × CamState :=
  let ret := k.setupLink s.setupCalls.length
  (ret, { s with setupCalls := ⟨l.id, flag, ret⟩ :: s.setupCalls })

/-- `me->fd = open(me->devname, ...)`; a failed `open` returns -1 and sets `errno`. -/
def openMe (k : Kernel) (me : EntityId) (s : CamState) : Int × CamState :=
  let ret := k.openDev s.opens (s.files.map (·.1))
  let s := { s with opens := s.opens + 1 }
  if ret < 0 then (ret, s.setFd me (-1))
  else (ret, { s.setFd me ret with files := (ret, me) :: s.files })

def ioctl (k : Kernel) (me : EntityId) (request : Ioctl) (s : CamState) : IoctlReply × CamState :=
  let reply := k.ioctl s.ioctls.length (s.fd me) request
  (reply, { s with ioctls := ⟨me, s.fd me, request, reply⟩ :: s.ioctls })

/-- `close(me->fd); me->fd = -1;` -/
def closeMe (me : EntityId) (s : CamState) : CamState :=
  { s with files := s.files.filter (·.1 ≠ s.fd me) }.setFd me (-1)

end G361FPlatform.MediaLib
