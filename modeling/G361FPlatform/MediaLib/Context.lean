import G361FPlatform.MediaLib.Port
import Mathlib.Data.Int.Bitwise

namespace G361FPlatform.MediaLib

open Library Outcome

def camLinkApply (k : Kernel) (link : CamLink) (flag : Nat) (s : CamState) : Int × CamState :=
  if flag = 0 then
    let s := s.addLinkRef link.id (-1)
    if s.linkRefCnt link.id = 0 then mediaSetupLink k link flag s else (0, s)
  else if s.linkRefCnt link.id = 0 then
    let (ret, s) := mediaSetupLink k link flag s
    -- `goto disable` calls `media_setup_link` again, still with the enabling flag
    if ret < 0 then mediaSetupLink k link flag s else (0, s.addLinkRef link.id 1)
  else (0, s.addLinkRef link.id 1)

/-- The label `disable` of `CamRouteApply`. -/
def routeDisable (k : Kernel) (head : CamLink) (flag : Nat) (s : CamState) : Int × CamState :=
  let (ret, s) := camLinkApply k head flag s
  if ret < 0 then (ret, s) else (0, s)

/-- The body of `CamRouteApply`; `applyMore` is `if (route->more) ret = CamRouteApply(...)`. -/
def routeApplyBody (k : Kernel) (id : RouteId) (head : CamLink) (flag : Nat)
    (applyMore : CamState → Int × CamState) (s : CamState) : Int × CamState :=
  if flag = 0 then
    let s := s.addRouteRef id (-1)
    if s.routeRefCnt id ≤ 0 then
      let (ret, s) := applyMore s
      if ret < 0 then (ret, s) else routeDisable k head flag s
    else (0, s)
  else if s.routeRefCnt id = 0 then
    let (ret, s) := camLinkApply k head flag s
    if ret < 0 then routeDisable k head flag s
    else
      let (ret, s) := applyMore s
      if ret < 0 then routeDisable k head flag s else (0, s.addRouteRef id 1)
  else (0, s.addRouteRef id 1)

def camRouteApply (k : Kernel) (flag : Nat) : CamRoute → CamState → Int × CamState
  | .last id _ _ head => routeApplyBody k id head flag fun s => (0, s)
  | .cons id _ _ head more => routeApplyBody k id head flag (camRouteApply k flag more)

/-- `while (route->head->dst != ctx->path) route = route->more; ctx->crop = route->head->src;`
The result is the `route` the loop stops at. -/
def findCrop (path : NodeId) : CamRoute → Option CamRoute
  | r@(.last _ _ _ head) => if head.dst = some path then some r else none
  | r@(.cons _ _ _ head more) => if head.dst = some path then some r else findCrop path more

/-- `for (j++; j < ctx->path->NrRoute; j++)`: the first route to a free output, with the
routes behind it. -/
def nextOutput (s : CamState) : List CamRoute → Option (CamRoute × List CamRoute)
  | [] => none
  | r :: rs => if tstFlag (s.nodeFlags r.dst) CAMNODE_FL_S_OCCUPY then nextOutput s rs else some (r, rs)

def releaseOutputs : List CamRoute → CamState → CamState
  | [], s => s
  | r :: rs, s => releaseOutputs rs (s.clrNodeFlag r.dst CAMNODE_FL_S_OCCUPY)

/-- `for (i = 0, j = -1; i < NrDst; i++)`: `out` holds what is chosen so far, latest first.
When no output is left the chosen ones are released. -/
def selectOutputs : Nat → List CamRoute → List CamRoute → CamState → Option (List CamRoute) × CamState
  | 0, _, out, s => (some out.reverse, s)
  | n + 1, routes, out, s =>
    match nextOutput s routes with
    | none => (none, releaseOutputs out s)
    | some (r, rest) => selectOutputs n rest (r :: out) (s.setNodeFlag r.dst CAMNODE_FL_S_OCCUPY)

/-- `CamRouteApply(..., 1)` for the source route and then each output, up to the first failure. -/
def applyRoutes (k : Kernel) : List CamRoute → CamState → Int × CamState
  | [], s => (0, s)
  | r :: rs, s =>
    let (ret, s) := camRouteApply k 1 r s
    if ret < 0 then (ret, s) else applyRoutes k rs s

/-- The part of `CameraContextInit` before any state is touched: the argument checks, the
search of the route and of a free slot.  `Except.error` is what the function returns then. -/
def contextLookup (cam : PlatCam) (srcID pathID nrDst : Int) (s : CamState) :
    Except Stuck (Except Int (CamRoute × Nat)) :=
  if (cam.srcPool.length : Int) ≤ srcID then .ok (.error (-EINVAL))
  else if (cam.pathPool.length : Int) ≤ pathID then .ok (.error (-EINVAL))
  else if pathID < 0 then .error .fault
  else
    match cam.pathPool[pathID.toNat]? with
    | none => .error .fault
    | some pNode =>
      if ((cam.route pNode).length : Int) < nrDst then .ok (.error (-EPERM))
      else if srcID < 0 then .error .fault
      else
        match cam.srcPool[srcID.toNat]? with
        | none => .error .fault
        | some sNode =>
          match (cam.route sNode).find? (·.dst = pNode) with
          | none => .ok (.error (-EPIPE))
          | some route =>
            match (List.range CONTEXT_PER_PLATFORM).find? fun i => (s.ctx i).isNone with
            | none => .ok (.error (-ENOMEM))
            | some id => .ok (.ok (route, id))

def newContext (route : CamRoute) (crop : Option NodeId) (out : List CamRoute) (nrDst : Int) :
    CamCtx where
  route := route
  src := route.src
  crop := crop
  path := route.dst
  out := out
  nrOut := nrDst
  flags := setFlag 0#32 CAMCTX_FL_INIT

/-- `CameraContextInit` from `ctx_ready` on. -/
def contextReady (cam : PlatCam) (k : Kernel) (route : CamRoute) (id : Nat) (nrDst : Int)
    (s : CamState) : Outcome CamState :=
  match findCrop route.dst route with
  | none => .error .fault -- `route` runs into NULL
  | some crop =>
    match selectOutputs nrDst.toNat (cam.route route.dst) [] s with
    | (none, s) => .ok (-1, s.setCtx id none)
    | (some out, s) =>
      let (ret, s) := applyRoutes k (route :: out) s
      if ret < 0 then .ok (ret, s.setCtx id none)
      else .ok (id, s.setCtx id (some (newContext route crop.head.src out nrDst)))

def cameraContextInit (cam : PlatCam) (k : Kernel) (srcID pathID nrDst : Int) (s : CamState) :
    Outcome CamState :=
  match contextLookup cam srcID pathID nrDst s with
  | .error e => .error e
  | .ok (.error ret) => .ok (ret, s)
  | .ok (.ok (route, id)) => contextReady cam k route id nrDst s

/-- The first loop of `CameraContextKill`: it closes the first port with its busy flag set. -/
def killOutput (cam : PlatCam) (id : Nat) (ctx : CamCtx) (s : CamState) : Outcome CamState :=
  match (List.range ctx.nrOut.toNat).find? fun i => tstFlag ctx.flags (CAMCTX_FL_DST1_BUSY + i) with
  | none => .ok (0, s)
  | some i => (cameraContextOutputClose cam id i s).map fun (_, s) => (-EBUSY, s)

/-- `if (TstFlag(ctx, CAMCTX_FL_INPUT_BUSY))`; the ports closed so far have written `ctx->flags`. -/
def killInput (cam : PlatCam) (id : Nat) (ret : Int) (s : CamState) : Outcome CamState :=
  if (s.ctx id).any fun ctx => tstFlag ctx.flags CAMCTX_FL_INPUT_BUSY then
    (cameraContextInputClose cam id s).map fun (_, s) => (-EBUSY, s)
  else .ok (ret, s)

/-- `ret |= CamRouteApply(..., 0)` for one route after the other. -/
def cutRoutes (k : Kernel) : List CamRoute → Int → CamState → Int × CamState
  | [], ret, s => (ret, s)
  | r :: rs, ret, s =>
    let (cut, s) := camRouteApply k 0 r s
    cutRoutes k rs (Int.lor ret cut) s

/-- `CameraContextKill` once the ports are closed. -/
def killRoutes (k : Kernel) (id : Nat) (ctx : CamCtx) (ret : Int) (s : CamState) : Int × CamState :=
  let (ret, s) := cutRoutes k (ctx.out ++ [ctx.route]) ret s
  (ret, (releaseOutputs ctx.out.reverse s).setCtx id none)

def cameraContextKill (cam : PlatCam) (k : Kernel) (ctxID : Int) (s : CamState) :
    Outcome CamState :=
  if (CONTEXT_PER_PLATFORM : Int) ≤ ctxID then .ok (-EINVAL, s)
  else if ctxID < 0 then .error .fault
  else
    match s.ctx ctxID.toNat with
    | none => .ok (0, s)
    | some ctx =>
      match killOutput cam ctxID.toNat ctx s with
      | .error e => .error e
      | .ok (ret, s) =>
        match killInput cam ctxID.toNat ret s with
        | .error e => .error e
        | .ok (ret, s) => .ok (killRoutes k ctxID.toNat ctx ret s)

end G361FPlatform.MediaLib
