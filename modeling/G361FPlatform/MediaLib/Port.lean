import G361FPlatform.MediaLib.State

namespace G361FPlatform.MediaLib

open Library

def camNodeOpen (cam : PlatCam) (k : Kernel) (node : NodeId) (s : CamState) : Int × CamState :=
  if s.openCnt node = 0 then
    let (fd, s) := openMe k (cam.meOf node) s
    if fd < 0 then (fd, s) else (fd, s.addOpenCnt node 1)
  else (s.fd (cam.meOf node), s.addOpenCnt node 1)

def camNodeClose (cam : PlatCam) (node : NodeId) (s : CamState) : Int × CamState :=
  let s := s.addOpenCnt node (-1)
  if s.openCnt node = 0 then (0, closeMe (cam.meOf node) s) else (0, s)

/-- The lookup most of the context functions start with; an id below 0 reads in front of
`cam->ctx`. -/
def withCtx (ctxID : Int) (f : Nat → CamCtx → CamState → Outcome CamState) (s : CamState) :
    Outcome CamState :=
  if (CONTEXT_PER_PLATFORM : Int) ≤ ctxID then .ok (-EINVAL, s)
  else if ctxID < 0 then .error .fault
  else
    match s.ctx ctxID.toNat with
    | none => .ok (-ENODEV, s)
    | some ctx => f ctxID.toNat ctx s

/-- `if (port >= ctx->NrOut) return -EINVAL; out = ctx->out[port]->dst;` -/
def withPort (ctx : CamCtx) (port : Int) (f : NodeId → CamState → Outcome CamState)
    (s : CamState) : Outcome CamState :=
  if ctx.nrOut ≤ port then .ok (-EINVAL, s)
  else if port < 0 then .error .fault
  else
    match ctx.out[port.toNat]? with
    | none => .error .fault
    | some r => f r.dst s

def cameraContextOutputOpen (cam : PlatCam) (k : Kernel) (ctxID port : Int) :
    CamState → Outcome CamState :=
  withCtx ctxID fun id ctx => withPort ctx port fun out s =>
    if 0 ≤ s.fd (cam.meOf out) then .ok (-EBUSY, s)
    else
      let (fd, s) := openMe k (cam.meOf out) s
      if fd < 0 then .ok (fd, s)
      else
        let flags := setFlag ctx.flags (CAMCTX_FL_DST1_BUSY + port.toNat)
        .ok (fd, s.setCtx id (some { ctx with flags := flags }))

def cameraContextOutputClose (cam : PlatCam) (ctxID port : Int) : CamState → Outcome CamState :=
  withCtx ctxID fun id ctx => withPort ctx port fun out s =>
    if s.fd (cam.meOf out) < 0 then .ok (-EPERM, s)
    else
      let flags := clrFlag ctx.flags (CAMCTX_FL_DST1_BUSY + port.toNat)
      .ok (0, (closeMe (cam.meOf out) s).setCtx id (some { ctx with flags := flags }))

def cameraContextInputOpen (cam : PlatCam) (k : Kernel) (ctxID : Int) :
    CamState → Outcome CamState :=
  withCtx ctxID fun id ctx s =>
    if cam.media.typeOf (cam.meOf ctx.src) ≠ .devnodeV4l then .ok (-EPERM, s)
    else if 0 ≤ s.fd (cam.meOf ctx.src) then .ok (-EBUSY, s)
    else
      let (fd, s) := openMe k (cam.meOf ctx.src) s
      if fd < 0 then .ok (fd, s)
      else
        let flags := setFlag ctx.flags CAMCTX_FL_INPUT_BUSY
        .ok (fd, s.setCtx id (some { ctx with flags := flags }))

def cameraContextInputClose (cam : PlatCam) (ctxID : Int) : CamState → Outcome CamState :=
  withCtx ctxID fun id ctx s =>
    if cam.media.typeOf (cam.meOf ctx.src) ≠ .devnodeV4l then .ok (-EPERM, s)
    else if s.fd (cam.meOf ctx.src) < 0 then .ok (-EPERM, s)
    else
      let flags := clrFlag ctx.flags CAMCTX_FL_INPUT_BUSY
      .ok (0, (closeMe (cam.meOf ctx.src) s).setCtx id (some { ctx with flags := flags }))

def cameraContextPathGet (cam : PlatCam) (k : Kernel) (ctxID : Int) :
    CamState → Outcome CamState :=
  withCtx ctxID fun _ ctx s => .ok (camNodeOpen cam k ctx.path s)

def cameraContextPathPut (cam : PlatCam) (ctxID : Int) : CamState → Outcome CamState :=
  withCtx ctxID fun _ ctx s => .ok (camNodeClose cam ctx.path s)

def cameraContextSourceGet (cam : PlatCam) (k : Kernel) (ctxID : Int) :
    CamState → Outcome CamState :=
  withCtx ctxID fun _ ctx s =>
    if cam.media.typeOf (cam.meOf ctx.src) ≠ .subdevSensor then .ok (-EPERM, s)
    else .ok (camNodeOpen cam k ctx.src s)

def cameraContextSourcePut (cam : PlatCam) (ctxID : Int) : CamState → Outcome CamState :=
  withCtx ctxID fun _ ctx s => .ok (camNodeClose cam ctx.src s)

/-- `cam->SrcPool[srcID]`; neither caller checks `srcID`. -/
def withSource (cam : PlatCam) (srcID : Int) (f : NodeId → CamState → Outcome CamState)
    (s : CamState) : Outcome CamState :=
  if srcID < 0 then .error .fault
  else
    match cam.srcPool[srcID.toNat]? with
    | none => .error .fault
    | some node => f node s

def openCam (cam : PlatCam) (k : Kernel) (srcID : Int) : CamState → Outcome CamState :=
  withSource cam srcID fun node s => .ok (0, (camNodeOpen cam k node s).2)

def closeCam (cam : PlatCam) (srcID : Int) : CamState → Outcome CamState :=
  withSource cam srcID fun node s => .ok (0, (camNodeClose cam node s).2)

end G361FPlatform.MediaLib
