import G361FPlatform.MediaLib.Port

namespace G361FPlatform.MediaLib

open Library Outcome

def PARAM_SRC_SET_COMBO : Nat := 0
def PARAM_SRC_GET_COMBO : Nat := 1
def PARAM_CROP_SET_COMBO : Nat := 2
def PARAM_CROP_GET_COMBO : Nat := 3
def PARAM_PATH_SET_CROP : Nat := 4
def PARAM_PATH_GET_CROP : Nat := 5

def PARAM_APPLY_FMT : Nat := 0
def PARAM_APPLY_CROP : Nat := 1

structure CamNodeFmtCombo where
  which : Nat
  pad : Nat
  cropWnd : V4l2Rect
  width : Nat
  height : Nat
  code : Nat
  scope : BitVec 8
  deriving DecidableEq, Repr

namespace CamNodeFmtCombo

/-- `combo->scope & (1 << param)`. -/
def applies (combo : CamNodeFmtCombo) (param : Nat) : Bool := combo.scope.getLsbD param

def setCropWnd (combo : CamNodeFmtCombo) (reply : IoctlReply) : CamNodeFmtCombo :=
  { combo with cropWnd := reply.r }

def setFmt (combo : CamNodeFmtCombo) (reply : IoctlReply) : CamNodeFmtCombo :=
  { combo with width := reply.width, height := reply.height, code := reply.code }

def sameFmt (combo combo' : CamNodeFmtCombo) : Bool :=
  combo.width = combo'.width ∧ combo.height = combo'.height ∧ combo.code = combo'.code

end CamNodeFmtCombo

/-- A combo behind a pointer, and the state. -/
abbrev ComboState := CamNodeFmtCombo × CamState

/-- `for (i = 0; i < node->NrLink; i++)` of `CamNodeSetCombo`; `setCombo` is the recursive call. -/
def applyDownstream (setCombo : NodeId → CamNodeFmtCombo → CamState → Outcome ComboState)
    (node : NodeId) (combo : CamNodeFmtCombo) : List CamLink → Int → CamState → Outcome CamState
  | [], ret, s => .ok (ret, s)
  | l :: ls, ret, s =>
    if l.src ≠ some node ∨ l.mlink.source.index ≠ combo.pad then
      applyDownstream setCombo node combo ls ret s
    else if s.linkRefCnt l.id = 0 then applyDownstream setCombo node combo ls ret s
    else
      match l.dst with
      | none => .error .fault
      | some dst =>
        match setCombo dst { combo with pad := l.mlink.sink.index, scope := 1#8 <<< PARAM_APPLY_FMT } s with
        | .error e => .error e
        | .ok (ret, r_combo, s) =>
          if ret < 0 then .ok (ret, s)
          else if r_combo.sameFmt combo then applyDownstream setCombo node combo ls ret s
          else .ok (ret, s) -- `goto exit` with the `ret` of the call that went through

/-- `if (combo->scope & (1 << PARAM_APPLY_CROP))` of `CamNodeSetCombo`. -/
def setComboCrop (cam : PlatCam) (k : Kernel) (node : NodeId) : ComboState → Outcome ComboState
  | (combo, s) =>
    if combo.applies PARAM_APPLY_CROP then
      let (reply, s) := ioctl k (cam.meOf node) (.sSelection combo.which combo.pad combo.cropWnd) s
      if reply.ret < 0 then .ok (-1, combo, s) else .ok (reply.ret, combo.setCropWnd reply, s)
    else .ok (0, combo, s)

/-- `if (combo->scope & (1 << PARAM_APPLY_FMT))` of `CamNodeSetCombo`; `ret` is what the crop
has left there. -/
def setComboFmt (cam : PlatCam) (k : Kernel)
    (setCombo : NodeId → CamNodeFmtCombo → CamState → Outcome ComboState) (node : NodeId)
    (ret : Int) : ComboState → Outcome ComboState
  | (combo, s) =>
    if combo.applies PARAM_APPLY_FMT then
      let request := .sFmt combo.which combo.pad combo.width combo.height combo.code
      let (reply, s) := ioctl k (cam.meOf node) request s
      if reply.ret < 0 then .ok (reply.ret, combo, s)
      else
        let combo := combo.setFmt reply
        match (cam.media.padsOf (cam.meOf node))[combo.pad]? with
        | none => .error .fault
        | some flags =>
          if flags.sink then .ok (reply.ret, combo, s)
          else
            (applyDownstream setCombo node combo (cam.linksOf node) reply.ret s).map
              fun (ret, s) => (ret, combo, s)
    else .ok (ret, combo, s)

/-- The first argument bounds the depth of the recursion. -/
def camNodeSetCombo (cam : PlatCam) (k : Kernel) :
    Nat → NodeId → CamNodeFmtCombo → CamState → Outcome ComboState
  | 0, _, _, _ => .error .fuel
  | fuel + 1, node, combo, s =>
    let (fd, s) := camNodeOpen cam k node s
    if fd < 0 then .ok (fd, combo, s)
    else
      (andThen (setComboCrop cam k node (combo, s))
        (setComboFmt cam k (camNodeSetCombo cam k fuel) node)).map
          fun (ret, combo, s) => (ret, combo, (camNodeClose cam node s).2)

/-- `if (combo->scope & (1 << PARAM_APPLY_CROP))` of `CamNodeGetCombo`. -/
def getComboCrop (cam : PlatCam) (k : Kernel) (node : NodeId) : ComboState → Outcome ComboState
  | (combo, s) =>
    if combo.applies PARAM_APPLY_CROP then
      let (reply, s) := ioctl k (cam.meOf node) (.gSelection combo.which combo.pad) s
      if reply.ret < 0 then .ok (reply.ret, combo, s)
      else .ok (reply.ret, combo.setCropWnd reply, s)
    else .ok (0, combo, s)

def getComboFmt (cam : PlatCam) (k : Kernel) (node : NodeId) (ret : Int) :
    ComboState → Outcome ComboState
  | (combo, s) =>
    if combo.applies PARAM_APPLY_FMT then
      let (reply, s) := ioctl k (cam.meOf node) (.gFmt combo.which combo.pad) s
      if reply.ret < 0 then .ok (reply.ret, combo, s)
      else .ok (reply.ret, combo.setFmt reply, s)
    else .ok (ret, combo, s)

def camNodeGetCombo (cam : PlatCam) (k : Kernel) (node : NodeId) (combo : CamNodeFmtCombo)
    (s : CamState) : Outcome ComboState :=
  let (fd, s) := camNodeOpen cam k node s
  if fd < 0 then .ok (fd, combo, s)
  else
    (andThen (getComboCrop cam k node (combo, s)) (getComboFmt cam k node)).map
      fun (ret, combo, s) => (ret, combo, (camNodeClose cam node s).2)

/-- `CamNodeSetCombo(node, NULL)` and `CamNodeGetCombo(node, NULL)`. -/
def camNodeNullCombo (cam : PlatCam) (k : Kernel) (node : NodeId) (s : CamState) :
    Int × CamState :=
  let (fd, s) := camNodeOpen cam k node s
  if fd < 0 then (fd, s) else (-1, s)

def camNodeSetCtrl (cam : PlatCam) (k : Kernel) (node : NodeId) (s : CamState) : Int × CamState :=
  let (fd, s) := camNodeOpen cam k node s
  if fd < 0 then (fd, s)
  else
    let (reply, s) := ioctl k (cam.meOf node) .topologySnapshot s
    (reply.ret, (camNodeClose cam node s).2)

structure CamCtxParam where
  paramName : Nat
  paramArg : Option CamNodeFmtCombo
  deriving DecidableEq, Repr

namespace CamCtxParam

def isPath (p : CamCtxParam) : Bool :=
  p.paramName = PARAM_PATH_SET_CROP ∨ p.paramName = PARAM_PATH_GET_CROP

/-- `combo->scope = (1 << PARAM_APPLY_CROP)` of the path names. -/
def cutScope (p : CamCtxParam) : CamCtxParam :=
  if p.isPath then
    { p with paramArg := p.paramArg.map fun combo => { combo with scope := 1#8 <<< PARAM_APPLY_CROP } }
  else p

end CamCtxParam

/-- `while (route && route->src != obj) route = route->more;` -/
def findSegment (obj : NodeId) : CamRoute → Option CamRoute
  | r@(.last _ src _ _) => if src = obj then some r else none
  | r@(.cons _ src _ _ more) => if src = obj then some r else findSegment obj more

/-- `for (j = 0; j < obj->NrLink; j++)` of `CameraContextPara`. -/
def findLink (s : CamState) (obj : NodeId) (succ : Option NodeId) (links : List CamLink) :
    Option CamLink :=
  links.find? fun l => l.src = some obj ∧ l.dst = succ ∧ s.linkRefCnt l.id ≠ 0

/-- What the first `switch` of `CameraContextPara` settles: an error to return at once, or the
node (none for an unknown name) and the combo to work on. -/
abbrev Objective := Except Int (Option NodeId × Option CamNodeFmtCombo)

/-- The label `find_pad`; `combo` is what is in the variable when it is reached, `arg` is
`ParamList[i].ParamArg`. -/
def findPad (cam : PlatCam) (s : CamState) (route : CamRoute) (obj : NodeId)
    (combo arg : Option CamNodeFmtCombo) : Except Stuck Objective :=
  match findSegment obj route with
  | none => .ok (.error (-ENODEV))
  | some seg =>
    match findLink s obj seg.head.dst (cam.linksOf obj) with
    | some link =>
      match arg with
      | none => .error .fault
      | some arg => .ok (.ok (some obj, some { arg with pad := link.mlink.source.index }))
    | none => if seg.head.dst.isNone then .error .fault else .ok (.ok (some obj, combo))

def findObjective (cam : PlatCam) (ctx : CamCtx) (s : CamState) (p : CamCtxParam) :
    Except Stuck Objective :=
  if p.paramName = PARAM_SRC_SET_COMBO ∨ p.paramName = PARAM_SRC_GET_COMBO then
    findPad cam s ctx.route ctx.src none p.paramArg
  else if p.paramName = PARAM_CROP_SET_COMBO ∨ p.paramName = PARAM_CROP_GET_COMBO then
    match ctx.crop with
    | none => .error .fault
    | some crop => findPad cam s ctx.route crop none p.paramArg
  else if p.isPath then
    match p.paramArg, ctx.out with
    | some combo, out :: _ => findPad cam s out ctx.path (some combo) p.paramArg
    | _, _ => .error .fault
  else .ok (.ok (none, none))

/-- The label `apply_cmd`, for a name that has a node: the `SET` names fall through to the
`GET` ones. -/
def applyCmd (cam : PlatCam) (k : Kernel) (fuel : Nat) (paramName : Nat) (obj : NodeId)
    (combo : CamNodeFmtCombo) (s : CamState) : Outcome ComboState :=
  if paramName = PARAM_SRC_SET_COMBO ∨ paramName = PARAM_CROP_SET_COMBO ∨
      paramName = PARAM_PATH_SET_CROP then
    andThen (camNodeSetCombo cam k fuel obj combo s) fun _ (combo, s) =>
      camNodeGetCombo cam k obj combo s
  else camNodeGetCombo cam k obj combo s

/-- `for (i = 0; i < NrParam; i++)` of `CameraContextPara`. -/
def applyParams (cam : PlatCam) (k : Kernel) (fuel : Nat) (ctx : CamCtx) :
    List CamCtxParam → CamState → Outcome (List CamCtxParam × CamState)
  | [], s => .ok (0, [], s)
  | p :: ps, s =>
    let p := p.cutScope
    match findObjective cam ctx s p with
    | .error e => .error e
    | .ok (.error ret) => .ok (ret, p :: ps, s)
    | .ok (.ok (none, _)) => (applyParams cam k fuel ctx ps s).map fun (ret, ps, s) => (ret, p :: ps, s)
    | .ok (.ok (some obj, none)) =>
      let (ret, s) := camNodeNullCombo cam k obj s
      .ok (ret, p :: ps, s)
    | .ok (.ok (some obj, some combo)) =>
      match applyCmd cam k fuel p.paramName obj combo s with
      | .error e => .error e
      | .ok (ret, combo, s) =>
        let p := { p with paramArg := some combo }
        if ret < 0 then .ok (ret, p :: ps, s)
        else (applyParams cam k fuel ctx ps s).map fun (ret, ps, s) => (ret, p :: ps, s)

def cameraContextPara (cam : PlatCam) (k : Kernel) (fuel : Nat) (ctxID : Int)
    (paramList : List CamCtxParam) (s : CamState) : Outcome (List CamCtxParam × CamState) :=
  if ctxID < 0 ∨ (CONTEXT_PER_PLATFORM : Int) ≤ ctxID then .ok (-EINVAL, paramList, s)
  else
    match s.ctx ctxID.toNat with
    | none => .ok (-ENODEV, paramList, s)
    | some ctx =>
      andThen (applyParams cam k fuel ctx paramList s) fun _ (paramList, s) =>
        let (ret, s) := camNodeSetCtrl cam k ctx.path s
        .ok (ret, paramList, s)

end G361FPlatform.MediaLib
