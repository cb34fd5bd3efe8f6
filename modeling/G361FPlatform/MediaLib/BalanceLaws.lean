import G361FPlatform.MediaLib.InitLaws
import Mathlib.Algebra.Group.Pi.Lemmas
import Mathlib.Tactic.Abel

namespace G361FPlatform.MediaLib

open Library Outcome

/-- `CamNodeOpen` counts the open only if it has a descriptor to return: the node is not open yet,
or its entity's descriptor is still there. -/
def Openable (cam : PlatCam) (s : CamState) (node : NodeId) : Prop :=
  s.openCnt node = 0 ∨ 0 ≤ s.fd (cam.meOf node)

section

variable (cam : PlatCam) (k : Kernel)

def DownstreamOpenable (setCombo : NodeId → CamNodeFmtCombo → CamState → Outcome ComboState)
    (openable : NodeId → CamNodeFmtCombo → CamState → Prop) (node : NodeId) (combo : CamNodeFmtCombo) :
    List CamLink → CamState → Prop
  | [], _ => True
  | l :: ls, s =>
    if l.src ≠ some node ∨ l.mlink.source.index ≠ combo.pad then
      DownstreamOpenable setCombo openable node combo ls s
    else if s.linkRefCnt l.id = 0 then DownstreamOpenable setCombo openable node combo ls s
    else
      ∀ dst, l.dst = some dst →
        let combo' := { combo with pad := l.mlink.sink.index, scope := 1#8 <<< PARAM_APPLY_FMT }
        openable dst combo' s ∧ Post (setCombo dst combo' s) fun ret p => 0 ≤ ret →
          p.1.sameFmt combo = true → DownstreamOpenable setCombo openable node combo ls p.2

def FmtOpenable (setCombo : NodeId → CamNodeFmtCombo → CamState → Outcome ComboState)
    (openable : NodeId → CamNodeFmtCombo → CamState → Prop) (node : NodeId) : ComboState → Prop
  | (combo, s) =>
    combo.applies PARAM_APPLY_FMT = true →
      let (reply, s) :=
        ioctl k (cam.meOf node) (.sFmt combo.which combo.pad combo.width combo.height combo.code) s
      0 ≤ reply.ret → ∀ flags, (cam.media.padsOf (cam.meOf node))[combo.pad]? = some flags →
        flags.sink = false → DownstreamOpenable setCombo openable node (combo.setFmt reply) (cam.linksOf node) s

def SetComboOpenable : Nat → NodeId → CamNodeFmtCombo → CamState → Prop
  | 0, _, _, _ => True
  | fuel + 1, node, combo, s =>
    Openable cam s node ∧ (0 ≤ (camNodeOpen cam k node s).1 →
      Post (setComboCrop cam k node (combo, (camNodeOpen cam k node s).2)) fun ret p => 0 ≤ ret →
        FmtOpenable cam k (camNodeSetCombo cam k fuel) (SetComboOpenable fuel) node p)

def CmdOpenable (fuel : Nat) (paramName : Nat) (obj : NodeId) (combo : CamNodeFmtCombo) (s : CamState) : Prop :=
  if paramName = PARAM_SRC_SET_COMBO ∨ paramName = PARAM_CROP_SET_COMBO ∨ paramName = PARAM_PATH_SET_CROP then
    SetComboOpenable cam k fuel obj combo s ∧
      Post (camNodeSetCombo cam k fuel obj combo s) fun ret p => 0 ≤ ret → Openable cam p.2 obj
  else Openable cam s obj

/-- The nodes that the parameters come to are openable, and one that comes without a combo cannot
be opened at all. -/
def ParamsOpenable (fuel : Nat) (ctx : CamCtx) : List CamCtxParam → CamState → Prop
  | [], _ => True
  | p :: ps, s =>
    match findObjective cam ctx s p.cutScope with
    | .error _ => True
    | .ok (.error _) => True
    | .ok (.ok (none, _)) => ParamsOpenable fuel ctx ps s
    | .ok (.ok (some obj, none)) => s.openCnt obj = 0 ∧ k.openDev s.opens (s.files.map (·.1)) < 0
    | .ok (.ok (some obj, some combo)) =>
      CmdOpenable cam k fuel p.paramName obj combo s ∧
        Post (applyCmd cam k fuel p.paramName obj combo s) fun ret q => 0 ≤ ret → ParamsOpenable fuel ctx ps q.2

/-- The nodes that `CameraContextPara` comes to are openable. -/
def ParaOpenable (fuel : Nat) (ctxID : Int) (paramList : List CamCtxParam) (s : CamState) : Prop :=
  0 ≤ ctxID → ctxID < CONTEXT_PER_PLATFORM → ∀ ctx, s.ctx ctxID.toNat = some ctx →
    ParamsOpenable cam k fuel ctx paramList s ∧
      Post (applyParams cam k fuel ctx paramList s) fun ret p => 0 ≤ ret → Openable cam p.2 ctx.path

end

/-- What a part of `CameraContextPara` does to the counts: nothing, or it fails and leaves one node
open. -/
inductive Tally (good : Prop) (s : CamState) (ret : Int) (s' : CamState) : Prop
  | even : good → s'.openCnt = s.openCnt → Tally good s ret s'
  | off (node : NodeId) : ¬good → ret < 0 → s'.openCnt = s.openCnt + Pi.single node 1 → Tally good s ret s'

section

variable {cam : PlatCam} {k : Kernel} {good good' : Prop} {s s₁ s' : CamState} {ret ret₁ : Int} {node : NodeId}

theorem Tally.congr (h : Tally good s ret s') (hiff : good ↔ good') : Tally good' s ret s' := by
  cases h with
  | even hgood heq => exact .even (hiff.mp hgood) heq
  | off node hbad hneg heq => exact .off node (mt hiff.mpr hbad) hneg heq

theorem Tally.iff (h : Tally good s ret s') : s'.openCnt = s.openCnt ↔ good := by
  cases h with
  | even hgood heq => exact iff_of_true heq hgood
  | off node hbad _ heq =>
    refine iff_of_false (fun hsame => ?_) hbad
    have hnode := congrFun (heq.symm.trans hsame) node
    simp at hnode

theorem Tally.good_of_nonneg (h : Tally good s ret s') (hret : 0 ≤ ret) :
    good ∧ s'.openCnt = s.openCnt := by
  cases h with
  | even hgood heq => exact ⟨hgood, heq⟩
  | off node _ hneg _ => omega

theorem Tally.trans (h₁ : Tally good s ret₁ s₁) (hret : 0 ≤ ret₁) (h₂ : Tally good' s₁ ret s') :
    Tally (good ∧ good') s ret s' := by
  obtain ⟨hgood, hsame⟩ := h₁.good_of_nonneg hret
  cases h₂ with
  | even hgood' heq => exact .even ⟨hgood, hgood'⟩ (heq.trans hsame)
  | off node hbad hneg heq => exact .off node (fun h => hbad h.2) hneg (hsame ▸ heq)

theorem Tally.after_ioctl {me : EntityId} {request : Ioctl} (h : Tally good (ioctl k me request s).2 ret s') :
    Tally good s ret s' := by
  cases h with
  | even hgood heq => exact .even hgood heq
  | off node hbad hneg heq => exact .off node hbad hneg heq

theorem tally_andThen (stateOf : σ → CamState) {x : Outcome σ} {f : Int → σ → Outcome σ} {good' : σ → Prop}
    (hx : Post x fun ret p => Tally good s ret (stateOf p))
    (hf : ∀ ret p, 0 ≤ ret → Post (f ret p) fun ret' p' => Tally (good' p) (stateOf p) ret' (stateOf p')) :
    Post (andThen x f) fun ret p =>
      Tally (good ∧ Post x fun ret p => 0 ≤ ret → good' p) s ret (stateOf p) := by
  intro ret p heq
  rcases andThen_eq_ok heq with ⟨hneg, hx'⟩ | ⟨ret₁, p₁, hpos, hx', hf'⟩
  · refine (hx _ _ hx').congr ⟨fun h => ⟨h, ?_⟩, And.left⟩
    rw [hx']
    exact post_ok fun hret => by omega
  · refine ((hx _ _ hx').trans hpos (hf _ _ hpos _ _ hf')).congr (and_congr_right fun _ => ?_)
    rw [hx']
    exact ⟨fun h => post_ok fun _ => h, fun h => h _ _ rfl hpos⟩

theorem openCnt_addOpenCnt (node : NodeId) (d : Int) (s : CamState) :
    (s.addOpenCnt node d).openCnt = s.openCnt + Pi.single node d := by
  funext n
  by_cases hn : n = node
  · subst hn
    simp [CamState.addOpenCnt]
  · simp [CamState.addOpenCnt, hn]

theorem openCnt_openMe (me : EntityId) (s : CamState) : (openMe k me s).2.openCnt = s.openCnt := by
  unfold openMe
  dsimp only
  split <;> rfl

theorem openCnt_camNodeClose (node : NodeId) (s : CamState) :
    (camNodeClose cam node s).2.openCnt = s.openCnt - Pi.single node 1 := by
  have hcnt : (s.addOpenCnt node (-1)).openCnt = s.openCnt - Pi.single node 1 := by
    rw [openCnt_addOpenCnt, Pi.single_neg, sub_eq_add_neg]
  unfold camNodeClose
  dsimp only
  split
  · exact hcnt
  · exact hcnt

theorem tally_camNodeOpen (hneg : (camNodeOpen cam k node s).1 < 0) :
    Tally (Openable cam s node) s (camNodeOpen cam k node s).1 (camNodeOpen cam k node s).2 := by
  unfold camNodeOpen at hneg ⊢
  split at hneg
  next hcnt =>
    dsimp only at hneg ⊢
    split at hneg
    next hfail =>
      rw [if_pos hcnt, if_pos hfail]
      exact .even (.inl hcnt) (openCnt_openMe _ s)
    next hopen => exact absurd hneg hopen
  next hcnt =>
    rw [if_neg hcnt]
    exact .off node (fun h => h.elim hcnt fun hfd => by omega) hneg (openCnt_addOpenCnt node 1 s)

theorem camNodeOpen_ok (hpos : 0 ≤ (camNodeOpen cam k node s).1) :
    Openable cam s node ∧ (camNodeOpen cam k node s).2.openCnt = s.openCnt + Pi.single node 1 := by
  unfold camNodeOpen at hpos ⊢
  split at hpos
  next hcnt =>
    dsimp only at hpos ⊢
    split at hpos
    next hfail => exact absurd hfail (Int.not_lt.mpr hpos)
    next hopen =>
      rw [if_pos hcnt, if_neg hopen, openCnt_addOpenCnt, openCnt_openMe]
      exact ⟨.inl hcnt, rfl⟩
  next hcnt =>
    rw [if_neg hcnt]
    exact ⟨.inr hpos, openCnt_addOpenCnt node 1 s⟩

theorem Tally.bracket (hopen : s₁.openCnt = s.openCnt + Pi.single node 1) (h : Tally good s₁ ret s') :
    Tally good s ret (camNodeClose cam node s').2 := by
  cases h with
  | even hgood heq => exact .even hgood (by rw [openCnt_camNodeClose, heq, hopen, add_sub_cancel_right])
  | off n hbad hneg heq =>
    refine .off n hbad hneg ?_
    rw [openCnt_camNodeClose, heq, hopen]
    abel

theorem tally_setComboCrop (combo : CamNodeFmtCombo) (s : CamState) :
    Post (setComboCrop cam k node (combo, s)) fun ret p => Tally True s ret p.2 := by
  unfold setComboCrop
  dsimp only
  split
  · split
    · exact post_ok (.even trivial rfl)
    · exact post_ok (.even trivial rfl)
  · exact post_ok (.even trivial rfl)

theorem tally_applyDownstream {setCombo : NodeId → CamNodeFmtCombo → CamState → Outcome ComboState}
    {openable : NodeId → CamNodeFmtCombo → CamState → Prop}
    (hset : ∀ node combo s, Post (setCombo node combo s) fun ret p => Tally (openable node combo s) s ret p.2)
    (combo : CamNodeFmtCombo) (ls : List CamLink) (ret : Int) (s : CamState) :
    Post (applyDownstream setCombo node combo ls ret s) fun ret' s' =>
      Tally (DownstreamOpenable setCombo openable node combo ls s) s ret' s' := by
  induction ls generalizing ret s with
  | nil => exact post_ok (.even trivial rfl)
  | cons l ls ih =>
    unfold applyDownstream DownstreamOpenable
    split
    · exact ih ret s
    · split
      · exact ih ret s
      · cases hdst : l.dst with
        | none => exact post_error _ _
        | some dst =>
          dsimp only
          split
          · exact post_error _ _
          next ret₁ r_combo s₁ heq =>
            have hfirst := hset _ _ _ _ _ heq
            simp only [Option.some.injEq, forall_eq', heq]
            split
            next hneg =>
              refine post_ok (hfirst.congr ⟨fun h => ⟨h, post_ok fun hret => by omega⟩, And.left⟩)
            next hpos =>
              have hpos := Int.not_lt.mp hpos
              split
              next hsame =>
                refine (ih ret₁ s₁).imp fun ret' s' h => (hfirst.trans hpos h).congr (and_congr_right fun _ => ?_)
                exact ⟨fun h => post_ok fun _ _ => h, fun h => h _ _ rfl hpos hsame⟩
              next hdiffers =>
                exact post_ok (hfirst.congr ⟨fun h => ⟨h, post_ok fun _ hsame => absurd hsame hdiffers⟩, And.left⟩)

theorem tally_setComboFmt {setCombo : NodeId → CamNodeFmtCombo → CamState → Outcome ComboState}
    {openable : NodeId → CamNodeFmtCombo → CamState → Prop}
    (hset : ∀ node combo s, Post (setCombo node combo s) fun ret p => Tally (openable node combo s) s ret p.2)
    (ret : Int) (p : ComboState) :
    Post (setComboFmt cam k setCombo node ret p) fun ret' p' =>
      Tally (FmtOpenable cam k setCombo openable node p) p.2 ret' p'.2 := by
  obtain ⟨combo, s⟩ := p
  unfold setComboFmt FmtOpenable
  dsimp only
  split
  next happlies =>
    simp only [happlies, true_implies]
    split
    next hneg => exact post_ok (.even (fun hret => by omega) rfl)
    next hpos =>
      have hpos := Int.not_lt.mp hpos
      split
      · exact post_error _ _
      next flags hflags =>
        have hflags : (cam.media.padsOf (cam.meOf node))[combo.pad]? = some flags := hflags
        simp only [hflags, Option.some.injEq, forall_eq', hpos, true_implies]
        split
        next hsink => exact post_ok (.even (fun hsource => by rw [hsink] at hsource; cases hsource) rfl)
        next hsink =>
          have hsource := Bool.eq_false_iff.mpr hsink
          refine Post.map ((tally_applyDownstream hset _ _ _ _).imp fun _ _ h => ?_)
          exact h.after_ioctl.congr ⟨fun hgood _ => hgood, fun hgood => hgood hsource⟩
  next hno => exact post_ok (.even (fun happlies => absurd happlies hno) rfl)

theorem tally_camNodeSetCombo (fuel : Nat) (node : NodeId) (combo : CamNodeFmtCombo) (s : CamState) :
    Post (camNodeSetCombo cam k fuel node combo s) fun ret p =>
      Tally (SetComboOpenable cam k fuel node combo s) s ret p.2 := by
  induction fuel generalizing node combo s with
  | zero => exact post_error _ _
  | succ fuel ih =>
    unfold camNodeSetCombo SetComboOpenable
    dsimp only
    split
    next hneg =>
      refine post_ok ((tally_camNodeOpen hneg).congr ⟨fun h => ⟨h, fun hpos => by omega⟩, And.left⟩)
    next hpos =>
      have hpos := Int.not_lt.mp hpos
      obtain ⟨hopenable, hopen⟩ := camNodeOpen_ok hpos
      refine Post.map ((tally_andThen Prod.snd (tally_setComboCrop combo _) fun ret p _ =>
        tally_setComboFmt ih ret p).imp fun ret p h => (h.bracket hopen).congr ?_)
      simp [hopenable, hpos]

theorem tally_getComboCrop (combo : CamNodeFmtCombo) (s : CamState) :
    Post (getComboCrop cam k node (combo, s)) fun ret p => Tally True s ret p.2 := by
  unfold getComboCrop
  dsimp only
  split
  · split
    · exact post_ok (.even trivial rfl)
    · exact post_ok (.even trivial rfl)
  · exact post_ok (.even trivial rfl)

theorem tally_getComboFmt (ret : Int) (p : ComboState) :
    Post (getComboFmt cam k node ret p) fun ret' p' => Tally True p.2 ret' p'.2 := by
  unfold getComboFmt
  dsimp only
  split
  · split
    · exact post_ok (.even trivial rfl)
    · exact post_ok (.even trivial rfl)
  · exact post_ok (.even trivial rfl)

theorem tally_camNodeGetCombo (node : NodeId) (combo : CamNodeFmtCombo) (s : CamState) :
    Post (camNodeGetCombo cam k node combo s) fun ret p => Tally (Openable cam s node) s ret p.2 := by
  unfold camNodeGetCombo
  dsimp only
  split
  next hneg => exact post_ok (tally_camNodeOpen hneg)
  next hpos =>
    obtain ⟨hopenable, hopen⟩ := camNodeOpen_ok (Int.not_lt.mp hpos)
    refine Post.map ((tally_andThen Prod.snd (tally_getComboCrop combo _) fun ret p _ =>
      tally_getComboFmt ret p).imp fun ret p h => (h.bracket hopen).congr ?_)
    exact iff_of_true ⟨trivial, fun _ _ _ _ => trivial⟩ hopenable

theorem tally_camNodeNullCombo (node : NodeId) (s : CamState) :
    Tally (s.openCnt node = 0 ∧ k.openDev s.opens (s.files.map (·.1)) < 0) s (camNodeNullCombo cam k node s).1
      (camNodeNullCombo cam k node s).2 := by
  unfold camNodeNullCombo
  dsimp only
  split
  next hneg =>
    refine (tally_camNodeOpen hneg).congr ?_
    unfold camNodeOpen at hneg
    split at hneg
    next hcnt =>
      have hfail : k.openDev s.opens (s.files.map (·.1)) < 0 := by
        by_contra hfail
        simp only [openMe, if_neg hfail] at hneg
        exact hfail hneg
      exact iff_of_true (.inl hcnt) ⟨hcnt, hfail⟩
    next hcnt => exact iff_of_false (fun h => h.elim hcnt fun hfd => by omega) fun h => hcnt h.1
  next hpos =>
    obtain ⟨-, hopen⟩ := camNodeOpen_ok (Int.not_lt.mp hpos)
    refine .off node (fun ⟨hcnt, hfail⟩ => hpos ?_) (show (-1 : Int) < 0 by decide) hopen
    simp [camNodeOpen, openMe, hcnt, hfail]

theorem tally_camNodeSetCtrl (node : NodeId) (s : CamState) :
    Tally (Openable cam s node) s (camNodeSetCtrl cam k node s).1 (camNodeSetCtrl cam k node s).2 := by
  unfold camNodeSetCtrl
  dsimp only
  split
  next hneg => exact tally_camNodeOpen hneg
  next hpos =>
    obtain ⟨hopenable, hopen⟩ := camNodeOpen_ok (Int.not_lt.mp hpos)
    have hbody : Tally True (camNodeOpen cam k node s).2 0
        (ioctl k (cam.meOf node) .topologySnapshot (camNodeOpen cam k node s).2).2 := .even trivial rfl
    have hclosed : Tally True s 0 (camNodeClose cam node _).2 := hbody.bracket hopen
    exact .even hopenable (hclosed.good_of_nonneg le_rfl).2

theorem tally_applyCmd (fuel paramName : Nat) (obj : NodeId) (combo : CamNodeFmtCombo) (s : CamState) :
    Post (applyCmd cam k fuel paramName obj combo s) fun ret p =>
      Tally (CmdOpenable cam k fuel paramName obj combo s) s ret p.2 := by
  unfold applyCmd CmdOpenable
  split
  · exact tally_andThen Prod.snd (tally_camNodeSetCombo fuel obj combo s) fun _ p _ =>
      tally_camNodeGetCombo obj p.1 p.2
  · exact tally_camNodeGetCombo obj combo s

theorem tally_applyParams (fuel : Nat) (ctx : CamCtx) (ps : List CamCtxParam) (s : CamState) :
    Post (applyParams cam k fuel ctx ps s) fun ret p => Tally (ParamsOpenable cam k fuel ctx ps s) s ret p.2 := by
  induction ps generalizing s with
  | nil => exact post_ok (.even trivial rfl)
  | cons p ps ih =>
    have hname : p.cutScope.paramName = p.paramName := by
      unfold CamCtxParam.cutScope
      split <;> rfl
    unfold applyParams ParamsOpenable
    dsimp only
    rw [hname]
    cases findObjective cam ctx s p.cutScope with
    | error e => exact post_error _ _
    | ok objective =>
      rcases objective with ret | ⟨_ | obj, combo⟩
      · exact post_ok (.even trivial rfl)
      · exact Post.map (ih s)
      cases combo with
      | none => exact post_ok (tally_camNodeNullCombo obj s)
      | some combo =>
        dsimp only
        split
        · exact post_error _ _
        next ret combo' s₁ heq =>
          have hcmd := tally_applyCmd fuel p.paramName obj combo s _ _ heq
          rw [heq]
          split
          next hneg => exact post_ok (hcmd.congr ⟨fun h => ⟨h, post_ok fun hret => by omega⟩, And.left⟩)
          next hpos =>
            have hpos := Int.not_lt.mp hpos
            refine Post.map ((ih s₁).imp fun ret' q h => (hcmd.trans hpos h).congr (and_congr_right fun _ => ?_))
            exact ⟨fun h => post_ok fun _ => h, fun h => h _ _ rfl hpos⟩

/-- `CameraContextPara` leaves every count as it was exactly where the nodes it comes to are
openable. -/
theorem balanced_iff {fuel : Nat} {ctxID : Int} {ps ps' : List CamCtxParam}
    (h : cameraContextPara cam k fuel ctxID ps s = .ok (ret, ps', s')) :
    s'.openCnt = s.openCnt ↔ ParaOpenable cam k fuel ctxID ps s := by
  unfold cameraContextPara at h
  unfold ParaOpenable
  split at h
  next hrange =>
    cases h
    exact iff_of_true rfl fun h₀ h₁ => by omega
  next hrange =>
    rw [not_or, Int.not_lt, Int.not_le] at hrange
    split at h
    next hctx =>
      cases h
      exact iff_of_true rfl fun _ _ ctx hctx' => by rw [hctx] at hctx'; cases hctx'
    next ctx hctx =>
      have hbody := tally_andThen Prod.snd (tally_applyParams fuel ctx ps s)
        (fun _ p _ => post_ok (tally_camNodeSetCtrl ctx.path p.2)) _ _ h
      rw [hbody.iff]
      simp [hrange, hctx]

end

def inputRun : Except Stuck CamState :=
  smallRun [.contextInit 1 0 1, .inputOpen 0, .openCam 1, .inputClose 0]

def vgaParam : CamCtxParam := ⟨PARAM_SRC_GET_COMBO, some ⟨0, 0, ⟨0, 0, 0, 0⟩, 640, 480, 1, 1#8⟩⟩

theorem balanced_smallBoard : ∃ s ret ps' s', smallRun [.contextInit 0 0 1] = .ok s ∧
    cameraContextPara smallStart.1 readyKernel 3 0 [vgaParam] s = .ok (ret, ps', s') ∧
    (s'.openCnt = s.openCnt ↔ ParaOpenable smallStart.1 readyKernel 3 0 [vgaParam] s) := by
  have hseen : ((smallRun [.contextInit 0 0 1]).bind fun s =>
      (cameraContextPara smallStart.1 readyKernel 3 0 [vgaParam] s).map fun p => (s, p)).toOption.map
        (fun p => p.2.1) = some 0 := by decide +kernel
  obtain ⟨⟨_, _⟩, hrun, -⟩ := exists_of_map_eq_some hseen
  obtain ⟨s, hs, hpara⟩ := bind_eq_ok hrun
  obtain ⟨⟨ret, ps', s'⟩, hpara, -⟩ := map_eq_ok hpara
  exact ⟨s, ret, ps', s', hs, hpara, balanced_iff hpara⟩

theorem not_balanced_smallBoard : ∃ s ret ps' s', inputRun = .ok s ∧
    cameraContextPara smallStart.1 readyKernel 3 0 [vgaParam] s = .ok (ret, ps', s') ∧
    s'.openCnt ≠ s.openCnt := by
  have hseen : (inputRun.bind fun s =>
      (cameraContextPara smallStart.1 readyKernel 3 0 [vgaParam] s).map fun p => (s, p)).toOption.map
        (fun p => (p.1.openCnt 1, p.2.2.2.openCnt 1)) = some (1, 2) := by decide +kernel
  obtain ⟨⟨s, ret, ps', s'⟩, hrun, hcnt⟩ := exists_of_map_eq_some hseen
  obtain ⟨s₁, hs, hpara⟩ := bind_eq_ok hrun
  obtain ⟨p, hpara, heq⟩ := map_eq_ok hpara
  cases heq
  refine ⟨s, ret, ps', s', hs, hpara, fun hsame => ?_⟩
  rw [hsame] at hcnt
  obtain ⟨hone, htwo⟩ := Prod.mk.inj hcnt
  exact absurd (hone.symm.trans htwo) (by decide)

end G361FPlatform.MediaLib
