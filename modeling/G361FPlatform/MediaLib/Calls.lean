import G361FPlatform.MediaLib.Context
import G361FPlatform.MediaLib.Param

namespace G361FPlatform.MediaLib

open Library

/-- The calls a client makes of MediaLib between `MediaLibInit` and `MediaLibExit`. -/
inductive Call
  | contextInit (srcID pathID nrDst : Int)
  | contextPara (ctxID : Int) (paramList : List CamCtxParam)
  | contextKill (ctxID : Int)
  | outputOpen (ctxID port : Int)
  | outputClose (ctxID port : Int)
  | inputOpen (ctxID : Int)
  | inputClose (ctxID : Int)
  | pathGet (ctxID : Int)
  | pathPut (ctxID : Int)
  | sourceGet (ctxID : Int)
  | sourcePut (ctxID : Int)
  | openCam (srcID : Int)
  | closeCam (srcID : Int)

namespace Call

/-- `fuel` bounds the recursion of `CamNodeSetCombo`. -/
def exec (cam : PlatCam) (k : Kernel) (fuel : Nat) : Call → CamState → Outcome CamState
  | contextInit srcID pathID nrDst => cameraContextInit cam k srcID pathID nrDst
  | contextPara ctxID paramList => fun s =>
    (cameraContextPara cam k fuel ctxID paramList s).map fun (ret, _, s) => (ret, s)
  | contextKill ctxID => cameraContextKill cam k ctxID
  | outputOpen ctxID port => cameraContextOutputOpen cam k ctxID port
  | outputClose ctxID port => cameraContextOutputClose cam ctxID port
  | inputOpen ctxID => cameraContextInputOpen cam k ctxID
  | inputClose ctxID => cameraContextInputClose cam ctxID
  | pathGet ctxID => cameraContextPathGet cam k ctxID
  | pathPut ctxID => cameraContextPathPut cam ctxID
  | sourceGet ctxID => cameraContextSourceGet cam k ctxID
  | sourcePut ctxID => cameraContextSourcePut cam ctxID
  | openCam srcID => MediaLib.openCam cam k srcID
  | closeCam srcID => MediaLib.closeCam cam srcID

/-- `CameraContextInit` and `CameraContextKill` with ids that are not negative. -/
def IsContext : Call → Prop
  | contextInit srcID pathID _ => 0 ≤ srcID ∧ 0 ≤ pathID
  | contextKill ctxID => 0 ≤ ctxID
  | _ => False

end Call

def runCalls (cam : PlatCam) (k : Kernel) (fuel : Nat) : List Call → CamState → Except Stuck CamState
  | [], s => .ok s
  | c :: cs, s =>
    match c.exec cam k fuel s with
    | .error e => .error e
    | .ok (_, s) => runCalls cam k fuel cs s

section

variable {cam : PlatCam} {k : Kernel} {fuel : Nat}

theorem runCalls_inv {P : CamState → Prop} {cs : List Call}
    (hstep : ∀ c ∈ cs, ∀ s ret s', P s → c.exec cam k fuel s = .ok (ret, s') → P s')
    {s s' : CamState} (hs : P s) (h : runCalls cam k fuel cs s = .ok s') : P s' := by
  induction cs generalizing s with
  | nil => cases h; exact hs
  | cons c cs ih =>
    unfold runCalls at h
    cases hc : c.exec cam k fuel s with
    | error e => rw [hc] at h; cases h
    | ok p =>
      rw [hc] at h
      refine ih (fun c' hc' => hstep c' (List.mem_cons_of_mem _ hc')) ?_ h
      exact hstep c List.mem_cons_self s p.1 p.2 hs hc

theorem runCalls_total {P : CamState → Prop} {cs : List Call}
    (hstep : ∀ c ∈ cs, ∀ s, P s → ∃ ret s', c.exec cam k fuel s = .ok (ret, s') ∧ P s')
    {s : CamState} (hs : P s) : ∃ s', runCalls cam k fuel cs s = .ok s' ∧ P s' := by
  induction cs generalizing s with
  | nil => exact ⟨s, rfl, hs⟩
  | cons c cs ih =>
    obtain ⟨ret, s₁, hc, h₁⟩ := hstep c List.mem_cons_self s hs
    obtain ⟨s', hrun, h'⟩ := ih (fun c' hc' => hstep c' (List.mem_cons_of_mem _ hc')) h₁
    refine ⟨s', ?_, h'⟩
    unfold runCalls
    rw [hc]
    exact hrun

end

end G361FPlatform.MediaLib
