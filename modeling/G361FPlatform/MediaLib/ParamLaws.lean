import G361FPlatform.MediaLib.Param

namespace G361FPlatform.MediaLib

open Library Outcome

namespace ParamLaws

/-- The nodes a call may open, and the pads on which it may set a format: `T s node none` for
the first, `T s node (some pad)` for the second. -/
abbrev Touch := CamState → NodeId → Option Nat → Prop

/-- What the parameter calls need of a relation between the states around them to keep it, as
long as they touch what `T` allows: it is kept by `ioctl`, by an open that fails, and from an
open to the close that goes with it. -/
structure Kept (cam : PlatCam) (k : Kernel) (T : Touch) (R : CamState → CamState → Prop) : Prop where
  refl : ∀ s, R s s
  trans : ∀ {s₁ s₂ s₃}, R s₁ s₂ → R s₂ s₃ → R s₁ s₃
  ioctl : ∀ me request s, R s (ioctl k me request s).2
  failed : ∀ {node p s}, T s node p → (camNodeOpen cam k node s).1 < 0 →
    R s (camNodeOpen cam k node s).2
  closed : ∀ {node p s s'}, T s node p → 0 ≤ (camNodeOpen cam k node s).1 →
    R (camNodeOpen cam k node s).2 s' → R s (camNodeClose cam node s').2
  stable : ∀ {s s' node p}, R s s' → T s node p → T s' node p
  opened : ∀ {node p s m q}, T s node p → T s m q → T (camNodeOpen cam k node s).2 m q
  spread : ∀ {s node pad flags l m}, T s node (some pad) →
    (cam.media.padsOf (cam.meOf node))[pad]? = some flags → flags.sink = false →
    l ∈ cam.linksOf node → l.src = some node → l.mlink.source.index = pad →
    s.linkRefCnt l.id ≠ 0 → l.dst = some m → T s m (some l.mlink.sink.index)

def formatPad (combo : CamNodeFmtCombo) : Option Nat :=
  if combo.applies PARAM_APPLY_FMT then some combo.pad else none

variable {cam : PlatCam} {k : Kernel} {T : Touch} {R : CamState → CamState → Prop}

abbrev From (R : CamState → CamState → Prop) (s : CamState) : Int → ComboState → Prop :=
  fun _ p => R s p.2

theorem kept_setComboCrop (h : Kept cam k T R) (node : NodeId) (combo : CamNodeFmtCombo)
    (s : CamState) :
    Post (setComboCrop cam k node (combo, s)) fun _ p =>
      R s p.2 ∧ p.1.pad = combo.pad ∧ p.1.scope = combo.scope := by
  unfold setComboCrop
  dsimp only
  split
  · split
    · exact post_ok ⟨h.ioctl _ _ s, rfl, rfl⟩
    · exact post_ok ⟨h.ioctl _ _ s, rfl, rfl⟩
  · exact post_ok ⟨h.refl s, rfl, rfl⟩

theorem formatPad_downstream (combo : CamNodeFmtCombo) (pad : Nat) :
    formatPad { combo with pad := pad, scope := 1#8 <<< PARAM_APPLY_FMT } = some pad :=
  if_pos (show (1#8 <<< PARAM_APPLY_FMT).getLsbD PARAM_APPLY_FMT = true by decide)

theorem kept_applyDownstream (h : Kept cam k T R)
    {setCombo : NodeId → CamNodeFmtCombo → CamState → Outcome ComboState}
    (hset : ∀ node combo s, T s node (formatPad combo) → Post (setCombo node combo s) (From R s))
    {node : NodeId} {combo : CamNodeFmtCombo} {flags : PadFlags}
    (hpad : (cam.media.padsOf (cam.meOf node))[combo.pad]? = some flags) (hsink : flags.sink = false)
    {ls : List CamLink} (hls : ∀ l ∈ ls, l ∈ cam.linksOf node) (ret : Int) {s : CamState}
    (ht : T s node (some combo.pad)) :
    Post (applyDownstream setCombo node combo ls ret s) fun _ s' => R s s' := by
  induction ls generalizing ret s with
  | nil => exact post_ok (h.refl s)
  | cons l ls ih =>
    have hrest := fun l' hl' => hls l' (List.mem_cons_of_mem l hl')
    unfold applyDownstream
    split
    · exact ih hrest ret ht
    next hsrc =>
      simp only [not_or, ne_eq, not_not] at hsrc
      split
      · exact ih hrest ret ht
      next hcnt =>
        cases hdst : l.dst with
        | none => exact post_error _ _
        | some dst =>
          have hdown := h.spread ht hpad hsink (hls l List.mem_cons_self) hsrc.1 hsrc.2 hcnt hdst
          dsimp only
          split
          · exact post_error _ _
          next heq =>
            have hs := hset _ _ _ (by rw [formatPad_downstream]; exact hdown) _ _ heq
            split
            · exact post_ok hs
            · split
              · exact (ih hrest _ (h.stable hs ht)).imp fun _ _ h' => h.trans hs h'
              · exact post_ok hs

theorem kept_setComboFmt (h : Kept cam k T R)
    {setCombo : NodeId → CamNodeFmtCombo → CamState → Outcome ComboState}
    (hset : ∀ node combo s, T s node (formatPad combo) → Post (setCombo node combo s) (From R s))
    {node : NodeId} (ret : Int) {combo : CamNodeFmtCombo} {s : CamState}
    (ht : T s node (formatPad combo)) :
    Post (setComboFmt cam k setCombo node ret (combo, s)) (From R s) := by
  unfold setComboFmt
  dsimp only
  split
  next happlies =>
    rw [formatPad, if_pos happlies] at ht
    split
    · exact post_ok (h.ioctl _ _ s)
    · split
      · exact post_error _ _
      next hpad =>
        split
        · exact post_ok (h.ioctl _ _ s)
        next hsink =>
          refine Post.map ((kept_applyDownstream h hset hpad (by simpa using hsink)
            (fun _ hl => hl) _ (h.stable (h.ioctl _ _ s) ht)).imp ?_)
          exact fun _ _ h' => h.trans (h.ioctl _ _ s) h'
  · exact post_ok (h.refl s)

theorem kept_bracket (h : Kept cam k T R) (body : CamState → Outcome ComboState) {node : NodeId}
    {p : Option Nat} {s : CamState} (ht : T s node p)
    (hbody : ∀ s, T s node p → Post (body s) (From R s)) {combo : CamNodeFmtCombo} :
    Post
      (if (camNodeOpen cam k node s).1 < 0 then
        .ok ((camNodeOpen cam k node s).1, combo, (camNodeOpen cam k node s).2)
      else
        (body (camNodeOpen cam k node s).2).map
          fun (ret, combo, s) => (ret, combo, (camNodeClose cam node s).2)) (From R s) := by
  split
  next hneg => exact post_ok (h.failed ht hneg)
  next hpos =>
    refine Post.map ((hbody _ (h.opened ht ht)).imp fun _ p hp => ?_)
    exact h.closed ht (Int.not_lt.mp hpos) hp

theorem kept_camNodeSetCombo (h : Kept cam k T R) (fuel : Nat) {node : NodeId}
    {combo : CamNodeFmtCombo} {s : CamState} (ht : T s node (formatPad combo)) :
    Post (camNodeSetCombo cam k fuel node combo s) (From R s) := by
  induction fuel generalizing node combo s with
  | zero => exact post_error _ _
  | succ fuel ih =>
    unfold camNodeSetCombo
    apply kept_bracket h (fun s => andThen (setComboCrop cam k node (combo, s))
      (setComboFmt cam k (camNodeSetCombo cam k fuel) node)) ht
    intro s ht
    refine Post.andThen (kept_setComboCrop h node combo s) (fun _ _ _ hp => hp.1) ?_
    rintro ret ⟨combo', s'⟩ - ⟨hR, hpad, hscope⟩
    have hformat : formatPad combo' = formatPad combo := by
      dsimp only at hpad hscope
      rw [formatPad, formatPad, CamNodeFmtCombo.applies, CamNodeFmtCombo.applies, hpad, hscope]
    have ht' : T s' node (formatPad combo') := hformat ▸ h.stable hR ht
    exact (kept_setComboFmt h (fun _ _ _ => ih) ret ht').imp fun _ _ h' => h.trans hR h'

theorem kept_getComboCrop (h : Kept cam k T R) (node : NodeId) (combo : CamNodeFmtCombo)
    (s : CamState) : Post (getComboCrop cam k node (combo, s)) (From R s) := by
  unfold getComboCrop
  dsimp only
  split
  · split
    · exact post_ok (h.ioctl _ _ s)
    · exact post_ok (h.ioctl _ _ s)
  · exact post_ok (h.refl s)

theorem kept_getComboFmt (h : Kept cam k T R) (node : NodeId) (ret : Int)
    (combo : CamNodeFmtCombo) (s : CamState) :
    Post (getComboFmt cam k node ret (combo, s)) (From R s) := by
  unfold getComboFmt
  dsimp only
  split
  · split
    · exact post_ok (h.ioctl _ _ s)
    · exact post_ok (h.ioctl _ _ s)
  · exact post_ok (h.refl s)

theorem kept_camNodeGetCombo (h : Kept cam k T R) {node : NodeId} {p : Option Nat}
    (combo : CamNodeFmtCombo) {s : CamState} (ht : T s node p) :
    Post (camNodeGetCombo cam k node combo s) (From R s) := by
  unfold camNodeGetCombo
  apply kept_bracket h (fun s => andThen (getComboCrop cam k node (combo, s))
    (getComboFmt cam k node)) ht
  intro s _
  refine Post.andThen_inv (I := fun p : ComboState => R s p.2) (kept_getComboCrop h node combo s) ?_
  intro ret p hp
  exact (kept_getComboFmt h node ret p.1 p.2).imp fun _ _ h' => h.trans hp h'

theorem kept_camNodeSetCtrl (h : Kept cam k T R) {node : NodeId} {p : Option Nat} {s : CamState}
    (ht : T s node p) : R s (camNodeSetCtrl cam k node s).2 := by
  unfold camNodeSetCtrl
  dsimp only
  split
  next hneg => exact h.failed ht hneg
  next hpos => exact h.closed ht (Int.not_lt.mp hpos) (h.ioctl _ _ _)

def paramPad (paramName : Nat) (combo : CamNodeFmtCombo) : Option Nat :=
  if paramName = PARAM_SRC_SET_COMBO ∨ paramName = PARAM_CROP_SET_COMBO ∨
    paramName = PARAM_PATH_SET_CROP then formatPad combo else none

theorem kept_applyCmd (h : Kept cam k T R) (fuel paramName : Nat) {obj : NodeId}
    {combo : CamNodeFmtCombo} {s : CamState} (ht : T s obj (paramPad paramName combo)) :
    Post (applyCmd cam k fuel paramName obj combo s) (From R s) := by
  unfold applyCmd
  unfold paramPad at ht
  split
  next hset =>
    rw [if_pos hset] at ht
    refine Post.andThen_inv (I := fun p : ComboState => R s p.2) (kept_camNodeSetCombo h fuel ht) ?_
    intro ret p hp
    exact (kept_camNodeGetCombo h p.1 (h.stable hp ht)).imp fun _ _ h' => h.trans hp h'
  next hset =>
    rw [if_neg hset] at ht
    exact kept_camNodeGetCombo h combo ht

def Admits (cam : PlatCam) (T : Touch) (ctx : CamCtx) (s : CamState) (p : CamCtxParam) : Prop :=
  ∀ obj combo, findObjective cam ctx s p.cutScope = .ok (.ok (some obj, combo)) →
    T s obj (combo.bind (paramPad p.paramName))

theorem findObjective_congr {ctx : CamCtx} {s s' : CamState} (h : s'.linkRefCnt = s.linkRefCnt)
    (p : CamCtxParam) : findObjective cam ctx s' p = findObjective cam ctx s p := by
  simp only [findObjective, findPad, findLink, h]

theorem paramName_cutScope (p : CamCtxParam) : p.cutScope.paramName = p.paramName := by
  unfold CamCtxParam.cutScope
  split <;> rfl

theorem kept_applyParams {Q : CamState → CamState → Prop} (h : Kept cam k T R)
    (hlinks : ∀ {s s'}, R s s' → s'.linkRefCnt = s.linkRefCnt) (hQ : ∀ {s s'}, R s s' → Q s s')
    (hRQ : ∀ {s₁ s₂ s₃}, R s₁ s₂ → Q s₂ s₃ → Q s₁ s₃)
    (hnull : ∀ {node p s}, T s node p → Q s (camNodeNullCombo cam k node s).2) (fuel : Nat)
    (ctx : CamCtx) {ps : List CamCtxParam} {s : CamState} (hps : ∀ p ∈ ps, Admits cam T ctx s p) :
    Post (applyParams cam k fuel ctx ps s) fun ret p => Q s p.2 ∧ (0 ≤ ret → R s p.2) := by
  induction ps generalizing s with
  | nil => exact post_ok ⟨hQ (h.refl s), fun _ => h.refl s⟩
  | cons p ps ih =>
    have hp := hps p List.mem_cons_self
    have hrest : ∀ p ∈ ps, Admits cam T ctx s p := fun p' hp' => hps p' (List.mem_cons_of_mem p hp')
    unfold applyParams
    dsimp only
    split
    · exact post_error _ _
    · exact post_ok ⟨hQ (h.refl s), fun _ => h.refl s⟩
    · exact (ih hrest).map
    next hobj =>
      refine post_ok ⟨hnull (hp _ _ hobj), fun hret => ?_⟩
      unfold camNodeNullCombo at hret
      dsimp only at hret
      split at hret
      · omega
      · cases hret
    next obj combo hobj =>
      have ht : T s obj (paramPad p.cutScope.paramName combo) := by
        rw [paramName_cutScope]
        exact hp _ _ hobj
      split
      · exact post_error _ _
      next heq =>
        have hcmd := kept_applyCmd h _ _ ht _ _ heq
        split
        next hneg => exact post_ok ⟨hQ hcmd, fun hret => absurd hneg (Int.not_lt.mpr hret)⟩
        · refine Post.map ((ih fun p' hp' obj combo hobj => ?_).imp fun _ _ h' => ?_)
          · rw [findObjective_congr (hlinks hcmd)] at hobj
            exact h.stable hcmd (hrest p' hp' obj combo hobj)
          · exact ⟨hRQ hcmd h'.1, fun hret => h.trans hcmd (h'.2 hret)⟩

theorem kept_cameraContextPara {Q : CamState → CamState → Prop} (h : Kept cam k T R)
    (hlinks : ∀ {s s'}, R s s' → s'.linkRefCnt = s.linkRefCnt) (hQ : ∀ {s s'}, R s s' → Q s s')
    (hRQ : ∀ {s₁ s₂ s₃}, R s₁ s₂ → Q s₂ s₃ → Q s₁ s₃)
    (hnull : ∀ {node p s}, T s node p → Q s (camNodeNullCombo cam k node s).2) (fuel : Nat)
    {ctxID : Int} {paramList : List CamCtxParam} {s : CamState}
    (hctx : ∀ ctx, s.ctx ctxID.toNat = some ctx →
      (∀ p ∈ paramList, Admits cam T ctx s p) ∧ T s ctx.path none) :
    Post (cameraContextPara cam k fuel ctxID paramList s) fun _ p => Q s p.2 := by
  unfold cameraContextPara
  split
  · exact post_ok (hQ (h.refl s))
  · split
    · exact post_ok (hQ (h.refl s))
    next hsome =>
      obtain ⟨hps, hpath⟩ := hctx _ hsome
      refine Post.andThen (kept_applyParams h hlinks hQ hRQ hnull fuel _ hps)
        (fun _ _ _ hp => hp.1) fun ret p hret hp => ?_
      have hR := hp.2 hret
      exact post_ok (hRQ hR (hQ (kept_camNodeSetCtrl h (h.stable hR hpath))))

/-- A relation that single opens and closes keep is kept by every call, whatever it touches. -/
theorem kept_of_steps (refl : ∀ s, R s s) (trans : ∀ {s₁ s₂ s₃}, R s₁ s₂ → R s₂ s₃ → R s₁ s₃)
    (ioctl : ∀ me request s, R s (ioctl k me request s).2)
    (opened : ∀ node s, R s (camNodeOpen cam k node s).2)
    (closed : ∀ node s, R s (camNodeClose cam node s).2) :
    Kept cam k (fun _ _ _ => True) R where
  refl := refl
  trans := trans
  ioctl := ioctl
  failed := fun _ _ => opened _ _
  closed := fun _ _ h => trans (trans (opened _ _) h) (closed _ _)
  stable := fun _ _ => trivial
  opened := fun _ _ => trivial
  spread := fun _ _ _ _ _ _ _ _ => trivial

theorem camNodeNullCombo_snd (node : NodeId) (s : CamState) :
    (camNodeNullCombo cam k node s).2 = (camNodeOpen cam k node s).2 := by
  unfold camNodeNullCombo
  dsimp only
  split <;> rfl

theorem kept_para_of_steps (refl : ∀ s, R s s)
    (trans : ∀ {s₁ s₂ s₃}, R s₁ s₂ → R s₂ s₃ → R s₁ s₃)
    (hlinks : ∀ {s s'}, R s s' → s'.linkRefCnt = s.linkRefCnt)
    (ioctl : ∀ me request s, R s (ioctl k me request s).2)
    (opened : ∀ node s, R s (camNodeOpen cam k node s).2)
    (closed : ∀ node s, R s (camNodeClose cam node s).2) (fuel : Nat) (ctxID : Int)
    (paramList : List CamCtxParam) (s : CamState) :
    Post (cameraContextPara cam k fuel ctxID paramList s) fun _ p => R s p.2 := by
  refine kept_cameraContextPara (kept_of_steps refl trans ioctl opened closed) hlinks id trans ?_
    fuel fun _ _ => ⟨fun _ _ _ _ _ => trivial, trivial⟩
  intro node _ s _
  rw [camNodeNullCombo_snd]
  exact opened node s

end ParamLaws

end G361FPlatform.MediaLib
