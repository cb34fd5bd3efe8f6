import G361FPlatform.MediaLib.InitLaws

namespace G361FPlatform.MediaLib

open Library Outcome

def CamState.newIoctls (s s' : CamState) : List IoctlCall :=
  s'.ioctls.take (s'.ioctls.length - s.ioctls.length)

namespace IoctlCall

def SetsFmt (me : EntityId) (pad : Nat) (c : IoctlCall) : Prop :=
  c.me = me ∧
    match c.request with
    | .sFmt _ pad' _ _ _ => pad' = pad
    | _ => False

instance (me : EntityId) (pad : Nat) (c : IoctlCall) : Decidable (c.SetsFmt me pad) := by
  unfold SetsFmt
  cases c.request <;> infer_instance

/-- The driver came back with the format of `combo`. -/
def Settles (combo : CamNodeFmtCombo) (c : IoctlCall) : Prop :=
  c.reply.width = combo.width ∧ c.reply.height = combo.height ∧ c.reply.code = combo.code

end IoctlCall

structure Carried (cam : PlatCam) (ref : LinkId → Int) (node : NodeId) (pad : Nat) (l : CamLink) :
    Prop where
  mem : l ∈ cam.linksOf node
  src : l.src = some node
  index : l.mlink.source.index = pad
  enabled : ref l.id ≠ 0

def Arrived (cam : PlatCam) (calls : List IoctlCall) (combo : CamNodeFmtCombo) (l : CamLink) : Prop :=
  ∃ dst c, l.dst = some dst ∧
    calls.find? (fun c => c.SetsFmt (cam.meOf dst) l.mlink.sink.index) = some c ∧
      0 ≤ c.reply.ret ∧ c.Settles combo

/-- What `CamNodeSetCombo` reports about the format: a success means that it has arrived at the far
end of every enabled link. -/
def Honest (cam : PlatCam) (ref : LinkId → Int) (node : NodeId) (pad : Nat) (combo : CamNodeFmtCombo)
    (calls : List IoctlCall) (ret : Int) : Prop :=
  0 ≤ ret → ∀ l, Carried cam ref node pad l → Arrived cam calls combo l

/-- No driver at the far end of an enabled link takes an `S_FMT` and changes the format. -/
def Unadjusted (cam : PlatCam) (ref : LinkId → Int) (node : NodeId) (pad : Nat) (combo : CamNodeFmtCombo)
    (calls : List IoctlCall) : Prop :=
  ∀ c ∈ calls, ∀ l dst, Carried cam ref node pad l → l.dst = some dst →
    c.SetsFmt (cam.meOf dst) l.mlink.sink.index → 0 ≤ c.reply.ret → c.Settles combo

/-- The enabled links that leave the pad end at sink pads. -/
def SinkEnds (cam : PlatCam) (ref : LinkId → Int) (node : NodeId) (pad : Nat) : Prop :=
  ∀ l dst, Carried cam ref node pad l → l.dst = some dst →
    ∃ flags, (cam.media.padsOf (cam.meOf dst))[l.mlink.sink.index]? = some flags ∧ flags.sink = true

section

variable {cam : PlatCam} {k : Kernel} {s s' : CamState} {node : NodeId} {combo : CamNodeFmtCombo}

theorem newIoctls_eq {new : List IoctlCall} (h : s'.ioctls = new ++ s.ioctls) :
    s.newIoctls s' = new := by
  rw [CamState.newIoctls, h, List.length_append, Nat.add_sub_cancel, List.take_left' rfl]

theorem ioctls_openMe (me : EntityId) (s : CamState) : (openMe k me s).2.ioctls = s.ioctls := by
  unfold openMe
  dsimp only
  split <;> rfl

theorem ioctls_camNodeOpen (node : NodeId) (s : CamState) :
    (camNodeOpen cam k node s).2.ioctls = s.ioctls := by
  unfold camNodeOpen
  split
  · dsimp only
    split
    · exact ioctls_openMe _ s
    · exact ioctls_openMe _ s
  · rfl

theorem ioctls_camNodeClose (node : NodeId) (s : CamState) :
    (camNodeClose cam node s).2.ioctls = s.ioctls := by
  unfold camNodeClose
  dsimp only
  split <;> rfl

theorem linkRefCnt_camNodeSetCombo (fuel : Nat) (node : NodeId) (combo : CamNodeFmtCombo) (s : CamState) :
    Post (camNodeSetCombo cam k fuel node combo s) fun _ p => p.2.linkRefCnt = s.linkRefCnt :=
  ParamLaws.kept_camNodeSetCombo (T := fun _ _ _ => True)
    (ParamLaws.kept_of_steps (R := fun s s' => s'.linkRefCnt = s.linkRefCnt) (fun _ => rfl)
      (fun h₁ h₂ => h₂.trans h₁) (fun _ _ _ => rfl) (fun node s => (onlyPorts_camNodeOpen node s).linkRefCnt)
      fun node s => (onlyPorts_camNodeClose node s).linkRefCnt) fuel trivial

def Ran (s : CamState) (ret : Int) (s' : CamState) : Prop :=
  ∃ new, s'.ioctls = new ++ s.ioctls ∧ (0 ≤ ret → ∀ c ∈ new, 0 ≤ c.reply.ret)

theorem Ran.refl (s : CamState) (ret : Int) : Ran s ret s := ⟨[], rfl, by simp⟩

theorem Ran.trans {s₁ s₂ s₃ : CamState} {ret₁ ret₂ : Int} (h₁ : Ran s₁ ret₁ s₂) (h₂ : Ran s₂ ret₂ s₃)
    (hret : 0 ≤ ret₂ → 0 ≤ ret₁) : Ran s₁ ret₂ s₃ := by
  obtain ⟨new₁, hlog₁, hok₁⟩ := h₁
  obtain ⟨new₂, hlog₂, hok₂⟩ := h₂
  refine ⟨new₂ ++ new₁, by rw [hlog₂, hlog₁, List.append_assoc], fun hpos c hc => ?_⟩
  exact (List.mem_append.mp hc).elim (hok₂ hpos c) (hok₁ (hret hpos) c)

theorem ran_ioctl (me : EntityId) (request : Ioctl) (s : CamState) :
    Ran s (ioctl k me request s).1.ret (ioctl k me request s).2 := by
  refine ⟨[_], rfl, fun hpos c hc => ?_⟩
  rw [List.mem_singleton] at hc
  subst hc
  exact hpos

theorem ran_setComboCrop (combo : CamNodeFmtCombo) (s : CamState) :
    Post (setComboCrop cam k node (combo, s)) fun ret p => Ran s ret p.2 := by
  unfold setComboCrop
  dsimp only
  split
  · obtain ⟨new, hlog, hok⟩ := ran_ioctl (k := k) (cam.meOf node)
      (.sSelection combo.which combo.pad combo.cropWnd) s
    split
    · exact post_ok ⟨new, hlog, fun hpos => by omega⟩
    · exact post_ok ⟨new, hlog, hok⟩
  · exact post_ok (.refl s 0)

theorem ran_applyDownstream {setCombo : NodeId → CamNodeFmtCombo → CamState → Outcome ComboState}
    (hset : ∀ node combo s, Post (setCombo node combo s) fun ret p => Ran s ret p.2) (ls : List CamLink)
    (ret : Int) (s : CamState) :
    Post (applyDownstream setCombo node combo ls ret s) fun ret' s' => Ran s ret' s' := by
  induction ls generalizing ret s with
  | nil => exact post_ok (.refl s ret)
  | cons l ls ih =>
    unfold applyDownstream
    split
    · exact ih ret s
    · split
      · exact ih ret s
      · cases l.dst with
        | none => exact post_error _ _
        | some dst =>
          dsimp only
          split
          · exact post_error _ _
          next ret₁ r_combo s₁ heq =>
            have hs : Ran s ret₁ s₁ := hset _ _ _ _ _ heq
            split
            · exact post_ok hs
            next hpos =>
              split
              · exact (ih _ s₁).imp fun _ _ h => hs.trans h fun _ => Int.not_lt.mp hpos
              · exact post_ok hs

theorem ran_setComboFmt {setCombo : NodeId → CamNodeFmtCombo → CamState → Outcome ComboState}
    (hset : ∀ node combo s, Post (setCombo node combo s) fun ret p => Ran s ret p.2) (ret : Int)
    (combo : CamNodeFmtCombo) (s : CamState) :
    Post (setComboFmt cam k setCombo node ret (combo, s)) fun ret' p => Ran s ret' p.2 := by
  unfold setComboFmt
  dsimp only
  split
  · have hfmt := ran_ioctl (k := k) (cam.meOf node)
      (.sFmt combo.which combo.pad combo.width combo.height combo.code) s
    split
    · exact post_ok hfmt
    next hpos =>
      split
      · exact post_error _ _
      · split
        · exact post_ok hfmt
        · refine Post.map ((ran_applyDownstream hset _ _ _).imp fun _ _ h => ?_)
          exact hfmt.trans h fun _ => Int.not_lt.mp hpos
  · exact post_ok (.refl s ret)

theorem ran_camNodeSetCombo (fuel : Nat) (node : NodeId) (combo : CamNodeFmtCombo) (s : CamState) :
    Post (camNodeSetCombo cam k fuel node combo s) fun ret p => Ran s ret p.2 := by
  induction fuel generalizing node combo s with
  | zero => exact post_error _ _
  | succ fuel ih =>
    have hopen : ∀ ret, Ran s ret (camNodeOpen cam k node s).2 :=
      fun ret => ⟨[], ioctls_camNodeOpen node s, by simp⟩
    unfold camNodeSetCombo
    dsimp only
    split
    · exact post_ok (hopen _)
    · refine Post.map (Post.imp ?_ fun ret p (h : Ran s ret p.2) => ?_)
      · refine (ran_setComboCrop combo _).andThen (fun ret p _ h => (hopen 0).trans h fun _ => le_rfl) ?_
        intro ret p hret h
        refine (ran_setComboFmt ih ret p.1 p.2).imp fun ret' p' h' => ?_
        exact ((hopen 0).trans h fun _ => le_rfl).trans h' fun _ => hret
      · obtain ⟨new, hlog, hok⟩ := h
        exact ⟨new, by rw [ioctls_camNodeClose]; exact hlog, hok⟩

theorem setComboCrop_spec (combo : CamNodeFmtCombo) (s : CamState) :
    Post (setComboCrop cam k node (combo, s)) fun _ p => p.1.pad = combo.pad ∧ p.1.scope = combo.scope ∧
      p.2.linkRefCnt = s.linkRefCnt ∧
      ∃ new, p.2.ioctls = new ++ s.ioctls ∧ ∀ c ∈ new, ∀ me pad, ¬c.SetsFmt me pad := by
  have hcrop : ∀ c ∈ [(⟨cam.meOf node, s.fd (cam.meOf node),
      .sSelection combo.which combo.pad combo.cropWnd, (ioctl k (cam.meOf node)
        (.sSelection combo.which combo.pad combo.cropWnd) s).1⟩ : IoctlCall)],
      ∀ me pad, ¬c.SetsFmt me pad := by
    intro c hc me pad h
    rw [List.mem_singleton] at hc
    subst hc
    exact h.2
  unfold setComboCrop
  dsimp only
  split
  · split
    · exact post_ok ⟨rfl, rfl, rfl, _, rfl, hcrop⟩
    · exact post_ok ⟨rfl, rfl, rfl, _, rfl, hcrop⟩
  · exact post_ok ⟨rfl, rfl, rfl, [], rfl, by simp⟩

/-- What the format part of `CamNodeSetCombo` does: its own `S_FMT`, and behind a source pad the
links. -/
inductive FmtStep (cam : PlatCam) (setCombo : NodeId → CamNodeFmtCombo → CamState → Outcome ComboState)
    (node : NodeId) (pad : Nat) (s : CamState) : Int → CamNodeFmtCombo → CamState → Prop
  | refused {c ret combo' s₁} : s₁.ioctls = c :: s.ioctls → c.reply.ret = ret → ret < 0 →
      FmtStep cam setCombo node pad s ret combo' s₁
  | sink {c ret combo' s₁ flags} : s₁.ioctls = c :: s.ioctls → c.SetsFmt (cam.meOf node) pad →
      c.reply.ret = ret → 0 ≤ ret → c.Settles combo' →
      (cam.media.padsOf (cam.meOf node))[pad]? = some flags → flags.sink = true →
      FmtStep cam setCombo node pad s ret combo' s₁
  | downstream {c combo' s₁ flags ret s'} : s₁.ioctls = c :: s.ioctls → s₁.linkRefCnt = s.linkRefCnt →
      c.SetsFmt (cam.meOf node) pad → 0 ≤ c.reply.ret → c.Settles combo' → combo'.pad = pad →
      (cam.media.padsOf (cam.meOf node))[pad]? = some flags → flags.sink = false →
      applyDownstream setCombo node combo' (cam.linksOf node) c.reply.ret s₁ = .ok (ret, s') →
      FmtStep cam setCombo node pad s ret combo' s'

theorem fmtStep_setComboFmt {setCombo : NodeId → CamNodeFmtCombo → CamState → Outcome ComboState}
    (ret : Int) (happlies : combo.applies PARAM_APPLY_FMT = true) (s : CamState) :
    Post (setComboFmt cam k setCombo node ret (combo, s)) fun ret' p =>
      FmtStep cam setCombo node combo.pad s ret' p.1 p.2 := by
  let request : Ioctl := .sFmt combo.which combo.pad combo.width combo.height combo.code
  let c : IoctlCall :=
    ⟨cam.meOf node, s.fd (cam.meOf node), request, (ioctl k (cam.meOf node) request s).1⟩
  have hlog : (ioctl k (cam.meOf node) request s).2.ioctls = c :: s.ioctls := rfl
  unfold setComboFmt
  dsimp only
  rw [if_pos happlies]
  split
  next hneg => exact post_ok (.refused hlog rfl hneg)
  next hpos =>
    have hpos := Int.not_lt.mp hpos
    split
    · exact post_error _ _
    next hflags =>
      split
      next hsink => exact post_ok (.sink hlog ⟨rfl, rfl⟩ rfl hpos ⟨rfl, rfl, rfl⟩ hflags hsink)
      next hsink =>
        refine Post.map fun ret' s' heq => ?_
        exact .downstream hlog rfl ⟨rfl, rfl⟩ hpos ⟨rfl, rfl, rfl⟩ rfl hflags
          (Bool.eq_false_iff.mpr hsink) heq

/-- `CamNodeSetCombo` with a format to set: the open fails, the crop fails, or the format part
runs. -/
theorem camNodeSetCombo_cases {fuel : Nat} (happlies : combo.applies PARAM_APPLY_FMT = true) (s : CamState) :
    Post (camNodeSetCombo cam k (fuel + 1) node combo s) fun ret p =>
      (ret < 0 ∧ ∃ new, p.2.ioctls = new ++ s.ioctls ∧ (∀ c ∈ new, ∀ me pad, ¬c.SetsFmt me pad) ∧
        (combo.applies PARAM_APPLY_CROP = false → new = [])) ∨
        ∃ s₁ s₂ new, s₁.ioctls = new ++ s.ioctls ∧ s₁.linkRefCnt = s.linkRefCnt ∧
          (∀ c ∈ new, ∀ me pad, ¬c.SetsFmt me pad) ∧ p.2.ioctls = s₂.ioctls ∧
          (combo.applies PARAM_APPLY_CROP = false → new = []) ∧
          FmtStep cam (camNodeSetCombo cam k fuel) node combo.pad s₁ ret p.1 s₂ := by
  have hopen : (camNodeOpen cam k node s).2.ioctls = s.ioctls := ioctls_camNodeOpen node s
  have hlinks : (camNodeOpen cam k node s).2.linkRefCnt = s.linkRefCnt :=
    (onlyPorts_camNodeOpen node s).linkRefCnt
  unfold camNodeSetCombo
  dsimp only
  split
  next hneg => exact post_ok (.inl ⟨hneg, [], hopen, by simp, fun _ => rfl⟩)
  · refine Post.map fun ret p heq => ?_
    dsimp only
    rw [ioctls_camNodeClose]
    rcases andThen_eq_ok heq with ⟨hneg, hcrop⟩ | ⟨ret₁, p₁, hpos, hcrop, hfmt⟩
    · obtain ⟨-, -, -, new, hlog, hnew⟩ := setComboCrop_spec _ _ _ _ hcrop
      refine .inl ⟨hneg, new, by rw [hlog, hopen], hnew, fun hno => ?_⟩
      rw [setComboCrop, if_neg (by simp [hno])] at hcrop
      cases hcrop
      omega
    · obtain ⟨hpad, hscope, href, new, hlog, hnew⟩ := setComboCrop_spec _ _ _ _ hcrop
      have happlies' : p₁.1.applies PARAM_APPLY_FMT = true := by
        rw [CamNodeFmtCombo.applies, hscope]
        exact happlies
      have hstep := fmtStep_setComboFmt ret₁ happlies' p₁.2 _ _ hfmt
      rw [hpad] at hstep
      refine .inr ⟨p₁.2, p.2, new, by rw [hlog, hopen], href.trans hlinks, hnew, rfl, fun hno => ?_, hstep⟩
      rw [setComboCrop, if_neg (by simp [hno])] at hcrop
      cases hcrop
      simpa using congrArg List.length hlog

theorem applies_fmt (combo : CamNodeFmtCombo) (pad : Nat) :
    ({ combo with pad := pad, scope := 1#8 <<< PARAM_APPLY_FMT } : CamNodeFmtCombo).applies
      PARAM_APPLY_FMT = true := by
  change (1#8 <<< PARAM_APPLY_FMT).getLsbD PARAM_APPLY_FMT = true
  decide

theorem not_applies_crop (combo : CamNodeFmtCombo) (pad : Nat) :
    ({ combo with pad := pad, scope := 1#8 <<< PARAM_APPLY_FMT } : CamNodeFmtCombo).applies
      PARAM_APPLY_CROP = false := by
  change (1#8 <<< PARAM_APPLY_FMT).getLsbD PARAM_APPLY_CROP = false
  decide

theorem downstream_camNodeSetCombo {fuel : Nat} (hfmt : combo.applies PARAM_APPLY_FMT = true)
    (hcrop : combo.applies PARAM_APPLY_CROP = false) (s : CamState) :
    Post (camNodeSetCombo cam k fuel node combo s) fun ret p => ∃ new, p.2.ioctls = new ++ s.ioctls ∧
      (0 ≤ ret → ∃ c ∈ new, c.SetsFmt (cam.meOf node) combo.pad ∧ c.Settles p.1) ∧
      ∀ flags, (cam.media.padsOf (cam.meOf node))[combo.pad]? = some flags → flags.sink = true →
        (0 ≤ ret ∧ ∃ c, new = [c] ∧ c.SetsFmt (cam.meOf node) combo.pad ∧ c.Settles p.1) ∨
          (ret < 0 ∧ ∀ c ∈ new, c.reply.ret < 0) := by
  cases fuel with
  | zero => exact post_error _ _
  | succ fuel =>
    refine (camNodeSetCombo_cases hfmt s).imp ?_
    rintro ret ⟨combo', s'⟩ (⟨hneg, new, hlog, -, hnil⟩ | ⟨s₁, s₂, new, hlog, -, -, hclose, hnil, hstep⟩)
    · rw [hnil hcrop] at hlog
      exact ⟨[], hlog, fun hpos => by omega, fun _ _ _ => .inr ⟨hneg, by simp⟩⟩
    · rw [hnil hcrop, List.nil_append] at hlog
      dsimp only at hclose hstep ⊢
      cases hstep with
      | @refused c _ _ _ hown hret hneg =>
        refine ⟨[c], by rw [hclose, hown, hlog]; rfl, fun hpos => by omega, fun _ _ _ => .inr ⟨hneg, ?_⟩⟩
        simp [hret, hneg]
      | @sink c _ _ _ _ hown hsets hret hpos hsettles hpad hsink =>
        refine ⟨[c], by rw [hclose, hown, hlog]; rfl, fun _ => ⟨c, by simp, hsets, hsettles⟩, fun _ _ _ => ?_⟩
        exact .inl ⟨hpos, c, rfl, hsets, hsettles⟩
      | @downstream c _ s₁' _ _ _ hown _ hsets _ hsettles _ hpad hsource hrun =>
        obtain ⟨new', hlog', -⟩ := ran_applyDownstream (ran_camNodeSetCombo fuel) _ _ _ _ _ hrun
        refine ⟨new' ++ [c], by rw [hclose, hlog', hown, hlog]; simp, fun _ => ⟨c, by simp, hsets, hsettles⟩, ?_⟩
        intro flags hflags hsink
        rw [hpad] at hflags
        cases hflags
        rw [hsource] at hsink
        cases hsink

variable {ref : LinkId → Int}

theorem settles_of_sameFmt {c : IoctlCall} {r_combo : CamNodeFmtCombo} (h : c.Settles r_combo) :
    r_combo.sameFmt combo = true ↔ c.Settles combo := by
  obtain ⟨hw, hh, hc⟩ := h
  simp only [CamNodeFmtCombo.sameFmt, IoctlCall.Settles, hw, hh, hc, decide_eq_true_iff]

/-- One round of the loop over the links: the link is passed over, or the recursive call at its far
end fails, settles on another format, or lets the loop go on. -/
theorem post_applyDownstream_cons {setCombo : NodeId → CamNodeFmtCombo → CamState → Outcome ComboState}
    {Q : Int → CamState → Prop} {l : CamLink} {ls : List CamLink} {ret : Int}
    (hl : l ∈ cam.linksOf node) (href : s.linkRefCnt = ref)
    (hskip : ¬Carried cam ref node combo.pad l →
      Post (applyDownstream setCombo node combo ls ret s) Q)
    (hcall : Carried cam ref node combo.pad l → ∀ dst ret₁ r_combo s₁, l.dst = some dst →
      setCombo dst { combo with pad := l.mlink.sink.index, scope := 1#8 <<< PARAM_APPLY_FMT } s =
        .ok (ret₁, r_combo, s₁) →
      (ret₁ < 0 ∨ 0 ≤ ret₁ ∧ ¬r_combo.sameFmt combo = true → Q ret₁ s₁) ∧
        (0 ≤ ret₁ → r_combo.sameFmt combo = true →
          Post (applyDownstream setCombo node combo ls ret₁ s₁) Q)) :
    Post (applyDownstream setCombo node combo (l :: ls) ret s) Q := by
  unfold applyDownstream
  split
  next hout => exact hskip fun hc => hout.elim (fun h => h hc.src) fun h => h hc.index
  next hout =>
    simp only [not_or, ne_eq, not_not] at hout
    split
    next hcnt => exact hskip fun hc => hc.enabled (href ▸ hcnt)
    next hcnt =>
      cases hdst : l.dst with
      | none => exact post_error _ _
      | some dst =>
        dsimp only
        split
        · exact post_error _ _
        next ret₁ r_combo s₁ heq =>
          obtain ⟨hstop, hgoOn⟩ :=
            hcall ⟨hl, hout.1, hout.2, href ▸ hcnt⟩ dst ret₁ r_combo s₁ hdst heq
          split
          next hneg => exact post_ok (hstop (.inl hneg))
          next hpos =>
            split
            next hsame => exact hgoOn (Int.not_lt.mp hpos) hsame
            next hdiffers => exact post_ok (hstop (.inr ⟨Int.not_lt.mp hpos, hdiffers⟩))

theorem visits_of_applyDownstream {fuel : Nat} (ls : List CamLink) (hls : ∀ l ∈ ls, l ∈ cam.linksOf node)
    (ret : Int) (s : CamState) (href : s.linkRefCnt = ref) :
    Post (applyDownstream (camNodeSetCombo cam k fuel) node combo ls ret s) fun ret' s' =>
      ∃ new, s'.ioctls = new ++ s.ioctls ∧ (0 ≤ ret' → Unadjusted cam ref node combo.pad combo new →
        ∀ l ∈ ls, Carried cam ref node combo.pad l →
          ∃ dst, l.dst = some dst ∧ ∃ c ∈ new, c.SetsFmt (cam.meOf dst) l.mlink.sink.index) := by
  induction ls generalizing ret s with
  | nil => exact post_ok ⟨[], rfl, by simp⟩
  | cons l ls ih =>
    have hrest : ∀ l' ∈ ls, l' ∈ cam.linksOf node := fun l' hl' => hls l' (List.mem_cons_of_mem l hl')
    refine post_applyDownstream_cons (hls l List.mem_cons_self) href (fun hnot => ?_)
      fun hcarried dst ret₁ r_combo s₁ hdst heq => ?_
    · refine (ih hrest ret s href).imp fun ret' s' ⟨new, hlog, hvisits⟩ =>
        ⟨new, hlog, fun hpos hun l' hl' hc => ?_⟩
      rcases List.mem_cons.mp hl' with rfl | hl'
      · exact absurd hc hnot
      · exact hvisits hpos hun l' hl' hc
    · obtain ⟨new₁, hlog₁, hfirst, -⟩ :=
        downstream_camNodeSetCombo (applies_fmt combo _) (not_applies_crop combo _) s _ _ heq
      obtain ⟨new₁', hlog₁', hok⟩ := ran_camNodeSetCombo _ _ _ _ _ _ heq
      have hsame : new₁' = new₁ := List.append_cancel_right (hlog₁'.symm.trans hlog₁)
      subst hsame
      refine ⟨fun hstop => ⟨new₁', hlog₁, fun hpos hun => ?_⟩, fun hpos _ => ?_⟩
      · obtain ⟨-, hdiffers⟩ := hstop.resolve_left (Int.not_lt.mpr hpos)
        obtain ⟨c, hc, hsets, hsettles⟩ := hfirst hpos
        refine absurd ?_ hdiffers
        exact (settles_of_sameFmt hsettles).mpr (hun c hc l dst hcarried hdst hsets (hok hpos c hc))
      · obtain ⟨c, hc, hsets, -⟩ := hfirst hpos
        have href₁ := (linkRefCnt_camNodeSetCombo fuel dst _ s _ _ heq).trans href
        refine (ih hrest ret₁ s₁ href₁).imp fun ret' s' ⟨new, hlog, hvisits⟩ => ?_
        refine ⟨new ++ new₁', by rw [hlog, hlog₁, List.append_assoc], fun hpos' hun l' hl' hc' => ?_⟩
        rcases List.mem_cons.mp hl' with rfl | hl'
        · exact ⟨dst, hdst, c, List.mem_append_right _ hc, hsets⟩
        · obtain ⟨dst', hdst', c', hc'', hsets'⟩ := hvisits hpos'
            (fun x hx => hun x (List.mem_append_left _ hx)) l' hl' hc'
          exact ⟨dst', hdst', c', List.mem_append_left _ hc'', hsets'⟩

/-- Where the links end at sink pads, a driver that adjusts the format is the last one asked, and
the loop ends well. -/
theorem stops_of_applyDownstream {fuel : Nat} (hsink : SinkEnds cam ref node combo.pad) (ls : List CamLink)
    (hls : ∀ l ∈ ls, l ∈ cam.linksOf node) (ret : Int) (s : CamState) (href : s.linkRefCnt = ref) :
    Post (applyDownstream (camNodeSetCombo cam k fuel) node combo ls ret s) fun ret' s' =>
      ∃ new, s'.ioctls = new ++ s.ioctls ∧ ((∀ c ∈ new, 0 ≤ c.reply.ret → c.Settles combo) ∨
        0 ≤ ret' ∧ ∃ c rest l dst, new = c :: rest ∧ Carried cam ref node combo.pad l ∧ l.dst = some dst ∧
          c.SetsFmt (cam.meOf dst) l.mlink.sink.index ∧ ¬c.Settles combo) := by
  induction ls generalizing ret s with
  | nil => exact post_ok ⟨[], rfl, .inl (by simp)⟩
  | cons l ls ih =>
    have hrest : ∀ l' ∈ ls, l' ∈ cam.linksOf node := fun l' hl' => hls l' (List.mem_cons_of_mem l hl')
    refine post_applyDownstream_cons (hls l List.mem_cons_self) href (fun _ => ih hrest ret s href)
      fun hcarried dst ret₁ r_combo s₁ hdst heq => ?_
    obtain ⟨flags, hflags, hflagsSink⟩ := hsink l dst hcarried hdst
    obtain ⟨new₁, hlog₁, -, hends⟩ :=
      downstream_camNodeSetCombo (applies_fmt combo _) (not_applies_crop combo _) s _ _ heq
    dsimp only at hlog₁ hends
    rcases hends flags hflags hflagsSink with ⟨hpos, c, rfl, hsets, hsettles⟩ | ⟨hneg, hfails⟩
    · refine ⟨fun hstop => ?_, fun _ hsame => ?_⟩
      · obtain ⟨-, hdiffers⟩ := hstop.resolve_left (Int.not_lt.mpr hpos)
        refine ⟨[c], hlog₁, .inr ⟨hpos, c, [], l, dst, rfl, hcarried, hdst, hsets, fun hc => ?_⟩⟩
        exact hdiffers ((settles_of_sameFmt hsettles).mpr hc)
      · have hc : c.Settles combo := (settles_of_sameFmt hsettles).mp hsame
        have href₁ := (linkRefCnt_camNodeSetCombo fuel dst _ s _ _ heq).trans href
        refine (ih hrest ret₁ s₁ href₁).imp fun ret' s' ⟨new, hlog, hstops⟩ => ?_
        refine ⟨new ++ [c], by rw [hlog, hlog₁, List.append_assoc], ?_⟩
        rcases hstops with hall | ⟨hpos', c', rest, l', dst', hnew, hstop⟩
        · refine .inl fun x hx hx' => ?_
          rcases List.mem_append.mp hx with hx | hx
          · exact hall x hx hx'
          · exact List.mem_singleton.mp hx ▸ hc
        · exact .inr ⟨hpos', c', rest ++ [c], l', dst', by rw [hnew]; rfl, hstop⟩
    · refine ⟨fun _ => ⟨new₁, hlog₁, .inl fun x hx hx' => ?_⟩, fun hpos => ?_⟩
      · exact absurd hx' (Int.not_le.mpr (hfails x hx))
      · exact absurd hneg (Int.not_lt.mpr hpos)

/-- The log of a call on a source pad: no format was taken, or the node's own `S_FMT` comes before
what the loop over the links does. -/
theorem newIoctls_cases {fuel : Nat} {ret : Int} {combo' : CamNodeFmtCombo} {flags : PadFlags}
    (h : camNodeSetCombo cam k fuel node combo s = .ok (ret, combo', s'))
    (hfmt : combo.applies PARAM_APPLY_FMT = true)
    (hpad : (cam.media.padsOf (cam.meOf node))[combo.pad]? = some flags) (hsource : flags.sink = false) :
    (ret < 0 ∧ ∀ c ∈ s.newIoctls s', 0 ≤ c.reply.ret → ∀ me pad, ¬c.SetsFmt me pad) ∨
      ∃ fuel' s₁ s₂ c new, s₁.linkRefCnt = s.linkRefCnt ∧ c.Settles combo' ∧ combo'.pad = combo.pad ∧
        (∀ x ∈ new, ∀ me pad, ¬x.SetsFmt me pad) ∧
        applyDownstream (camNodeSetCombo cam k fuel') node combo' (cam.linksOf node) c.reply.ret s₁ =
          .ok (ret, s₂) ∧
        ∀ newL, s₂.ioctls = newL ++ s₁.ioctls → s.newIoctls s' = newL ++ c :: new := by
  cases fuel with
  | zero => cases h
  | succ fuel =>
    rcases camNodeSetCombo_cases hfmt s _ _ h with
      ⟨hneg, new, hlog, hno, -⟩ | ⟨s₁, s₂, new, hlog, href, hno, hclose, -, hstep⟩
    · rw [newIoctls_eq hlog]
      exact .inl ⟨hneg, fun c hc _ => hno c hc⟩
    · dsimp only at hclose hstep
      cases hstep with
      | @refused c _ _ _ hown hret hneg =>
        have hall : s'.ioctls = (c :: new) ++ s.ioctls := by rw [hclose, hown, hlog, List.cons_append]
        rw [newIoctls_eq hall]
        refine .inl ⟨hneg, fun x hx hpos => ?_⟩
        rcases List.mem_cons.mp hx with rfl | hx
        · omega
        · exact hno x hx
      | sink _ _ _ _ _ hpad' hsink =>
        rw [hpad] at hpad'
        cases hpad'
        rw [hsource] at hsink
        cases hsink
      | @downstream c _ s₁' _ _ _ hown href' _ _ hsettles hcombo _ _ hrun =>
        refine .inr ⟨fuel, s₁', s₂, c, new, href'.trans href, hsettles, hcombo, hno, hrun, fun newL hnewL => ?_⟩
        apply newIoctls_eq
        rw [hclose, hnewL, hown, hlog, List.append_assoc, List.cons_append]

/-- `CamNodeSetCombo` is honest about the format it sets on a source pad unless a driver behind an
enabled link adjusts it. -/
theorem honest_iff {fuel : Nat} {ret : Int} {combo' : CamNodeFmtCombo} {flags : PadFlags}
    (h : camNodeSetCombo cam k fuel node combo s = .ok (ret, combo', s'))
    (hfmt : combo.applies PARAM_APPLY_FMT = true)
    (hpad : (cam.media.padsOf (cam.meOf node))[combo.pad]? = some flags) (hsource : flags.sink = false) :
    (Unadjusted cam s.linkRefCnt node combo.pad combo' (s.newIoctls s') →
      Honest cam s.linkRefCnt node combo.pad combo' (s.newIoctls s') ret) ∧
    (SinkEnds cam s.linkRefCnt node combo.pad →
      Honest cam s.linkRefCnt node combo.pad combo' (s.newIoctls s') ret →
      Unadjusted cam s.linkRefCnt node combo.pad combo' (s.newIoctls s')) := by
  rcases newIoctls_cases h hfmt hpad hsource with
    ⟨hneg, hno⟩ | ⟨fuel', s₁, s₂, c, new, href, hsettles, hcombo, hno, hrun, hsplit⟩
  · exact ⟨fun _ hpos => by omega, fun _ _ c hc l dst _ _ hsets hret => absurd hsets (hno c hc hret _ _)⟩
  constructor
  · intro hun hpos l hl
    obtain ⟨newL, hnewL, hvisits⟩ := visits_of_applyDownstream _ (fun _ hl => hl) _ _ href _ _ hrun
    have heq := hsplit newL hnewL
    rw [hcombo] at hvisits
    obtain ⟨dst, hdst, x, hx, hsets⟩ :=
      hvisits hpos (fun y hy => hun y (heq ▸ List.mem_append_left _ hy)) l hl.mem hl
    obtain ⟨all, hall, hok⟩ := ran_camNodeSetCombo _ _ _ _ _ _ h
    rw [← newIoctls_eq hall] at hok
    have hsome : ((s.newIoctls s').find? fun c => c.SetsFmt (cam.meOf dst) l.mlink.sink.index).isSome := by
      rw [List.find?_isSome]
      exact ⟨x, heq ▸ List.mem_append_left _ hx, decide_eq_true hsets⟩
    obtain ⟨y, hy⟩ := Option.isSome_iff_exists.mp hsome
    have hyMem := List.mem_of_find?_eq_some hy
    have hySets : y.SetsFmt (cam.meOf dst) l.mlink.sink.index := by simpa using List.find?_some hy
    exact ⟨dst, y, hdst, hy, hok hpos y hyMem, hun y hyMem l dst hl hdst hySets (hok hpos y hyMem)⟩
  · intro hends hhonest
    obtain ⟨newL, hnewL, hstops⟩ :=
      stops_of_applyDownstream (hcombo ▸ hends) _ (fun _ hl => hl) _ _ href _ _ hrun
    have heq := hsplit newL hnewL
    rw [hcombo] at hstops
    rcases hstops with hsame | ⟨hpos, x, rest, l, dst, hnew, hl, hdst, hsets, hdiffers⟩
    · intro x hx l dst _ _ hsets hret
      rw [heq, List.mem_append, List.mem_cons] at hx
      rcases hx with hx | rfl | hx
      · exact hsame x hx hret
      · exact hsettles
      · exact absurd hsets (hno x hx _ _)
    · obtain ⟨dst', y, hdst', hy, -, hySettles⟩ := hhonest hpos l hl
      rw [hdst, Option.some.injEq] at hdst'
      subst hdst'
      have hfound : x = y := by
        rw [heq, hnew, List.cons_append, List.find?_cons, decide_eq_true hsets] at hy
        exact Option.some.inj hy
      subst hfound
      exact absurd hySettles hdiffers

end

def adjustingKernel : Kernel :=
  { readyKernel with ioctl := fun n _ _ => ⟨0, ⟨0, 0, 0, 0⟩, 640 + n, 480, 1⟩ }

def vgaCombo : CamNodeFmtCombo := ⟨0, 0, ⟨0, 0, 0, 0⟩, 640, 480, 1, 1#8⟩

def smallSetCombo (k : Kernel) : Except Stuck (CamState × Int × ComboState) :=
  (cameraContextInit smallStart.1 readyKernel 0 0 1 smallStart.2).bind fun (_, s) =>
    (camNodeSetCombo smallStart.1 k 3 0 vgaCombo s).map fun p => (s, p)

theorem smallSetCombo_eq {k : Kernel} {s : CamState} {p : Int × ComboState} (h : smallSetCombo k = .ok (s, p)) :
    camNodeSetCombo smallStart.1 k 3 0 vgaCombo s = .ok p := by
  obtain ⟨⟨_, s'⟩, -, hset⟩ := bind_eq_ok h
  obtain ⟨p', hset, heq⟩ := map_eq_ok hset
  cases heq
  exact hset

theorem honest_smallBoard :
    ∃ s ret combo' s', smallSetCombo readyKernel = .ok (s, ret, combo', s') ∧ 0 ≤ ret ∧
    (Unadjusted smallStart.1 s.linkRefCnt 0 0 combo' (s.newIoctls s') →
      Honest smallStart.1 s.linkRefCnt 0 0 combo' (s.newIoctls s') ret) ∧
    (SinkEnds smallStart.1 s.linkRefCnt 0 0 →
      Honest smallStart.1 s.linkRefCnt 0 0 combo' (s.newIoctls s') ret →
      Unadjusted smallStart.1 s.linkRefCnt 0 0 combo' (s.newIoctls s')) := by
  have hseen : (smallSetCombo readyKernel).toOption.map (fun p => p.2.1) = some 0 := by decide +kernel
  obtain ⟨⟨s, ret, combo', s'⟩, hset, rfl⟩ := exists_of_map_eq_some hseen
  have hpad : (smallStart.1.media.padsOf (smallStart.1.meOf 0))[vgaCombo.pad]? = some ⟨false, true⟩ := by
    decide +kernel
  exact ⟨s, _, combo', s', hset, le_rfl, honest_iff (smallSetCombo_eq hset) (by decide) hpad rfl⟩

def sensorLink : CamLink := ⟨(0, 0), some 0, some 2, ⟨⟨0, 0⟩, ⟨2, 0⟩⟩⟩

theorem not_honest_smallBoard :
    ∃ s ret combo' s', smallSetCombo adjustingKernel = .ok (s, ret, combo', s') ∧
    ¬Honest smallStart.1 s.linkRefCnt 0 0 combo' (s.newIoctls s') ret := by
  have hseen : (smallSetCombo adjustingKernel).toOption.map (fun p =>
      (p.2.1, p.2.2.1.width, p.1.linkRefCnt (0, 0),
        ((p.1.newIoctls p.2.2.2).find? fun c => c.SetsFmt (smallStart.1.meOf 2) 0).map (·.reply.width))) =
      some (0, 640, 1, some 641) := by
    decide +kernel
  obtain ⟨⟨s, ret, combo', s'⟩, hset, hp⟩ := exists_of_map_eq_some hseen
  simp only [Prod.mk.injEq] at hp
  obtain ⟨rfl, hwidth, href, hreply⟩ := hp
  refine ⟨s, _, combo', s', hset, fun h => ?_⟩
  have hlink : Carried smallStart.1 s.linkRefCnt 0 0 sensorLink :=
    ⟨by decide +kernel, rfl, rfl, by rw [sensorLink, href]; decide⟩
  obtain ⟨dst, c, hdst, hfind, -, hsettles⟩ := h le_rfl sensorLink hlink
  cases hdst
  obtain ⟨c', hfind', hwide⟩ := Option.map_eq_some_iff.mp hreply
  cases hfind'.symm.trans hfind
  have hsame : 640 = 641 := hwidth.symm.trans (hsettles.1.symm.trans hwide)
  exact absurd hsame (by decide)

end G361FPlatform.MediaLib
