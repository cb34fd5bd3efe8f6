import G361FPlatform.Library.Ownership
import G361FPlatform.MediaLib.ContextLaws
import Mathlib.Algebra.Group.Pi.Basic
import Mathlib.Algebra.Group.Int.Defs
import Mathlib.Tactic.Ring

namespace G361FPlatform.MediaLib

open Library Ownership

namespace CamState

def active (s : CamState) (r : CamRoute) : Bool := 0 < s.routeRefCnt r.id

def lastFlag (s : CamState) (l : LinkId) : Option Nat :=
  (s.setupCalls.find? fun c => c.link = l ∧ 0 ≤ c.ret).map (·.flag)

end CamState

def ownsHead (r : CamRoute) (l : LinkId) : Bool := r.head.id = l
def ownsMore (r r' : CamRoute) : Bool := r.more = some r'

def headOwners (cam : PlatCam) (s : CamState) : LinkId → Nat := owners cam.heap s.active ownsHead

def moreOwners (cam : PlatCam) (s : CamState) : CamRoute → Nat := owners cam.heap s.active ownsMore

def moreRoot (r : CamRoute) : CamRoute → Int := r.more.elim 0 fun m => Pi.single m 1

/-- The counters account for their holders: `roots` and `links` are what is held from outside
the routes, by contexts or by a call under way. -/
structure Counted (cam : PlatCam) (roots : CamRoute → Int) (links : LinkId → Int)
    (s : CamState) : Prop where
  link : ∀ l, s.linkRefCnt l = links l + headOwners cam s l
  route : ∀ r ∈ cam.heap, s.routeRefCnt r.id = roots r + moreOwners cam s r
  flag : ∀ l, s.lastFlag l = some 1 ↔ 0 < s.linkRefCnt l

def Kernel.LinksSucceed (k : Kernel) : Prop := ∀ n, k.setupLink n = 0

namespace Counted

variable {cam : PlatCam} {k : Kernel} {roots : CamRoute → Int} {links : LinkId → Int}
  {s : CamState}

theorem lastFlag_mediaSetupLink (hk : k.LinksSucceed) (l : CamLink) (flag : Nat) (s : CamState)
    (l' : LinkId) :
    (mediaSetupLink k l flag s).2.lastFlag l' = if l.id = l' then some flag else s.lastFlag l' := by
  simp only [CamState.lastFlag, mediaSetupLink, hk _, List.find?_cons]
  by_cases h : l.id = l'
  · simp [h]
  · simp [h]

theorem linkRefCnt_nonneg (h : Counted cam roots links s) (hlinks : ∀ l, 0 ≤ links l) (l : LinkId) :
    0 ≤ s.linkRefCnt l := by
  have := hlinks l
  rw [h.link]
  omega

theorem routeRefCnt_nonneg (h : Counted cam roots links s) (hroots : ∀ r, 0 ≤ roots r) {r : CamRoute}
    (hr : r ∈ cam.heap) : 0 ≤ s.routeRefCnt r.id := by
  have := hroots r
  rw [h.route r hr]
  omega

theorem linkOn (hk : k.LinksSucceed) (hlinks : ∀ l, 0 ≤ links l) (h : Counted cam roots links s)
    (l : CamLink) : ∃ s', camLinkApply k l 1 s = (0, s') ∧
      Counted cam roots (links + Pi.single l.id 1) s' ∧ s'.routeRefCnt = s.routeRefCnt := by
  have hold := h.linkRefCnt_nonneg hlinks
  have hcount : ∀ l', (s.addLinkRef l.id 1).linkRefCnt l' =
      s.linkRefCnt l' + (Pi.single l.id 1 : LinkId → Int) l' := by
    intro l'
    by_cases hl : l' = l.id
    · subst hl; simp [CamState.addLinkRef]
    · simp [CamState.addLinkRef, hl]
  have hlink : ∀ l', s.linkRefCnt l' + (Pi.single l.id 1 : LinkId → Int) l' =
      (links + Pi.single l.id 1 : LinkId → Int) l' + headOwners cam s l' := by
    intro l'
    rw [h.link l', Pi.add_apply]
    ring
  by_cases hzero : s.linkRefCnt l.id = 0
  · refine ⟨((mediaSetupLink k l 1 s).2).addLinkRef l.id 1, ?_, ⟨?_, h.route, ?_⟩, rfl⟩
    · simp [camLinkApply, hzero, mediaSetupLink, hk _]
    · exact fun l' => (hcount l').trans (hlink l')
    · intro l'
      have hflag := lastFlag_mediaSetupLink hk l 1 s l'
      change (mediaSetupLink k l 1 s).2.lastFlag l' = some 1 ↔
        0 < (s.addLinkRef l.id 1).linkRefCnt l'
      rw [hflag, hcount]
      by_cases hl : l.id = l'
      · subst hl; simp [hzero]
      · simp [hl, Ne.symm hl, h.flag]
  · refine ⟨s.addLinkRef l.id 1, ?_, ⟨?_, h.route, ?_⟩, rfl⟩
    · simp [camLinkApply, hzero]
    · exact fun l' => (hcount l').trans (hlink l')
    · intro l'
      rw [hcount]
      change s.lastFlag l' = some 1 ↔ _
      rw [h.flag]
      have := hold l'
      by_cases hl : l' = l.id
      · subst hl
        simp only [Pi.single_eq_same]
        omega
      · simp [hl]

theorem linkOff (hk : k.LinksSucceed) (hlinks : ∀ l, 0 ≤ links l) {l : CamLink}
    (h : Counted cam roots (links + Pi.single l.id 1) s) :
    ∃ s', camLinkApply k l 0 s = (0, s') ∧ Counted cam roots links s' ∧
      s'.routeRefCnt = s.routeRefCnt := by
  have hcount : ∀ l', (s.addLinkRef l.id (-1)).linkRefCnt l' = links l' + headOwners cam s l' := by
    intro l'
    have := h.link l'
    by_cases hl : l' = l.id
    · subst hl
      simp only [CamState.addLinkRef, Function.update_self, Pi.add_apply, Pi.single_eq_same] at this ⊢
      omega
    · simpa [CamState.addLinkRef, hl] using this
  have hother : ∀ l', l.id ≠ l' → (s.lastFlag l' = some 1 ↔
      0 < (s.addLinkRef l.id (-1)).linkRefCnt l') := by
    intro l' hl
    rw [h.flag]
    simp [CamState.addLinkRef, Ne.symm hl]
  have hnonneg := hlinks l.id
  by_cases hzero : (s.addLinkRef l.id (-1)).linkRefCnt l.id = 0
  · refine ⟨(mediaSetupLink k l 0 (s.addLinkRef l.id (-1))).2, ?_, ⟨hcount, h.route, ?_⟩, rfl⟩
    · simp [camLinkApply, hzero, mediaSetupLink, hk _]
    · intro l'
      have hflag := lastFlag_mediaSetupLink hk l 0 (s.addLinkRef l.id (-1)) l'
      change _ ↔ 0 < (s.addLinkRef l.id (-1)).linkRefCnt l'
      rw [hflag]
      by_cases hl : l.id = l'
      · subst hl; simp [hzero]
      · rw [if_neg hl]
        exact hother l' hl
  · refine ⟨s.addLinkRef l.id (-1), ?_, ⟨hcount, h.route, ?_⟩, rfl⟩
    · simp [camLinkApply, hzero]
    · intro l'
      by_cases hl : l.id = l'
      · subst hl
        have hnew := hcount l.id
        have hlast : s.lastFlag l.id = some 1 := by
          rw [h.flag, h.link, Pi.add_apply, Pi.single_eq_same]
          omega
        exact ⟨fun _ => by omega, fun _ => hlast⟩
      · exact hother l' hl

theorem routeRefCnt_addRouteRef (id : RouteId) (d : Int) (s : CamState) (id' : RouteId) :
    (s.addRouteRef id d).routeRefCnt id' = s.routeRefCnt id' + if id' = id then d else 0 := by
  by_cases h : id' = id
  · subst h; simp [CamState.addRouteRef]
  · simp [CamState.addRouteRef, h]

theorem routeRefCnt_addRouteRef_one (hcam : cam.Searched) {r x : CamRoute} (hr : r ∈ cam.heap)
    (hx : x ∈ cam.heap) : (s.addRouteRef r.id 1).routeRefCnt x.id =
      s.routeRefCnt x.id + (Pi.single r 1 : CamRoute → Int) x := by
  rw [routeRefCnt_addRouteRef]
  by_cases h : x = r
  · subst h; simp
  · have hid : x.id ≠ r.id := fun heq => h (hcam.eq_of_id_eq hx hr heq)
    simp [h, hid]

theorem bump_iff (hcam : cam.Searched) {r : CamRoute} (hr : r ∈ cam.heap)
    (hpos : 0 < s.routeRefCnt r.id) :
    Counted cam (roots + Pi.single r 1) links (s.addRouteRef r.id 1) ↔
      Counted cam roots links s := by
  have hactive : ∀ x ∈ cam.heap, (s.addRouteRef r.id 1).active x = s.active x := by
    intro x _
    simp only [CamState.active, routeRefCnt_addRouteRef, decide_eq_decide]
    split
    next heq => rw [heq]; omega
    · omega
  have hlink : ∀ l, headOwners cam (s.addRouteRef r.id 1) l = headOwners cam s l :=
    owners_congr hactive
  have hroute : ∀ x ∈ cam.heap, ((s.addRouteRef r.id 1).routeRefCnt x.id =
      (roots + Pi.single r 1 : CamRoute → Int) x + moreOwners cam (s.addRouteRef r.id 1) x ↔
        s.routeRefCnt x.id = roots x + moreOwners cam s x) := by
    intro x hx
    rw [routeRefCnt_addRouteRef_one hcam hr hx, moreOwners, owners_congr hactive, Pi.add_apply,
      moreOwners]
    omega
  constructor
  · rintro ⟨h₁, h₂, h₃⟩
    exact ⟨fun l => hlink l ▸ h₁ l, fun x hx => (hroute x hx).mp (h₂ x hx), h₃⟩
  · rintro ⟨h₁, h₂, h₃⟩
    exact ⟨fun l => (hlink l).symm ▸ h₁ l, fun x hx => (hroute x hx).mpr (h₂ x hx), h₃⟩

theorem moreRoot_apply (r x : CamRoute) :
    moreRoot r x = ((if ownsMore r x then 1 else 0 : Nat) : Int) := by
  unfold moreRoot ownsMore
  cases r.more with
  | none => simp
  | some m =>
    by_cases h : x = m
    · subst h; simp
    · simp [h, Ne.symm h]

theorem headRoot_apply (r : CamRoute) (l : LinkId) :
    (Pi.single r.head.id 1 : LinkId → Int) l = ((if ownsHead r l then 1 else 0 : Nat) : Int) := by
  by_cases h : l = r.head.id
  · subst h; simp [ownsHead]
  · simp [ownsHead, h, Ne.symm h]

theorem activate_iff (hcam : cam.Searched) {r : CamRoute} (hr : r ∈ cam.heap)
    (hzero : s.routeRefCnt r.id = 0) :
    Counted cam (roots + Pi.single r 1) links (s.addRouteRef r.id 1) ↔
      Counted cam (roots + moreRoot r) (links + Pi.single r.head.id 1) s := by
  have howners : ∀ {β : Type} (owns : CamRoute → β → Bool) (b : β),
      owners cam.heap (s.addRouteRef r.id 1).active owns b =
        owners cam.heap s.active owns b + if owns r b then 1 else 0 := by
    intro β owns b
    apply owners_activate (List.Nodup.of_map _ hcam.ids_nodup) hr
    · simp [CamState.active, hzero]
    · simp [CamState.active, routeRefCnt_addRouteRef, hzero]
    · intro x hx hne
      have hid : x.id ≠ r.id := fun heq => hne (hcam.eq_of_id_eq hx hr heq)
      simp [CamState.active, routeRefCnt_addRouteRef, hid]
  have hlink : ∀ l, ((s.addRouteRef r.id 1).linkRefCnt l =
      links l + headOwners cam (s.addRouteRef r.id 1) l ↔
        s.linkRefCnt l = (links + Pi.single r.head.id 1 : LinkId → Int) l + headOwners cam s l) := by
    intro l
    rw [headOwners, howners, Pi.add_apply, headRoot_apply, headOwners]
    change s.linkRefCnt l = _ ↔ _
    omega
  have hroute : ∀ x ∈ cam.heap, ((s.addRouteRef r.id 1).routeRefCnt x.id =
      (roots + Pi.single r 1 : CamRoute → Int) x + moreOwners cam (s.addRouteRef r.id 1) x ↔
        s.routeRefCnt x.id = (roots + moreRoot r) x + moreOwners cam s x) := by
    intro x hx
    rw [routeRefCnt_addRouteRef_one hcam hr hx, moreOwners, howners, Pi.add_apply, Pi.add_apply,
      moreRoot_apply, moreOwners]
    omega
  constructor
  · rintro ⟨h₁, h₂, h₃⟩
    exact ⟨fun l => (hlink l).mp (h₁ l), fun x hx => (hroute x hx).mp (h₂ x hx), h₃⟩
  · rintro ⟨h₁, h₂, h₃⟩
    exact ⟨fun l => (hlink l).mpr (h₁ l), fun x hx => (hroute x hx).mpr (h₂ x hx), h₃⟩

theorem bodyOn (hk : k.LinksSucceed) (hcam : cam.Searched) (hroots : ∀ x, 0 ≤ roots x)
    (hlinks : ∀ l, 0 ≤ links l) {r : CamRoute} (hr : r ∈ cam.heap)
    {applyMore : CamState → Int × CamState}
    (hmore : ∀ s₁, Counted cam roots (links + Pi.single r.head.id 1) s₁ →
      ∃ s₂, applyMore s₁ = (0, s₂) ∧
        Counted cam (roots + moreRoot r) (links + Pi.single r.head.id 1) s₂ ∧
        s₂.routeRefCnt r.id = s₁.routeRefCnt r.id)
    (h : Counted cam roots links s) :
    ∃ s', routeApplyBody k r.id r.head 1 applyMore s = (0, s') ∧
      Counted cam (roots + Pi.single r 1) links s' := by
  have hnonneg := h.routeRefCnt_nonneg hroots hr
  by_cases hzero : s.routeRefCnt r.id = 0
  · obtain ⟨s₁, hlink, h₁, hcnt₁⟩ := h.linkOn hk hlinks r.head
    obtain ⟨s₂, hmore, h₂, hcnt₂⟩ := hmore s₁ h₁
    have hzero₂ : s₂.routeRefCnt r.id = 0 := by rw [hcnt₂, hcnt₁, hzero]
    refine ⟨s₂.addRouteRef r.id 1, ?_, (activate_iff hcam hr hzero₂).mpr h₂⟩
    simp [routeApplyBody, hzero, hlink, hmore]
  · refine ⟨s.addRouteRef r.id 1, ?_, (bump_iff hcam hr (by omega)).mpr h⟩
    simp [routeApplyBody, hzero]

theorem bodyOff (hk : k.LinksSucceed) (hcam : cam.Searched) (hroots : ∀ x, 0 ≤ roots x)
    (hlinks : ∀ l, 0 ≤ links l) {r : CamRoute} (hr : r ∈ cam.heap)
    {applyMore : CamState → Int × CamState}
    (hmore : ∀ s₁, Counted cam (roots + moreRoot r) (links + Pi.single r.head.id 1) s₁ →
      ∃ s₂, applyMore s₁ = (0, s₂) ∧ Counted cam roots (links + Pi.single r.head.id 1) s₂)
    (h : Counted cam (roots + Pi.single r 1) links s) :
    ∃ s', routeApplyBody k r.id r.head 0 applyMore s = (0, s') ∧ Counted cam roots links s' := by
  have hback : (s.addRouteRef r.id (-1)).addRouteRef r.id 1 = s := by
    simp [CamState.addRouteRef]
  have hcnt : 0 ≤ (s.addRouteRef r.id (-1)).routeRefCnt r.id := by
    have hr := h.route r hr
    have := hroots r
    rw [Pi.add_apply, Pi.single_eq_same] at hr
    simp only [CamState.addRouteRef, Function.update_self]
    omega
  by_cases hzero : (s.addRouteRef r.id (-1)).routeRefCnt r.id = 0
  · obtain ⟨s₂, hmore, h₂⟩ := hmore _ ((activate_iff hcam hr hzero).mp (by rwa [hback]))
    obtain ⟨s', hlink, h', -⟩ := h₂.linkOff hk hlinks
    refine ⟨s', ?_, h'⟩
    simp [routeApplyBody, hzero, hmore, routeDisable, hlink]
  · refine ⟨s.addRouteRef r.id (-1), ?_, (bump_iff hcam hr (by omega)).mp (by rwa [hback])⟩
    have hpos : ¬(s.addRouteRef r.id (-1)).routeRefCnt r.id ≤ 0 := by omega
    simp [routeApplyBody, hpos]

theorem nonneg_add_single {α : Type u} [DecidableEq α] {f : α → Int} (hf : ∀ x, 0 ≤ f x) (a x : α) :
    0 ≤ (f + Pi.single a 1 : α → Int) x := by
  have := hf x
  by_cases hx : x = a
  · subst hx
    simp only [Pi.add_apply, Pi.single_eq_same]
    omega
  · simpa [hx] using this

theorem routeOn (hk : k.LinksSucceed) (hcam : cam.Searched) (hroots : ∀ x, 0 ≤ roots x)
    (hlinks : ∀ l, 0 ≤ links l) {r : CamRoute} (hr : r ∈ cam.heap)
    (h : Counted cam roots links s) :
    ∃ s', camRouteApply k 1 r s = (0, s') ∧ Counted cam (roots + Pi.single r 1) links s' := by
  induction r generalizing s links with
  | last id src dst head =>
    refine bodyOn hk hcam hroots hlinks hr (fun s₁ h₁ => ⟨s₁, rfl, ?_, rfl⟩) h
    simpa [moreRoot, CamRoute.more] using h₁
  | cons id src dst head more ih =>
    refine bodyOn hk hcam hroots hlinks hr (fun s₁ h₁ => ?_) h
    have hmem := (hcam.more_mem hr rfl).1
    obtain ⟨s₂, hs₂, h₂⟩ := ih (nonneg_add_single hlinks _) hmem h₁
    refine ⟨s₂, hs₂, by simpa [moreRoot, CamRoute.more] using h₂, ?_⟩
    have hcnt := hcam.routeRefCnt_apply_more k 1 hr rfl s₁
    rwa [hs₂] at hcnt

theorem routeOff (hk : k.LinksSucceed) (hcam : cam.Searched) (hroots : ∀ x, 0 ≤ roots x)
    (hlinks : ∀ l, 0 ≤ links l) {r : CamRoute} (hr : r ∈ cam.heap)
    (h : Counted cam (roots + Pi.single r 1) links s) :
    ∃ s', camRouteApply k 0 r s = (0, s') ∧ Counted cam roots links s' := by
  induction r generalizing s links with
  | last id src dst head =>
    refine bodyOff hk hcam hroots hlinks hr (fun s₁ h₁ => ⟨s₁, rfl, ?_⟩) h
    simpa [moreRoot, CamRoute.more] using h₁
  | cons id src dst head more ih =>
    refine bodyOff hk hcam hroots hlinks hr (fun s₁ h₁ => ?_) h
    have hmem := (hcam.more_mem hr rfl).1
    exact ih (nonneg_add_single hlinks _) hmem (by simpa [moreRoot, CamRoute.more] using h₁)

end Counted

end G361FPlatform.MediaLib
