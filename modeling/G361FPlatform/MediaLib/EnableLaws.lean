import G361FPlatform.MediaLib.RefusalLaws

namespace G361FPlatform.MediaLib

open Library

namespace CamRoute

def headIds (r : CamRoute) : List LinkId := r.segments.map fun x => x.head.id

/-- No route comes twice in a chain of `more` pointers that ends. -/
def Chain (r : CamRoute) : Prop := (r.segments.map CamRoute.id).Nodup

instance (r : CamRoute) : Decidable r.Chain := inferInstanceAs (Decidable (List.Nodup _))

theorem mem_segments_self (r : CamRoute) : r ∈ r.segments := by
  cases r <;> simp [segments]

theorem Chain.id_ne {r m x : CamRoute} (h : r.Chain) (hm : r.more = some m) (hx : x ∈ m.segments) :
    x.id ≠ r.id := by
  cases r with
  | last => cases hm
  | cons id src dst head more =>
    cases hm
    simp only [Chain, segments, List.map_cons, List.nodup_cons] at h
    intro heq
    exact h.1 (List.mem_map.mpr ⟨x, hx, heq⟩)

end CamRoute

theorem CamRoute.Chain.routeRefCnt_more {r m : CamRoute} (h : r.Chain) (hm : r.more = some m) (k : Kernel)
    (s : CamState) : (camRouteApply k 1 m s).2.routeRefCnt r.id = s.routeRefCnt r.id :=
  routeRefCnt_camRouteApply m (fun _ hx => h.id_ne hm hx) s

def CamState.newCalls (s s' : CamState) : List SetupCall :=
  s'.setupCalls.take (s'.setupCalls.length - s.setupCalls.length)

structure CamState.Enabled (s s' : CamState) (l : LinkId) : Prop where
  counted : 0 < s'.linkRefCnt l
  enabled : ∀ c, ((s.newCalls s').find? fun c => c.link = l ∧ 0 ≤ c.ret) = some c → c.flag = 1

/-- What a caller expects of `CamRouteApply(..., 1)`. -/
structure AllOrNothing (k : Kernel) (r : CamRoute) (s : CamState) : Prop where
  all : 0 ≤ (camRouteApply k 1 r s).1 →
    (∀ l ∈ r.headIds, s.Enabled (camRouteApply k 1 r s).2 l) ∧
      (camRouteApply k 1 r s).2.routeRefCnt r.id = s.routeRefCnt r.id + 1
  nothing : (camRouteApply k 1 r s).1 < 0 → ∀ x ∈ r.segments,
    (camRouteApply k 1 r s).2.linkRefCnt x.head.id = s.linkRefCnt x.head.id ∧
      (camRouteApply k 1 r s).2.routeRefCnt x.id = s.routeRefCnt x.id

/-- A route behind another one is entered with the link counts `cnt`, before the `n`-th
`media_setup_link`, and left with the links of `goal` counted. -/
inductive Carries (k : Kernel) (ref : RouteId → Int) (goal : List LinkId) :
    CamRoute → (LinkId → Int) → Nat → Prop
  | held {r cnt n} : ref r.id ≠ 0 → (∀ l ∈ goal, 0 < cnt l) → Carries k ref goal r cnt n
  | last {r cnt n cnt' n'} : r.more = none → ref r.id = 0 → Passes k r.head.id cnt n cnt' n' →
      (∀ l ∈ goal, 0 < cnt' l) → Carries k ref goal r cnt n
  | more {r m cnt n cnt' n'} : r.more = some m → ref r.id = 0 → Passes k r.head.id cnt n cnt' n' →
      Carries k ref goal m cnt' n' → Carries k ref goal r cnt n
  -- the attempt to undo a refused link enables it, and the call reports success
  | retried {r cnt n cnt' n'} : ref r.id = 0 → cnt r.head.id = 0 → k.Fails n → k.Fails (n + 1) →
      Passes k r.head.id cnt (n + 2) cnt' n' → (∀ l ∈ goal, 0 < cnt' l) → Carries k ref goal r cnt n
  | undone {r m cnt n cnt₁ n₁ cnt₂ n₂ cnt' n'} : r.more = some m → ref r.id = 0 →
      Passes k r.head.id cnt n cnt₁ n₁ → Refused k ref m cnt₁ n₁ cnt₂ n₂ →
      Passes k r.head.id cnt₂ n₂ cnt' n' → (∀ l ∈ goal, 0 < cnt' l) → Carries k ref goal r cnt n

/-- The whole chain is entered so: its own route is counted at the end of the call, which only
the first three rules bring about. -/
inductive Enables (k : Kernel) (ref : RouteId → Int) (goal : List LinkId) (r : CamRoute)
    (cnt : LinkId → Int) (n : Nat) : Prop
  | held : ref r.id ≠ 0 → (∀ l ∈ goal, 0 < cnt l) → Enables k ref goal r cnt n
  | last {cnt' n'} : r.more = none → ref r.id = 0 → Passes k r.head.id cnt n cnt' n' →
      (∀ l ∈ goal, 0 < cnt' l) → Enables k ref goal r cnt n
  | more {m cnt' n'} : r.more = some m → ref r.id = 0 → Passes k r.head.id cnt n cnt' n' →
      Carries k ref goal m cnt' n' → Enables k ref goal r cnt n

section

variable {k : Kernel} {s s' : CamState} {ref : RouteId → Int} {cnt cnt' : LinkId → Int} {n n' : Nat}
  {goal : List LinkId} {r : CamRoute}

theorem camRouteApply_eq (flag : Nat) (r : CamRoute) : camRouteApply k flag r =
    routeApplyBody k r.id r.head flag (r.more.elim (fun s => (0, s)) (camRouteApply k flag)) := by
  cases r <;> rfl

theorem Passes.disable {l : CamLink} (h : Passes k l.id cnt n cnt' n') (hs : Reads s ref cnt n) :
    ∃ s', routeDisable k l 1 s = (0, s') ∧ Reads s' ref cnt' n' := by
  obtain ⟨ret, s', hlink, hpos, hs'⟩ := h.apply hs
  exact ⟨s', by simp [routeDisable, hlink, Int.not_lt.mpr hpos], hs'⟩

theorem camRouteApply_held (href : s.routeRefCnt r.id ≠ 0) :
    camRouteApply k 1 r s = (0, s.addRouteRef r.id 1) := by
  simp [camRouteApply_eq, routeApplyBody, href]

theorem camRouteApply_last (hs : Reads s ref cnt n) (hmore : r.more = none) (href : ref r.id = 0)
    (hpass : Passes k r.head.id cnt n cnt' n') :
    ∃ s₁, Reads s₁ ref cnt' n' ∧ camRouteApply k 1 r s = (0, s₁.addRouteRef r.id 1) := by
  have hzero : s.routeRefCnt r.id = 0 := hs.ref ▸ href
  obtain ⟨ret, s₁, hlink, hpos, hs₁⟩ := hpass.apply hs
  refine ⟨s₁, hs₁, ?_⟩
  simp [camRouteApply_eq, routeApplyBody, hzero, hlink, Int.not_lt.mpr hpos, hmore]

theorem camRouteApply_more (hs : Reads s ref cnt n) {m : CamRoute} (hmore : r.more = some m)
    (href : ref r.id = 0) (hpass : Passes k r.head.id cnt n cnt' n') :
    ∃ s₁, Reads s₁ ref cnt' n' ∧ ∀ s₂, camRouteApply k 1 m s₁ = (0, s₂) →
      camRouteApply k 1 r s = (0, s₂.addRouteRef r.id 1) := by
  have hzero : s.routeRefCnt r.id = 0 := hs.ref ▸ href
  obtain ⟨ret, s₁, hlink, hpos, hs₁⟩ := hpass.apply hs
  refine ⟨s₁, hs₁, fun s₂ happly => ?_⟩
  rw [camRouteApply_eq, hmore]
  simp [routeApplyBody, hzero, hlink, Int.not_lt.mpr hpos, happly]

theorem Carries.apply (h : Carries k ref goal r cnt n) (hs : Reads s ref cnt n) :
    ∃ s', camRouteApply k 1 r s = (0, s') ∧ ∀ l ∈ goal, 0 < s'.linkRefCnt l := by
  induction h generalizing s with
  | held href hgoal =>
    exact ⟨_, camRouteApply_held (hs.ref ▸ href), fun l hl => hs.cnt ▸ hgoal l hl⟩
  | last hmore href hpass hgoal =>
    obtain ⟨s₁, hs₁, happly⟩ := camRouteApply_last hs hmore href hpass
    exact ⟨_, happly, fun l hl => hs₁.cnt ▸ hgoal l hl⟩
  | more hmore href hpass _ ih =>
    obtain ⟨s₁, hs₁, happly⟩ := camRouteApply_more hs hmore href hpass
    obtain ⟨s₂, hrest, hgoal⟩ := ih hs₁
    exact ⟨_, happly s₂ hrest, hgoal⟩
  | retried href hcnt h₀ h₁ hpass hgoal =>
    have hzero := hs.ref ▸ href
    obtain ⟨ret, s₁, hlink, hneg, hs₁⟩ := camLinkApply_fails hcnt h₀ h₁ hs
    obtain ⟨s₂, hdis, hs₂⟩ := hpass.disable hs₁
    refine ⟨s₂, ?_, fun l hl => hs₂.cnt ▸ hgoal l hl⟩
    simp [camRouteApply_eq, routeApplyBody, hzero, hlink, hneg, hdis]
  | undone hmore href hpass hrefused hagain hgoal =>
    have hzero := hs.ref ▸ href
    obtain ⟨ret, s₁, hlink, hpos, hs₁⟩ := hpass.apply hs
    obtain ⟨ret₂, s₂, happly, hneg, hs₂⟩ := hrefused.apply hs₁
    obtain ⟨s₃, hdis, hs₃⟩ := hagain.disable hs₂
    refine ⟨s₃, ?_, fun l hl => hs₃.cnt ▸ hgoal l hl⟩
    rw [camRouteApply_eq, hmore]
    simp [routeApplyBody, hzero, hlink, Int.not_lt.mpr hpos, happly, hneg, hdis]

inductive ApplyStep (k : Kernel) (ref : RouteId → Int) (r : CamRoute) (cnt : LinkId → Int) (n : Nat)
    (s : CamState) : Int × CamState → Prop
  | held : ref r.id ≠ 0 → ApplyStep k ref r cnt n s (0, s.addRouteRef r.id 1)
  | last {cnt' n' s₁} : r.more = none → ref r.id = 0 → Passes k r.head.id cnt n cnt' n' →
      Reads s₁ ref cnt' n' → ApplyStep k ref r cnt n s (0, s₁.addRouteRef r.id 1)
  | more {m cnt' n' s₁ ret s₂} : r.more = some m → ref r.id = 0 →
      Passes k r.head.id cnt n cnt' n' → Reads s₁ ref cnt' n' →
      camRouteApply k 1 m s₁ = (ret, s₂) → 0 ≤ ret →
      ApplyStep k ref r cnt n s (0, s₂.addRouteRef r.id 1)
  | undone {m cnt' n' s₁ ret s₂} : r.more = some m → ref r.id = 0 →
      Passes k r.head.id cnt n cnt' n' → Reads s₁ ref cnt' n' →
      camRouteApply k 1 m s₁ = (ret, s₂) → ret < 0 →
      ApplyStep k ref r cnt n s (routeDisable k r.head 1 s₂)
  | retried {s₁} : ref r.id = 0 → cnt r.head.id = 0 → k.Fails n → k.Fails (n + 1) →
      Reads s₁ ref cnt (n + 2) → ApplyStep k ref r cnt n s (routeDisable k r.head 1 s₁)

theorem applyStep_camRouteApply (r : CamRoute) (hs : Reads s ref cnt n) :
    ApplyStep k ref r cnt n s (camRouteApply k 1 r s) := by
  rw [camRouteApply_eq]
  by_cases href : ref r.id = 0
  case neg =>
    have hne : s.routeRefCnt r.id ≠ 0 := hs.ref ▸ href
    have heq : routeApplyBody k r.id r.head 1 (r.more.elim (fun s => (0, s)) (camRouteApply k 1)) s =
        (0, s.addRouteRef r.id 1) := by simp [routeApplyBody, hne]
    exact heq ▸ .held href
  case pos =>
    have hzero : s.routeRefCnt r.id = 0 := hs.ref ▸ href
    rcases passes_or_fails (k := k) r.head.id cnt n with ⟨cnt₁, n₁, hpass⟩ | ⟨hcnt, h₀, h₁⟩
    · obtain ⟨ret, s₁, hlink, hpos, hs₁⟩ := hpass.apply hs
      cases hmore : r.more with
      | none =>
        have heq : routeApplyBody k r.id r.head 1 ((none : Option CamRoute).elim (fun s => (0, s))
            (camRouteApply k 1)) s = (0, s₁.addRouteRef r.id 1) := by
          simp [routeApplyBody, hzero, hlink, Int.not_lt.mpr hpos]
        exact heq ▸ .last hmore href hpass hs₁
      | some m =>
        generalize happly : camRouteApply k 1 m s₁ = p
        obtain ⟨ret₂, s₂⟩ := p
        by_cases hneg : ret₂ < 0
        · have heq : routeApplyBody k r.id r.head 1 ((some m).elim (fun s => (0, s))
              (camRouteApply k 1)) s = routeDisable k r.head 1 s₂ := by
            simp [routeApplyBody, hzero, hlink, Int.not_lt.mpr hpos, happly, hneg]
          exact heq ▸ .undone hmore href hpass hs₁ happly hneg
        · have heq : routeApplyBody k r.id r.head 1 ((some m).elim (fun s => (0, s))
              (camRouteApply k 1)) s = (0, s₂.addRouteRef r.id 1) := by
            simp [routeApplyBody, hzero, hlink, Int.not_lt.mpr hpos, happly, hneg]
          exact heq ▸ .more hmore href hpass hs₁ happly (Int.not_lt.mp hneg)
    · obtain ⟨ret, s₁, hlink, hneg, hs₁⟩ := camLinkApply_fails hcnt h₀ h₁ hs
      have heq : routeApplyBody k r.id r.head 1 (r.more.elim (fun s => (0, s)) (camRouteApply k 1)) s =
          routeDisable k r.head 1 s₁ := by simp [routeApplyBody, hzero, hlink, hneg]
      exact heq ▸ .retried href hcnt h₀ h₁ hs₁

theorem passes_of_routeDisable {l : CamLink} (hs : Reads s ref cnt n)
    (hpos : 0 ≤ (routeDisable k l 1 s).1) :
    ∃ cnt' n', Passes k l.id cnt n cnt' n' ∧ (routeDisable k l 1 s).2.linkRefCnt = cnt' := by
  rcases passes_or_fails (k := k) l.id cnt n with ⟨cnt', n', hpass⟩ | ⟨hcnt, h₀, h₁⟩
  · obtain ⟨s', hdis, hs'⟩ := hpass.disable hs
    exact ⟨cnt', n', hpass, by rw [hdis, hs'.cnt]⟩
  · obtain ⟨ret, s', hlink, hneg, -⟩ := camLinkApply_fails (l := l) hcnt h₀ h₁ hs
    simp only [routeDisable, hlink, hneg, if_true] at hpos
    omega

theorem refused_of_neg (hs : Reads s ref cnt n) {ret : Int} (happly : camRouteApply k 1 r s = (ret, s'))
    (hneg : ret < 0) : ∃ cnt' n', Refused k ref r cnt n cnt' n' ∧ Reads s' ref cnt' n' := by
  rcases camRouteApply_cases (k := k) r hs with ⟨s₁, h⟩ | ⟨cnt', n', hrefused⟩
  · rw [h] at happly
    cases happly
    omega
  · obtain ⟨ret', s₁, h, -, hs₁⟩ := hrefused.apply hs
    rw [h] at happly
    cases happly
    exact ⟨cnt', n', hrefused, hs₁⟩

theorem carries_of_camRouteApply (r : CamRoute) (hs : Reads s ref cnt n)
    (hpos : 0 ≤ (camRouteApply k 1 r s).1)
    (hgoal : ∀ l ∈ goal, 0 < (camRouteApply k 1 r s).2.linkRefCnt l) : Carries k ref goal r cnt n := by
  induction r generalizing s cnt n with
  | last id src dst head =>
    have hstep := applyStep_camRouteApply (k := k) (.last id src dst head) hs
    generalize camRouteApply k 1 (.last id src dst head) s = p at hstep hpos hgoal
    cases hstep with
    | held href => exact .held href fun l hl => hs.cnt ▸ hgoal l hl
    | last hmore href hpass hs₁ => exact .last hmore href hpass fun l hl => hs₁.cnt ▸ hgoal l hl
    | more hmore => cases hmore
    | undone hmore => cases hmore
    | retried href hcnt h₀ h₁ hs₁ =>
      obtain ⟨cnt', n', hpass, hcnt'⟩ := passes_of_routeDisable hs₁ hpos
      exact .retried href hcnt h₀ h₁ hpass (hcnt' ▸ hgoal)
  | cons id src dst head more ih =>
    have hstep := applyStep_camRouteApply (k := k) (.cons id src dst head more) hs
    generalize camRouteApply k 1 (.cons id src dst head more) s = p at hstep hpos hgoal
    cases hstep with
    | held href => exact .held href fun l hl => hs.cnt ▸ hgoal l hl
    | last hmore => cases hmore
    | more hmore href hpass hs₁ hrest hret =>
      cases hmore
      exact .more rfl href hpass (ih hs₁ (by rw [hrest]; exact hret) (by rw [hrest]; exact hgoal))
    | undone hmore href hpass hs₁ hrest hneg =>
      cases hmore
      obtain ⟨cnt₂, n₂, hrefused, hs₂⟩ := refused_of_neg hs₁ hrest hneg
      obtain ⟨cnt', n', hagain, hcnt'⟩ := passes_of_routeDisable hs₂ hpos
      exact .undone rfl href hpass hrefused hagain (hcnt' ▸ hgoal)
    | retried href hcnt h₀ h₁ hs₁ =>
      obtain ⟨cnt', n', hpass, hcnt'⟩ := passes_of_routeDisable hs₁ hpos
      exact .retried href hcnt h₀ h₁ hpass (hcnt' ▸ hgoal)

theorem routeRefCnt_routeDisable (l : CamLink) (s : CamState) :
    (routeDisable k l 1 s).2.routeRefCnt = s.routeRefCnt := by
  rw [routeDisable_snd, routeRefCnt_camLinkApply]

theorem routeRefCnt_addRouteRef_self (id : RouteId) (s : CamState) :
    (s.addRouteRef id 1).routeRefCnt id = s.routeRefCnt id + 1 := Function.update_self _ _ _

theorem Enables.apply (hr : r.Chain) (h : Enables k ref goal r cnt n) (hs : Reads s ref cnt n) :
    ∃ s', camRouteApply k 1 r s = (0, s') ∧ (∀ l ∈ goal, 0 < s'.linkRefCnt l) ∧
      s'.routeRefCnt r.id = s.routeRefCnt r.id + 1 := by
  cases h with
  | held href hgoal =>
    exact ⟨_, camRouteApply_held (hs.ref ▸ href), fun l hl => hs.cnt ▸ hgoal l hl,
      routeRefCnt_addRouteRef_self _ _⟩
  | last hmore href hpass hgoal =>
    obtain ⟨s₁, hs₁, happly⟩ := camRouteApply_last hs hmore href hpass
    refine ⟨_, happly, fun l hl => hs₁.cnt ▸ hgoal l hl, ?_⟩
    rw [routeRefCnt_addRouteRef_self, hs₁.ref, hs.ref]
  | more hmore href hpass hrest =>
    obtain ⟨s₁, hs₁, happly⟩ := camRouteApply_more hs hmore href hpass
    obtain ⟨s₂, hrest, hgoal⟩ := hrest.apply hs₁
    refine ⟨_, happly s₂ hrest, hgoal, ?_⟩
    have hkeep := hr.routeRefCnt_more hmore k s₁
    rw [hrest, hs₁.ref, ← hs.ref] at hkeep
    rw [routeRefCnt_addRouteRef_self, hkeep]

theorem enables_of_camRouteApply (hr : r.Chain) (hs : Reads s ref cnt n)
    (hgoal : ∀ l ∈ goal, 0 < (camRouteApply k 1 r s).2.linkRefCnt l)
    (hcount : (camRouteApply k 1 r s).2.routeRefCnt r.id = s.routeRefCnt r.id + 1) :
    Enables k ref goal r cnt n := by
  have hstep := applyStep_camRouteApply (k := k) r hs
  generalize camRouteApply k 1 r s = p at hstep hgoal hcount
  cases hstep with
  | held href => exact .held href fun l hl => hs.cnt ▸ hgoal l hl
  | last hmore href hpass hs₁ => exact .last hmore href hpass fun l hl => hs₁.cnt ▸ hgoal l hl
  | more hmore href hpass hs₁ hrest hret =>
    refine .more hmore href hpass (carries_of_camRouteApply _ hs₁ (by rw [hrest]; exact hret) ?_)
    rw [hrest]
    exact hgoal
  | @undone m _ _ s₁ _ _ hmore _ _ hs₁ hrest =>
    have hkeep := hr.routeRefCnt_more hmore k s₁
    rw [hrest, hs₁.ref, ← hs.ref] at hkeep
    rw [routeRefCnt_routeDisable, hkeep] at hcount
    omega
  | retried _ _ _ _ hs₁ =>
    rw [routeRefCnt_routeDisable, hs₁.ref, ← hs.ref] at hcount
    omega

theorem Refused.cnt_eq (h : Refused k ref r cnt n cnt' n') (hcnt : ∀ l ∈ r.headIds, 0 ≤ cnt l) :
    cnt' = cnt := by
  induction h with
  | head => rfl
  | @more r m cnt n cnt₁ n₁ cnt' n' hmore _ hpass _ hzero _ _ ih =>
    have hself : r.head.id ∈ r.headIds := List.mem_map_of_mem r.mem_segments_self
    have hsub : ∀ l ∈ m.headIds, l ∈ r.headIds := by
      cases r with
      | last => cases hmore
      | cons =>
        cases hmore
        exact fun l hl => List.mem_cons_of_mem _ hl
    have hcounted : cnt₁ = Function.update cnt r.head.id (cnt r.head.id + 1) → cnt' = cnt := by
      rintro rfl
      have hpos := hcnt _ hself
      have heq := ih fun l hl => by
        rw [Function.update_apply]
        split
        · omega
        · exact hcnt l (hsub l hl)
      rw [heq, Function.update_self] at hzero
      omega
    cases hpass with
    | counted => exact hcounted rfl
    | enabled => exact hcounted rfl
    | uncounted => exact ih fun l hl => hcnt l (hsub l hl)

theorem flag_newCalls (r : CamRoute) (s : CamState) :
    ∀ c ∈ s.newCalls (camRouteApply k 1 r s).2, c.flag = 1 := by
  have hsetup : ∀ (l : CamLink) (s : CamState), ∃ new,
      (mediaSetupLink k l 1 s).2.setupCalls = new ++ s.setupCalls ∧ ∀ c ∈ new, c.flag = 1 :=
    fun l s => ⟨[⟨l.id, 1, _⟩], rfl, by simp⟩
  have htrans : ∀ {s₁ s₂ s₃ : CamState},
      (∃ new, s₂.setupCalls = new ++ s₁.setupCalls ∧ ∀ c ∈ new, c.flag = 1) →
      (∃ new, s₃.setupCalls = new ++ s₂.setupCalls ∧ ∀ c ∈ new, c.flag = 1) →
      ∃ new, s₃.setupCalls = new ++ s₁.setupCalls ∧ ∀ c ∈ new, c.flag = 1 := by
    rintro s₁ s₂ s₃ ⟨new, h, hnew⟩ ⟨new', h', hnew'⟩
    refine ⟨new' ++ new, by rw [h', h, List.append_assoc], fun c hc => ?_⟩
    exact (List.mem_append.mp hc).elim (hnew' c) (hnew c)
  have hlink : ∀ (l : CamLink) (s : CamState), ∃ new,
      (camLinkApply k l 1 s).2.setupCalls = new ++ s.setupCalls ∧ ∀ c ∈ new, c.flag = 1 := by
    intro l s
    unfold camLinkApply
    rw [if_neg (by decide)]
    split
    · dsimp only
      split
      · exact htrans (hsetup l s) (hsetup l _)
      · exact hsetup l s
    · exact ⟨[], rfl, by simp⟩
  have hrun : ∃ new, (camRouteApply k 1 r s).2.setupCalls = new ++ s.setupCalls ∧ ∀ c ∈ new, c.flag = 1 :=
    camRouteApply_rel (R := fun s s' => ∃ new, s'.setupCalls = new ++ s.setupCalls ∧ ∀ c ∈ new, c.flag = 1)
      (fun s => ⟨[], rfl, by simp⟩) htrans r (fun _ _ _ s => ⟨[], rfl, by simp⟩) (fun x _ => hlink x.head) s
  obtain ⟨new, hcalls, hflag⟩ := hrun
  intro c hc
  rw [CamState.newCalls, hcalls, List.length_append, Nat.add_sub_cancel, List.take_left'] at hc
  · exact hflag c hc
  · rfl

/-- `CamRouteApply(..., 1)` is all or nothing where the drivers refuse the whole chain, or let
each of its links through. -/
theorem allOrNothing_iff (hr : r.Chain) (hcnt : ∀ l ∈ r.headIds, 0 ≤ s.linkRefCnt l) :
    AllOrNothing k r s ↔
      (∃ cnt' n', Refused k s.routeRefCnt r s.linkRefCnt s.setupCalls.length cnt' n') ∨
        Enables k s.routeRefCnt r.headIds r s.linkRefCnt s.setupCalls.length := by
  constructor
  · intro h
    rcases camRouteApply_cases (k := k) r (reads_self s) with ⟨s', happly⟩ | hrefused
    · obtain ⟨hlinks, hcount⟩ := h.all (by rw [happly])
      exact .inr (enables_of_camRouteApply hr (reads_self s) (fun l hl => (hlinks l hl).counted) hcount)
    · exact .inl hrefused
  · rintro (⟨cnt', n', hrefused⟩ | henables)
    · obtain ⟨ret, s', happly, hneg, hs'⟩ := hrefused.apply (reads_self s)
      refine ⟨fun hpos => ?_, fun _ x _ => ?_⟩
      · rw [happly] at hpos
        omega
      · rw [happly, hs'.cnt, hs'.ref, hrefused.cnt_eq hcnt]
        exact ⟨rfl, rfl⟩
    · obtain ⟨s', happly, hgoal, hcount⟩ := henables.apply hr (reads_self s)
      have hflag := flag_newCalls (k := k) r s
      rw [happly] at hflag
      refine ⟨fun _ => ?_, fun hneg => ?_⟩
      · rw [happly]
        exact ⟨fun l hl => ⟨hgoal l hl, fun c hc => hflag c (List.mem_of_find?_eq_some hc)⟩, hcount⟩
      · rw [happly] at hneg
        omega

end

def waveringKernel : Kernel := { readyKernel with setupLink := fun n => if n < 2 then -EPIPE else 0 }

def smallRoute : CamRoute := ((smallStart.1.route 0)[0]?).get rfl

theorem allOrNothing_smallBoard :
    smallRoute.Chain ∧ (∀ l ∈ smallRoute.headIds, 0 ≤ smallStart.2.linkRefCnt l) ∧
      (AllOrNothing readyKernel smallRoute smallStart.2 ↔
        (∃ cnt' n', Refused readyKernel smallStart.2.routeRefCnt smallRoute smallStart.2.linkRefCnt
          smallStart.2.setupCalls.length cnt' n') ∨
        Enables readyKernel smallStart.2.routeRefCnt smallRoute.headIds smallRoute
          smallStart.2.linkRefCnt smallStart.2.setupCalls.length) := by
  have hchain : smallRoute.Chain := by decide +kernel
  have hcnt : ∀ l ∈ smallRoute.headIds, 0 ≤ smallStart.2.linkRefCnt l := by decide +kernel
  exact ⟨hchain, hcnt, allOrNothing_iff hchain hcnt⟩

theorem not_allOrNothing_smallBoard : smallRoute.Chain ∧
    (∀ x ∈ smallRoute.segments,
      smallStart.2.linkRefCnt x.head.id = 0 ∧ smallStart.2.routeRefCnt x.id = 0) ∧
    ¬AllOrNothing waveringKernel smallRoute smallStart.2 := by
  refine ⟨by decide +kernel, by decide +kernel, fun h => ?_⟩
  have hzero : (camRouteApply waveringKernel 1 smallRoute smallStart.2).2.routeRefCnt smallRoute.id = 0 := by
    decide +kernel
  have hcount := (h.all (by decide +kernel)).2
  rw [hzero] at hcount
  exact absurd hcount (by decide +kernel)

end G361FPlatform.MediaLib
