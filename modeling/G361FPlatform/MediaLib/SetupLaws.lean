import G361FPlatform.MediaLib.LevelLaws

namespace G361FPlatform.MediaLib

open Library Outcome Relation

/-- The first route to a place leaves through the first of parallel links, and goes on along the
first route to that place. -/
def FirstIn (cam : CamGraph) (route : NodeId → List CamRoute) (n : NodeId) : Prop :=
  ∀ x r, (route n).find? (·.dst = x) = some r →
    (cam.linksOf n).find? (·.dst = r.head.dst) = some r.head ∧
      ∀ m, r.more = some m → (route m.src).find? (·.dst = x) = some m

/-- Where a node's routes lead: where those it had at the start do, or else along links to the first
place of level 0. -/
inductive Leads (cam : CamGraph) (s₀ : SearchState) : NodeId → NodeId → Prop
  | known {n : NodeId} {r : CamRoute} : r ∈ s₀.route n → Leads cam s₀ n r.dst
  | stop {n x : NodeId} : s₀.route n = [] → cam.Down n x → s₀.level x = 0 → Leads cam s₀ n x
  | step {n v x : NodeId} : s₀.route n = [] → cam.Down n v → s₀.level v ≠ 0 → Leads cam s₀ v x →
    Leads cam s₀ n x

def Settled (cam : CamGraph) (s₀ s : SearchState) (n : NodeId) : Prop :=
  ∀ x, (∃ r ∈ s.route n, r.dst = x) ↔ Leads cam s₀ n x

def Ready (cam : CamGraph) (s₀ s : SearchState) (n : NodeId) : Prop :=
  s.route n = s₀.route n ∨ Settled cam s₀ s n

def LeadsThrough (cam : CamGraph) (s₀ : SearchState) (node : NodeId) (l : CamLink) (x : NodeId) :
    Prop :=
  ∃ v, l.dst = some v ∧ v ≠ node ∧ (s₀.level v = 0 ∧ x = v ∨ s₀.level v ≠ 0 ∧ Leads cam s₀ v x)

section

variable {cam : CamGraph} {s₀ s s' s₁ : SearchState} {node n v x : NodeId} {l : CamLink}

theorem leads_iff (h : s₀.route n = []) :
    Leads cam s₀ n x ↔ ∃ l ∈ cam.linksOf n, LeadsThrough cam s₀ n l x := by
  constructor
  · intro hleads
    cases hleads with
    | known hr =>
      rw [h] at hr
      cases hr
    | stop _ hdown hlevel =>
      obtain ⟨l, hl, hdst, hne⟩ := hdown
      exact ⟨l, hl, x, hdst, hne, .inl ⟨hlevel, rfl⟩⟩
    | step _ hdown hlevel hrest =>
      obtain ⟨l, hl, hdst, hne⟩ := hdown
      exact ⟨l, hl, _, hdst, hne, .inr ⟨hlevel, hrest⟩⟩
  · rintro ⟨l, hl, v, hdst, hne, ⟨hlevel, rfl⟩ | ⟨hlevel, hrest⟩⟩
    · exact .stop h ⟨l, hl, hdst, hne⟩ hlevel
    · exact .step h ⟨l, hl, hdst, hne⟩ hlevel hrest

theorem Settled.congr (h : Settled cam s₀ s n) (hroute : s'.route n = s.route n) :
    Settled cam s₀ s' n := by
  intro x
  rw [hroute]
  exact h x

theorem settled_of_known (h : s.route n = s₀.route n) (hne : s₀.route n ≠ []) :
    Settled cam s₀ s n := by
  intro x
  rw [h]
  constructor
  · rintro ⟨r, hr, rfl⟩
    exact .known hr
  · intro hleads
    cases hleads with
    | known hr => exact ⟨_, hr, rfl⟩
    | stop hnil => exact absurd hnil hne
    | step hnil => exact absurd hnil hne

theorem Ready.settled (h : Ready cam s₀ s n) (hne : s.route n ≠ []) : Settled cam s₀ s n :=
  h.elim (fun heq => settled_of_known heq (heq ▸ hne)) id

theorem Ready.start_nil (h : Ready cam s₀ s n) (hnil : s.route n = []) : s₀.route n = [] := by
  rcases h with heq | hsettled
  · exact heq.symm.trans hnil
  · refine List.eq_nil_iff_forall_not_mem.mpr fun r hr => ?_
    obtain ⟨r', hr', -⟩ := (hsettled r.dst).mpr (.known hr)
    rw [hnil] at hr'
    cases hr'

structure SetUpFrom (cam : CamGraph) (s₀ : SearchState) (nodes : List NodeId) (s s' : SearchState) :
    Prop where
  wf : s'.Wf
  level : s'.level = s.level
  first : ∀ x, FirstIn cam s'.route x
  kept : ∀ x, s.route x ≠ [] → s'.route x = s.route x
  below : ∀ x, s'.route x ≠ s.route x → x ∈ nodes ∨ ∃ n ∈ nodes, TransGen cam.Down n x ∧ s.level x ≠ 0
  filled : ∀ x, s'.route x ≠ s.route x →
    Settled cam s₀ s' x ∧ ∀ v, cam.Down x v → s.level v ≠ 0 → Settled cam s₀ s' v

variable {nodes nodes' : List NodeId}

theorem SetUpFrom.settled (h : SetUpFrom cam s₀ nodes s s') (hx : Settled cam s₀ s x) :
    Settled cam s₀ s' x := by
  by_cases heq : s'.route x = s.route x
  · exact hx.congr heq
  · exact (h.filled x heq).1

theorem SetUpFrom.ready (h : SetUpFrom cam s₀ nodes s s') (hx : Ready cam s₀ s x) :
    Ready cam s₀ s' x := by
  by_cases heq : s'.route x = s.route x
  · exact hx.imp (fun hstart => heq.trans hstart) fun hsettled => hsettled.congr heq
  · exact .inr (h.filled x heq).1

theorem setUpFrom_refl (nodes : List NodeId) (hwf : s.Wf) (hfirst : ∀ x, FirstIn cam s.route x) :
    SetUpFrom cam s₀ nodes s s :=
  ⟨hwf, rfl, hfirst, fun _ _ => rfl, fun _ h => absurd rfl h, fun _ h => absurd rfl h⟩

theorem SetUpFrom.trans (h : SetUpFrom cam s₀ nodes s s₁) (h' : SetUpFrom cam s₀ nodes' s₁ s') :
    SetUpFrom cam s₀ (nodes ++ nodes') s s' where
  wf := h'.wf
  level := h'.level.trans h.level
  first := h'.first
  kept := by
    intro x hne
    rw [h'.kept x (h.kept x hne ▸ hne), h.kept x hne]
  below := by
    intro x hx
    by_cases heq : s'.route x = s₁.route x
    · rcases h.below x (heq ▸ hx) with hmem | ⟨n, hn, hbelow⟩
      · exact .inl (List.mem_append_left _ hmem)
      · exact .inr ⟨n, List.mem_append_left _ hn, hbelow⟩
    · rw [← h.level]
      rcases h'.below x heq with hmem | ⟨n, hn, hbelow⟩
      · exact .inl (List.mem_append_right _ hmem)
      · exact .inr ⟨n, List.mem_append_right _ hn, hbelow⟩
  filled := by
    intro x hx
    by_cases heq : s'.route x = s₁.route x
    · obtain ⟨hsettled, hnext⟩ := h.filled x (heq ▸ hx)
      exact ⟨hsettled.congr heq, fun v hdown hlevel => h'.settled (hnext v hdown hlevel)⟩
    · rw [← h.level]
      exact h'.filled x heq

def Follows (head : CamLink) (r m : CamRoute) : Prop :=
  r.head = head ∧ r.more = some m ∧ r.dst = m.dst

theorem camNodeAddRoute_eq_ok {more : Option CamRoute} {ret : Int}
    (h : camNodeAddRoute node l more s = .ok (ret, s')) (hret : 0 ≤ ret) :
    ∃ r, s' = s.addRoute node r ∧ r.head = l ∧ r.more = more ∧
    (more.elim l.dst fun m => some m.dst) = some r.dst := by
  unfold camNodeAddRoute at h
  split at h
  · cases h
    exact absurd hret (by decide)
  cases more with
  | some m =>
    dsimp only at h
    split at h
    · cases h
      exact absurd hret (by decide)
    · cases h
      exact ⟨_, rfl, rfl, rfl, rfl⟩
  | none =>
    cases hdst : l.dst with
    | none =>
      simp only [hdst] at h
      cases h
    | some dst =>
      simp only [hdst] at h
      cases h
      exact ⟨_, rfl, rfl, rfl, rfl⟩

theorem addRoutes_eq_ok {rs : List CamRoute} {ret : Int} (h : addRoutes node l rs s = .ok (ret, s'))
    (hret : 0 ≤ ret) :
    ∃ new, s'.route = Function.update s.route node (s.route node ++ new) ∧ s'.level = s.level ∧
      List.Forall₂ (Follows l) new rs := by
  induction rs generalizing s with
  | nil =>
    cases h
    exact ⟨[], by simp, rfl, .nil⟩
  | cons m rs ih =>
    obtain ⟨ret₁, s₁, hret₁, hadd, hrest⟩ := andThen_eq_ok_nonneg h hret
    obtain ⟨r, rfl, hhead, hmore, hdst⟩ := camNodeAddRoute_eq_ok hadd hret₁
    obtain ⟨new, hroute, hlevel, hnew⟩ := ih hrest
    refine ⟨r :: new, ?_, hlevel, .cons ⟨hhead, hmore, (Option.some.inj hdst).symm⟩ hnew⟩
    rw [hroute]
    simp [SearchState.addRoute]

theorem find?_of_follows {new rs : List CamRoute} {r : CamRoute} (h : List.Forall₂ (Follows l) new rs)
    (hr : new.find? (·.dst = x) = some r) :
    ∃ m, rs.find? (·.dst = x) = some m ∧ r.head = l ∧ r.more = some m ∧ r.dst = m.dst := by
  induction h with
  | nil => cases hr
  | @cons r' m' new rs hfollows _ ih =>
    obtain ⟨hhead, hmore, hdst⟩ := id hfollows
    rw [List.find?_cons, hdst] at hr
    rw [List.find?_cons]
    split at hr
    · cases hr
      exact ⟨m', rfl, hhead, hmore, hdst⟩
    · exact ih hr

theorem exists_mem_of_follows {new rs : List CamRoute} (h : List.Forall₂ (Follows l) new rs) :
    (∃ r ∈ new, r.dst = x) ↔ ∃ m ∈ rs, m.dst = x := by
  induction h with
  | nil => simp
  | cons hfollows _ ih => simp [ih, hfollows.2.2]

theorem firstIn_append {route route' : NodeId → List CamRoute} {new : List CamRoute}
    (h : ∀ x, FirstIn cam route x) (hroute : route' = Function.update route node (route node ++ new))
    (hnew : ∀ x r, (∀ r' ∈ route node, r'.dst ≠ x) → new.find? (·.dst = x) = some r →
      (cam.linksOf node).find? (·.dst = r.head.dst) = some r.head ∧
        ∀ m, r.more = some m → (route' m.src).find? (·.dst = x) = some m) :
    ∀ n, FirstIn cam route' n := by
  have hgrow : ∀ n x m, (route n).find? (·.dst = x) = some m →
    (route' n).find? (·.dst = x) = some m := by
    intro n x m hm
    rw [hroute]
    by_cases hn : n = node
    · subst hn
      rw [Function.update_self, List.find?_append, hm]
      rfl
    · rwa [Function.update_of_ne hn]
  intro n x r hr
  by_cases hold : (route n).find? (·.dst = x) = none
  · by_cases hn : n = node
    · subst hn
      rw [hroute, Function.update_self, List.find?_append, hold, Option.none_or] at hr
      exact hnew x r (fun r' hr' => by simpa using List.find?_eq_none.mp hold r' hr') hr
    · rw [hroute, Function.update_of_ne hn, hold] at hr
      cases hr
  · obtain ⟨r₀, hr₀⟩ := Option.ne_none_iff_exists'.mp hold
    have heq : r₀ = r := Option.some.inj ((hgrow n x r₀ hr₀).symm.trans hr)
    subst heq
    obtain ⟨hhead, hmore⟩ := h n x r₀ hr₀
    exact ⟨hhead, fun m hm => hgrow m.src x m (hmore m hm)⟩

/-- The loop over a node's links in `CamNodeSetupRoute`, some of them done: what the node's routes
come to so far, and what has become of the rest. -/
structure Doing (cam : CamGraph) (s₀ : SearchState) (node : NodeId) (s : SearchState)
    (done : List CamLink) (s' : SearchState) : Prop where
  wf : s'.Wf
  level : s'.level = s.level
  first : ∀ x, FirstIn cam s'.route x
  leads : ∀ x, (∃ r ∈ s'.route node, r.dst = x) ↔ ∃ l ∈ done, LeadsThrough cam s₀ node l x
  served : ∀ l ∈ done, ∀ v, l.dst = some v → v ≠ node → s.level v ≠ 0 → Settled cam s₀ s' v
  kept : ∀ x, x ≠ node → s.route x ≠ [] → s'.route x = s.route x
  below : ∀ x, x ≠ node → s'.route x ≠ s.route x → TransGen cam.Down node x ∧ s.level x ≠ 0
  filled : ∀ x, x ≠ node → s'.route x ≠ s.route x →
    Settled cam s₀ s' x ∧ ∀ v, cam.Down x v → s.level v ≠ 0 → Settled cam s₀ s' v

theorem doing_nil (hwf : s.Wf) (hfirst : ∀ x, FirstIn cam s.route x) (hnil : s.route node = []) :
    Doing cam s₀ node s [] s where
  wf := hwf
  level := rfl
  first := hfirst
  leads := by simp [hnil]
  served := by simp
  kept := fun _ _ _ => rfl
  below := fun _ _ h => absurd rfl h
  filled := fun _ _ h => absurd rfl h

variable {done ls : List CamLink}

theorem Doing.ready (h : Doing cam s₀ node s done s') (hx : x ≠ node) (hready : Ready cam s₀ s x) :
    Ready cam s₀ s' x := by
  by_cases heq : s'.route x = s.route x
  · exact hready.imp (fun hstart => heq.trans hstart) fun hsettled => hsettled.congr heq
  · exact .inr (h.filled x hx heq).1

theorem Doing.skip (h : Doing cam s₀ node s done s') (hl : ∀ v, l.dst = some v → v = node) :
    Doing cam s₀ node s (done ++ [l]) s' where
  wf := h.wf
  level := h.level
  first := h.first
  leads := by
    intro x
    rw [h.leads x]
    simp only [List.mem_append, List.mem_singleton]
    constructor
    · rintro ⟨l', hl', hthrough⟩
      exact ⟨l', .inl hl', hthrough⟩
    · rintro ⟨l', hl' | rfl, hthrough⟩
      · exact ⟨l', hl', hthrough⟩
      · obtain ⟨v, hdst, hne, -⟩ := hthrough
        exact absurd (hl v hdst) hne
  served := by
    intro l' hl' v hdst hne
    rcases List.mem_append.mp hl' with hl' | hl'
    · exact h.served l' hl' v hdst hne
    · exact absurd (hl v (List.mem_singleton.mp hl' ▸ hdst)) hne
  kept := h.kept
  below := h.below
  filled := h.filled

theorem Doing.call (h : Doing cam s₀ node s done s') (hR : Acyclic cam.Down) (hdown : cam.Down node v)
    (hlevel : s.level v ≠ 0) (hcall : SetUpFrom cam s₀ [v] s' s₁) : Doing cam s₀ node s done s₁ := by
  have hreach : ∀ x, s₁.route x ≠ s'.route x → TransGen cam.Down node x ∧ s.level x ≠ 0 := by
    intro x hx
    rcases hcall.below x hx with hmem | ⟨n, hn, hbelow, hlevel'⟩
    · rw [List.mem_singleton.mp hmem]
      exact ⟨.single hdown, hlevel⟩
    · rw [List.mem_singleton.mp hn] at hbelow
      exact ⟨.head hdown hbelow, h.level ▸ hlevel'⟩
  have hself : s₁.route node = s'.route node := by
    by_contra hne
    exact hR node (hreach node hne).1
  exact {
    wf := hcall.wf
    level := hcall.level.trans h.level
    first := hcall.first
    leads := by
      rw [hself]
      exact h.leads
    served := fun l hl v hdst hne hlevel => hcall.settled (h.served l hl v hdst hne hlevel)
    kept := by
      intro x hx hne
      have hkept := h.kept x hx hne
      rw [hcall.kept x (hkept ▸ hne), hkept]
    below := by
      intro x hx hne
      by_cases heq : s₁.route x = s'.route x
      · exact h.below x hx (heq ▸ hne)
      · exact hreach x heq
    filled := by
      intro x hx hne
      by_cases heq : s₁.route x = s'.route x
      · obtain ⟨hsettled, hnext⟩ := h.filled x hx (heq ▸ hne)
        exact ⟨hcall.settled hsettled, fun v hxv hlevel => hcall.settled (hnext v hxv hlevel)⟩
      · rw [← h.level]
        exact hcall.filled x heq }

theorem Doing.add (h : Doing cam s₀ node s done s') (hR : Acyclic cam.Down)
    (hlinks : cam.linksOf node = done ++ l :: ls) {new : List CamRoute} (hwf : s₁.Wf)
    (hroute : s₁.route = Function.update s'.route node (s'.route node ++ new))
    (hlevel : s₁.level = s'.level) (hdst : l.dst = some v) (hne : v ≠ node)
    (hserved : s.level v ≠ 0 → Settled cam s₀ s' v)
    (hleads : ∀ x, (∃ r ∈ new, r.dst = x) ↔ LeadsThrough cam s₀ node l x)
    (hnew : ∀ x r, new.find? (·.dst = x) = some r →
      r.head = l ∧ ∀ m, r.more = some m → m.src = v ∧ (s'.route v).find? (·.dst = x) = some m) :
    Doing cam s₀ node s (done ++ [l]) s₁ := by
  have hother : ∀ x, x ≠ node → s₁.route x = s'.route x := by
    intro x hx
    rw [hroute, Function.update_of_ne hx]
  have hsame : ∀ {x}, x ≠ node → Settled cam s₀ s' x → Settled cam s₀ s₁ x :=
    fun hx h => h.congr (hother _ hx)
  exact {
    wf := hwf
    level := hlevel.trans h.level
    first := by
      refine firstIn_append h.first hroute fun x r hfree hr => ?_
      obtain ⟨hhead, hmore⟩ := hnew x r hr
      refine ⟨?_, fun m hm => ?_⟩
      · -- a parallel link that is done would lead to `x` already
        have hnone : ∀ l' ∈ done, l'.dst ≠ some v := by
          intro l' hl' hdst'
          have hthrough := (hleads x).mp
            ⟨r, List.mem_of_find?_eq_some hr, by simpa using List.find?_some hr⟩
          unfold LeadsThrough at hthrough
          rw [hdst, ← hdst'] at hthrough
          obtain ⟨r', hr', hx⟩ := (h.leads x).mpr ⟨l', hl', hthrough⟩
          exact hfree r' hr' hx
        rw [hhead, hdst, hlinks, List.find?_append, List.find?_eq_none.mpr (by simpa using hnone)]
        simp [hdst]
      · obtain ⟨hsrc, hfind⟩ := hmore m hm
        rw [hsrc, hother v hne]
        exact hfind
    leads := by
      intro x
      rw [hroute, Function.update_self]
      simp only [List.mem_append, List.mem_singleton, or_and_right, exists_or, exists_eq_left]
      rw [h.leads x, hleads x]
    served := by
      intro l' hl' w hdst' hne' hlevel'
      rcases List.mem_append.mp hl' with hl' | hl'
      · exact hsame hne' (h.served l' hl' w hdst' hne' hlevel')
      · rw [List.mem_singleton.mp hl', hdst, Option.some.injEq] at hdst'
        subst hdst'
        exact hsame hne (hserved hlevel')
    kept := fun x hx hnil => (hother x hx).trans (h.kept x hx hnil)
    below := fun x hx hchanged => h.below x hx (hother x hx ▸ hchanged)
    filled := by
      intro x hx hchanged
      have hchanged : s'.route x ≠ s.route x := hother x hx ▸ hchanged
      obtain ⟨hsettled, hnext⟩ := h.filled x hx hchanged
      refine ⟨hsame hx hsettled, fun w hxw hlevel' => hsame ?_ (hnext w hxw hlevel')⟩
      rintro rfl
      exact hR w ((h.below x hx hchanged).1.tail hxw) }

theorem Doing.stop (h : Doing cam s₀ node s done s') (hR : Acyclic cam.Down)
    (hlinks : cam.linksOf node = done ++ l :: ls) (hlevel₀ : s.level = s₀.level)
    (hdst : l.dst = some v) (hne : v ≠ node) (hzero : s'.level v = 0) {ret : Int}
    (hadd : camNodeAddRoute node l none s' = .ok (ret, s₁)) (hret : 0 ≤ ret) :
    Doing cam s₀ node s (done ++ [l]) s₁ := by
  have hzero₀ : s₀.level v = 0 := by rwa [← hlevel₀, ← h.level]
  have hwf := SearchState.grows_camNodeAddRoute h.wf (by simp) _ _ hadd
  obtain ⟨r, rfl, hhead, hmore, hrdst⟩ := camNodeAddRoute_eq_ok hadd hret
  have hrdst : r.dst = v := by
    rw [Option.elim_none, hdst, Option.some.injEq] at hrdst
    exact hrdst.symm
  have hleads : ∀ x, (∃ r' ∈ [r], r'.dst = x) ↔ LeadsThrough cam s₀ node l x := by
    intro x
    rw [LeadsThrough, hdst]
    simp [hne, hzero₀, hrdst, @eq_comm _ v x]
  refine h.add hR hlinks hwf.1 rfl rfl hdst hne (fun hpos => ?_) hleads fun x r' hr' => ?_
  · exact absurd hzero₀ (hlevel₀ ▸ hpos)
  · have hr' := List.mem_singleton.mp (List.mem_of_find?_eq_some hr')
    subst hr'
    exact ⟨hhead, fun m hm => by simp [hmore] at hm⟩

theorem Doing.through (h : Doing cam s₀ node s done s') (hR : Acyclic cam.Down)
    (hlinks : cam.linksOf node = done ++ l :: ls) (hlevel₀ : s.level = s₀.level)
    (hdst : l.dst = some v) (hne : v ≠ node) (hpos : s'.level v ≠ 0)
    (hup : SetUpFrom cam s₀ [v] s' s₁) (hsettled : Settled cam s₀ s₁ v) {ret : Int} {s₂ : SearchState}
    (hadd : addRoutes node l (s₁.route v) s₁ = .ok (ret, s₂)) (hret : 0 ≤ ret) :
    Doing cam s₀ node s (done ++ [l]) s₂ := by
  have hdown : cam.Down node v := ⟨l, by rw [hlinks]; simp, hdst, hne⟩
  have hpos : s.level v ≠ 0 := h.level ▸ hpos
  obtain ⟨new, hroute, hlevel, hnew⟩ := addRoutes_eq_ok hadd hret
  have hwf := SearchState.grows_addRoutes (s₁.route v) hup.wf
    (fun r hr => (hup.wf.route_mem v r hr).1) _ _ hadd
  refine (h.call hR hdown hpos hup).add hR hlinks hwf.1 hroute hlevel hdst hne (fun _ => hsettled)
    (fun x => ?_) fun x r hr => ?_
  · rw [exists_mem_of_follows hnew, hsettled x]
    unfold LeadsThrough
    simp [hdst, hne, hlevel₀ ▸ hpos]
  · obtain ⟨m, hfind, hhead, hmore, -⟩ := find?_of_follows hnew hr
    refine ⟨hhead, fun m' hm' => ?_⟩
    cases hmore.symm.trans hm'
    exact ⟨(hup.wf.route_mem v m (List.mem_of_find?_eq_some hfind)).2, hfind⟩

theorem doing_setupLinks {setup : NodeId → SearchState → Outcome SearchState} (hR : Acyclic cam.Down)
    (hlevel₀ : s.level = s₀.level) (hlinks : cam.linksOf node = done ++ ls)
    (hsetup : ∀ v, cam.Down node v → ∀ s₁ ret s₂, s₁.Wf → s₁.level = s₀.level →
      (∀ x, FirstIn cam s₁.route x) →
      (∀ x, x = v ∨ TransGen cam.Down v x → Ready cam s₀ s₁ x) → setup v s₁ = .ok (ret, s₂) → 0 ≤ ret →
      SetUpFrom cam s₀ [v] s₁ s₂ ∧ Settled cam s₀ s₂ v)
    (hready : ∀ x, TransGen cam.Down node x → Ready cam s₀ s x) (h : Doing cam s₀ node s done s')
    {ret : Int} (hrun : setupLinks setup node ls s' = .ok (ret, s₁)) (hret : 0 ≤ ret) :
    Doing cam s₀ node s (cam.linksOf node) s₁ := by
  induction ls generalizing done s' with
  | nil =>
    cases hrun
    rw [hlinks, List.append_nil]
    exact h
  | cons l ls ih =>
    have hnext : cam.linksOf node = (done ++ [l]) ++ ls := by
      rw [hlinks, List.append_assoc, List.singleton_append]
    unfold setupLinks at hrun
    cases hdst : l.dst with
    | none =>
      simp only [hdst] at hrun
      exact ih hnext (h.skip (by simp [hdst])) hrun
    | some v =>
      simp only [hdst] at hrun
      split at hrun
      next hself =>
        exact ih hnext (h.skip (by simp [hdst, hself])) hrun
      next hne =>
        have hdown : cam.Down node v := ⟨l, by rw [hlinks]; simp, hdst, hne⟩
        split at hrun
        next hpos =>
          obtain ⟨ret₁, s₂, hret₁, hcall, hrun⟩ := andThen_eq_ok_nonneg hrun hret
          obtain ⟨ret₂, s₃, hret₂, hadd, hrun⟩ := andThen_eq_ok_nonneg hrun hret
          have hbelow : ∀ x, x = v ∨ TransGen cam.Down v x → Ready cam s₀ s' x := by
            rintro x (rfl | hx)
            · exact h.ready hne (hready x (.single hdown))
            · have hnx := TransGen.head hdown hx
              exact h.ready (fun heq => hR node (heq ▸ hnx)) (hready x hnx)
          obtain ⟨hup, hsettled⟩ :=
            hsetup v hdown s' ret₁ s₂ h.wf (h.level.trans hlevel₀) h.first hbelow hcall hret₁
          exact ih hnext (h.through hR hlinks hlevel₀ hdst hne hpos hup hsettled hadd hret₂) hrun
        next hzero =>
          obtain ⟨ret₁, s₂, hret₁, hadd, hrun⟩ := andThen_eq_ok_nonneg hrun hret
          exact ih hnext (h.stop hR hlinks hlevel₀ hdst hne (not_not.mp hzero) hadd hret₁) hrun

/-- Everything the set-up of a node does. -/
theorem setUpFrom_camNodeSetupRoute (hR : Acyclic cam.Down) {fuel : Nat} {ret : Int} (hwf : s.Wf)
    (hlevel : s.level = s₀.level) (hfirst : ∀ x, FirstIn cam s.route x)
    (hready : ∀ x, x = node ∨ TransGen cam.Down node x → Ready cam s₀ s x)
    (hrun : camNodeSetupRoute cam fuel node s = .ok (ret, s')) (hret : 0 ≤ ret) :
    SetUpFrom cam s₀ [node] s s' ∧ Settled cam s₀ s' node := by
  induction fuel generalizing s s' node ret with
  | zero => cases hrun
  | succ fuel ih =>
    unfold camNodeSetupRoute at hrun
    split at hrun
    next hne =>
      cases hrun
      exact ⟨setUpFrom_refl _ hwf hfirst, (hready node (.inl rfl)).settled hne⟩
    next hnil =>
      rw [ne_eq, not_not] at hnil
      obtain ⟨ret₁, s₁, hret₁, hloop, hrest⟩ := andThen_eq_ok_nonneg hrun hret
      cases hrest
      have hstart := (hready node (.inl rfl)).start_nil hnil
      have hdone : Doing cam s₀ node s (cam.linksOf node) s' := by
        have hnone : cam.linksOf node = [] ++ cam.linksOf node := rfl
        refine doing_setupLinks hR hlevel hnone ?_ (fun x hx => hready x (.inr hx))
          (doing_nil hwf hfirst hnil) hloop hret₁
        intro v _ s₂ ret₂ s₃ hwf₂ hlevel₂ hfirst₂ hready₂ hcall hret₂
        exact ih hwf₂ hlevel₂ hfirst₂ hready₂ hcall hret₂
      have hsettled : Settled cam s₀ s' node := fun x => (hdone.leads x).trans (leads_iff hstart).symm
      refine ⟨⟨hdone.wf, hdone.level, hdone.first, fun x hx => ?_, fun x hx => ?_, fun x hx => ?_⟩,
        hsettled⟩
      · exact hdone.kept x (fun heq => hx (heq ▸ hnil)) hx
      · by_cases heq : x = node
        · exact .inl (List.mem_singleton.mpr heq)
        · exact .inr ⟨node, List.mem_singleton_self node, hdone.below x heq hx⟩
      · by_cases heq : x = node
        · subst heq
          refine ⟨hsettled, fun v hdown hpos => ?_⟩
          obtain ⟨l, hl, hdst, hne⟩ := hdown
          exact hdone.served l hl v hdst hne hpos
        · exact hdone.filled x heq hx

theorem setUpFrom_setupPool (hR : Acyclic cam.Down) {fuel : Nat} {ret : Int} {pool : List NodeId}
    (hwf : s.Wf) (hlevel : s.level = s₀.level) (hfirst : ∀ x, FirstIn cam s.route x)
    (hready : ∀ x, Ready cam s₀ s x)
    (hrun : setupPool cam fuel pool s = .ok (ret, s')) (hret : 0 ≤ ret) :
    SetUpFrom cam s₀ pool s s' ∧ ∀ n ∈ pool, Settled cam s₀ s' n := by
  induction pool generalizing s ret with
  | nil =>
    cases hrun
    exact ⟨setUpFrom_refl _ hwf hfirst, by simp⟩
  | cons node pool ih =>
    obtain ⟨ret₁, s₁, hret₁, hcall, hrest⟩ := andThen_eq_ok_nonneg hrun hret
    obtain ⟨hup, hsettled⟩ :=
      setUpFrom_camNodeSetupRoute hR hwf hlevel hfirst (fun x _ => hready x) hcall hret₁
    obtain ⟨hups, hall⟩ :=
      ih hup.wf (hup.level.trans hlevel) hup.first (fun x => hup.ready (hready x)) hrest hret
    refine ⟨hup.trans hups, fun n hn => ?_⟩
    rcases List.mem_cons.mp hn with rfl | hn
    · exact hups.settled hsettled
    · exact hall n hn

theorem searchPhase_eq_ok (hR : Acyclic cam.Down) {fuel : Nat} {ret : Int} {goals owners : List NodeId}
    (hwf : s.Wf) (hfirst : ∀ x, FirstIn cam s.route x)
    (hrun : searchPhase cam fuel goals owners s = .ok (ret, s')) (hret : 0 ≤ ret) :
    ∃ ret₁ s₁, relaxPool cam fuel goals s = .ok (ret₁, s₁) ∧ 0 ≤ ret₁ ∧ s₁.route = s.route ∧
      SetUpFrom cam s₁ owners s₁ s' ∧ ∀ n ∈ owners, Settled cam s₁ s' n := by
  rw [searchPhase_eq] at hrun
  obtain ⟨ret₁, s₁, hret₁, hrelax, hsetup⟩ := andThen_eq_ok_nonneg hrun hret
  have hsame : s.SameRoutes s₁ := sameRoutes_relaxPool cam fuel goals s _ _ hrelax
  have hfirst₁ : ∀ x, FirstIn cam s₁.route x := by
    rw [hsame.1]
    exact hfirst
  exact ⟨ret₁, s₁, hrelax, hret₁, hsame.1,
    setUpFrom_setupPool hR (hsame.wf hwf) rfl hfirst₁ (fun _ => .inl rfl) hsetup hret⟩

theorem firstIn_init (x : NodeId) : FirstIn cam SearchState.init.route x := by
  intro y r hr
  cases hr

theorem mediaLibSearchRoute_eq_ok (hR : Acyclic cam.Down) {fuel : Nat}
    (hrun : mediaLibSearchRoute cam fuel SearchState.init = .ok (0, s')) :
    ∃ s₁ s₂, searchPhase cam fuel cam.pathPool cam.srcPool SearchState.init = .ok (0, s₁) ∧
      searchPhase cam fuel cam.dstPool cam.pathPool s₁ = .ok (0, s₂) ∧ s'.route = s₂.route ∧
      s₁.Wf ∧ (∀ x, FirstIn cam s₁.route x) ∧ ∀ x, FirstIn cam s₂.route x := by
  obtain ⟨⟨ret, s₂⟩, hboth, hreset⟩ := map_eq_ok hrun
  cases hreset
  obtain ⟨ret₁, s₁, hret₁, hphase₁, hphase₂⟩ := andThen_eq_ok_nonneg hboth le_rfl
  have hzero : ret₁ = 0 := Int.le_antisymm (SearchState.nonpos_searchPhase _ _ _ _ _ _ _ hphase₁) hret₁
  subst hzero
  obtain ⟨_, _, _, _, _, hup₁, _⟩ :=
    searchPhase_eq_ok hR SearchState.wf_init firstIn_init hphase₁ le_rfl
  obtain ⟨_, _, _, _, _, hup₂, _⟩ := searchPhase_eq_ok hR hup₁.wf hup₁.first hphase₂ le_rfl
  exact ⟨s₁, s₂, hphase₁, hphase₂, rfl, hup₁.wf, hup₁.first, hup₂.first⟩

end

end G361FPlatform.MediaLib
