import G361FPlatform.Dnsmasq.Periodic

namespace G361FPlatform.Dnsmasq

open Library

def Context.overdue (now : Int) (c : Context) : Bool := c.raTime ≠ 0 ∧ c.raTime ≤ now

/-- A call that fails finds no interface behind the index that nothing was stored in. -/
def Turn.harmless (c : Turn) : Prop := c.enumeration.done = true ∨ c.indextoname c.index = none

def RouteChange.due (now : Int) (r : RouteChange) (due : List Bool) : List Bool :=
  due.mapIdx fun i _ =>
    let raTime : Int := r.now + ((r.rand16 i).toNat / 13000 : Nat)
    raTime ≠ 0 ∧ raTime ≤ now

def NlMessage.due (now : Int) (due : List Bool) : NlMessage → List Bool
  | .newAddr _ => due
  | .newRoute r => r.due now due

def Turn.due (now : Int) (c : Turn) (due : List Bool) : List Bool :=
  let met := c.enumeration.messages.foldl (NlMessage.due now) due
  if c.enumeration.done then met.set (due.idxOf true) false else met

def dueAfter (now : Int) : (Nat → Turn) → Nat → List Bool → List Bool
  | _, 0, due => due
  | calls, n + 1, due => dueAfter now (fun m => calls (m + 1)) n ((calls 0).due now due)

structure NextEvent (now : Int) (contexts : List Context) (event : Int) : Prop where
  none : (∀ c ∈ contexts, c.raTime = 0) → event = 0
  attained : (∃ c ∈ contexts, c.raTime ≠ 0) → ∃ c ∈ contexts, c.raTime ≠ 0 ∧ c.raTime = event
  earliest : ∀ c ∈ contexts, c.raTime ≠ 0 → event ≤ c.raTime ∧ now < event

section Scan

variable {now : Int}

def overdues (now : Int) (contexts : List Context) : List Bool := contexts.map (·.overdue now)

theorem overdue_iff {c : Context} : c.overdue now = true ↔ c.raTime ≠ 0 ∧ c.raTime ≤ now :=
  decide_eq_true_iff

theorem NextEvent.skip {seen : List Context} {next : Int} (h : NextEvent now seen next) {c : Context}
    (hc : c.raTime = 0) : NextEvent now (seen ++ [c]) next := by
  refine ⟨fun hall => ?_, fun hany => ?_, fun d hd hset => ?_⟩
  · apply h.none
    intro d hd
    exact hall d (List.mem_append_left _ hd)
  · obtain ⟨d, hd, hset⟩ := hany
    rcases List.mem_append.mp hd with hd | hd
    · obtain ⟨e, he, heset⟩ := h.attained ⟨d, hd, hset⟩
      exact ⟨e, List.mem_append_left _ he, heset⟩
    · exact absurd (List.mem_singleton.mp hd ▸ hc) hset
  · rcases List.mem_append.mp hd with hd | hd
    · exact h.earliest d hd hset
    · exact absurd (List.mem_singleton.mp hd ▸ hc) hset

theorem NextEvent.push {seen : List Context} {next : Int} (h : NextEvent now seen next) {c : Context}
    (hc : c.raTime ≠ 0) (hlate : now < c.raTime) :
    NextEvent now (seen ++ [c]) (if next = 0 ∨ c.raTime < next then c.raTime else next) := by
  by_cases hany : ∃ d ∈ seen, d.raTime ≠ 0
  · obtain ⟨e, he, heset, henext⟩ := h.attained hany
    have hahead := (h.earliest e he heset).2
    refine ⟨fun hall => absurd (hall c (List.mem_append_right _ (List.mem_singleton_self c))) hc, fun _ => ?_,
      fun d hd hset => ?_⟩
    · split
      · exact ⟨c, List.mem_append_right _ (List.mem_singleton_self c), hc, rfl⟩
      · exact ⟨e, List.mem_append_left _ he, heset, henext⟩
    · rcases List.mem_append.mp hd with hd | hd
      · have hle := (h.earliest d hd hset).1
        split <;> omega
      · rw [List.mem_singleton.mp hd]
        split <;> omega
  · push Not at hany
    rw [if_pos (.inl (h.none hany))]
    refine ⟨fun hall => hall c (List.mem_append_right _ (List.mem_singleton_self c)),
      fun _ => ⟨c, List.mem_append_right _ (List.mem_singleton_self c), hc, rfl⟩, fun d hd hset => ?_⟩
    rcases List.mem_append.mp hd with hd | hd
    · exact absurd (hany d hd) hset
    · rw [List.mem_singleton.mp hd]
      exact ⟨Int.le_refl _, hlate⟩

theorem scan_next {cs seen : List Context} {i : Nat} {next event : Int} (h : scan now cs i next = .next event)
    (hseen : NextEvent now seen next) :
    true ∉ overdues now cs ∧ NextEvent now (seen ++ cs) event := by
  induction cs generalizing seen i next with
  | nil =>
    cases h
    rw [List.append_nil]
    exact ⟨List.not_mem_nil, hseen⟩
  | cons c cs ih =>
    rw [scan] at h
    have hsplit : seen ++ c :: cs = (seen ++ [c]) ++ cs := by rw [List.append_assoc, List.singleton_append]
    rw [hsplit]
    split at h
    next hset =>
      split at h
      · cases h
      next hlate =>
        have hahead : now < c.raTime := Int.not_le.mp hlate
        have hnext := ih h (hseen.push hset hahead)
        refine ⟨?_, hnext.2⟩
        intro hmem
        rcases List.mem_cons.mp hmem with heq | htail
        · exact hlate (overdue_iff.mp heq.symm).2
        · exact hnext.1 htail
    next hzero =>
      have hnext := ih h (hseen.skip (not_not.mp hzero))
      refine ⟨?_, hnext.2⟩
      intro hmem
      rcases List.mem_cons.mp hmem with heq | htail
      · exact hzero (overdue_iff.mp heq.symm).1
      · exact hnext.1 htail

theorem scan_overdue {cs : List Context} {i j : Nat} {next : Int} (h : scan now cs i next = .overdue j) :
    true ∈ overdues now cs ∧ j = i + (overdues now cs).idxOf true := by
  induction cs generalizing i next with
  | nil => cases h
  | cons c cs ih =>
    have hskip : c.overdue now = false → ∀ {next : Int}, scan now cs (i + 1) next = .overdue j →
        true ∈ overdues now (c :: cs) ∧ j = i + (overdues now (c :: cs)).idxOf true := by
      intro hc next h
      obtain ⟨hmem, hj⟩ := ih h
      refine ⟨List.mem_cons_of_mem _ hmem, ?_⟩
      change j = i + (c.overdue now :: overdues now cs).idxOf true
      rw [hc, List.idxOf_cons_ne _ (by decide), hj]
      omega
    rw [scan] at h
    split at h
    next hset =>
      split at h
      next hle =>
        have hdue : overdues now (c :: cs) = true :: overdues now cs := by
          rw [← overdue_iff.mpr ⟨hset, hle⟩]
          rfl
        cases h
        rw [hdue, List.idxOf_cons_self]
        exact ⟨List.mem_cons_self, rfl⟩
      next hlate => exact hskip (decide_eq_false fun hdue => hlate hdue.2) h
    next hzero => exact hskip (decide_eq_false fun hdue => hzero hdue.1) h

end Scan

section Turn

variable {now : Int}

def NlMessage.rearm (contexts : List Context) : NlMessage → List Context
  | .newAddr _ => contexts
  | .newRoute r => raStartUnsolicted r contexts

theorem ifaceEnumerate_search (e : Enumeration) (s : Periodic) :
    ifaceEnumerate ifaceSearch nlRoutechange e s =
      (e.done, { s with contexts := e.messages.foldl NlMessage.rearm s.contexts }) := by
  have hfold : ∀ (ms : List NlMessage) (s : Periodic), ms.foldl (ifaceMessage ifaceSearch nlRoutechange) (true, s) =
      (true, { s with contexts := ms.foldl NlMessage.rearm s.contexts }) := by
    intro ms
    induction ms with
    | nil => exact fun s => rfl
    | cons m ms ih =>
      intro s
      cases m with
      | newAddr a => exact ih s
      | newRoute r => exact ih (nlRoutechange r s)
  unfold ifaceEnumerate
  dsimp only
  rw [hfold, Bool.and_true]

theorem overdues_raStart (r : RouteChange) (cs : List Context) :
    overdues now (raStartUnsolicted r cs) = r.due now (overdues now cs) := by
  apply List.ext_getElem
  · simp [overdues, raStartUnsolicted, RouteChange.due]
  · intro i h₁ h₂
    simp [overdues, raStartUnsolicted, RouteChange.due, Context.overdue]

theorem overdues_rearm (ms : List NlMessage) (cs : List Context) :
    overdues now (ms.foldl NlMessage.rearm cs) = ms.foldl (NlMessage.due now) (overdues now cs) := by
  induction ms generalizing cs with
  | nil => rfl
  | cons m ms ih =>
    rw [List.foldl_cons, List.foldl_cons, ih]
    cases m with
    | newAddr a => rfl
    | newRoute r => exact congrArg (ms.foldl (NlMessage.due now)) (overdues_raStart r cs)

theorem overdues_zero (cs : List Context) (i : Nat) :
    overdues now (cs.modify i fun c => { c with raTime := 0 }) = (overdues now cs).set i false := by
  apply List.ext_getElem
  · simp [overdues]
  · intro j h₁ h₂
    by_cases hij : i = j
    · simp [overdues, hij, Context.overdue]
    · simp [overdues, hij]

variable (wild : Nat → BitVec 64) {t : Turn} {s : Periodic}

theorem periodicTurn_harmless (now : Int) (ht : t.harmless) (hiface : s.param.iface = none) :
    ∃ contexts, periodicTurn wild ((overdues now s.contexts).idxOf true) t s = { s with contexts } ∧
      overdues now contexts = t.due now (overdues now s.contexts) := by
  unfold periodicTurn Turn.due
  rw [ifaceEnumerate_search]
  cases hdone : t.enumeration.done
  · have hname : t.indextoname t.index = none := ht.resolve_left (Bool.eq_false_iff.mp hdone)
    refine ⟨t.enumeration.messages.foldl NlMessage.rearm s.contexts, ?_, overdues_rearm _ _⟩
    simp only [hiface, Option.getD_none, hname]
    rfl
  · refine ⟨_, rfl, ?_⟩
    rw [overdues_zero, overdues_rearm]
    rfl

theorem periodicTurn_harmful (ht : ¬t.harmless) (hiface : s.param.iface = none) (i : Nat) :
    ∃ x ∈ (periodicTurn wild i t s).sent, x.iface = none := by
  obtain ⟨hdone, hname⟩ := not_or.mp ht
  obtain ⟨interface, hinterface⟩ := Option.ne_none_iff_exists'.mp hname
  unfold periodicTurn
  rw [ifaceEnumerate_search, Bool.eq_false_iff.mpr hdone]
  simp only [hiface, Option.getD_none, hinterface]
  exact ⟨_, List.mem_append_right _ (List.mem_singleton_self _), rfl⟩

theorem periodicTurn_sent (i : Nat) : s.sent ⊆ (periodicTurn wild i t s).sent := by
  unfold periodicTurn
  rw [ifaceEnumerate_search]
  dsimp only
  split
  · exact List.Subset.refl _
  · split
    · exact List.Subset.refl _
    · exact List.subset_append_left _ _

theorem periodicLoop_sent {turns : Nat → Turn} {fuel : Nat} {event : Int} {s' : Periodic}
    (h : periodicLoop wild turns fuel s = some (event, s')) : s.sent ⊆ s'.sent := by
  induction fuel generalizing turns s with
  | zero => cases h
  | succ fuel ih =>
    rw [periodicLoop] at h
    split at h
    · cases h
      exact List.Subset.refl _
    · exact List.Subset.trans (periodicTurn_sent wild _) (ih h)

end Turn

/-- The loop ends, every `send_ra` was for an interface the search had stored, and the value is the next event. -/
def RightRun (wild : Nat → BitVec 64) (now : Int) (contexts : List Context) (ra : RaGlobals) (turns : Nat → Turn) :
    Prop :=
  ∃ fuel event s, periodicRa wild now contexts ra turns fuel = some (event, s) ∧
    (∀ x ∈ s.sent, x.iface ≠ none) ∧ NextEvent now s.contexts event

/-- All turns up to one after which no context is due are harmless. -/
def Settles (now : Int) (turns : Nat → Turn) (due : List Bool) : Prop :=
  ∃ n, (∀ m, m < n → (turns m).harmless) ∧ true ∉ dueAfter now turns n due

def successes (turns : Nat → Turn) : Nat → Nat
  | 0 => 0
  | n + 1 => (if (turns 0).enumeration.done then 1 else 0) + successes (fun m => turns (m + 1)) n

section Loop

variable (wild : Nat → BitVec 64) (now : Int)

theorem nextEvent_nil : NextEvent now [] 0 := by
  refine ⟨fun _ => rfl, fun h => ?_, fun c hc => absurd hc List.not_mem_nil⟩
  obtain ⟨c, hc, _⟩ := h
  exact absurd hc List.not_mem_nil

theorem periodicLoop_settles {turns : Nat → Turn} {n : Nat} {s : Periodic} (hparam : s.param = ⟨now, none⟩)
    (hharmless : ∀ m, m < n → (turns m).harmless)
    (hdue : true ∉ dueAfter now turns n (overdues now s.contexts)) :
    ∃ fuel event s', periodicLoop wild turns fuel s = some (event, s') ∧ s'.sent = s.sent ∧
      NextEvent now s'.contexts event := by
  induction n generalizing turns s with
  | zero =>
    refine ⟨1, ?_⟩
    rw [periodicLoop, hparam]
    cases hscan : scan now s.contexts 0 0 with
    | overdue i => exact absurd (scan_overdue hscan).1 hdue
    | next event => exact ⟨event, s, rfl, rfl, (scan_next hscan (nextEvent_nil now)).2⟩
  | succ n ih =>
    cases hscan : scan now s.contexts 0 0 with
    | next event =>
      refine ⟨1, event, s, ?_, rfl, (scan_next hscan (nextEvent_nil now)).2⟩
      rw [periodicLoop, hparam]
      simp only [hscan]
    | overdue i =>
      obtain ⟨contexts, hturn, hcontexts⟩ :=
        periodicTurn_harmless wild now (hharmless 0 (Nat.zero_lt_succ n)) (congrArg (·.iface) hparam)
      obtain ⟨fuel, event, s', hloop, hsent, hnext⟩ := ih (s := { s with contexts }) hparam
        (fun m hm => hharmless (m + 1) (Nat.succ_lt_succ hm))
        (by rw [hcontexts]; exact hdue)
      refine ⟨fuel + 1, event, s', ?_, hsent, hnext⟩
      rw [periodicLoop, hparam]
      simp only [hscan]
      rw [(scan_overdue hscan).2, Nat.zero_add, hturn]
      exact hloop

theorem periodicLoop_inv {turns : Nat → Turn} {fuel : Nat} {s s' : Periodic} {event : Int}
    (hparam : s.param = ⟨now, none⟩) (h : periodicLoop wild turns fuel s = some (event, s'))
    (hsent : ∀ x ∈ s'.sent, x.iface ≠ none) : Settles now turns (overdues now s.contexts) := by
  induction fuel generalizing turns s with
  | zero => cases h
  | succ fuel ih =>
    rw [periodicLoop, hparam] at h
    cases hscan : scan now s.contexts 0 0 with
    | next event' =>
      exact ⟨0, fun m hm => absurd hm (Nat.not_lt_zero m), (scan_next hscan (nextEvent_nil now)).1⟩
    | overdue i =>
      simp only [hscan] at h
      by_cases hharmless : (turns 0).harmless
      · obtain ⟨contexts, hturn, hcontexts⟩ :=
          periodicTurn_harmless wild now hharmless (congrArg (·.iface) hparam)
        rw [(scan_overdue hscan).2, Nat.zero_add, hturn] at h
        obtain ⟨n, hrest, hdue⟩ := ih (s := { s with contexts }) hparam h
        rw [hcontexts] at hdue
        refine ⟨n + 1, fun m hm => ?_, hdue⟩
        cases m with
        | zero => exact hharmless
        | succ m => exact hrest m (Nat.lt_of_succ_lt_succ hm)
      · obtain ⟨x, hx, hnone⟩ := periodicTurn_harmful wild hharmless (congrArg (·.iface) hparam) i
        exact absurd hnone (hsent x (periodicLoop_sent wild h hx))

end Loop

section Calm

variable (now : Int)

def Calm (turns : Nat → Turn) : Prop := ∀ n r, .newRoute r ∉ (turns n).enumeration.messages

theorem foldl_due_calm {ms : List NlMessage} (h : ∀ r, .newRoute r ∉ ms) (due : List Bool) :
    ms.foldl (NlMessage.due now) due = due := by
  induction ms with
  | nil => rfl
  | cons m ms ih =>
    cases m with
    | newAddr a => exact ih fun r hr => h r (List.mem_cons_of_mem _ hr)
    | newRoute r => exact absurd List.mem_cons_self (h r)

theorem count_set_idxOf (due : List Bool) :
    (due.set (due.idxOf true) false).count true = due.count true - 1 := by
  induction due with
  | nil => rfl
  | cons b due ih =>
    cases b
    · rw [List.idxOf_cons_ne _ (by decide), List.set_cons_succ, List.count_cons, List.count_cons, ih]
      rfl
    · rw [List.idxOf_cons_self, List.set_cons_zero, List.count_cons, List.count_cons]
      simp

theorem count_dueAfter {turns : Nat → Turn} (h : Calm turns) (n : Nat) (due : List Bool) :
    (dueAfter now turns n due).count true = due.count true - successes turns n := by
  induction n generalizing turns due with
  | zero => rfl
  | succ n ih =>
    rw [dueAfter, ih (fun m => h (m + 1)), successes, Turn.due, foldl_due_calm now (h 0)]
    split
    · rw [count_set_idxOf, Nat.sub_sub]
    · rw [Nat.zero_add]

theorem settles_calm {turns : Nat → Turn} (h : Calm turns) (due : List Bool) :
    Settles now turns due ↔
      ∃ n, (∀ m, m < n → (turns m).harmless) ∧ due.count true ≤ successes turns n := by
  apply exists_congr
  intro n
  rw [← List.count_eq_zero, count_dueAfter now h, Nat.sub_eq_zero_iff_le]

end Calm

/-- Without news of routes, as many of the calls must succeed as contexts are overdue. -/
theorem periodicRa_right_iff (wild : Nat → BitVec 64) (now : Int) (contexts : List Context) (ra : RaGlobals)
    (turns : Nat → Turn) :
    (RightRun wild now contexts ra turns ↔ Settles now turns (contexts.map (·.overdue now))) ∧
      (Calm turns → (RightRun wild now contexts ra turns ↔
        ∃ n, (∀ m, m < n → (turns m).harmless) ∧
          contexts.countP (·.overdue now) ≤ successes turns n)) := by
  have hiff : RightRun wild now contexts ra turns ↔ Settles now turns (overdues now contexts) := by
    constructor
    · rintro ⟨fuel, event, s, hloop, hsent, _⟩
      exact periodicLoop_inv wild now rfl hloop hsent
    · rintro ⟨n, hharmless, hdue⟩
      obtain ⟨fuel, event, s, hloop, hsent, hnext⟩ := periodicLoop_settles wild now
        (s := ⟨contexts, ra, ⟨now, none⟩, []⟩) rfl hharmless hdue
      refine ⟨fuel, event, s, hloop, fun x hx => ?_, hnext⟩
      rw [hsent] at hx
      exact absurd hx List.not_mem_nil
  refine ⟨hiff, fun hcalm => ?_⟩
  have hcount : (overdues now contexts).count true = contexts.countP (·.overdue now) := by
    rw [overdues, List.count, List.countP_map]
    apply List.countP_congr
    intro c _
    exact beq_iff_eq
  rw [hiff, settles_calm now hcalm, hcount]

def overdueContext : Context := ⟨true, false, false, false, false, false, 3600, 100, none, true⟩

def failingTurn : Turn :=
  ⟨⟨[], false⟩, 0, fun _ => none, ⟨[], false, [], false, none, [], fun _ => [], 0, false⟩⟩

theorem not_periodicRa_right :
    ¬∀ (wild : Nat → BitVec 64) (now : Int) (contexts : List Context) (ra : RaGlobals)
    (turns : Nat → Turn), RightRun wild now contexts ra turns := by
  intro h
  obtain ⟨fuel, event, s, hloop, hsent, _⟩ :=
    h (fun _ => 0) 100 [overdueContext] ⟨0, 0, [], false⟩ fun _ => failingTurn
  obtain ⟨n, _, hdue⟩ := periodicLoop_inv _ 100 rfl hloop hsent
  have hnone : ∀ n, successes (fun _ => failingTurn) n = 0 := by
    intro n
    induction n with
    | zero => rfl
    | succ n ih => exact (Nat.zero_add _).trans ih
  have hcalm : Calm fun _ => failingTurn := fun n r => List.not_mem_nil
  have hcount := count_dueAfter 100 hcalm n [true]
  rw [hnone] at hcount
  exact hdue (List.count_pos_iff.mp (hcount ▸ Nat.zero_lt_one))

end G361FPlatform.Dnsmasq
