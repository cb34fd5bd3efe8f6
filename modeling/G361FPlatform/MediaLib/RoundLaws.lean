import G361FPlatform.Library.Fuel
import G361FPlatform.MediaLib.LevelLaws

namespace G361FPlatform.MediaLib

open Library Outcome Relation

def lifted (node : NodeId) (level : NodeId → Nat) (ls : List CamLink) : Finset NodeId :=
  ((CamGraph.upstream node ls).filter fun up => level up < levelAbove (level node)).toFinset

namespace CamGraph

def Round (cam : CamGraph) (s s' : SearchState) : Prop :=
  ∃ node s₁ ret, s.qPop = (some node, s₁) ∧ relaxLinks node (cam.linksOf node) s₁ = .ok (ret, s') ∧ 0 ≤ ret

/-- In the round that begins, a link without a source stands behind links that lift more nodes than
the queue has places left, so that the push of one of these is refused first. -/
def Shielded (cam : CamGraph) (s : SearchState) : Prop :=
  ∀ node s₁, s.qPop = (some node, s₁) → ∀ pre l post, cam.linksOf node = pre ++ l :: post → l.src = none →
    queueRoom < s₁.queue.count nodeQueueDepth + (lifted node s₁.level pre).card

def Waits (cam : CamGraph) (n : Nat) (s : SearchState) : Prop :=
  ∃ xs, s.queue.Holds nodeQueueDepth xs ∧
    (∑ u ∈ Finset.range cam.node.length, (2 ^ 32 - s.level u)) + xs.length ≤ n

end CamGraph

section

variable {cam : CamGraph} {s s' : SearchState} {node up : NodeId} {ls : List CamLink} {xs : List NodeId}

theorem upstream_cons_self {l : CamLink} (h : l.src = some node) :
    CamGraph.upstream node (l :: ls) = CamGraph.upstream node ls := by
  simp [CamGraph.upstream, h]

theorem upstream_cons {l : CamLink} (h : l.src = some up) (hne : up ≠ node) :
    CamGraph.upstream node (l :: ls) = up :: CamGraph.upstream node ls := by
  simp [CamGraph.upstream, h, hne]

theorem card_lifted_update (hne : up ≠ node) {level : NodeId → Nat} (hlt : level up < levelAbove (level node))
    {l : CamLink} (h : l.src = some up) :
    (lifted node level (l :: ls)).card =
      (lifted node (Function.update level up (levelAbove (level node))) ls).card + 1 := by
  have hnode : Function.update level up (levelAbove (level node)) node = level node :=
    Function.update_of_ne hne.symm _ _
  have hself : up ∉ lifted node (Function.update level up (levelAbove (level node))) ls := by
    simp [lifted, hnode]
  have hinsert : lifted node level (l :: ls) =
      insert up (lifted node (Function.update level up (levelAbove (level node))) ls) := by
    ext u
    simp only [lifted, upstream_cons h hne, hnode, List.mem_toFinset, List.mem_filter, List.mem_cons,
      Finset.mem_insert, decide_eq_true_eq]
    by_cases hu : u = up
    · subst hu
      simp [hlt]
    · simp [hu]
  rw [hinsert, Finset.card_insert_of_notMem hself]

theorem exists_split_cons {P : List α → α → Prop} {x : α} {xs : List α} :
    (∃ pre y post, x :: xs = pre ++ y :: post ∧ P pre y) ↔
      P [] x ∨ ∃ pre y post, xs = pre ++ y :: post ∧ P (x :: pre) y := by
  constructor
  · rintro ⟨pre, y, post, heq, hP⟩
    cases pre with
    | nil =>
      obtain ⟨rfl, -⟩ := List.cons.inj heq
      exact .inl hP
    | cons z pre =>
      obtain ⟨rfl, rfl⟩ := List.cons.inj heq
      exact .inr ⟨pre, y, post, rfl, hP⟩
  · rintro (hP | ⟨pre, y, post, rfl, hP⟩)
    · exact ⟨[], x, xs, rfl, hP⟩
    · exact ⟨x :: pre, y, post, rfl, hP⟩

theorem relaxLinks_fault_iff (h : s.queue.Holds nodeQueueDepth xs) :
    relaxLinks node ls s = .error .fault ↔ ∃ pre l post, ls = pre ++ l :: post ∧ l.src = none ∧
      xs.length + (lifted node s.level pre).card ≤ queueRoom := by
  induction ls generalizing s xs with
  | nil => simp [relaxLinks]
  | cons l ls ih =>
    have hroom : xs.length + (lifted node s.level []).card ≤ queueRoom := by
      have hlt := h.length_lt
      simp only [lifted, CamGraph.upstream, List.filterMap_nil, List.filter_nil, List.toFinset_nil,
        Finset.card_empty]
      unfold queueRoom
      omega
    rw [exists_split_cons, and_iff_left hroom]
    unfold relaxLinks
    split
    next hself =>
      rw [ih h]
      simp [hself, lifted, upstream_cons_self hself]
    next hne =>
      cases hsrc : l.src with
      | none => simp
      | some up =>
        have hup : up ≠ node := fun heq => hne (heq ▸ hsrc)
        dsimp only
        simp only [reduceCtorEq, false_or]
        by_cases hlt : s.level up < levelAbove (s.level node)
        · rw [if_pos hlt]
          simp only [card_lifted_update hup hlt hsrc]
          have hat : (s.setLevel up (levelAbove (s.level node))).At
              ⟨Function.update s.level up (levelAbove (s.level node)), xs⟩ := ⟨rfl, h⟩
          rcases hat.qPush up with ⟨-, s₁, hpush, h₁⟩ | ⟨hfull, hpush⟩
          · rw [hpush, andThen_ok_nonneg le_rfl, ih h₁.queue, h₁.level]
            simp only [List.length_append, List.length_singleton, Nat.add_assoc, Nat.add_comm 1]
          · rw [hpush, andThen_ok_neg (by decide)]
            refine iff_of_false (by simp) ?_
            rintro ⟨pre, l', post, -, -, hroom⟩
            dsimp only at hfull
            omega
        · rw [if_neg hlt, ih h]
          have hsame : ∀ pre, lifted node s.level (l :: pre) = lifted node s.level pre := by
            intro pre
            simp [lifted, upstream_cons hsrc hup, hlt]
          simp only [hsame]

theorem levelAbove_lt (level : Nat) : levelAbove level < 2 ^ 32 := Nat.mod_lt _ (by decide)

theorem waits_lift {n : Nat} (hup : up < cam.node.length) {level : Nat} (hlt : s.level up < level)
    (hlevel : level < 2 ^ 32) (h : cam.Waits n s) :
    Post ((s.setLevel up level).qPush up) fun _ s' => cam.Waits n s' := by
  obtain ⟨xs, hxs, hle⟩ := h
  have hat : (s.setLevel up level).At ⟨Function.update s.level up level, xs⟩ := ⟨rfl, hxs⟩
  have hsum : (∑ u ∈ Finset.range cam.node.length, (2 ^ 32 - Function.update s.level up level u)) + 1 ≤
      ∑ u ∈ Finset.range cam.node.length, (2 ^ 32 - s.level u) := by
    refine Nat.succ_le_of_lt (Finset.sum_lt_sum (fun u _ => ?_) ⟨up, Finset.mem_range.mpr hup, ?_⟩)
    · by_cases hu : u = up
      · subst hu
        rw [Function.update_self]
        omega
      · rw [Function.update_of_ne hu]
    · rw [Function.update_self]
      omega
  rcases hat.qPush up with ⟨-, s₁, hpush, h₁⟩ | ⟨-, hpush⟩
  · rw [hpush]
    refine post_ok ⟨_, h₁.queue, ?_⟩
    rw [h₁.level, List.length_append, List.length_singleton]
    dsimp only
    omega
  · rw [hpush]
    refine post_ok ⟨xs, hxs, ?_⟩
    change (∑ u ∈ Finset.range cam.node.length, (2 ^ 32 - Function.update s.level up level u)) + _ ≤ n
    omega

theorem waits_relaxLinks {n : Nat} (hls : ∀ u ∈ CamGraph.upstream node ls, u < cam.node.length)
    (h : cam.Waits n s) : Post (relaxLinks node ls s) fun _ s' => cam.Waits n s' := by
  induction ls generalizing s with
  | nil => exact post_ok h
  | cons l ls ih =>
    unfold relaxLinks
    split
    next hself => exact ih (upstream_cons_self hself ▸ hls) h
    next hne =>
      cases hsrc : l.src with
      | none => exact post_error _ _
      | some up =>
        have hup : up ≠ node := fun heq => hne (heq ▸ hsrc)
        rw [upstream_cons hsrc hup, List.forall_mem_cons] at hls
        dsimp only
        split
        next hlt =>
          exact (waits_lift hls.1 hlt (levelAbove_lt _) h).andThen_inv fun _ _ h' => ih hls.2 h'
        · exact ih hls.2 h

theorem waits_qPop {n : Nat} {s₁ : SearchState} (hpop : s.qPop = (some node, s₁)) (h : cam.Waits n s) :
    ∃ m, n = m + 1 ∧ cam.Waits m s₁ := by
  obtain ⟨xs, hxs, hle⟩ := h
  have hat : s.At ⟨s.level, xs⟩ := ⟨rfl, hxs⟩
  rcases hat.qPop with ⟨-, hpop'⟩ | ⟨v, queue, s₂, hqueue, hpop', h₂⟩
  · rw [hpop] at hpop'
    cases hpop'
  · rw [hpop] at hpop'
    cases hpop'
    have hlen := congrArg List.length hqueue
    simp only [List.length_cons] at hlen
    refine ⟨n - 1, by omega, queue, h₂.queue, ?_⟩
    rw [h₂.level]
    dsimp only
    omega

theorem qPush_ne_fuel (node : NodeId) (s : SearchState) : s.qPush node ≠ .error .fuel := by
  unfold SearchState.qPush
  split <;> exact nofun

theorem relaxLinks_ne_fuel (ls : List CamLink) (s : SearchState) : relaxLinks node ls s ≠ .error .fuel := by
  induction ls generalizing s with
  | nil => exact nofun
  | cons l ls ih =>
    unfold relaxLinks
    split
    · exact ih s
    · split
      · exact nofun
      · split
        · exact andThen_ne_error (qPush_ne_fuel _ _) fun _ s' _ _ => ih s'
        · exact ih s

/-- The relaxation comes to an end on every graph: levels are numbers of 32 bits, and only rise. -/
theorem settles_propagate (hcam : cam.Sized) {n : Nat} (h : cam.Waits n s) :
    propagate cam (n + 1) s ≠ .error .fuel := by
  induction n generalizing s with
  | zero =>
    unfold propagate
    split
    · exact nofun
    next v s₁ hpop =>
      obtain ⟨m, hm, -⟩ := waits_qPop hpop h
      omega
  | succ n ih =>
    unfold propagate
    split
    · exact nofun
    next v s₁ hpop =>
      obtain ⟨m, hm, h₁⟩ := waits_qPop hpop h
      obtain rfl : n = m := by omega
      have hrelax : Post (relaxLinks v (cam.linksOf v) s₁) fun _ s' => cam.Waits n s' :=
        waits_relaxLinks (fun u hu => (hcam.up_lt u v hu).1) h₁
      exact andThen_ne_error (relaxLinks_ne_fuel _ _) fun ret s₂ hscan _ => ih (hrelax ret s₂ hscan)

theorem steady_propagate (cam : CamGraph) (s : SearchState) : Steady fun fuel => propagate cam fuel s := by
  intro m n hle
  induction m generalizing n s with
  | zero => exact .inl rfl
  | succ m ih =>
    obtain ⟨n, rfl⟩ : ∃ k, n = k + 1 := ⟨n - 1, by omega⟩
    dsimp only
    unfold propagate
    split
    · exact .refl _
    · exact (Approx.refl _).andThen fun _ s' => ih s' n (by omega)

theorem shielded_iff {n : Nat} (h : cam.Waits n s) : cam.Shielded s ↔
    ∀ node s₁, s.qPop = (some node, s₁) → relaxLinks node (cam.linksOf node) s₁ ≠ .error .fault := by
  refine forall_congr' fun node => forall_congr' fun s₁ => forall_congr' fun hpop => ?_
  obtain ⟨m, -, xs, hxs, -⟩ := waits_qPop hpop h
  rw [Ne, relaxLinks_fault_iff hxs, ← hxs.length_eq]
  constructor
  · rintro hroom ⟨pre, l, post, hsplit, hsrc, hle⟩
    exact absurd (hroom pre l post hsplit hsrc) (Nat.not_lt.mpr hle)
  · intro hsafe pre l post hsplit hsrc
    by_contra hle
    exact hsafe ⟨pre, l, post, hsplit, hsrc, Nat.not_lt.mp hle⟩

theorem waits_round (hcam : cam.Sized) {n : Nat} (h : cam.Waits n s) (hround : cam.Round s s') :
    ∃ m, cam.Waits m s' := by
  obtain ⟨node, s₁, ret, hpop, hrelax, -⟩ := hround
  obtain ⟨m, -, h₁⟩ := waits_qPop hpop h
  exact ⟨m, waits_relaxLinks (fun u hu => (hcam.up_lt u node hu).1) h₁ ret s' hrelax⟩

theorem exists_not_shielded (hcam : cam.Sized) {n fuel : Nat} (h : cam.Waits n s)
    (hfault : propagate cam fuel s = .error .fault) : ∃ s', ReflTransGen cam.Round s s' ∧ ¬cam.Shielded s' := by
  induction fuel generalizing s n with
  | zero => cases hfault
  | succ fuel ih =>
    unfold propagate at hfault
    split at hfault
    · cases hfault
    next v s₁ hpop =>
      rcases andThen_eq_error_iff.mp hfault with hscan | ⟨ret, s₂, hscan, hret, hlater⟩
      · exact ⟨s, .refl, fun hshield => (shielded_iff h).mp hshield v s₁ hpop hscan⟩
      · have hround : cam.Round s s₂ := ⟨v, s₁, ret, hpop, hscan, hret⟩
        obtain ⟨m, h₂⟩ := waits_round hcam h hround
        obtain ⟨s', hrounds, hbare⟩ := ih h₂ hlater
        exact ⟨s', .head hround hrounds, hbare⟩

theorem faults_of_not_shielded (hcam : cam.Sized) {n : Nat} (h : cam.Waits n s)
    (hrounds : ReflTransGen cam.Round s s') (hbare : ¬cam.Shielded s') :
    ∃ fuel, propagate cam fuel s = .error .fault := by
  induction hrounds using ReflTransGen.head_induction_on generalizing n with
  | refl =>
    rw [shielded_iff h] at hbare
    push Not at hbare
    obtain ⟨v, s₁, hpop, hfault⟩ := hbare
    refine ⟨1, ?_⟩
    unfold propagate
    rw [hpop]
    exact andThen_eq_error_iff.mpr (.inl hfault)
  | @head s s₂ hround _ ih =>
    obtain ⟨m, h₂⟩ := waits_round hcam h hround
    obtain ⟨fuel, hfault⟩ := ih h₂
    obtain ⟨v, s₁, ret, hpop, hscan, hret⟩ := hround
    refine ⟨fuel + 1, ?_⟩
    unfold propagate
    rw [hpop]
    exact andThen_eq_error_iff.mpr (.inr ⟨ret, s₂, hscan, hret, hfault⟩)

/-- The relaxation comes to a fault where some round does. -/
theorem faults_propagate_iff (hcam : cam.Sized) {n : Nat} (h : cam.Waits n s) :
    (Faults fun fuel => propagate cam fuel s) ↔ ∃ s', ReflTransGen cam.Round s s' ∧ ¬cam.Shielded s' :=
  ⟨fun ⟨_, hfault⟩ => exists_not_shielded hcam h hfault,
    fun ⟨_, hrounds, hbare⟩ => faults_of_not_shielded hcam h hrounds hbare⟩

end

end G361FPlatform.MediaLib
