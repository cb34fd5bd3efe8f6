import G361FPlatform.Library.Relax

namespace G361FPlatform.Library.Relaxation

section

variable {α : Type u} [DecidableEq α]

/-- The places from which a walk of `n` edges leads to one of `goals`. -/
def behind (preds : α → List α) : Nat → List α → List α
  | 0, goals => goals.dedup
  | n + 1, goals => ((behind preds n goals).flatMap preds).dedup

/-- A walk of `b` edges leads from `u` to a new goal, and none as long to an old one. -/
def Fresh (preds : α → List α) (bound : Nat) (old new : List α) (u : α) (b : Nat) : Prop :=
  u ∈ behind preds b new ∧ ∀ c < bound + 1, b ≤ c → u ∉ behind preds c old

instance (preds : α → List α) (bound : Nat) (old new : List α) (u : α) (b : Nat) :
    Decidable (Fresh preds bound old new u b) :=
  inferInstanceAs (Decidable (_ ∧ _))

/-- What may come to wait `k` edges behind the new goals: a place, and a level it is raised to. -/
def wave (preds : α → List α) (bound : Nat) (old new : List α) (k : Nat) : List (α × Nat) :=
  (behind preds k new).flatMap fun u =>
    ((List.range (bound + 1)).filter fun b => k ≤ b ∧ Fresh preds bound old new u b).map (u, ·)

/-- The goals wait first, each as often as it is listed. -/
def width (preds : α → List α) (bound : Nat) (old new : List α) : Nat → Nat
  | 0 => new.length
  | k + 1 => (wave preds bound old new (k + 1)).length

theorem mem_wave {preds : α → List α} {bound k b : Nat} {old new : List α} {u : α} :
    (u, b) ∈ wave preds bound old new k ↔
      u ∈ behind preds k new ∧ b ≤ bound ∧ k ≤ b ∧ Fresh preds bound old new u b := by
  simp only [wave, List.mem_flatMap, List.mem_map, List.mem_filter, List.mem_range,
    decide_eq_true_eq, Prod.mk.injEq]
  constructor
  · rintro ⟨_, hu, _, ⟨hb, hkb, hfresh⟩, rfl, rfl⟩
    exact ⟨hu, by omega, hkb, hfresh⟩
  · rintro ⟨hu, hb, hkb, hfresh⟩
    exact ⟨u, hu, b, ⟨by omega, hkb, hfresh⟩, rfl, rfl⟩

end

section

variable {α : Type u} [DecidableEq α] {R : α → α → Prop} {preds : α → List α}

theorem mem_behind (hpreds : ∀ u v, u ∈ preds v ↔ R u v) {n : Nat} {goals : List α} {u : α} :
    u ∈ behind preds n goals ↔ ∃ g ∈ goals, Walk R u g n := by
  induction n generalizing u with
  | zero =>
    simp only [behind, List.mem_dedup]
    constructor
    · exact fun hu => ⟨u, hu, .nil u⟩
    · rintro ⟨g, hg, hwalk⟩
      cases hwalk
      exact hg
  | succ n ih =>
    simp only [behind, List.mem_dedup, List.mem_flatMap, hpreds, ih]
    constructor
    · rintro ⟨v, ⟨g, hg, hwalk⟩, hstep⟩
      exact ⟨g, hg, .cons hstep hwalk⟩
    · rintro ⟨g, hg, hwalk⟩
      cases hwalk with
      | cons hstep hwalk => exact ⟨_, ⟨g, hg, hwalk⟩, hstep⟩

variable {places : Finset α} {old new : List α} {cap k : Nat} {cur : List α} {next : List (α × Nat)}
  {s : Relaxation α} {u v : α}

/-- First in, first out: what is left of one wave waits, and behind it what has been raised of the
next.  Levels lie above the old goals all the while. -/
structure Rolling (preds : α → List α) (bound : Nat) (old new : List α) (k : Nat) (cur : List α)
    (next : List (α × Nat)) (s : Relaxation α) : Prop where
  queue : s.queue = cur ++ next.map Prod.fst
  cur_length : cur.length ≤ width preds bound old new k
  cur_spec : ∀ v ∈ cur, v ∈ behind preds k new ∧ k ≤ s.level v
  next_nodup : next.Nodup
  next_spec : ∀ p ∈ next, p ∈ wave preds bound old new (k + 1) ∧ p.2 ≤ s.level p.1
  floor : ∀ u c, u ∈ behind preds c old → c ≤ s.level u

theorem Rolling.next_length {bound : Nat} (h : Rolling preds bound old new k cur next s) :
    next.length ≤ width preds bound old new (k + 1) :=
  (h.next_nodup.subperm fun p hp => (h.next_spec p hp).1).length_le

theorem Rolling.shift {bound : Nat} (h : Rolling preds bound old new k [] next s) :
    Rolling preds bound old new (k + 1) (next.map Prod.fst) [] s where
  queue := by simpa using h.queue
  cur_length := by simpa using h.next_length
  cur_spec := by
    intro v hv
    obtain ⟨⟨v, b⟩, hp, rfl⟩ := List.mem_map.mp hv
    obtain ⟨hwave, hle⟩ := h.next_spec _ hp
    obtain ⟨hbehind, -, hkb, -⟩ := mem_wave.mp hwave
    exact ⟨hbehind, hkb.trans hle⟩
  next_nodup := List.nodup_nil
  next_spec := by simp
  floor := h.floor

theorem Rolling.exists_cons {bound : Nat} {queue : List α} (h : Rolling preds bound old new k cur next s)
    (hqueue : s.queue = v :: queue) :
    ∃ k cur next, Rolling preds bound old new k (v :: cur) next s := by
  cases cur with
  | cons w cur =>
    have hhead : w = v := by
      have heq := h.queue.symm.trans hqueue
      rw [List.cons_append] at heq
      exact (List.cons.inj heq).1
    exact ⟨k, cur, next, hhead ▸ h⟩
  | nil =>
    have hshift := h.shift
    have heq := hshift.queue.symm.trans hqueue
    rw [List.map_nil, List.append_nil] at heq
    rw [heq] at hshift
    exact ⟨k + 1, queue, [], hshift⟩

/-- A raise adds a new pair to the next wave: the level is the length of a walk to a new goal, since
the walks to the old ones are no longer than the level was. -/
theorem Rolling.raise (hpreds : ∀ u v, u ∈ preds v ↔ R u v) (hR : Acyclic R)
    (hplaces : ∀ a b, R a b → a ∈ places ∧ b ∈ places)
    (h : Rolling preds places.card old new k cur next s)
    (hattained : s.Attained R fun g => g ∈ old ∨ g ∈ new)
    (hlive : s.Live (fun g => g ∈ old ∨ g ∈ new) v) (hv : v ∈ behind preds k new)
    (hk : k ≤ s.level v) (hstep : R u v) :
    ∃ next', Rolling preds places.card old new k cur next' (s.raise v u) := by
  have hmono := fun w => level_le_raise v u w s
  by_cases hlt : s.level u < s.level v + 1
  · have heq : s.raise v u =
        { level := Function.update s.level u (s.level v + 1), queue := s.queue ++ [u] } := if_pos hlt
    have hself : (s.raise v u).level u = s.level v + 1 := by simp [heq]
    obtain ⟨g, hg, hwalk⟩ := hattained.exists_walk hlive
    have hfresh : Fresh preds places.card old new u (s.level v + 1) := by
      refine ⟨?_, fun c _ hc hmem => ?_⟩
      · rcases hg with hg | hg
        · have := h.floor u _ ((mem_behind hpreds).mpr ⟨g, hg, .cons hstep hwalk⟩)
          omega
        · exact (mem_behind hpreds).mpr ⟨g, hg, .cons hstep hwalk⟩
      · have := h.floor u c hmem
        omega
    have hwave : (u, s.level v + 1) ∈ wave preds places.card old new (k + 1) := by
      obtain ⟨g', hg', hwalk'⟩ := (mem_behind hpreds).mp hv
      have hlevel := hattained.level_lt hR hplaces hstep hlive
      exact mem_wave.mpr ⟨(mem_behind hpreds).mpr ⟨g', hg', .cons hstep hwalk'⟩, by omega, by omega,
        hfresh⟩
    refine ⟨next ++ [(u, s.level v + 1)], ⟨?_, h.cur_length, fun w hw => ?_, ?_, fun p hp => ?_,
      fun w c hw => (h.floor w c hw).trans (hmono w)⟩⟩
    · rw [heq]
      simp [h.queue]
    · exact ⟨(h.cur_spec w hw).1, (h.cur_spec w hw).2.trans (hmono w)⟩
    · -- a level that has been given before is no news
      refine List.nodup_append.mpr ⟨h.next_nodup, List.nodup_singleton _, fun p hp q hq hpq => ?_⟩
      obtain rfl := List.mem_singleton.mp hq
      have hle := (h.next_spec p hp).2
      rw [hpq] at hle
      dsimp only at hle
      omega
    · rcases List.mem_append.mp hp with hp | hp
      · exact ⟨(h.next_spec p hp).1, (h.next_spec p hp).2.trans (hmono p.1)⟩
      · obtain rfl := List.mem_singleton.mp hp
        exact ⟨hwave, hself.ge⟩
  · have heq : s.raise v u = s := if_neg hlt
    rw [heq]
    exact ⟨next, h⟩

theorem Rolling.scan (hpreds : ∀ u v, u ∈ preds v ↔ R u v) (hR : Acyclic R)
    (hplaces : ∀ a b, R a b → a ∈ places ∧ b ∈ places)
    (hcap : cur.length + width preds places.card old new (k + 1) ≤ cap)
    (h : Rolling preds places.card old new k cur next s) (us : List α) (hus : ∀ u ∈ us, R u v)
    (hscan : s.Scanning R (fun g => g ∈ old ∨ g ∈ new) v us)
    (hlive : s.Live (fun g => g ∈ old ∨ g ∈ new) v) (hv : v ∈ behind preds k new)
    (hk : k ≤ s.level v) :
    ScanFits cap v us s ∧
      ∃ next', Rolling preds places.card old new k cur next' (s.scan v us) := by
  induction us generalizing next s with
  | nil => exact ⟨trivial, next, h⟩
  | cons u us ih =>
    have hstep := hus u List.mem_cons_self
    obtain ⟨next', h'⟩ := h.raise hpreds hR hplaces hscan.attained hlive hv hk hstep
    obtain ⟨hfits, hrest⟩ := ih h' (fun u' hu' => hus u' (List.mem_cons_of_mem u hu'))
      (hscan.raise hR hstep hlive) hlive.raise (hk.trans (level_le_raise v u v s))
    refine ⟨⟨?_, hfits⟩, hrest⟩
    have hlen := h'.next_length
    rw [h'.queue, List.length_append, List.length_map]
    omega

/-- If no two waves in a row are wider than the queue, one place of the first being off it, nothing
overflows. -/
theorem Rolling.fits (hpreds : ∀ u v, u ∈ preds v ↔ R u v) (hR : Acyclic R)
    (hplaces : ∀ a b, R a b → a ∈ places ∧ b ∈ places)
    (hcap : ∀ k ≤ places.card,
      width preds places.card old new k + width preds places.card old new (k + 1) ≤ cap + 1)
    (hwait : s.Waiting R fun g => g ∈ old ∨ g ∈ new)
    (h : Rolling preds places.card old new k cur next s) (fuel : Nat) : s.Fits cap preds fuel := by
  induction fuel generalizing k cur next s with
  | zero => trivial
  | succ fuel ih =>
    unfold Fits
    cases hqueue : s.queue with
    | nil => trivial
    | cons v queue =>
      obtain ⟨k, cur, next, h⟩ := h.exists_cons hqueue
      have hlive := hwait.live v (hqueue ▸ List.mem_cons_self)
      have hscan := hwait.scanning hqueue fun u hu => (hpreds u v).mpr hu
      have hus : ∀ u ∈ preds v, R u v := fun u hu => (hpreds u v).mp hu
      obtain ⟨hv, hk⟩ := h.cur_spec v List.mem_cons_self
      have hkn : k ≤ places.card := by
        obtain ⟨g, -, hwalk⟩ := (mem_behind hpreds).mp hv
        exact Walk.length_le hR (fun a b hab => (hplaces a b hab).2) hwalk
      have hrest : queue = cur ++ next.map Prod.fst := by
        have heq := hqueue.symm.trans h.queue
        rw [List.cons_append] at heq
        exact (List.cons.inj heq).2
      have hpopped : Rolling preds places.card old new k cur next { s with queue := queue } :=
        ⟨hrest, (Nat.le_succ _).trans h.cur_length, fun w hw => h.cur_spec w (List.mem_cons_of_mem v hw),
          h.next_nodup, h.next_spec, h.floor⟩
      have hlen : cur.length + width preds places.card old new (k + 1) ≤ cap := by
        have hcur := h.cur_length
        have hsum := hcap k hkn
        rw [List.length_cons] at hcur
        omega
      obtain ⟨hfits, next', hnext⟩ :=
        hpopped.scan hpreds hR hplaces hlen (preds v) hus hscan hlive hv hk
      exact ⟨hfits, ih (hscan.scan hR _ hus hlive) hnext⟩

theorem fits_of_width (hpreds : ∀ u v, u ∈ preds v ↔ R u v) (hR : Acyclic R)
    (hplaces : ∀ a b, R a b → a ∈ places ∧ b ∈ places)
    (hcap : ∀ k ≤ places.card,
      width preds places.card old new k + width preds places.card old new (k + 1) ≤ cap + 1)
    {level : α → Nat} (hdepth : ∀ v, Depth R (· ∈ old) v (level v)) (fuel : Nat) :
    Fits cap preds fuel ⟨level, new⟩ := by
  have hwait : Waiting R (fun g => g ∈ old ∨ g ∈ new) ⟨level, new⟩ :=
    waiting_start hdepth fun _ => Iff.rfl
  have hstart : Rolling preds places.card old new 0 new [] ⟨level, new⟩ :=
    { queue := by simp
      cur_length := le_rfl
      cur_spec := fun v hv => ⟨(mem_behind hpreds).mpr ⟨v, hv, .nil v⟩, Nat.zero_le _⟩
      next_nodup := List.nodup_nil
      next_spec := by simp
      floor := fun u c hu => by
        obtain ⟨g, hg, hwalk⟩ := (mem_behind hpreds).mp hu
        exact (hdepth u).le g c hg hwalk }
  exact hstart.fits hpreds hR hplaces hcap hwait fuel

end

end G361FPlatform.Library.Relaxation
