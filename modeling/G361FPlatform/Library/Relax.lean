import G361FPlatform.Library.Digraph
import Mathlib.Algebra.BigOperators.Group.Finset.Basic
import Mathlib.Algebra.Order.BigOperators.Group.Finset

namespace G361FPlatform.Library

/-- The state of a relaxation that pushes levels up against the edges, first in, first out. -/
structure Relaxation (α : Type u) where
  level : α → Nat
  queue : List α

namespace Relaxation

section

variable {α : Type u} [DecidableEq α]

/-- `u` comes to lie above `v`, and waits if that is news. -/
def raise (v u : α) (s : Relaxation α) : Relaxation α :=
  if s.level u < s.level v + 1 then
    { level := Function.update s.level u (s.level v + 1), queue := s.queue ++ [u] }
  else s

def scan (v : α) : List α → Relaxation α → Relaxation α
  | [], s => s
  | u :: us, s => scan v us (s.raise v u)

/-- The relaxation until nothing waits any more; `preds` lists where the edges to a place come
from.  The number bounds the rounds. -/
def run (preds : α → List α) : Nat → Relaxation α → Option (Relaxation α)
  | 0, _ => none
  | fuel + 1, s =>
    match s.queue with
    | [] => some s
    | v :: queue => run preds fuel (scan v (preds v) { s with queue := queue })

/-- No more than `cap` places ever wait at a time. -/
def ScanFits (cap : Nat) (v : α) : List α → Relaxation α → Prop
  | [], _ => True
  | u :: us, s => (s.raise v u).queue.length ≤ cap ∧ ScanFits cap v us (s.raise v u)

def Fits (cap : Nat) (preds : α → List α) : Nat → Relaxation α → Prop
  | 0, _ => True
  | fuel + 1, s =>
    match s.queue with
    | [] => True
    | v :: queue =>
      ScanFits cap v (preds v) { s with queue := queue } ∧
        Fits cap preds fuel (scan v (preds v) { s with queue := queue })

end

section

variable {α : Type u} {R : α → α → Prop} {goal : α → Prop} {s : Relaxation α} {u v w : α}

/-- A goal is known to lead from here. -/
def Live (goal : α → Prop) (s : Relaxation α) (v : α) : Prop := goal v ∨ 0 < s.level v

/-- A level is the length of a walk to a goal. -/
def Attained (R : α → α → Prop) (goal : α → Prop) (s : Relaxation α) : Prop :=
  ∀ v, s.level v = 0 ∨ ∃ g, goal g ∧ Walk R v g (s.level v)

/-- What holds while `v` is scanned and the edges from `us` to it are still to come: levels are
lengths of walks, and an edge into a live place is settled, or its end waits. -/
structure Scanning (R : α → α → Prop) (goal : α → Prop) (v : α) (us : List α) (s : Relaxation α) :
    Prop where
  attained : s.Attained R goal
  live : ∀ w ∈ s.queue, s.Live goal w
  settled : ∀ u w, R u w → s.Live goal w → s.level w + 1 ≤ s.level u ∨ w ∈ s.queue ∨ w = v ∧ u ∈ us

/-- The same between two rounds. -/
structure Waiting (R : α → α → Prop) (goal : α → Prop) (s : Relaxation α) : Prop where
  attained : s.Attained R goal
  live : ∀ w ∈ s.queue, s.Live goal w
  settled : ∀ u w, R u w → s.Live goal w → s.level w + 1 ≤ s.level u ∨ w ∈ s.queue

theorem Attained.exists_walk (h : s.Attained R goal) (hv : s.Live goal v) :
    ∃ g, goal g ∧ Walk R v g (s.level v) := by
  rcases h v with hzero | hwalk
  · rw [hzero]
    exact ⟨v, hv.resolve_right (by omega), .nil v⟩
  · exact hwalk

theorem Attained.level_lt {places : Finset α} (hR : Acyclic R)
    (hplaces : ∀ a b, R a b → a ∈ places ∧ b ∈ places)
    (h : s.Attained R goal) (hstep : R u v) (hlive : s.Live goal v) : s.level v < places.card := by
  obtain ⟨g, -, hwalk⟩ := h.exists_walk hlive
  exact Walk.length_le hR (fun a b hab => (hplaces a b hab).2) (.cons hstep hwalk)

theorem Waiting.depth (h : s.Waiting R goal) (hqueue : s.queue = []) (v : α) :
    Depth R goal v (s.level v) := by
  have hlevel : ∀ {v g m}, goal g → Walk R v g m → s.Live goal v ∧ m ≤ s.level v := by
    intro v g m hg hwalk
    induction hwalk with
    | nil => exact ⟨.inl hg, Nat.zero_le _⟩
    | cons hstep _ ih =>
      obtain ⟨hlive, hle⟩ := ih hg
      have hsettled := (h.settled _ _ hstep hlive).resolve_right (by simp [hqueue])
      exact ⟨.inr (by omega), by omega⟩
  exact ⟨fun g m hg hwalk => (hlevel hg hwalk).2, h.attained v⟩

theorem waiting_start {old new : α → Prop} (hdepth : ∀ v, Depth R old v (s.level v))
    (hqueue : ∀ v, v ∈ s.queue ↔ new v) : s.Waiting R fun v => old v ∨ new v where
  attained := fun v => (hdepth v).attained.imp_right fun ⟨g, hg, hwalk⟩ => ⟨g, .inl hg, hwalk⟩
  live := fun w hw => .inl (.inr ((hqueue w).mp hw))
  settled := by
    intro u w hstep hlive
    by_cases hw : new w
    · exact .inr ((hqueue w).mpr hw)
    left
    have hreach : ∃ g, old g ∧ Walk R w g (s.level w) := by
      rcases (hdepth w).attained with hzero | hwalk
      · rw [hzero]
        rcases hlive with (hold | hnew) | hpos
        · exact ⟨w, hold, .nil w⟩
        · exact absurd hnew hw
        · omega
      · exact hwalk
    obtain ⟨g, hg, hwalk⟩ := hreach
    exact (hdepth u).le g _ hg (.cons hstep hwalk)

theorem waiting_zero (hzero : ∀ v, s.level v = 0) (hqueue : ∀ v, v ∈ s.queue ↔ goal v) :
    s.Waiting R goal where
  attained := fun v => .inl (hzero v)
  live := fun w hw => .inl ((hqueue w).mp hw)
  settled := fun _ w _ hlive => .inr ((hqueue w).mpr (hlive.resolve_right (by simp [hzero w])))

theorem Waiting.scanning {queue us : List α} (h : s.Waiting R goal) (hqueue : s.queue = v :: queue)
    (hus : ∀ u, R u v → u ∈ us) : Scanning R goal v us { s with queue := queue } where
  attained := h.attained
  live := fun w hw => h.live w (hqueue ▸ List.mem_cons_of_mem v hw)
  settled := by
    intro u w hstep hlive
    rcases h.settled u w hstep hlive with hle | hw
    · exact .inl hle
    · rw [hqueue] at hw
      rcases List.mem_cons.mp hw with rfl | hw
      · exact .inr (.inr ⟨rfl, hus u hstep⟩)
      · exact .inr (.inl hw)

theorem Scanning.waiting (h : s.Scanning R goal v []) : s.Waiting R goal :=
  ⟨h.attained, h.live, fun u w hstep hlive => (h.settled u w hstep hlive).imp_right fun h =>
    h.resolve_right fun h => nomatch h.2⟩

/-- Room the levels of `places` have left, and the places that wait.  A raise takes more from the
first than it adds to the second. -/
def potential (places : Finset α) (s : Relaxation α) : Nat :=
  2 * ∑ v ∈ places, (places.card - s.level v) + s.queue.length

variable {places : Finset α}

theorem potential_le (places : Finset α) (s : Relaxation α) :
    s.potential places ≤ 2 * (places.card * places.card) + s.queue.length := by
  have hsum : ∑ v ∈ places, (places.card - s.level v) ≤ places.card * places.card := by
    simpa using Finset.sum_le_card_nsmul places _ places.card fun v _ => Nat.sub_le _ (s.level v)
  unfold potential
  omega

variable [DecidableEq α]

theorem level_le_raise (v u w : α) (s : Relaxation α) : s.level w ≤ (s.raise v u).level w := by
  unfold raise
  split
  next hlt =>
    by_cases hw : w = u
    · subst hw
      simpa using hlt.le
    · simp [hw]
  · exact le_rfl

theorem mem_queue_raise {w : α} (hw : w ∈ s.queue) : w ∈ (s.raise v u).queue := by
  unfold raise
  split
  · exact List.mem_append_left _ hw
  · exact hw

theorem mem_queue_scan {w : α} (us : List α) (hw : w ∈ s.queue) : w ∈ (s.scan v us).queue := by
  induction us generalizing s with
  | nil => exact hw
  | cons u us ih => exact ih (mem_queue_raise hw)

theorem mem_queue_of_scan {w : α} (us : List α) (hw : (s.scan v us).level w ≠ s.level w) :
    w ∈ (s.scan v us).queue := by
  induction us generalizing s with
  | nil => exact absurd rfl hw
  | cons u us ih =>
    by_cases hraised : (s.raise v u).level w = s.level w
    · exact ih (hraised ▸ hw)
    · refine mem_queue_scan us ?_
      unfold raise at hraised ⊢
      split at hraised
      next hlt =>
        by_cases hwu : w = u
        · simp [hlt, hwu]
        · simp [hwu] at hraised
      · exact absurd rfl hraised

theorem Live.raise (h : s.Live goal w) : (s.raise v u).Live goal w :=
  h.imp_right fun h => lt_of_lt_of_le h (level_le_raise v u w s)

theorem Scanning.raise {us : List α} (hR : Acyclic R) (hstep : R u v) (hlive : s.Live goal v)
    (h : s.Scanning R goal v (u :: us)) : (s.raise v u).Scanning R goal v us := by
  have hne : v ≠ u := (hR.ne hstep).symm
  have hmono := fun w => level_le_raise v u w s
  by_cases hlt : s.level u < s.level v + 1
  · have heq : s.raise v u =
        { level := Function.update s.level u (s.level v + 1), queue := s.queue ++ [u] } := if_pos hlt
    have hother : ∀ w, w ≠ u → (s.raise v u).level w = s.level w := by
      intro w hw
      simp [heq, hw]
    have hself : (s.raise v u).level u = s.level v + 1 := by simp [heq]
    refine ⟨fun w => ?_, fun w hw => ?_, fun x w hxw hw => ?_⟩
    · by_cases hw : w = u
      · subst hw
        rw [hself]
        obtain ⟨g, hg, hwalk⟩ := h.attained.exists_walk hlive
        exact .inr ⟨g, hg, .cons hstep hwalk⟩
      · rw [hother w hw]
        exact h.attained w
    · rw [heq, List.mem_append, List.mem_singleton] at hw
      rcases hw with hw | rfl
      · exact (h.live w hw).raise
      · exact .inr (by omega)
    · by_cases hwu : w = u
      · exact .inr (.inl (by simp [heq, hwu]))
      have hold : s.Live goal w := by
        rw [Live, hother w hwu] at hw
        exact hw
      rw [hother w hwu]
      rcases h.settled x w hxw hold with hle | hwait | ⟨rfl, hx⟩
      · exact .inl (hle.trans (hmono x))
      · exact .inr (.inl (mem_queue_raise hwait))
      · rcases List.mem_cons.mp hx with rfl | hx
        · exact .inl hself.ge
        · exact .inr (.inr ⟨rfl, hx⟩)
  · have heq : s.raise v u = s := if_neg hlt
    rw [heq]
    refine ⟨h.attained, h.live, fun x w hxw hw => ?_⟩
    rcases h.settled x w hxw hw with hle | hwait | ⟨rfl, hx⟩
    · exact .inl hle
    · exact .inr (.inl hwait)
    · rcases List.mem_cons.mp hx with rfl | hx
      · exact .inl (by omega)
      · exact .inr (.inr ⟨rfl, hx⟩)

theorem Scanning.scan (hR : Acyclic R) (us : List α) (hus : ∀ u ∈ us, R u v) (hlive : s.Live goal v)
    (h : s.Scanning R goal v us) : (s.scan v us).Waiting R goal := by
  induction us generalizing s with
  | nil => exact h.waiting
  | cons u us ih =>
    have hstep := hus u List.mem_cons_self
    exact ih (fun u' hu' => hus u' (List.mem_cons_of_mem u hu')) hlive.raise (h.raise hR hstep hlive)

theorem potential_raise (hu : u ∈ places) (hle : s.level v + 1 ≤ places.card) :
    (s.raise v u).potential places ≤ s.potential places := by
  unfold raise
  split
  next hlt =>
    have hlow : ∑ w ∈ places, (places.card - Function.update s.level u (s.level v + 1) w) <
        ∑ w ∈ places, (places.card - s.level w) := by
      refine Finset.sum_lt_sum (fun w _ => ?_) ⟨u, hu, ?_⟩
      · by_cases hw : w = u
        · subst hw
          rw [Function.update_self]
          omega
        · rw [Function.update_of_ne hw]
      · rw [Function.update_self]
        omega
    simp only [potential, List.length_append, List.length_singleton]
    omega
  · exact le_rfl

theorem Scanning.potential_scan (hR : Acyclic R) (hplaces : ∀ a b, R a b → a ∈ places ∧ b ∈ places)
    (us : List α) (hus : ∀ u ∈ us, R u v) (hlive : s.Live goal v) (h : s.Scanning R goal v us) :
    (s.scan v us).potential places ≤ s.potential places := by
  induction us generalizing s with
  | nil => exact le_rfl
  | cons u us ih =>
    have hstep := hus u List.mem_cons_self
    refine (ih (fun u' hu' => hus u' (List.mem_cons_of_mem u hu')) hlive.raise
      (h.raise hR hstep hlive)).trans ?_
    exact potential_raise (hplaces u v hstep).1 (h.attained.level_lt hR hplaces hstep hlive)

/-- On a finite graph without cycles the relaxation ends, and the levels are then the depths. -/
theorem Waiting.run (hR : Acyclic R) (hplaces : ∀ a b, R a b → a ∈ places ∧ b ∈ places)
    {preds : α → List α}
    (hpreds : ∀ u v, u ∈ preds v ↔ R u v) (h : s.Waiting R goal) {fuel : Nat}
    (hfuel : s.potential places < fuel) :
    ∃ s', Relaxation.run preds fuel s = some s' ∧ ∀ v, Depth R goal v (s'.level v) := by
  induction fuel generalizing s with
  | zero => omega
  | succ fuel ih =>
    unfold Relaxation.run
    cases hqueue : s.queue with
    | nil => exact ⟨s, rfl, h.depth hqueue⟩
    | cons v queue =>
      have hlive : s.Live goal v := h.live v (hqueue ▸ List.mem_cons_self)
      have hscan := h.scanning hqueue fun u hu => (hpreds u v).mpr hu
      have hus : ∀ u ∈ preds v, R u v := fun u hu => (hpreds u v).mp hu
      refine ih (hscan.scan hR _ hus hlive) ?_
      refine lt_of_le_of_lt (hscan.potential_scan hR hplaces _ hus hlive) ?_
      have hlen : s.queue.length = queue.length + 1 := by rw [hqueue, List.length_cons]
      simp only [potential] at hfuel ⊢
      omega

theorem fits_of_run {preds : α → List α} {cap n : Nat} {s' : Relaxation α}
    (hrun : Relaxation.run preds n s = some s')
    (hfits : s.Fits cap preds n) (m : Nat) : s.Fits cap preds m := by
  induction n generalizing s m with
  | zero => cases hrun
  | succ n ih =>
    cases m with
    | zero => trivial
    | succ m =>
      unfold Relaxation.run at hrun
      unfold Fits at hfits ⊢
      cases hqueue : s.queue with
      | nil => trivial
      | cons v queue =>
        rw [hqueue] at hrun hfits
        exact ⟨hfits.1, ih hrun hfits.2 m⟩

end

end Relaxation

end G361FPlatform.Library
