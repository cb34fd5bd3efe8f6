import Mathlib.Data.List.Basic
import G361FPlatform.Dnsmasq.Snooper

namespace G361FPlatform.Dnsmasq

open Library

def Answer.succeeds : Answer → Bool
  | .socket ok => ok
  | .indextoname name => name.isSome
  | .gettimeofday sec => sec.isSome
  | .select selected => selected ≠ .failed
  | .recvfrom _ => true
  | .done => true

def Event.succeeds : Event → Bool
  | .thread _ answer => answer.succeeds
  | _ => true

variable {exec : Exec κ}

inductive Thread.Outcome (t t' : Thread) (g g' : Snooped κ) (answer : Answer) : Prop
  | stays (pc : t'.pc.working = t.pc.working) (tId : g'.tId = g.tId)
  | clears (before : t.pc.working = true) (after : t'.pc.working = false) (tId : g'.tId = 0)
  | fails (before : t.pc.working = true) (after : t'.pc.working = false) (tId : g'.tId = g.tId)
    (failed : answer.succeeds = false)

theorem Thread.step_cases {t t' : Thread} {g g' : Snooped κ} {answer : Answer}
    (h : t.step exec g answer = some (t', g')) : Thread.Outcome t t' g g' answer := by
  unfold Thread.step at h
  split at h
  case h_1 ok =>
    split at h <;> cases h
    next hpc =>
      cases ok with
      | true => exact .stays (by rw [hpc]; rfl) rfl
      | false => exact .fails (by rw [hpc]; rfl) rfl rfl rfl
  case h_2 =>
    split at h <;> cases h
    next hpc => exact .fails (by rcases hpc with hpc | hpc <;> rw [hpc] <;> rfl) rfl rfl rfl
  case h_3 name =>
    split at h
    next hpc =>
      cases h
      exact .stays (by rw [hpc]; rfl) rfl
    · split at h <;> cases h
      next hpc => exact .stays (by rw [hpc]; rfl) rfl
  case h_4 =>
    split at h <;> cases h
    next hpc => exact .fails (by rcases hpc with hpc | hpc <;> rw [hpc] <;> rfl) rfl rfl rfl
  case h_5 sec =>
    split at h
    next hpc =>
      cases h
      exact .stays (by rw [hpc]; rfl) rfl
    · split at h <;> cases h
      next hpc =>
        refine .stays ?_ rfl
        dsimp only
        rw [hpc]
        split <;> rfl
  case h_6 selected =>
    split at h <;> cases h
    next hpc =>
      cases selected with
      | failed => exact .fails (by rw [hpc]; rfl) rfl rfl rfl
      | _ => exact .stays (by rw [hpc] <;> rfl) rfl
  case h_7 received =>
    split at h <;> cases h
    next hpc =>
      refine .stays ?_ rfl
      rw [hpc]
      dsimp only
      split
      · rfl
      · split <;> rfl
  case h_8 =>
    split at h
    next hpc =>
      cases h
      exact .clears (by rw [hpc]; rfl) rfl rfl
    · split at h <;> cases h
      next hpc => exact .stays (by rw [hpc]; rfl) rfl

def Snooper.workers (s : Snooper κ) : Nat := s.threads.countP fun t => t.pc.working

theorem workers_set {threads : List Thread} {i : Nat} {t : Thread} (h : threads[i]? = some t) (t' : Thread) :
    (threads.set i t').countP (fun t => t.pc.working) + (if t.pc.working then 1 else 0) =
      threads.countP (fun t => t.pc.working) + if t'.pc.working then 1 else 0 := by
  obtain ⟨hi, rfl⟩ := List.getElem?_eq_some_iff.mp h
  rw [List.countP_set hi]
  have hpos : threads[i].pc.working = true → 0 < threads.countP fun t => t.pc.working :=
    fun hworking => List.countP_pos_iff.mpr ⟨_, List.getElem_mem hi, hworking⟩
  by_cases hworking : threads[i].pc.working = true
  · have := hpos hworking
    simp only [hworking, if_true]
    omega
  · simp only [hworking, if_false, Bool.false_eq_true]
    omega

structure Snooper.Tracked (s : Snooper κ) : Prop where
  workers : s.workers = if s.globals.tId = 0 then 0 else 1
  creating : s.main = .creating → s.globals.tId = 0

structure Snooper.Wedged (s : Snooper κ) : Prop where
  workers : s.workers = 0
  tId : s.globals.tId ≠ 0
  main : s.main ≠ .creating

theorem tracked_init (k : κ) : (Snooper.init k).Tracked := ⟨rfl, fun h => nomatch h⟩

theorem Snooper.step_thread {s s' : Snooper κ} {i : Nat} {answer : Answer}
    (h : s.step exec (.thread i answer) = some s') : ∃ t t' g', s.threads[i]? = some t ∧
      t.step exec s.globals answer = some (t', g') ∧ s' = { s with threads := s.threads.set i t', globals := g' } := by
  obtain ⟨t, ht, h⟩ := Option.bind_eq_some_iff.mp h
  obtain ⟨⟨t', g'⟩, hstep, h⟩ := Option.bind_eq_some_iff.mp h
  cases h
  exact ⟨t, t', g', ht, hstep, rfl⟩

theorem Snooper.Tracked.step {s s' : Snooper κ} {e : Event} (hs : s.Tracked) (h : s.step exec e = some s') :
    s'.Tracked ∨ s'.Wedged ∧ e.succeeds = false := by
  cases e with
  | start ifIndex =>
    unfold Snooper.step at h
    dsimp only at h
    split at h <;> cases h
    refine .inl ⟨hs.workers, ?_⟩
    dsimp only
    split
    next hzero => exact fun _ => hzero
    · exact fun h => nomatch h
  | create id frame =>
    unfold Snooper.step at h
    dsimp only at h
    split at h <;> cases h
    next hmain =>
      refine .inl ⟨?_, fun h => nomatch h⟩
      have hworkers := hs.workers
      rw [if_pos (hs.creating hmain.1)] at hworkers
      rw [if_neg hmain.2, Snooper.workers, List.countP_append, ← Snooper.workers, hworkers]
      rfl
  | restamp sec =>
    unfold Snooper.step at h
    dsimp only at h
    split at h <;> cases h
    exact .inl ⟨hs.workers, fun h => nomatch h⟩
  | thread i answer =>
    obtain ⟨t, t', g', ht, hstep, rfl⟩ := Snooper.step_thread h
    have hworkers := workers_set ht t'
    have hbefore := hs.workers
    unfold Snooper.workers at hbefore
    rw [hbefore] at hworkers
    cases Thread.step_cases hstep with
    | stays hpc htId =>
      rw [hpc] at hworkers
      refine .inl ⟨?_, fun hmain => htId.trans (hs.creating hmain)⟩
      rw [htId]
      exact Nat.add_right_cancel hworkers
    | clears hpc hpc' htId =>
      rw [hpc, hpc'] at hworkers
      refine .inl ⟨?_, fun _ => htId⟩
      rw [if_pos htId]
      change (s.threads.set i t').countP (fun t => t.pc.working) = 0
      simp only [if_true, Bool.false_eq_true, if_false] at hworkers
      split at hworkers <;> omega
    | fails hpc hpc' htId hfailed =>
      rw [hpc, hpc'] at hworkers
      simp only [if_true, Bool.false_eq_true, if_false] at hworkers
      refine .inr ⟨⟨?_, ?_, ?_⟩, hfailed⟩
      · change (s.threads.set i t').countP (fun t => t.pc.working) = 0
        split at hworkers <;> omega
      · intro hzero
        rw [htId] at hzero
        rw [if_pos hzero] at hworkers
        omega
      · intro hmain
        rw [if_pos (hs.creating hmain)] at hworkers
        omega

theorem Snooper.Wedged.step {s s' : Snooper κ} {e : Event} (hs : s.Wedged) (h : s.step exec e = some s') :
    s'.Wedged := by
  cases e with
  | start ifIndex =>
    unfold Snooper.step at h
    dsimp only at h
    split at h <;> cases h
    refine ⟨hs.workers, hs.tId, ?_⟩
    dsimp only
    rw [if_neg hs.tId]
    exact fun h => nomatch h
  | create id frame =>
    unfold Snooper.step at h
    dsimp only at h
    split at h <;> cases h
    next hmain => exact absurd hmain.1 hs.main
  | restamp sec =>
    unfold Snooper.step at h
    dsimp only at h
    split at h <;> cases h
    exact ⟨hs.workers, hs.tId, fun h => nomatch h⟩
  | thread i answer =>
    obtain ⟨t, t', g', ht, hstep, rfl⟩ := Snooper.step_thread h
    have hworkers := workers_set ht t'
    have hbefore := hs.workers
    unfold Snooper.workers at hbefore
    have hidle : t.pc.working = false := by
      have := List.countP_eq_zero.mp hbefore t (List.mem_of_getElem? ht)
      simpa using this
    cases Thread.step_cases hstep with
    | stays hpc htId =>
      rw [hpc, hbefore] at hworkers
      refine ⟨?_, ?_, hs.main⟩
      · rw [Snooper.workers]
        exact Nat.add_right_cancel hworkers
      · rw [htId]
        exact hs.tId
    | clears hpc => exact absurd (hidle.symm.trans hpc) Bool.noConfusion
    | fails hpc => exact absurd (hidle.symm.trans hpc) Bool.noConfusion

/-- Every run without an error exit keeps the flag right; after one, nothing clears it. -/
theorem Snooper.tracked_or_wedged {s s' : Snooper κ} {events : List Event} (hs : s.Tracked)
    (h : s.run exec events = some s') :
    s'.Tracked ∨ s'.Wedged ∧ ∃ e ∈ events, e.succeeds = false := by
  induction events generalizing s with
  | nil =>
    cases h
    exact .inl hs
  | cons e events ih =>
    obtain ⟨s₁, hstep, hrun⟩ := Option.bind_eq_some_iff.mp h
    rcases hs.step hstep with htracked | ⟨hwedged, hfailed⟩
    · exact (ih htracked hrun).imp_right fun ⟨hwedged, e', he', hfailed⟩ =>
        ⟨hwedged, e', List.mem_cons_of_mem _ he', hfailed⟩
    · refine .inr ⟨?_, e, List.mem_cons_self, hfailed⟩
      clear ih hstep h
      induction events generalizing s₁ with
      | nil =>
        cases hrun
        exact hwedged
      | cons e' events ih =>
        obtain ⟨s₂, hstep, hrun⟩ := Option.bind_eq_some_iff.mp hrun
        exact ih _ hrun (hwedged.step hstep)

/-- The flag is clear whenever no thread runs, and no thread is at work when one is created. -/
structure Snooper.Restartable (s : Snooper κ) : Prop where
  restart : (∀ t ∈ s.threads, t.pc = .exited) → s.globals.tId = 0
  single : s.main = .creating → ∀ t ∈ s.threads, t.pc.working = false

theorem Snooper.Tracked.restartable {s : Snooper κ} (hs : s.Tracked) : s.Restartable := by
  have hworkers := hs.workers
  refine ⟨fun hexited => ?_, fun hmain t ht => ?_⟩
  · by_contra hset
    rw [if_neg hset] at hworkers
    have hpos : 0 < s.threads.countP fun t => t.pc.working := Nat.lt_of_lt_of_eq Nat.one_pos hworkers.symm
    obtain ⟨t, ht, hworking⟩ := List.countP_pos_iff.mp hpos
    rw [hexited t ht] at hworking
    exact Bool.noConfusion hworking
  · rw [if_pos (hs.creating hmain)] at hworkers
    rw [← Bool.not_eq_true]
    exact List.countP_eq_zero.mp hworkers t ht

/-- The snooper can be restarted in every state of every run in which no thread leaves by an
error exit. -/
theorem restartable_of_run (exec : Exec κ) (k : κ) {events : List Event} {s : Snooper κ}
    (hrun : (Snooper.init k).run exec events = some s) (hok : ∀ e ∈ events, e.succeeds = true) :
    s.Restartable := by
  rcases Snooper.tracked_or_wedged (tracked_init k) hrun with htracked | ⟨-, e, he, hfailed⟩
  · exact htracked.restartable
  · rw [hok e he] at hfailed
    exact Bool.noConfusion hfailed

def timedOut : List Event :=
  [.start 3, .create 1 ⟨0, 0, fun _ => 0⟩, .thread 0 (.socket true), .thread 0 (.indextoname (some ("wlan0" : CString))),
    .thread 0 (.gettimeofday (some 0)), .thread 0 (.select .timeout), .thread 0 (.gettimeofday (some 11)),
    .thread 0 .done, .thread 0 .done, .start 3]

theorem restartable_of_run_timedOut : ∃ s,
    (Snooper.init ()).run (fun _ _ _ => (true, ())) timedOut = some s ∧ s.Restartable :=
  ⟨_, rfl, @restartable_of_run _ (fun _ _ _ => (true, ())) () timedOut _ rfl (by decide)⟩

/-- The first thread cannot open its socket. -/
theorem not_restartable_socket : ¬∀ (events : List Event) (s : Snooper Unit),
    (Snooper.init ()).run (fun _ _ _ => (true, ())) events = some s → s.Restartable := by
  intro h
  have hlast := h [.start 3, .create 1 ⟨0, 0, fun _ => 0⟩, .thread 0 (.socket false)] _ rfl
  refine absurd (hlast.restart ?_) (by decide)
  intro t ht
  rw [List.mem_singleton.mp ht]
  rfl

end G361FPlatform.Dnsmasq
