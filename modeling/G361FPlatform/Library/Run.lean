import Mathlib.Logic.Basic

namespace G361FPlatform.Library

/-- `P` holds of every state a run goes through. -/
def Always (step : σ → α → σ) (P : σ → Prop) : σ → List α → Prop
  | s, [] => P s
  | s, a :: as => P s ∧ Always step P (step s a) as

/-- `C` holds of every step of a run, in the state it is taken from. -/
def Every (step : σ → α → σ) (C : σ → α → Prop) : σ → List α → Prop
  | _, [] => True
  | s, a :: as => C s a ∧ Every step C (step s a) as

section

variable {step : σ → α → σ} {I P Q : σ → Prop} {C : σ → α → Prop}

theorem Always.imp (h : ∀ s, P s → Q s) {s : σ} {as : List α} (hrun : Always step P s as) :
    Always step Q s as := by
  induction as generalizing s with
  | nil => exact h s hrun
  | cons a as ih => exact ⟨h s hrun.1, ih hrun.2⟩

theorem Always.head {s : σ} {as : List α} (hrun : Always step P s as) : P s := by
  cases as with
  | nil => exact hrun
  | cons a as => exact hrun.1

theorem Always.and {s : σ} {as : List α} (hP : Always step P s as) (hQ : Always step Q s as) :
    Always step (fun s => P s ∧ Q s) s as := by
  induction as generalizing s with
  | nil => exact ⟨hP, hQ⟩
  | cons a as ih => exact ⟨⟨hP.1, hQ.1⟩, ih hP.2 hQ.2⟩

theorem every_of_forall {D : α → Prop} {as : List α} (h : ∀ a ∈ as, D a) (s : σ) :
    Every step (fun _ a => D a) s as := by
  induction as generalizing s with
  | nil => trivial
  | cons a as ih => exact ⟨h a List.mem_cons_self, ih (fun b hb => h b (List.mem_cons_of_mem a hb)) _⟩

theorem Always.every (h : ∀ s a, P (step s a) → C s a) {s : σ} {as : List α} (hrun : Always step P s as) :
    Every step C s as := by
  induction as generalizing s with
  | nil => trivial
  | cons a as ih =>
    refine ⟨h s a ?_, ih hrun.2⟩
    cases as with
    | nil => exact hrun.2
    | cons b bs => exact hrun.2.1

/-- An invariant that every good step keeps holds all along a run of good steps. -/
theorem always_of_every (hstep : ∀ s a, I s → C s a → I (step s a)) {s : σ} (hs : I s)
    {as : List α} (hrun : Every step C s as) : Always step I s as := by
  induction as generalizing s with
  | nil => exact hs
  | cons a as ih => exact ⟨hs, ih (hstep s a hs hrun.1) hrun.2⟩

/-- What the invariant and a good step give, all along a run of good steps. -/
theorem every_of_every (hstep : ∀ s a, I s → C s a → I (step s a)) (h : ∀ s a, I s → C s a → D s a) {s : σ}
    (hs : I s) {as : List α} (hrun : Every step C s as) : Every step D s as := by
  induction as generalizing s with
  | nil => trivial
  | cons a as ih => exact ⟨h s a hs hrun.1, ih (hstep s a hs hrun.1) hrun.2⟩

theorem every_congr {R : σ → α → Prop} (hstep : ∀ s a, I s → R s a → I (step s a))
    (h : ∀ s a, I s → R s a → (C s a ↔ D s a)) {s : σ} (hs : I s) {as : List α} (hrun : Every step R s as) :
    Every step C s as ↔ Every step D s as := by
  induction as generalizing s with
  | nil => exact Iff.rfl
  | cons a as ih => exact and_congr (h s a hs hrun.1) (ih (hstep s a hs hrun.1) hrun.2)

theorem every_iff_every (h : ∀ s a, I s → (C s a ↔ D s a)) (hkeep : ∀ s a, I s → C s a → I (step s a)) {s : σ}
    (hs : I s) (as : List α) : Every step C s as ↔ Every step D s as := by
  induction as generalizing s with
  | nil => exact Iff.rfl
  | cons a as ih =>
    unfold Every
    rw [h s a hs]
    exact and_congr_right fun hD => ih (hkeep s a hs ((h s a hs).mpr hD))

/-- Where a step keeps `P` exactly when `C` holds of it, a run keeps `P` exactly when `C` holds of
its steps. -/
theorem always_iff_every (hP : ∀ s, I s → P s) (hstep : ∀ s a, I s → (P (step s a) ↔ C s a))
    (hkeep : ∀ s a, I s → P (step s a) → I (step s a)) {s : σ} (hs : I s) (as : List α) :
    Always step P s as ↔ Every step C s as := by
  induction as generalizing s with
  | nil => exact iff_of_true (hP s hs) trivial
  | cons a as ih =>
    constructor
    · intro hrun
      have hnext : P (step s a) := (hrun.every (C := fun s a => P (step s a)) fun _ _ h => h).1
      exact ⟨(hstep s a hs).mp hnext, (ih (hkeep s a hs hnext)).mp hrun.2⟩
    · intro hrun
      exact ⟨hP s hs, (ih (hkeep s a hs ((hstep s a hs).mpr hrun.1))).mpr hrun.2⟩

end

end G361FPlatform.Library
