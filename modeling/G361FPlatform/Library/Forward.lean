import G361FPlatform.Library.Outcome

namespace G361FPlatform.Library

/-- A loop over the offsets below a bound.  A round returns from it or names an offset further on. -/
structure Forward (σ : Type u) where
  bound : Nat
  round : Nat → σ → Except Stuck (Option Nat × σ)
  advances : ∀ {o o' : Nat} {s s' : σ}, o < bound → round o s = .ok (some o', s') → o < o'

namespace Forward

def run (l : Forward σ) (o : Nat) (s : σ) : Except Stuck σ :=
  if ho : o < l.bound then
    match h : l.round o s with
    | .error e => .error e
    | .ok (none, s') => .ok s'
    | .ok (some o', s') =>
      have : o < o' := l.advances ho h
      l.run o' s'
  else .ok s
termination_by l.bound - o

variable {l : Forward σ} {o o' : Nat} {s s' : σ}

theorem run_step (ho : o < l.bound) (h : l.round o s = .ok (some o', s')) :
    l.run o s = l.run o' s' := by
  rw [run, dif_pos ho]
  split
  next heq => rw [h] at heq; cases heq
  next heq => rw [h] at heq; cases heq
  next heq => rw [h] at heq; cases heq; rfl

theorem run_return (ho : o < l.bound) (h : l.round o s = .ok (none, s')) : l.run o s = .ok s' := by
  rw [run, dif_pos ho]
  split
  next heq => rw [h] at heq; cases heq
  next heq => rw [h] at heq; cases heq; rfl
  next heq => rw [h] at heq; cases heq

theorem run_error {e : Stuck} (ho : o < l.bound) (h : l.round o s = .error e) :
    l.run o s = .error e := by
  rw [run, dif_pos ho]
  split
  next heq => rw [h] at heq; cases heq; rfl
  next heq => rw [h] at heq; cases heq
  next heq => rw [h] at heq; cases heq

theorem run_end (ho : l.bound ≤ o) (s : σ) : l.run o s = .ok s := by
  rw [run, dif_neg (Nat.not_lt.mpr ho)]

/-- The rule for the loop: `I` holds in front of every round, and `Q` when it is left. -/
theorem run_inv {I : Nat → σ → Prop} {Q : σ → Prop}
    (hround : ∀ o s, o < l.bound → I o s → ∃ next s', l.round o s = .ok (next, s') ∧
      (next = none → Q s') ∧ ∀ o', next = some o' → I o' s')
    (hend : ∀ o s, l.bound ≤ o → I o s → Q s) (hI : I o s) : ∃ s', l.run o s = .ok s' ∧ Q s' := by
  induction hn : l.bound - o using Nat.strongRecOn generalizing o s with
  | _ n ih =>
    rcases Nat.lt_or_ge o l.bound with ho | ho
    · obtain ⟨next, s', h, hreturn, hgo⟩ := hround o s ho hI
      cases next with
      | none => exact ⟨s', run_return ho h, hreturn rfl⟩
      | some o' =>
        have hlt := l.advances ho h
        rw [run_step ho h]
        exact ih (l.bound - o') (by omega) (hgo o' rfl) rfl
    · exact ⟨s, run_end ho s, hend o s ho hI⟩

theorem run_post {I : σ → Prop}
    (hround : ∀ o s next s', o < l.bound → I s → l.round o s = .ok (next, s') → I s') (hI : I s)
    (h : l.run o s = .ok s') : I s' := by
  induction hn : l.bound - o using Nat.strongRecOn generalizing o s with
  | _ n ih =>
    rcases Nat.lt_or_ge o l.bound with ho | ho
    · rcases hres : l.round o s with e | ⟨(_ | o'), s₁⟩
      · rw [run_error ho hres] at h
        cases h
      · rw [run_return ho hres] at h
        cases h
        exact hround o s none _ ho hI hres
      · have hlt := l.advances ho hres
        rw [run_step ho hres] at h
        exact ih (l.bound - o') (by omega) (hround o s _ s₁ ho hI hres) h rfl
    · rw [run_end ho] at h
      cases h
      exact hI

end Forward

end G361FPlatform.Library
