import G361FPlatform.Library.Outcome

namespace G361FPlatform.Library

/-! Computations that are given a number of steps: how those that come to an end do not depend on it. -/

/-- What a computation comes to with fewer steps and with more: the same, unless the fewer run out. -/
def Approx (x y : Except Stuck α) : Prop := x = .error .fuel ∨ y = x

/-- More steps change nothing where there have been enough. -/
def Steady (x : Nat → Except Stuck α) : Prop := ∀ m n, m ≤ n → Approx (x m) (x n)

/-- Some number of steps is enough. -/
def Settles (x : Nat → Except Stuck α) : Prop := ∃ n, x n ≠ .error .fuel

/-- Some number of steps leads to a fault. -/
def Faults (x : Nat → Except Stuck α) : Prop := ∃ n, x n = .error .fault

open Outcome

theorem Approx.refl (x : Except Stuck α) : Approx x x := .inr rfl

theorem Approx.map {x y : Except Stuck α} (h : Approx x y) (f : α → β) : Approx (x.map f) (y.map f) := by
  rcases h with rfl | rfl
  · exact .inl rfl
  · exact .refl _

theorem Approx.andThen {x y : Outcome σ} {f g : Int → σ → Outcome σ} (h : Approx x y)
    (hf : ∀ ret s, Approx (f ret s) (g ret s)) : Approx (andThen x f) (andThen y g) := by
  rcases h with rfl | rfl
  · exact .inl rfl
  cases y with
  | error e => exact .refl _
  | ok p =>
    obtain ⟨ret, s⟩ := p
    by_cases hneg : ret < 0
    · rw [andThen_ok_neg hneg, andThen_ok_neg hneg]
      exact .refl _
    · rw [andThen_ok_nonneg (Int.not_lt.mp hneg), andThen_ok_nonneg (Int.not_lt.mp hneg)]
      exact hf ret s

theorem steady_const (x : Except Stuck α) : Steady fun _ => x := fun _ _ _ => .refl x

section

variable {x : Nat → Except Stuck α} {m n : Nat}

theorem Steady.eq_of_le (h : Steady x) (hle : m ≤ n) (hm : x m ≠ .error .fuel) : x n = x m :=
  (h m n hle).resolve_left hm

theorem Steady.eq (h : Steady x) (hm : x m ≠ .error .fuel) (hn : x n ≠ .error .fuel) : x m = x n := by
  rcases Nat.le_total m n with hle | hle
  · exact (h.eq_of_le hle hm).symm
  · exact h.eq_of_le hle hn

theorem Steady.map (h : Steady x) (f : α → β) : Steady fun n => (x n).map f :=
  fun m n hle => (h m n hle).map f

theorem map_eq_error_iff {y : Except Stuck α} {f : α → β} {e : Stuck} : y.map f = .error e ↔ y = .error e := by
  cases y with
  | error e' => exact ⟨fun h => congrArg _ (Except.error.inj h), fun h => congrArg _ (Except.error.inj h)⟩
  | ok a => exact iff_of_false nofun nofun

theorem settles_map_iff {f : α → β} : (Settles fun n => (x n).map f) ↔ Settles x :=
  exists_congr fun _ => not_congr map_eq_error_iff

theorem faults_map_iff {f : α → β} : (Faults fun n => (x n).map f) ↔ Faults x :=
  exists_congr fun _ => map_eq_error_iff

/-- Where it comes to an end without a fault, it comes to a result, and stays there. -/
theorem Steady.exists_ok (h : Steady x) (hends : Settles x) (hsafe : ¬Faults x) :
    ∃ bound, ∀ n, bound ≤ n → ∃ a, x n = .ok a := by
  obtain ⟨bound, hbound⟩ := hends
  refine ⟨bound, fun n hle => ?_⟩
  rw [h.eq_of_le hle hbound]
  cases hx : x bound with
  | error e =>
    cases e with
    | fault => exact absurd ⟨bound, hx⟩ hsafe
    | fuel => exact absurd hx hbound
  | ok a => exact ⟨a, rfl⟩

end

section

variable {x : Nat → Outcome σ} {f : Nat → Int → σ → Outcome σ}

theorem Steady.andThen (hx : Steady x) (hf : ∀ ret s, Steady fun n => f n ret s) :
    Steady fun n => andThen (x n) (f n) :=
  fun m n hle => (hx m n hle).andThen fun ret s => hf ret s m n hle

/-- A sequence comes to an end where both parts do. -/
theorem settles_andThen_iff (hx : Steady x) (hf : ∀ ret s, Steady fun n => f n ret s) :
    Settles (fun n => andThen (x n) (f n)) ↔
      Settles x ∧ ∀ n ret s, x n = .ok (ret, s) → 0 ≤ ret → Settles fun n => f n ret s := by
  constructor
  · rintro ⟨n, hn⟩
    dsimp only at hn
    rw [Ne, andThen_eq_error_iff, not_or] at hn
    obtain ⟨hxn, hfn⟩ := hn
    refine ⟨⟨n, hxn⟩, fun m ret s hm hret => ⟨n, fun hfuel => hfn ⟨ret, s, ?_, hret, hfuel⟩⟩⟩
    exact (hx.eq hxn (by simp [hm])).trans hm
  · rintro ⟨⟨n, hn⟩, hrest⟩
    by_cases hgood : ∃ ret s, x n = .ok (ret, s) ∧ 0 ≤ ret
    · obtain ⟨ret, s, hxn, hret⟩ := hgood
      obtain ⟨m, hm⟩ := hrest n ret s hxn hret
      refine ⟨max n m, ?_⟩
      dsimp only at hm ⊢
      rw [hx.eq_of_le (Nat.le_max_left n m) hn, hxn, andThen_ok_nonneg hret,
        (hf ret s).eq_of_le (Nat.le_max_right n m) hm]
      exact hm
    · exact ⟨n, andThen_ne_error hn fun ret s hxn hret => absurd ⟨ret, s, hxn, hret⟩ hgood⟩

/-- A sequence comes to a fault in one of its parts. -/
theorem faults_andThen_iff (hx : Steady x) (hf : ∀ ret s, Steady fun n => f n ret s) :
    Faults (fun n => andThen (x n) (f n)) ↔
      Faults x ∨ ∃ n ret s, x n = .ok (ret, s) ∧ 0 ≤ ret ∧ Faults fun n => f n ret s := by
  constructor
  · rintro ⟨n, hn⟩
    rcases andThen_eq_error_iff.mp hn with hfault | ⟨ret, s, hxn, hret, hfault⟩
    · exact .inl ⟨n, hfault⟩
    · exact .inr ⟨n, ret, s, hxn, hret, n, hfault⟩
  · rintro (⟨n, hn⟩ | ⟨n, ret, s, hn, hret, m, hm⟩)
    · exact ⟨n, andThen_eq_error_iff.mpr (.inl hn)⟩
    · refine ⟨max n m, andThen_eq_error_iff.mpr (.inr ⟨ret, s, ?_, hret, ?_⟩)⟩
      · rw [hx.eq_of_le (Nat.le_max_left n m) (by simp [hn]), hn]
      · exact ((hf ret s).eq_of_le (Nat.le_max_right n m) (by simp [hm])).trans hm

end

end G361FPlatform.Library
