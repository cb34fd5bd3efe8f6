import Mathlib.Tactic.Common

namespace G361FPlatform.Library

/-- Why a piece of C code has no result: it reads through a NULL pointer or outside an
object, or the evaluation ran out of the steps it was given. -/
inductive Stuck
  | fault | fuel
  deriving DecidableEq, Repr

/-- What a C function leaves behind: its `int` result and the state after it. -/
abbrev Outcome (σ : Type u) := Except Stuck (Int × σ)

theorem exists_of_map_eq_some {x : Except ε α} {f : α → β} {v : β}
    (h : x.toOption.map f = some v) : ∃ a, x = .ok a ∧ f a = v := by
  cases x with
  | error e => cases h
  | ok a => exact ⟨a, rfl, Option.some.inj h⟩

theorem bind_ok (a : α) (f : α → Except ε β) : (Except.ok a).bind f = f a := rfl

theorem map_ok (a : α) (f : α → β) : (Except.ok a : Except ε α).map f = .ok (f a) := rfl

theorem bind_eq_ok {x : Except ε α} {f : α → Except ε β} {b : β} (h : x.bind f = .ok b) :
    ∃ a, x = .ok a ∧ f a = .ok b := by
  cases x with
  | error e => cases h
  | ok a => exact ⟨a, rfl, h⟩

theorem map_eq_ok {x : Except ε α} {f : α → β} {b : β} (h : x.map f = .ok b) :
    ∃ a, x = .ok a ∧ f a = b := by
  cases x with
  | error e => cases h
  | ok a => exact ⟨a, rfl, Except.ok.inj h⟩

namespace Outcome

/-- `ret = x; if (ret < 0) return ret;` followed by `f`. -/
def andThen (x : Outcome σ) (f : Int → σ → Outcome σ) : Outcome σ :=
  match x with
  | .error e => .error e
  | .ok (ret, s) => if ret < 0 then .ok (ret, s) else f ret s

@[simp] theorem andThen_error (e : Stuck) (f : Int → σ → Outcome σ) :
    andThen (.error e) f = .error e := rfl

theorem andThen_ok_neg {ret : Int} (h : ret < 0) (s : σ) (f : Int → σ → Outcome σ) :
    andThen (.ok (ret, s)) f = .ok (ret, s) := if_pos h

theorem andThen_ok_nonneg {ret : Int} (h : 0 ≤ ret) (s : σ) (f : Int → σ → Outcome σ) :
    andThen (.ok (ret, s)) f = f ret s := if_neg (Int.not_lt.mpr h)

theorem andThen_assoc (x : Outcome σ) (f g : Int → σ → Outcome σ) :
    andThen (andThen x f) g = andThen x fun ret s => andThen (f ret s) g := by
  cases x with
  | error e => rfl
  | ok p =>
    obtain ⟨ret, s⟩ := p
    by_cases hneg : ret < 0
    · rw [andThen_ok_neg hneg, andThen_ok_neg hneg, andThen_ok_neg hneg]
    · rw [andThen_ok_nonneg (Int.not_lt.mp hneg), andThen_ok_nonneg (Int.not_lt.mp hneg)]

theorem andThen_eq_error_iff {x : Outcome σ} {f : Int → σ → Outcome σ} {e : Stuck} :
    andThen x f = .error e ↔ x = .error e ∨ ∃ ret s, x = .ok (ret, s) ∧ 0 ≤ ret ∧ f ret s = .error e := by
  cases x with
  | error e' => simp
  | ok p =>
    obtain ⟨ret, s⟩ := p
    by_cases hneg : ret < 0
    · rw [andThen_ok_neg hneg]
      refine iff_of_false nofun ?_
      rintro (h | ⟨ret', s', h, hret, -⟩)
      · cases h
      · cases h
        omega
    · have hret := Int.not_lt.mp hneg
      rw [andThen_ok_nonneg hret]
      constructor
      · exact fun h => .inr ⟨ret, s, rfl, hret, h⟩
      · rintro (h | ⟨ret', s', h, -, hf⟩)
        · cases h
        · cases h
          exact hf

theorem andThen_ne_error {x : Outcome σ} {f : Int → σ → Outcome σ} {e : Stuck} (hx : x ≠ .error e)
    (hf : ∀ ret s, x = .ok (ret, s) → 0 ≤ ret → f ret s ≠ .error e) : andThen x f ≠ .error e := by
  rw [Ne, andThen_eq_error_iff]
  rintro (h | ⟨ret, s, h, hret, herror⟩)
  · exact hx h
  · exact hf ret s h hret herror

theorem andThen_eq_ok {x : Outcome σ} {f : Int → σ → Outcome σ} {ret : Int} {s : σ}
    (h : andThen x f = .ok (ret, s)) :
    (ret < 0 ∧ x = .ok (ret, s)) ∨
      ∃ ret₁ s₁, 0 ≤ ret₁ ∧ x = .ok (ret₁, s₁) ∧ f ret₁ s₁ = .ok (ret, s) := by
  cases x with
  | error e => cases h
  | ok p =>
    obtain ⟨ret₁, s₁⟩ := p
    by_cases hneg : ret₁ < 0
    · rw [andThen_ok_neg hneg] at h
      cases h
      exact .inl ⟨hneg, rfl⟩
    · rw [andThen_ok_nonneg (Int.not_lt.mp hneg)] at h
      exact .inr ⟨ret₁, s₁, Int.not_lt.mp hneg, rfl, h⟩

theorem andThen_eq_ok_nonneg {x : Outcome σ} {f : Int → σ → Outcome σ} {ret : Int} {s : σ}
    (h : andThen x f = .ok (ret, s)) (hret : 0 ≤ ret) :
    ∃ ret₁ s₁, 0 ≤ ret₁ ∧ x = .ok (ret₁, s₁) ∧ f ret₁ s₁ = .ok (ret, s) := by
  rcases andThen_eq_ok h with ⟨hneg, -⟩ | h
  · omega
  · exact h

/-- Whenever the call returns, its result and the state after it satisfy `Q`. -/
def Post (x : Outcome σ) (Q : Int → σ → Prop) : Prop :=
  ∀ ret s, x = .ok (ret, s) → Q ret s

theorem post_ok {ret : Int} {s : σ} {Q : Int → σ → Prop} (h : Q ret s) :
    Post (.ok (ret, s)) Q := by
  intro ret' s' heq
  cases heq
  exact h

theorem post_error (e : Stuck) (Q : Int → σ → Prop) : Post (.error e) Q := by
  intro ret s heq
  cases heq

theorem Post.imp {x : Outcome σ} {Q R : Int → σ → Prop} (hx : Post x Q)
    (h : ∀ ret s, Q ret s → R ret s) : Post x R :=
  fun ret s heq => h ret s (hx ret s heq)

theorem Post.map {x : Outcome σ} {f : Int × σ → Int × τ} {Q : Int → τ → Prop}
    (h : Post x fun ret s => Q (f (ret, s)).1 (f (ret, s)).2) : Post (x.map f) Q := by
  intro ret s heq
  cases x with
  | error e => cases heq
  | ok p =>
    have hp : f p = (ret, s) := Except.ok.inj heq
    have hq : Q (f p).1 (f p).2 := h p.1 p.2 rfl
    rwa [hp] at hq

/-- The rule for sequenced calls: what the first one leaves is enough for the caller, either
at once or after the rest has run. -/
theorem Post.andThen {x : Outcome σ} {f : Int → σ → Outcome σ} {Q R : Int → σ → Prop}
    (hx : Post x R) (hneg : ∀ ret s, ret < 0 → R ret s → Q ret s)
    (hf : ∀ ret s, 0 ≤ ret → R ret s → Post (f ret s) Q) : Post (andThen x f) Q := by
  intro ret s heq
  rcases andThen_eq_ok heq with ⟨hret, hx'⟩ | ⟨ret₁, s₁, hret₁, hx', hf'⟩
  · exact hneg ret s hret (hx ret s hx')
  · exact hf ret₁ s₁ hret₁ (hx ret₁ s₁ hx') ret s hf'

theorem Post.andThen_inv {x : Outcome σ} {f : Int → σ → Outcome σ} {I : σ → Prop}
    (hx : Post x fun _ s => I s) (hf : ∀ ret s, I s → Post (f ret s) fun _ s => I s) :
    Post (Outcome.andThen x f) fun _ s => I s :=
  hx.andThen (fun _ _ _ h => h) (fun ret s _ h => hf ret s h)

/-- The call reads nothing it may not, and the state it leaves satisfies `I`. -/
structure Safe (x : Outcome σ) (I : σ → Prop) : Prop where
  noFault : x ≠ .error .fault
  post : Post x fun _ s => I s

theorem safe_ok {ret : Int} {s : σ} {I : σ → Prop} (h : I s) : Safe (.ok (ret, s)) I :=
  ⟨(fun heq => nomatch heq), post_ok h⟩

theorem safe_fuel (I : σ → Prop) : Safe (.error .fuel) I :=
  ⟨(fun heq => nomatch heq), post_error _ _⟩

theorem Safe.andThen {x : Outcome σ} {f : Int → σ → Outcome σ} {I J : σ → Prop} (hx : Safe x I)
    (hneg : ∀ s, I s → J s) (hf : ∀ ret s, I s → Safe (f ret s) J) : Safe (Outcome.andThen x f) J where
  noFault := andThen_ne_error hx.noFault fun ret s hres _ => (hf ret s (hx.post ret s hres)).noFault
  post := hx.post.andThen (fun _ s _ h => hneg s h) fun ret s _ h => (hf ret s h).post

end Outcome

end G361FPlatform.Library
