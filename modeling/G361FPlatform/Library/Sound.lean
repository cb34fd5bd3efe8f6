import G361FPlatform.Library.Outcome

namespace G361FPlatform.Library

/-- A computation that reads nothing it may not, and gives only what is `P`. -/
structure Sound (x : Except Stuck α) (P : α → Prop) : Prop where
  noFault : x ≠ .error .fault
  post : ∀ a, x = .ok a → P a

namespace Sound

theorem ok {a : α} {P : α → Prop} (h : P a) : Sound (.ok a) P where
  noFault heq := by cases heq
  post b heq := by
    cases heq
    exact h

theorem fuel (P : α → Prop) : Sound (.error .fuel) P where
  noFault heq := by cases heq
  post a heq := by cases heq

theorem imp {x : Except Stuck α} {P Q : α → Prop} (hx : Sound x P) (h : ∀ a, P a → Q a) : Sound x Q :=
  ⟨hx.noFault, fun a heq => h a (hx.post a heq)⟩

theorem map {x : Except Stuck α} {f : α → β} {P : β → Prop} (hx : Sound x fun a => P (f a)) :
    Sound (x.map f) P := by
  cases x with
  | error e =>
    refine ⟨fun heq => ?_, fun b heq => by cases heq⟩
    cases heq
    exact hx.noFault rfl
  | ok a => exact ok (hx.post a rfl)

theorem bind {x : Except Stuck α} {f : α → Except Stuck β} {P : α → Prop} {Q : β → Prop}
    (hx : Sound x P) (hf : ∀ a, P a → Sound (f a) Q) : Sound (x.bind f) Q := by
  cases x with
  | error e =>
    refine ⟨fun heq => ?_, fun b heq => by cases heq⟩
    cases heq
    exact hx.noFault rfl
  | ok a => exact hf a (hx.post a rfl)

end Sound

/-- A computation that has a result, and it is `P`. -/
def Yields (x : Except ε α) (P : α → Prop) : Prop := ∃ a, x = .ok a ∧ P a

namespace Yields

theorem ok {a : α} {P : α → Prop} (h : P a) : Yields (.ok a : Except ε α) P := ⟨a, rfl, h⟩

theorem imp {x : Except ε α} {P Q : α → Prop} (hx : Yields x P) (h : ∀ a, P a → Q a) : Yields x Q := by
  obtain ⟨a, rfl, ha⟩ := hx
  exact ok (h a ha)

theorem map {x : Except ε α} {f : α → β} {P : β → Prop} (hx : Yields x fun a => P (f a)) :
    Yields (x.map f) P := by
  obtain ⟨a, rfl, ha⟩ := hx
  exact ok ha

theorem bind {x : Except ε α} {f : α → Except ε β} {P : α → Prop} {Q : β → Prop}
    (hx : Yields x P) (hf : ∀ a, P a → Yields (f a) Q) : Yields (x.bind f) Q := by
  obtain ⟨a, rfl, ha⟩ := hx
  exact hf a ha

end Yields

end G361FPlatform.Library
