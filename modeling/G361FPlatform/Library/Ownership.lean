import Mathlib.Data.List.Nodup

namespace G361FPlatform.Library.Ownership

variable {α : Type u} {β : Type v}

theorem countP_change {p q : α → Bool} {l : List α} {a : α} (hnd : l.Nodup) (ha : a ∈ l)
    (h : ∀ x ∈ l, x ≠ a → p x = q x) :
    l.countP p + (if q a then 1 else 0) = l.countP q + (if p a then 1 else 0) := by
  induction l with
  | nil => cases ha
  | cons x xs ih =>
    rw [List.nodup_cons] at hnd
    rw [List.countP_cons, List.countP_cons]
    rcases List.mem_cons.mp ha with rfl | hxs
    · have hrest : xs.countP p = xs.countP q := by
        apply List.countP_congr
        intro y hy
        rw [h y (List.mem_cons_of_mem _ hy) fun heq => hnd.1 (heq ▸ hy)]
      omega
    · have hx : p x = q x := h x List.mem_cons_self fun heq => hnd.1 (heq ▸ hxs)
      have := ih hnd.2 hxs fun y hy => h y (List.mem_cons_of_mem _ hy)
      rw [hx]
      omega

def owners (objs : List α) (active : α → Bool) (owns : α → β → Bool) (b : β) : Nat :=
  objs.countP fun a => active a && owns a b

section

variable {objs : List α} {active active' : α → Bool} {owns : α → β → Bool} {a : α}

theorem owners_congr (h : ∀ x ∈ objs, active' x = active x) (b : β) :
    owners objs active' owns b = owners objs active owns b := by
  apply List.countP_congr
  intro x hx
  rw [h x hx]

theorem owners_activate (hnd : objs.Nodup) (ha : a ∈ objs) (hoff : active a = false)
    (hon : active' a = true) (h : ∀ x ∈ objs, x ≠ a → active' x = active x) (b : β) :
    owners objs active' owns b = owners objs active owns b + if owns a b then 1 else 0 := by
  have := countP_change (p := fun a => active' a && owns a b)
    (q := fun a => active a && owns a b) hnd ha fun x hx hne => by rw [h x hx hne]
  simpa [hoff, hon, owners] using this

theorem owners_pos (ha : a ∈ objs) (hon : active a = true) {b : β} (hb : owns a b = true) :
    0 < owners objs active owns b :=
  List.countP_pos_iff.mpr ⟨a, ha, by simp [hon, hb]⟩

end

end G361FPlatform.Library.Ownership
