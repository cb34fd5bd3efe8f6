import Mathlib.Data.List.Basic

namespace G361FPlatform.Library

/-! A buffer that is written from back and front: slots that were left room for are filled one
after another, and what does not fit a slot is put behind everything. -/

def patch (pos : Nat) (new l : List α) : List α := l.take pos ++ new ++ l.drop (pos + new.length)

theorem patch_append (A B : List α) {pos : Nat} {J new : List α} (hpos : A.length = pos)
    (hJ : J.length = new.length) : patch pos new (A ++ (J ++ B)) = A ++ (new ++ B) := by
  subst hpos
  rw [patch, ← hJ, ← List.length_append, ← List.append_assoc A J B, List.drop_left, List.append_assoc A J B,
    List.take_left, List.append_assoc]

theorem patch_append_drop (A B : List α) {pos : Nat} {J new : List α} (hpos : A.length = pos)
    (hJ : new.length ≤ J.length) :
    patch pos new (A ++ (J ++ B)) = A ++ (new ++ (J.drop new.length ++ B)) := by
  have hsplit : J ++ B = J.take new.length ++ (J.drop new.length ++ B) := by
    rw [← List.append_assoc, List.take_append_drop]
  rw [hsplit, patch_append A _ hpos (List.length_take_of_le hJ)]

theorem patch_end (l : List α) {n : Nat} {J new : List α} (hJ : J.length = n) (hnew : new.length = n) :
    patch ((l ++ J).length - n) new (l ++ J) = l ++ new := by
  have hpos : l.length = (l ++ J).length - n := by
    rw [List.length_append, hJ, Nat.add_sub_cancel]
  have hpatch := patch_append l [] hpos (hJ.trans hnew.symm)
  rwa [List.append_nil, List.append_nil] at hpatch

/-- What a step leaves: a value, its slot and what it puts behind. -/
structure Filled (σ α : Type*) where
  value : σ
  slot : List α
  tail : List α

namespace Filled

/-- Two steps whose slots are next to each other. -/
def and (r : Filled σ α) (q : Filled τ α) : Filled τ α :=
  ⟨q.value, r.slot ++ q.slot, r.tail ++ q.tail⟩

@[simp] theorem and_value (r : Filled σ α) (q : Filled τ α) : (r.and q).value = q.value := rfl
@[simp] theorem and_slot (r : Filled σ α) (q : Filled τ α) : (r.and q).slot = r.slot ++ q.slot := rfl
@[simp] theorem and_tail (r : Filled σ α) (q : Filled τ α) : (r.and q).tail = r.tail ++ q.tail := rfl

end Filled

/-- A step that fills the slot at its offset, whatever stands there and around it: it looks only at how long the
buffer is. -/
structure Fills (start width : Nat) (step : Nat → List α → Option (σ × List α))
    (out : Nat → Option (Filled σ α)) : Prop where
  slot_length : ∀ {n r}, out n = some r → r.slot.length = width
  fill : ∀ (A J B : List α) (offset : Nat), A.length = start + offset → J.length = width →
    step offset (A ++ (J ++ B)) =
      (out (A.length + width + B.length)).map fun r => (r.value, A ++ (r.slot ++ (B ++ r.tail)))

/-- A step that puts something behind the buffer, and looks only at how long it is. -/
def Appends (f : List α → Option (σ × List α)) (out : Nat → Option (σ × List α)) (l : List α) :
    Prop :=
  f l = (out l.length).map fun r => (r.1, l ++ r.2)

namespace Fills

variable {start w v : Nat} {σ τ α : Type*}

theorem skip (x : σ) : Fills start 0 (fun _ (l : List α) => some (x, l)) fun _ => some ⟨x, [], []⟩ := by
  refine ⟨fun h => ?_, fun A J B offset _ hJ => ?_⟩
  · cases h
    rfl
  · rw [List.eq_nil_of_length_eq_zero hJ]
    exact congrArg (fun l => some (x, A ++ l)) (List.append_nil B).symm

theorem map {f : Nat → List α → Option (σ × List α)} {o : Nat → Option (Filled σ α)}
    (hf : Fills start w f o) (h : σ → τ) :
    Fills start w (fun offset l => (f offset l).map fun r => (h r.1, r.2))
      fun n => (o n).map fun r => ⟨h r.value, r.slot, r.tail⟩ := by
  refine ⟨fun hq => ?_, fun A J B offset hA hJ => ?_⟩
  · obtain ⟨r, hr, rfl⟩ := Option.map_eq_some_iff.mp hq
    exact hf.slot_length hr
  · rw [hf.fill A J B offset hA hJ, Option.map_map, Option.map_map]
    rfl

theorem bind {f : Nat → List α → Option (σ × List α)} {o : Nat → Option (Filled σ α)}
    {g : σ → Nat → List α → Option (τ × List α)} {p : σ → Nat → Option (Filled τ α)}
    (hf : Fills start w f o)
    (hg : ∀ n r, o n = some r → Fills start v (g r.value) (p r.value)) :
    Fills start (w + v) (fun offset l => (f offset l).bind fun r => g r.1 (offset + w) r.2)
      fun n => (o n).bind fun r => (p r.value (n + r.tail.length)).map r.and := by
  refine ⟨fun h => ?_, fun A J B offset hA hJ => ?_⟩
  · obtain ⟨r, hr, h⟩ := Option.bind_eq_some_iff.mp h
    obtain ⟨q, hq, rfl⟩ := Option.map_eq_some_iff.mp h
    rw [Filled.and_slot, List.length_append, hf.slot_length hr, (hg _ r hr).slot_length hq]
  · have htake : (J.take w).length = w := by
      rw [List.length_take, hJ]
      omega
    have hdrop : (J.drop w).length = v := by
      rw [List.length_drop, hJ]
      omega
    have hlen : A.length + w + (J.drop w ++ B).length = A.length + (w + v) + B.length := by
      rw [List.length_append, hdrop]
      omega
    have hfirst := hf.fill A (J.take w) (J.drop w ++ B) offset hA htake
    rw [← List.append_assoc (J.take w), List.take_append_drop, hlen] at hfirst
    rw [hfirst]
    cases hr : o (A.length + (w + v) + B.length) with
    | none => rfl
    | some r =>
      have hslot := hf.slot_length hr
      have hsecond := (hg _ r hr).fill (A ++ r.slot) (J.drop w) (B ++ r.tail) (offset + w)
        (by rw [List.length_append, hslot, hA, Nat.add_assoc]) hdrop
      have hlen : (A ++ r.slot).length + v + (B ++ r.tail).length =
          A.length + (w + v) + B.length + r.tail.length := by
        rw [List.length_append, List.length_append, hslot]
        omega
      rw [hlen] at hsecond
      simp only [Option.map_some, Option.bind_some]
      rw [List.append_assoc (J.drop w) B r.tail, ← List.append_assoc A r.slot, hsecond, Option.map_map]
      apply congrArg (fun f => Option.map f _)
      funext q
      simp only [Function.comp_apply, Filled.and_value, Filled.and_slot, Filled.and_tail, List.append_assoc]

end Fills

end G361FPlatform.Library
