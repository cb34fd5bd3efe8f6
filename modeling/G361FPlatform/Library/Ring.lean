import Mathlib.Logic.Function.Basic
import Mathlib.Data.List.Basic

namespace G361FPlatform.Library

/-- A ring buffer with a read and a write position.  One slot stays free so that equal
positions mean empty; a slot outside the window may hold a stale value. -/
structure Ring (α : Type u) where
  slot : Nat → Option α
  out : Nat
  inn : Nat

namespace Ring

def succ (depth pos : Nat) : Nat := if depth ≤ pos + 1 then 0 else pos + 1

def isEmpty (q : Ring α) : Bool := q.inn = q.out

def reset (q : Ring α) : Ring α := { q with inn := 0, out := 0 }

def push (depth : Nat) (q : Ring α) (x : α) : Option (Ring α) :=
  if succ depth q.inn = q.out then none
  else some { q with
    slot := Function.update q.slot q.inn (some x)
    inn := succ depth q.inn }

def pop (depth : Nat) (q : Ring α) : Option α × Ring α :=
  if q.isEmpty then (none, q)
  else (q.slot q.out, { q with out := succ depth q.out })

def count (depth : Nat) (q : Ring α) : Nat :=
  if q.out ≤ q.inn then q.inn - q.out else q.inn + depth - q.out

def index (depth : Nat) (q : Ring α) (i : Nat) : Nat :=
  if q.out + i < depth then q.out + i else q.out + i - depth

def contents (depth : Nat) (q : Ring α) : List (Option α) :=
  (List.range (q.count depth)).map fun i => q.slot (q.index depth i)

/-- The ring holds exactly the queue `xs`. -/
structure Holds (depth : Nat) (q : Ring α) (xs : List α) : Prop where
  out_lt : q.out < depth
  inn_lt : q.inn < depth
  contents_eq : q.contents depth = xs.map some

variable {depth : Nat} {q : Ring α} {xs : List α}

theorem succ_lt (h : 0 < depth) (pos : Nat) : succ depth pos < depth := by
  unfold succ; split <;> omega

theorem Holds.length_eq (h : Holds depth q xs) : xs.length = q.count depth := by
  simpa [contents] using (congrArg List.length h.contents_eq).symm

theorem Holds.length_lt (h : Holds depth q xs) : xs.length < depth := by
  have hout := h.out_lt
  have hinn := h.inn_lt
  rw [h.length_eq, count]
  split_ifs <;> omega

theorem holds_reset (h : 0 < depth) (q : Ring α) : Holds depth q.reset [] :=
  ⟨h, h, by simp [contents, count, reset]⟩

theorem count_push (hout : q.out < depth) (hinn : q.inn < depth)
    (hfull : succ depth q.inn ≠ q.out) (slot : Nat → Option α) :
    count depth { q with slot := slot, inn := succ depth q.inn } = q.count depth + 1 := by
  simp only [count, succ] at *
  split at hfull <;> split_ifs <;> omega

theorem index_count (hout : q.out < depth) (hinn : q.inn < depth) :
    q.index depth (q.count depth) = q.inn := by
  simp only [index, count]; split_ifs <;> omega

theorem index_ne_inn (hout : q.out < depth) {i : Nat}
    (hi : i < q.count depth) : q.index depth i ≠ q.inn := by
  simp only [index, count] at *; split_ifs at * <;> omega

/-- A push is refused exactly when `depth - 1` elements wait. -/
theorem Holds.push_eq_none_iff (h : Holds depth q xs) (x : α) :
    q.push depth x = none ↔ xs.length = depth - 1 := by
  have hout := h.out_lt
  have hinn := h.inn_lt
  have hnone : q.push depth x = none ↔ succ depth q.inn = q.out := by simp [push]
  rw [h.length_eq, hnone]
  simp only [count, succ]
  split_ifs <;> omega

theorem Holds.push {q' : Ring α} (h : Holds depth q xs) {x : α}
    (hq : q.push depth x = some q') : Holds depth q' (xs ++ [x]) := by
  have hout := h.out_lt
  have hinn := h.inn_lt
  unfold Ring.push at hq
  split at hq
  case isTrue => cases hq
  case isFalse hfull =>
    cases hq
    refine ⟨hout, succ_lt (by omega) _, ?_⟩
    have hold : (List.range (q.count depth)).map
        (fun i => Function.update q.slot q.inn (some x) (q.index depth i)) = xs.map some := by
      rw [← h.contents_eq, contents]
      apply List.map_congr_left
      intro i hi
      rw [Function.update_of_ne (index_ne_inn hout (List.mem_range.mp hi))]
    have hnew : Function.update q.slot q.inn (some x) (q.index depth (q.count depth)) =
        some x := by rw [index_count hout hinn, Function.update_self]
    rw [contents, count_push hout hinn hfull, List.range_succ, List.map_append]
    rw [List.map_append, ← hold]
    exact congrArg₂ _ rfl (congrArg (· :: []) hnew)

theorem Holds.pop_nil (h : Holds depth q []) : q.pop depth = (none, q) := by
  have hlen := h.length_eq
  have hinn := h.inn_lt
  have hout := h.out_lt
  have hempty : q.inn = q.out := by
    simp only [count, List.length_nil] at hlen
    split at hlen <;> omega
  simp [pop, isEmpty, hempty]

theorem count_pop (hout : q.out < depth) (hinn : q.inn < depth) (hne : q.inn ≠ q.out) :
    q.count depth = count depth { q with out := succ depth q.out } + 1 := by
  simp only [count, succ]; split_ifs <;> omega

theorem index_pop (hout : q.out < depth) (hinn : q.inn < depth) {i : Nat}
    (hi : i < count depth { q with out := succ depth q.out }) :
    index depth { q with out := succ depth q.out } i = q.index depth (i + 1) := by
  simp only [index, count, succ] at *; split_ifs at * <;> omega

theorem Holds.pop_cons {x : α} (h : Holds depth q (x :: xs)) :
    ∃ q', q.pop depth = (some x, q') ∧ Holds depth q' xs := by
  have hout := h.out_lt
  have hinn := h.inn_lt
  have hlen := h.length_eq
  have hne : q.inn ≠ q.out := by
    intro heq
    simp [count, heq] at hlen
  have hcontents := h.contents_eq
  rw [contents, count_pop hout hinn hne, List.range_succ_eq_map, List.map_cons, List.map_cons,
    List.map_map] at hcontents
  obtain ⟨hhead, htail⟩ := List.cons.inj hcontents
  have hfirst : q.slot q.out = some x := by simpa [index, hout] using hhead
  refine ⟨{ q with out := succ depth q.out }, by simp [pop, isEmpty, hne, hfirst], ?_⟩
  refine ⟨succ_lt (by omega) _, hinn, ?_⟩
  rw [← htail, contents]
  apply List.map_congr_left
  intro i hi
  rw [index_pop hout hinn (List.mem_range.mp hi)]
  rfl

end Ring

end G361FPlatform.Library
