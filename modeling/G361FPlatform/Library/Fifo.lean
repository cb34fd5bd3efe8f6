import G361FPlatform.Library.Ring

namespace G361FPlatform.Library

namespace Fifo

inductive Call (α : Type u)
  | reset
  | push (x : α)
  | pop

/-- What a call answers: a push whether the element was taken, a pop the element it hands out. -/
inductive Answer (α : Type u)
  | done
  | pushed (taken : Bool)
  | popped (x : Option α)

def run (call : Call α → σ → Answer α × σ) : List (Call α) → σ → List (Answer α) × σ
  | [], s => ([], s)
  | c :: cs, s =>
    let (answer, s) := call c s
    let (answers, s) := run call cs s
    (answer :: answers, s)

/-- The queue of at most `cap` elements, as the list of those that wait, oldest first. -/
def call (cap : Nat) : Call α → List α → Answer α × List α
  | .reset, _ => (.done, [])
  | .push x, xs => if xs.length = cap then (.pushed false, xs) else (.pushed true, xs ++ [x])
  | .pop, [] => (.popped none, [])
  | .pop, x :: xs => (.popped (some x), xs)

/-- The elements taken in and those handed out since the last reset. -/
def tally : List (Call α) → List (Answer α) → List α × List α → List α × List α
  | .reset :: cs, _ :: answers, _ => tally cs answers ([], [])
  | .push x :: cs, .pushed true :: answers, (ins, outs) => tally cs answers (ins ++ [x], outs)
  | .pop :: cs, .popped (some x) :: answers, (ins, outs) => tally cs answers (ins, outs ++ [x])
  | _ :: cs, _ :: answers, counts => tally cs answers counts
  | _, _, counts => counts

/-- One machine answers every call like the other, and the relation lasts. -/
theorem run_simulates {R : σ → τ → Prop} {f : Call α → σ → Answer α × σ} {g : Call α → τ → Answer α × τ}
    (hcall : ∀ c s t, R s t → (f c s).1 = (g c t).1 ∧ R (f c s).2 (g c t).2) (cs : List (Call α)) {s : σ}
    {t : τ} (h : R s t) : (run f cs s).1 = (run g cs t).1 ∧ R (run f cs s).2 (run g cs t).2 := by
  induction cs generalizing s t with
  | nil => exact ⟨rfl, h⟩
  | cons c cs ih =>
    obtain ⟨hanswer, hnext⟩ := hcall c s t h
    obtain ⟨hanswers, hlast⟩ := ih hnext
    exact ⟨congrArg₂ List.cons hanswer hanswers, hlast⟩

/-- Nothing is lost, nothing is handed out twice, and the order is kept. -/
theorem tally_run (cap : Nat) (cs : List (Call α)) {xs ins outs : List α} (h : ins = outs ++ xs) :
    (tally cs (run (call cap) cs xs).1 (ins, outs)).1 =
      (tally cs (run (call cap) cs xs).1 (ins, outs)).2 ++ (run (call cap) cs xs).2 := by
  induction cs generalizing xs ins outs with
  | nil => exact h
  | cons c cs ih =>
    cases c with
    | reset => exact ih rfl
    | push x =>
      by_cases hfull : xs.length = cap
      · simpa [run, call, hfull, tally] using ih h
      · have hpush : ins ++ [x] = outs ++ (xs ++ [x]) := by rw [h, List.append_assoc]
        simpa [run, call, hfull, tally] using ih hpush
    | pop =>
      cases xs with
      | nil => exact ih h
      | cons x xs =>
        have hpop : ins = (outs ++ [x]) ++ xs := by rw [h, List.append_assoc]; rfl
        exact ih hpop

end Fifo

namespace Ring

/-- The ring answers calls. -/
def call (depth : Nat) : Fifo.Call α → Ring α → Fifo.Answer α × Ring α
  | .reset, q => (.done, q.reset)
  | .push x, q =>
    match q.push depth x with
    | none => (.pushed false, q)
    | some q => (.pushed true, q)
  | .pop, q =>
    let (x, q) := q.pop depth
    (.popped x, q)

variable {depth : Nat} {q : Ring α} {xs : List α}

/-- Each call of the ring is the call of the list it holds. -/
theorem Holds.call (h : Holds depth q xs) (c : Fifo.Call α) :
    (q.call depth c).1 = (Fifo.call (depth - 1) c xs).1 ∧
      Holds depth (q.call depth c).2 (Fifo.call (depth - 1) c xs).2 := by
  cases c with
  | reset => exact ⟨rfl, holds_reset (by have := h.out_lt; omega) q⟩
  | push x =>
    by_cases hfull : xs.length = depth - 1
    · have hpush := (h.push_eq_none_iff x).mpr hfull
      simpa [Ring.call, Fifo.call, hpush, hfull] using h
    · obtain ⟨q', hpush⟩ := Option.ne_none_iff_exists'.mp (mt (h.push_eq_none_iff x).mp hfull)
      simpa [Ring.call, Fifo.call, hpush, hfull] using h.push hpush
  | pop =>
    cases xs with
    | nil => simpa [Ring.call, Fifo.call, h.pop_nil] using h
    | cons x xs =>
      obtain ⟨q', hpop, hq'⟩ := h.pop_cons
      simpa [Ring.call, Fifo.call, hpop] using hq'

theorem Holds.pop_fst_eq_none_iff (h : Holds depth q xs) : (q.pop depth).1 = none ↔ xs = [] := by
  cases xs with
  | nil => simp [h.pop_nil]
  | cons x xs =>
    obtain ⟨q', hpop, -⟩ := h.pop_cons
    simp [hpop]

end Ring

end G361FPlatform.Library
