import G361FPlatform.Library.Fifo
import G361FPlatform.MediaLib.Search

namespace G361FPlatform.MediaLib

open Library Ring

def nodeQReset (q : NodeQ) : NodeQ := q.reset

def nodeQPush (q : NodeQ) (node : NodeId) : Int × NodeQ :=
  match q.push nodeQueueDepth node with
  | none => (-ENOMEM, q)
  | some q => (0, q)

def nodeQPop (q : NodeQ) : Option NodeId × NodeQ := q.pop nodeQueueDepth

def nodeQCall : Fifo.Call NodeId → NodeQ → Fifo.Answer NodeId × NodeQ
  | .reset, q => (.done, nodeQReset q)
  | .push node, q =>
    let (ret, q) := nodeQPush q node
    (.pushed (ret = 0), q)
  | .pop, q =>
    let (node, q) := nodeQPop q
    (.popped node, q)

/-- The macros of the search are these operations on `__CamNodeQ`. -/
theorem qPush_eq (node : NodeId) (s : SearchState) : s.qPush node =
    .ok ((nodeQPush s.queue node).1, { s with queue := (nodeQPush s.queue node).2 }) := by
  rw [SearchState.qPush, nodeQPush]
  cases s.queue.push nodeQueueDepth node <;> rfl

theorem qPop_eq (s : SearchState) :
    s.qPop = ((nodeQPop s.queue).1, { s with queue := (nodeQPop s.queue).2 }) := rfl

theorem nodeQCall_eq (c : Fifo.Call NodeId) (q : NodeQ) : nodeQCall c q = q.call nodeQueueDepth c := by
  cases c with
  | reset => rfl
  | push node =>
    cases hpush : q.push nodeQueueDepth node with
    | none => simp [nodeQCall, nodeQPush, Ring.call, hpush, ENOMEM]
    | some q' => simp [nodeQCall, nodeQPush, Ring.call, hpush]
  | pop => rfl

section

variable {q : NodeQ} {xs : List NodeId}

theorem nodeQPush_refused_iff (h : Holds nodeQueueDepth q xs) (node : NodeId) :
    (nodeQPush q node).1 = -ENOMEM ↔ xs.length = nodeQueueDepth - 1 := by
  rw [← h.push_eq_none_iff node, nodeQPush]
  cases q.push nodeQueueDepth node <;> simp [ENOMEM]

theorem nodeQPush_refused (h : Holds nodeQueueDepth q xs) (node : NodeId)
    (hfull : xs.length = nodeQueueDepth - 1) : nodeQPush q node = (-ENOMEM, q) := by
  rw [nodeQPush, (h.push_eq_none_iff node).mpr hfull]

theorem nodeQPop_empty (h : Holds nodeQueueDepth q xs) (hempty : xs = []) : nodeQPop q = (none, q) := by
  subst hempty
  exact h.pop_nil

end

/-- After any operations the queue holds what the list of at most `NODE_QUEUE_DEPTH - 1` nodes
holds, and has answered as the list has. -/
theorem nodeQ_bounded_fifo (q₀ : NodeQ) (cs : List (Fifo.Call NodeId)) :
    let (answers, q) := Fifo.run nodeQCall cs (nodeQReset q₀)
    let (listAnswers, xs) := Fifo.run (Fifo.call (nodeQueueDepth - 1)) cs []
    let (ins, outs) := Fifo.tally cs answers ([], [])
    answers = listAnswers ∧ Holds nodeQueueDepth q xs ∧ xs.length ≤ nodeQueueDepth - 1 ∧
      ins = outs ++ xs ∧ q.inn < nodeQueueDepth ∧ q.out < nodeQueueDepth ∧
      (∀ node, (nodeQPush q node).1 = -ENOMEM ↔ xs.length = nodeQueueDepth - 1) ∧
      (∀ node, xs.length = nodeQueueDepth - 1 → (nodeQPush q node).2 = q) ∧
      ((nodeQPop q).1 = none ↔ xs = []) ∧ (xs = [] → (nodeQPop q).2 = q) := by
  have hcall : nodeQCall = Ring.call nodeQueueDepth := by
    funext c q
    exact nodeQCall_eq c q
  obtain ⟨hanswers, hholds⟩ := Fifo.run_simulates (fun c q xs (h : Holds nodeQueueDepth q xs) => h.call c) cs
    (holds_reset (by decide) q₀)
  have htally := Fifo.tally_run (nodeQueueDepth - 1) cs (List.append_nil ([] : List NodeId)).symm
  simp only [hcall, nodeQReset]
  refine ⟨hanswers, hholds, Nat.le_sub_one_of_lt hholds.length_lt, ?_, hholds.inn_lt, hholds.out_lt,
    nodeQPush_refused_iff hholds, ?_, hholds.pop_fst_eq_none_iff, ?_⟩
  · rw [hanswers]
    exact htally
  · intro node hfull
    rw [nodeQPush_refused hholds node hfull]
  · intro hempty
    rw [nodeQPop_empty hholds hempty]

end G361FPlatform.MediaLib
