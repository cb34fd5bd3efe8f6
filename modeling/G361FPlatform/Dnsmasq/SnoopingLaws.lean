import Mathlib.Data.List.Basic
import G361FPlatform.Library.Run
import G361FPlatform.Dnsmasq.Snooper

namespace G361FPlatform.Dnsmasq

open Library

structure Arrival where
  pkttype : Nat
  ifindex : Int
  bytes : List UInt8

def bufferSize : Option Nat → Nat
  | none => 255
  | some mtu => mtu + 256

def Frame.receive (mtu : Option Nat) (f : Frame) (a : Arrival) : Frame where
  pkttype := a.pkttype
  ifindex := a.ifindex
  buffer i := if i < min a.bytes.length (bufferSize mtu) then a.bytes.getD i 0 else f.buffer i

/-- What the thread sees next: a frame, a `recvfrom` that fails, or the answer to another call. -/
inductive Sight
  | arrival (a : Arrival)
  | error
  | answer (a : Answer)

def Sight.toAnswer (mtu : Option Nat) (f : Frame) : Sight → Answer
  | .arrival a => .recvfrom (some (f.receive mtu a))
  | .error => .recvfrom none
  | .answer a => a

/-- A step of the thread; an answer to a call that it does not make is left out. -/
def Thread.look (exec : Exec κ) (mtu : Option Nat) (s : Thread × Snooped κ) (e : Sight) :
    Thread × Snooped κ :=
  (s.1.step exec s.2 (e.toAnswer mtu s.1.frame)).getD s

def Frame.target (f : Frame) : In6Addr :=
  In6Addr.ofBytes ((List.range 16).map fun i => f.buffer (62 + i))

/-- The address that the thread calls `add_route_to_active_lists` with, once it has the interface. -/
def Thread.pending (t : Thread) : Option In6Addr :=
  if t.pc = .resolving then some t.frame.target else none

def In6Addr.linkLocal (a : In6Addr) : Prop := a >>> 118 = 0x3fa

instance (a : In6Addr) : Decidable a.linkLocal := inferInstanceAs (Decidable (_ = _))

namespace Arrival

variable (a : Arrival)

def isIcmp6 : Prop :=
  a.bytes.getD 12 0 = 0x86 ∧ a.bytes.getD 13 0 = 0xdd ∧ a.bytes.getD 14 0 >>> 4 = 6 ∧ a.bytes.getD 20 0 = 58

instance : Decidable a.isIcmp6 := inferInstanceAs (Decidable (_ ∧ _ ∧ _ ∧ _))

def target : In6Addr := In6Addr.ofBytes ((a.bytes.drop 62).take 16)

def solicited : Option In6Addr :=
  if a.pkttype = PACKET_MULTICAST ∧ 78 ≤ a.bytes.length ∧ a.isIcmp6 ∧
      a.bytes.getD 54 0 = ND_NEIGHBOR_SOLICIT ∧
    ¬a.target.linkLocal then some a.target else none

end Arrival

def Frame.Taken (f : Frame) : Prop :=
  f.pkttype = PACKET_MULTICAST ∧ f.buffer 54 = ND_NEIGHBOR_SOLICIT ∧ f.buffer 63 ≠ 128

instance (f : Frame) : Decidable f.Taken := inferInstanceAs (Decidable (_ ∧ _ ∧ _))

def addPending (exec : Exec κ) (s : Thread × Snooped κ) (answer : Answer) : Routes κ :=
  match s.1.pending, answer with
  | some dst, .indextoname (some name) => (addRouteToActiveLists exec dst name s.2.routes).2
  | _, _ => s.2.routes

/-- A step adds what is pending and nothing else, and after a frame exactly what the frame solicits
is pending. -/
structure Judged (exec : Exec κ) (mtu : Option Nat) (s : Thread × Snooped κ) (e : Sight) : Prop where
  routes : (Thread.look exec mtu s e).2.routes = addPending exec s (e.toAnswer mtu s.1.frame)
  arrival : ∀ a, e = .arrival a → s.1.pc = .receiving → (Thread.look exec mtu s e).1.pending = a.solicited
  error : e = .error → s.1.pc = .receiving → (Thread.look exec mtu s e).1.pending = none

/-- Where the test is right.  In a frame that has a target and 135 for its type, the second byte of
the target is 128 exactly if the frame is no Neighbor Solicitation for a global address; a shorter
one, or none, leaves nothing in the buffer that would be taken for one. -/
def Clear (mtu : Option Nat) (s : Thread × Snooped κ) : Sight → Prop
  | .arrival a => s.1.pc = .receiving → a.pkttype = PACKET_MULTICAST →
    if 78 ≤ a.bytes.length then
      a.bytes.getD 54 0 = ND_NEIGHBOR_SOLICIT → (a.bytes.getD 63 0 ≠ 128 ↔ a.isIcmp6 ∧ ¬a.target.linkLocal)
    else ¬(s.1.frame.receive mtu a).Taken
  | .error => s.1.pc = .receiving → ¬s.1.frame.Taken
  | .answer _ => True

section

variable {exec : Exec κ} {mtu : Option Nat} {s : Thread × Snooped κ}

theorem step_routes {t t' : Thread} {g g' : Snooped κ} {answer : Answer}
    (h : t.step exec g answer = some (t', g'))
    (hquiet : t.pc = .resolving → ∀ name, answer ≠ .indextoname (some name)) :
    g'.routes = g.routes := by
  unfold Thread.step at h
  split at h
  case h_3 name =>
    split at h
    · cases h
      rfl
    · split at h <;> cases h
      next hpc => exact absurd rfl (hquiet hpc name)
  case h_5 sec =>
    split at h
    · cases h
      rfl
    · split at h <;> cases h
      rfl
  case h_8 =>
    split at h
    · cases h
      rfl
    · split at h <;> cases h
      rfl
  all_goals
    split at h <;> cases h
    rfl

theorem look_routes (e : Sight) :
    (Thread.look exec mtu s e).2.routes = addPending exec s (e.toAnswer mtu s.1.frame) := by
  unfold Thread.look
  generalize e.toAnswer mtu s.1.frame = answer
  have hquiet : (s.1.pc = .resolving → ∀ name, answer ≠ .indextoname (some name)) →
      ((s.1.step exec s.2 answer).getD s).2.routes = s.2.routes := by
    intro hquiet
    cases hstep : s.1.step exec s.2 answer with
    | none => rfl
    | some s' => exact step_routes hstep hquiet
  by_cases hpc : s.1.pc = .resolving
  · have hpending : s.1.pending = some s.1.frame.target := if_pos hpc
    unfold addPending
    rw [hpending]
    cases answer with
    | indextoname name =>
      cases name with
      | none => exact hquiet fun _ _ heq => nomatch heq
      | some name =>
        have hnaming : s.1.pc ≠ .naming := by
          rw [hpc]
          decide
        rw [Thread.step, if_neg hnaming, if_pos hpc]
        rfl
    | _ => exact hquiet fun _ _ heq => nomatch heq
  · have hpending : s.1.pending = none := if_neg hpc
    unfold addPending
    rw [hpending]
    exact hquiet fun h => absurd h hpc

theorem pending_recvfrom (hpc : s.1.pc = .receiving) (received : Option Frame) :
    ((s.1.step exec s.2 (.recvfrom received)).getD s).1.pending =
      if (received.getD s.1.frame).Taken then some (received.getD s.1.frame).target else none := by
  simp only [Thread.step, if_pos hpc, Option.getD_some, Thread.pending]
  generalize received.getD s.1.frame = f
  by_cases htaken : f.Taken
  · have hout : f.pkttype ≠ PACKET_OUTGOING := by
      rw [htaken.1]
      decide
    rw [if_neg hout, if_pos (show _ ∧ _ ∧ _ from htaken), if_pos htaken, if_pos rfl]
  · rw [if_neg htaken]
    by_cases hout : f.pkttype = PACKET_OUTGOING
    · rw [if_pos hout]
      rfl
    · rw [if_neg hout, if_neg (show ¬(_ ∧ _ ∧ _) from htaken)]
      rfl

theorem receive_buffer {f : Frame} {a : Arrival} (hlen : 78 ≤ a.bytes.length) {i : Nat} (hi : i < 78) :
    (f.receive mtu a).buffer i = a.bytes.getD i 0 := by
  have hsize : 78 ≤ bufferSize mtu := by
    cases mtu <;> simp only [bufferSize] <;> omega
  exact if_pos (by omega)

theorem receive_target {f : Frame} {a : Arrival} (hlen : 78 ≤ a.bytes.length) :
    (f.receive mtu a).target = a.target := by
  rw [Frame.target, Arrival.target]
  congr 1
  refine List.ext_getElem
    (by simp only [List.length_map, List.length_range, List.length_take, List.length_drop]; omega)
    fun i hi hi' => ?_
  rw [List.length_map, List.length_range] at hi
  rw [List.getElem_map, List.getElem_range, receive_buffer hlen (by omega), List.getElem_take, List.getElem_drop,
    List.getD_eq_getElem?_getD, List.getElem?_eq_getElem (by omega), Option.getD_some]

theorem ite_some_eq_iff {P Q : Prop} [Decidable P] [Decidable Q] (x : α) :
    (if P then some x else none) = (if Q then some x else none) ↔ (P ↔ Q) := by
  by_cases hP : P <;> by_cases hQ : Q <;> simp [hP, hQ]

theorem pending_arrival_iff (exec : Exec κ) (a : Arrival) :
    (s.1.pc = .receiving → (Thread.look exec mtu s (.arrival a)).1.pending = a.solicited) ↔
      Clear mtu s (.arrival a) := by
  refine forall_congr' fun hpc => ?_
  rw [Thread.look, Sight.toAnswer, pending_recvfrom hpc, Option.getD_some]
  by_cases hmulti : a.pkttype = PACKET_MULTICAST
  swap
  · have htaken : ¬(s.1.frame.receive mtu a).Taken := fun h => hmulti h.1
    have hnone : a.solicited = none := if_neg fun h => hmulti h.1
    rw [if_neg htaken, hnone]
    exact iff_of_true rfl fun h => absurd h hmulti
  rw [forall_prop_of_true hmulti]
  by_cases hlen : 78 ≤ a.bytes.length
  · rw [if_pos hlen]
    have htype : (s.1.frame.receive mtu a).Taken ↔
        a.bytes.getD 54 0 = ND_NEIGHBOR_SOLICIT ∧ a.bytes.getD 63 0 ≠ 128 := by
      rw [Frame.Taken, receive_buffer hlen (by decide), receive_buffer hlen (by decide)]
      exact and_iff_right hmulti
    rw [receive_target hlen, Arrival.solicited, ite_some_eq_iff, htype]
    by_cases hsolicit : a.bytes.getD 54 0 = ND_NEIGHBOR_SOLICIT
    · simp only [hmulti, hlen, hsolicit, true_and, forall_prop_of_true]
    · simp only [hsolicit, false_and, and_false, false_imp_iff]
  · have hnone : a.solicited = none := if_neg fun h => hlen h.2.1
    rw [if_neg hlen, hnone]
    by_cases htaken : (s.1.frame.receive mtu a).Taken
    · rw [if_pos htaken]
      exact iff_of_false (Option.some_ne_none _) fun h => h htaken
    · rw [if_neg htaken]
      exact iff_of_true rfl htaken

theorem pending_error_iff (exec : Exec κ) :
    (s.1.pc = .receiving → (Thread.look exec mtu s .error).1.pending = none) ↔ Clear mtu s .error := by
  refine forall_congr' fun hpc => ?_
  rw [Thread.look, Sight.toAnswer, pending_recvfrom hpc, Option.getD_none]
  by_cases htaken : s.1.frame.Taken
  · rw [if_pos htaken]
    exact iff_of_false (Option.some_ne_none _) fun h => h htaken
  · rw [if_neg htaken]
    exact iff_of_true rfl htaken

theorem judged_iff (e : Sight) : Judged exec mtu s e ↔ Clear mtu s e := by
  cases e with
  | arrival a =>
    refine Iff.trans ?_ (pending_arrival_iff exec a)
    exact ⟨fun h => h.arrival a rfl,
      fun h => ⟨look_routes _, (fun a' heq => by cases heq; exact h), (fun heq => nomatch heq)⟩⟩
  | error =>
    refine Iff.trans ?_ (pending_error_iff exec)
    exact ⟨fun h => h.error rfl, fun h => ⟨look_routes _, (fun _ heq => nomatch heq), fun _ => h⟩⟩
  | answer a =>
    exact iff_of_true ⟨look_routes _, (fun _ heq => nomatch heq), (fun heq => nomatch heq)⟩ trivial

end

/-- Every frame of a run is judged right exactly if the test is right for every frame of it, where it
arrives. -/
theorem every_judged_iff (exec : Exec κ) (mtu : Option Nat) (s : Thread × Snooped κ) (sights : List Sight) :
    Every (Thread.look exec mtu) (Judged exec mtu) s sights ↔
      Every (Thread.look exec mtu) (fun s => Clear mtu s) s sights :=
  every_iff_every (I := fun _ => True) (fun _ e _ => judged_iff e) (fun _ _ _ _ => trivial) trivial sights

def solicitation (target : List UInt8) : Arrival :=
  ⟨PACKET_MULTICAST, 3,
    List.replicate 12 0 ++ [0x86, 0xdd, 0x60] ++ List.replicate 5 0 ++ [58] ++ List.replicate 33 0 ++
    [135] ++ List.replicate 7 0 ++ target⟩

def receivingThread : Thread × Snooped Unit :=
  (⟨.receiving, 3, ("wlan0" : CString), ⟨0, 0, fun _ => 0⟩⟩, ⟨1, 3, 0, .init ()⟩)

/-- 2a80::1 is not link-local, and is passed over. -/
theorem not_every_judged : ¬Every (Thread.look (fun _ _ _ => (true, ())) (some 1500))
    (Judged (fun _ _ _ => (true, ())) (some 1500)) receivingThread
      [.arrival (solicitation [0x2a, 0x80, 0, 0, 0, 0, 0, 0, 0, 0, 0, 0, 0, 0, 0, 1])] := by
  intro h
  have hjudged := h.1.arrival _ rfl rfl
  revert hjudged
  decide +kernel

end G361FPlatform.Dnsmasq
