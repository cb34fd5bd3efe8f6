import Mathlib.Algebra.Order.Group.Multiset
import Mathlib.Data.Multiset.MapFold
import Mathlib.Data.Multiset.UnionInter

namespace G361FPlatform.Library

/-- A request that waits for its reply: who has asked, and the name that it has on the wire. -/
structure Ticket (κ ν : Type) where
  client : κ
  wire : ν
  deriving DecidableEq

namespace Tickets

inductive Move (κ ν : Type)
  /-- A client asks, and its request is passed on. -/
  | pass (t : Ticket κ ν)
  /-- A client asks, and gets its answer at once or not at all. -/
  | settle (client : κ) (answered : Bool)
  /-- The reply to a request is passed back. -/
  | reply (t : Ticket κ ν)
  /-- A request is given up. -/
  | lose (t : Ticket κ ν)

def Move.asks : Move κ ν → Option κ
  | pass t => some t.client
  | settle client _ => some client
  | _ => none

def Move.answers : Move κ ν → Option κ
  | settle client true => some client
  | reply t => some t.client
  | _ => none

variable {κ ν : Type}

/-- What a relay of requests may do, which has the requests `s` waiting. -/
inductive Step : Multiset (Ticket κ ν) → Move κ ν → Multiset (Ticket κ ν) → Prop
  | pass (t : Ticket κ ν) (h : ∀ u ∈ s, u.wire ≠ t.wire) : Step s (.pass t) (t ::ₘ s)
  | settle (client : κ) (answered : Bool) : Step s (.settle client answered) s
  | reply (t : Ticket κ ν) : Step (t ::ₘ s) (.reply t) s
  | lose (t : Ticket κ ν) : Step (t ::ₘ s) (.lose t) s

inductive Run : Multiset (Ticket κ ν) → List (Move κ ν) → Multiset (Ticket κ ν) → Prop
  | nil (s : Multiset (Ticket κ ν)) : Run s [] s
  | cons {s s' s'' : Multiset (Ticket κ ν)} {m : Move κ ν} {ms : List (Move κ ν)} (h : Step s m s')
      (hs : Run s' ms s'') : Run s (m :: ms) s''

variable {s s' s'' : Multiset (Ticket κ ν)} {m : Move κ ν} {ms ms' : List (Move κ ν)}

theorem Run.single (h : Step s m s') : Run s [m] s' := .cons h (.nil s')

theorem Run.append (h : Run s ms s') (h' : Run s' ms' s'') : Run s (ms ++ ms') s'' := by
  induction h with
  | nil => exact h'
  | cons hm _ ih => exact .cons hm (ih h')

theorem Run.losesFrom (ts : List (Ticket κ ν)) (s : Multiset (Ticket κ ν)) :
    Run ((ts : Multiset (Ticket κ ν)) + s) (ts.map .lose) s := by
  induction ts with
  | nil => simpa using Run.nil s
  | cons t ts ih =>
    rw [← Multiset.cons_coe, Multiset.cons_add]
    exact .cons (.lose t) ih

theorem Run.loses (h : s' ≤ s) : ∃ ts : List (Ticket κ ν), Run s (ts.map .lose) s' := by
  obtain ⟨u, rfl⟩ := Multiset.le_iff_exists_add.mp h
  obtain ⟨ts, rfl⟩ : ∃ ts : List (Ticket κ ν), (ts : Multiset (Ticket κ ν)) = u := Quot.exists_rep u
  refine ⟨ts, ?_⟩
  rw [add_comm]
  exact Run.losesFrom ts s'

/-- No two requests that wait have the same name. -/
def Apart (s : Multiset (Ticket κ ν)) : Prop := (s.map Ticket.wire).Nodup

theorem Step.apart (h : Step s m s') (hs : Apart s) : Apart s' := by
  cases h with
  | pass t hnew =>
    rw [Apart, Multiset.map_cons, Multiset.nodup_cons]
    refine ⟨fun hmem => ?_, hs⟩
    obtain ⟨u, hu, huw⟩ := Multiset.mem_map.mp hmem
    exact hnew u hu huw
  | settle => exact hs
  | reply | lose =>
    rw [Apart, Multiset.map_cons, Multiset.nodup_cons] at hs
    exact hs.2

theorem Run.apart (h : Run s ms s') (hs : Apart s) : Apart s' := by
  induction h with
  | nil => exact hs
  | cons hm _ ih => exact ih (hm.apart hs)

theorem Step.origin (h : Step s m s') {t : Ticket κ ν} (ht : t ∈ s') : t ∈ s ∨ m = .pass t := by
  cases h with
  | pass => exact (Multiset.mem_cons.mp ht).symm.imp_right fun heq => by rw [heq]
  | settle => exact .inl ht
  | reply | lose => exact .inl (Multiset.mem_cons_of_mem ht)

theorem Run.origin (h : Run s ms s') {t : Ticket κ ν} (ht : t ∈ s') : t ∈ s ∨ .pass t ∈ ms := by
  induction h with
  | nil => exact .inl ht
  | cons hm _ ih =>
    rcases ih ht with hmid | hpass
    · refine (hm.origin hmid).imp_right fun heq => ?_
      rw [heq]
      exact List.mem_cons_self
    · exact .inr (List.mem_cons_of_mem _ hpass)

theorem Run.reply_origin (h : Run s ms s') {t : Ticket κ ν} (ht : .reply t ∈ ms) : t ∈ s ∨ .pass t ∈ ms := by
  induction h with
  | nil => cases ht
  | cons hm _ ih =>
    rcases List.mem_cons.mp ht with rfl | htail
    · cases hm
      exact .inl (Multiset.mem_cons_self _ _)
    · rcases ih htail with hmid | hpass
      · refine (hm.origin hmid).imp_right fun heq => ?_
        rw [heq]
        exact List.mem_cons_self
      · exact .inr (List.mem_cons_of_mem _ hpass)

variable [DecidableEq κ] (k : κ)

def waiting (s : Multiset (Ticket κ ν)) : Nat := s.countP fun t => t.client = k

def asked (ms : List (Move κ ν)) : Nat := (ms.filterMap Move.asks).count k

def answered (ms : List (Move κ ν)) : Nat := (ms.filterMap Move.answers).count k

theorem asked_append (ms ms' : List (Move κ ν)) : asked k (ms ++ ms') = asked k ms + asked k ms' := by
  simp only [asked, List.filterMap_append, List.count_append]

theorem answered_append (ms ms' : List (Move κ ν)) :
    answered k (ms ++ ms') = answered k ms + answered k ms' := by
  simp only [answered, List.filterMap_append, List.count_append]

theorem asked_singleton (m : Move κ ν) : asked k [m] = if m.asks = some k then 1 else 0 := by
  cases h : m.asks with
  | none => simp [asked, h]
  | some client => simp [asked, h, List.count_singleton]

theorem answered_singleton (m : Move κ ν) : answered k [m] = if m.answers = some k then 1 else 0 := by
  cases h : m.answers with
  | none => simp [answered, h]
  | some client => simp [answered, h, List.count_singleton]

theorem Step.fair (h : Step s m s') : answered k [m] + waiting k s' ≤ waiting k s + asked k [m] := by
  rw [answered_singleton, asked_singleton]
  cases h with
  | pass t _ => simp [waiting, Move.answers, Move.asks, Multiset.countP_cons]
  | settle client now =>
    cases now with
    | false => simp [Move.answers]
    | true => simp [Move.answers, Move.asks, Nat.add_comm]
  | reply t => simp [waiting, Move.answers, Move.asks, Multiset.countP_cons, Nat.add_comm]
  | lose t => simp [waiting, Move.answers, Move.asks, Multiset.countP_cons]

/-- No client gets more answers than it has asked for. -/
theorem Run.fair (h : Run s ms s') : answered k ms + waiting k s' ≤ waiting k s + asked k ms := by
  induction h with
  | nil => simp [answered, asked]
  | @cons _ _ _ m ms hm _ ih =>
    have hstep := hm.fair k
    rw [← List.singleton_append, asked_append, answered_append]
    omega

end Tickets

end G361FPlatform.Library
