import Mathlib.Data.List.Basic
import Mathlib.Order.Basic

namespace G361FPlatform.Library

/-- Edges, in order, at each place; an edge may lead nowhere.  A trail goes on until it comes to
a final place. -/
structure Fan (α : Type u) (ε : Type v) where
  out : α → List ε
  next : α → ε → Option α
  final : α → Bool

namespace Fan

variable {α : Type u} {ε : Type v}

/-- A trail, with the position of each edge at the place where the edge is taken. -/
inductive Trail (g : Fan α ε) : α → List (Nat × ε) → Prop
  | stop {a b : α} {e : ε} {i : Nat} : (g.out a)[i]? = some e → g.next a e = some b → g.final b = true →
    Trail g a [(i, e)]
  | step {a b : α} {e : ε} {i : Nat} {t : List (Nat × ε)} : (g.out a)[i]? = some e → g.next a e = some b →
    g.final b = false → Trail g b t → Trail g a ((i, e) :: t)

/-- What the trails from behind an edge make of it. -/
def behind (g : Fan α ε) (trails : α → List (List (Nat × ε))) (a : α) (p : ε × Nat) :
    List (List (Nat × ε)) :=
  match g.next a p.1 with
  | none => []
  | some b => if g.final b then [[(p.2, p.1)]] else (trails b).map ((p.2, p.1) :: ·)

/-- The trails of so many edges at most. -/
def trails (g : Fan α ε) : Nat → α → List (List (Nat × ε))
  | 0, _ => []
  | n + 1, a => (g.out a).zipIdx.flatMap (g.behind (g.trails n) a)

variable {g : Fan α ε} {a b : α} {e : ε} {i n : Nat} {t : List (Nat × ε)}

theorem mem_behind {f : α → List (List (Nat × ε))} : t ∈ g.behind f a (e, i) ↔
    ∃ b, g.next a e = some b ∧
      ((g.final b = true ∧ t = [(i, e)]) ∨ (g.final b = false ∧ ∃ t' ∈ f b, t = (i, e) :: t')) := by
  unfold behind
  cases hnext : g.next a e with
  | none => simp
  | some b =>
    cases hfinal : g.final b with
    | true => simp [hfinal]
    | false =>
      simp only [hfinal, Bool.false_eq_true, if_false, List.mem_map, Option.some.injEq, exists_eq_left',
        false_and, false_or, true_and, @eq_comm _ t]

theorem mem_trails : t ∈ g.trails n a ↔ g.Trail a t ∧ t.length ≤ n := by
  induction n generalizing a t with
  | zero =>
    refine iff_of_false List.not_mem_nil ?_
    rintro ⟨htrail, hlen⟩
    cases htrail <;> simp at hlen
  | succ n ih =>
    simp only [trails, List.mem_flatMap, Prod.exists, List.mk_mem_zipIdx_iff_getElem?, mem_behind]
    constructor
    · rintro ⟨e, i, he, b, hnext, ⟨hfinal, rfl⟩ | ⟨hfinal, t', ht', rfl⟩⟩
      · exact ⟨.stop he hnext hfinal, by simp⟩
      · obtain ⟨htrail, hlen⟩ := ih.mp ht'
        exact ⟨.step he hnext hfinal htrail, by simpa using hlen⟩
    · rintro ⟨htrail, hlen⟩
      cases htrail with
      | stop he hnext hfinal => exact ⟨_, _, he, _, hnext, .inl ⟨hfinal, rfl⟩⟩
      | step he hnext hfinal htrail =>
        have hlen := Nat.le_of_succ_le_succ hlen
        exact ⟨_, _, he, _, hnext, .inr ⟨hfinal, _, ih.mpr ⟨htrail, hlen⟩, rfl⟩⟩

theorem pairwise_trails (g : Fan α ε) (n : Nat) (a : α) :
    (g.trails n a).Pairwise fun t t' => t.map Prod.fst < t'.map Prod.fst := by
  induction n generalizing a with
  | zero => exact List.Pairwise.nil
  | succ n ih =>
    rw [trails, List.pairwise_flatMap]
    constructor
    · rintro ⟨e, i⟩ -
      unfold behind
      cases g.next a e with
      | none => exact List.Pairwise.nil
      | some b =>
        dsimp only
        split
        · exact List.pairwise_singleton _ _
        · rw [List.pairwise_map]
          refine (ih b).imp fun hlt => ?_
          exact List.cons_lt_cons_iff.mpr (.inr ⟨rfl, hlt⟩)
    · have hidx : ((g.out a).zipIdx.map Prod.snd).Pairwise (· < ·) := by
        rw [List.zipIdx_map_snd]
        exact List.pairwise_lt_range'
      refine (List.pairwise_map.mp hidx).imp ?_
      rintro ⟨e, i⟩ ⟨e', i'⟩ hlt t ht t' ht'
      have hhead : ∀ {t e i}, t ∈ g.behind (g.trails n) a (e, i) → ∃ u, t = (i, e) :: u := by
        intro t e i ht
        obtain ⟨b, -, ⟨-, rfl⟩ | ⟨-, u, -, rfl⟩⟩ := mem_behind.mp ht
        · exact ⟨[], rfl⟩
        · exact ⟨u, rfl⟩
      obtain ⟨u, rfl⟩ := hhead ht
      obtain ⟨u', rfl⟩ := hhead ht'
      exact List.cons_lt_cons_iff.mpr (.inl hlt)

/-- Where no trail is longer, all of them are there, and so they are built from those behind the
edges. -/
theorem trails_eq (hn : ∀ a t, g.Trail a t → t.length ≤ n) (a : α) :
    g.trails n a = (g.out a).zipIdx.flatMap (g.behind (g.trails n) a) := by
  have hstable : ∀ n a, (∀ t, g.Trail a t → t.length ≤ n) → g.trails (n + 1) a = g.trails n a := by
    intro n
    induction n with
    | zero =>
      intro a hlen
      refine List.eq_nil_iff_forall_not_mem.mpr fun t ht => ?_
      have hzero := hlen t (mem_trails.mp ht).1
      obtain ⟨htrail, -⟩ := mem_trails.mp ht
      cases htrail <;> simp at hzero
    | succ n ih =>
      intro a hlen
      rw [trails, trails]
      refine List.flatMap_congr ?_
      rintro ⟨e, i⟩ hmem
      have he := List.mk_mem_zipIdx_iff_getElem?.mp hmem
      unfold behind
      cases hnext : g.next a e with
      | none => rfl
      | some b =>
        cases hfinal : g.final b with
        | true => simp [hfinal]
        | false =>
          have hb : g.trails (n + 1) b = g.trails n b := by
            refine ih b fun t ht => ?_
            exact Nat.le_of_succ_le_succ (hlen _ (.step he hnext hfinal ht))
          simp [hfinal, hb]
  rw [← hstable n a (hn a), trails]

end Fan

end G361FPlatform.Library
