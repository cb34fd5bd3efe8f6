import Mathlib.Order.Lattice
import Mathlib.Data.List.Induction

namespace G361FPlatform.Library

/-- What a scan for the best of several candidates remembers: the best value so far, who was first
to have it, and who was last to come level with the best of the moment. -/
structure Leader (ι : Type u) (κ : Type v) where
  best : κ
  first : Option ι
  second : Option ι

namespace Leader

section

variable {ι : Type u} {κ : Type v} [LinearOrder κ]

def see (f : ι → κ) (b : Leader ι κ) (i : ι) : Leader ι κ :=
  if b.best < f i then { b with best := f i, first := some i }
  else if b.best = f i then { b with second := some i }
  else b

def scan (f : ι → κ) (is : List ι) (b : Leader ι κ) : Leader ι κ := is.foldl (see f) b

theorem scan_cons (f : ι → κ) (i : ι) (is : List ι) (b : Leader ι κ) :
    scan f (i :: is) b = scan f is (see f b i) := rfl

theorem scan_append_singleton (f : ι → κ) (is : List ι) (b : Leader ι κ) (x : ι) :
    scan f (is ++ [x]) b = see f (scan f is b) x := by
  rw [scan, List.foldl_append]
  rfl

theorem le_best_see (f : ι → κ) (b : Leader ι κ) (x : ι) : b.best ≤ (see f b x).best := by
  unfold see
  split
  next hlt => exact hlt.le
  · split <;> exact le_rfl

theorem apply_le_best_see (f : ι → κ) (b : Leader ι κ) (x : ι) : f x ≤ (see f b x).best := by
  unfold see
  split
  · exact le_rfl
  next hle => split <;> exact not_lt.mp hle

theorem le_best_scan (f : ι → κ) (is : List ι) (b : Leader ι κ) : b.best ≤ (scan f is b).best := by
  induction is generalizing b with
  | nil => exact le_rfl
  | cons x is ih => exact (le_best_see f b x).trans (ih (see f b x))

theorem apply_le_best_scan (f : ι → κ) {is : List ι} (b : Leader ι κ) {i : ι} (hi : i ∈ is) :
    f i ≤ (scan f is b).best := by
  induction is generalizing b with
  | nil => cases hi
  | cons x is ih =>
    rcases List.mem_cons.mp hi with rfl | hi
    · exact (apply_le_best_see f b i).trans (le_best_scan f is _)
    · exact ih (see f b x) hi

end

section

variable {ι : Type u} {κ : Type v} [LinearOrder ι] [LinearOrder κ]

/-- The candidate comes level with the best of those before it, or with the value to start from. -/
structure Level (f : ι → κ) (low : κ) (is : List ι) (j : ι) : Prop where
  mem : j ∈ is
  low_le : low ≤ f j
  before : ∀ k ∈ is, k < j → f k ≤ f j
  met : f j = low ∨ ∃ i ∈ is, i < j ∧ f i = f j

variable {f : ι → κ} {is : List ι} {b : Leader ι κ} {j x : ι}

/-- Somebody has the best value, and was the first to have it, unless nobody beat the start. -/
theorem first_scan (f : ι → κ) (is : List ι) (hsorted : is.Pairwise (· < ·)) (b : Leader ι κ) :
    ((scan f is b).best = b.best ∧ (scan f is b).first = b.first) ∨
      ∃ i ∈ is, (scan f is b).first = some i ∧ f i = (scan f is b).best ∧ b.best < f i ∧
        ∀ k ∈ is, k < i → f k < f i := by
  induction is using List.reverseRecOn with
  | nil => exact .inl ⟨rfl, rfl⟩
  | append_singleton is x ih =>
    obtain ⟨hinit, -, hlast⟩ := List.pairwise_append.mp hsorted
    have hlt : ∀ i ∈ is, i < x := fun i hi => hlast i hi x (List.mem_singleton_self x)
    rw [scan_append_singleton]
    by_cases hbeats : (scan f is b).best < f x
    · refine .inr ⟨x, by simp, by simp [see, hbeats], by simp [see, hbeats],
        (le_best_scan f is b).trans_lt hbeats, fun k hk hkx => ?_⟩
      rcases List.mem_append.mp hk with hk | hk
      · exact (apply_le_best_scan f b hk).trans_lt hbeats
      · exact absurd hkx (List.mem_singleton.mp hk ▸ lt_irrefl x)
    · have hsame : (see f (scan f is b) x).best = (scan f is b).best ∧
          (see f (scan f is b) x).first = (scan f is b).first := by
        unfold see
        rw [if_neg hbeats]
        split <;> exact ⟨rfl, rfl⟩
      rw [hsame.1, hsame.2]
      rcases ih hinit with hstart | ⟨i, hi, hfirst, hbest, hlow, hbefore⟩
      · exact .inl hstart
      · refine .inr ⟨i, List.mem_append_left _ hi, hfirst, hbest, hlow, fun k hk hki => ?_⟩
        rcases List.mem_append.mp hk with hk | hk
        · exact hbefore k hk hki
        · rw [List.mem_singleton.mp hk] at hki
          exact absurd hki (hlt i hi).not_gt

theorem level_append_singleton (hsorted : is.Pairwise (· < ·)) (hlt : ∀ i ∈ is, i < x) :
    Level f b.best (is ++ [x]) j ↔ Level f b.best is j ∨ (j = x ∧ (scan f is b).best = f x) := by
  have hnot : ∀ {j}, j ∈ is → ¬x < j := fun hj => (hlt _ hj).not_gt
  constructor
  · intro h
    rcases List.mem_append.mp h.mem with hj | hj
    · refine .inl ⟨hj, h.low_le, fun k hk => h.before k (List.mem_append_left _ hk), ?_⟩
      rcases h.met with hlow | ⟨i, hi, hij, heq⟩
      · exact .inl hlow
      · rcases List.mem_append.mp hi with hi | hi
        · exact .inr ⟨i, hi, hij, heq⟩
        · exact absurd (List.mem_singleton.mp hi ▸ hij) (hnot hj)
    · obtain rfl := List.mem_singleton.mp hj
      refine .inr ⟨rfl, le_antisymm ?_ ?_⟩
      · rcases first_scan f is hsorted b with ⟨hbest, -⟩ | ⟨i, hi, -, hbest, -⟩
        · exact hbest ▸ h.low_le
        · exact hbest ▸ h.before i (List.mem_append_left _ hi) (hlt i hi)
      · rcases h.met with hlow | ⟨i, hi, hij, heq⟩
        · exact hlow ▸ le_best_scan f is b
        · rcases List.mem_append.mp hi with hi | hi
          · exact heq ▸ apply_le_best_scan f b hi
          · exact absurd hij (List.mem_singleton.mp hi ▸ lt_irrefl j)
  · rintro (h | ⟨rfl, hbest⟩)
    · refine ⟨List.mem_append_left _ h.mem, h.low_le, fun k hk hkj => ?_, ?_⟩
      · rcases List.mem_append.mp hk with hk | hk
        · exact h.before k hk hkj
        · exact absurd (List.mem_singleton.mp hk ▸ hkj) (hnot h.mem)
      · exact h.met.imp_right fun ⟨i, hi, hij, heq⟩ => ⟨i, List.mem_append_left _ hi, hij, heq⟩
    · refine ⟨by simp, hbest ▸ le_best_scan f is b, fun k hk hkj => ?_, ?_⟩
      · rcases List.mem_append.mp hk with hk | hk
        · exact hbest ▸ apply_le_best_scan f b hk
        · exact absurd hkj (List.mem_singleton.mp hk ▸ lt_irrefl j)
      · rcases first_scan f is hsorted b with ⟨hlow, -⟩ | ⟨i, hi, -, heq, -⟩
        · exact .inl (hbest.symm.trans hlow)
        · exact .inr ⟨i, List.mem_append_left _ hi, hlt i hi, heq.trans hbest⟩

/-- The second is the last who came level with the best of the moment, if anybody did. -/
theorem second_scan (f : ι → κ) (is : List ι) (hsorted : is.Pairwise (· < ·)) (b : Leader ι κ) :
    ((∀ j, ¬Level f b.best is j) ∧ (scan f is b).second = b.second) ∨
      ∃ j, Level f b.best is j ∧ (∀ j', Level f b.best is j' → j' ≤ j) ∧ (scan f is b).second = some j := by
  induction is using List.reverseRecOn with
  | nil => exact .inl ⟨fun j h => absurd h.mem List.not_mem_nil, rfl⟩
  | append_singleton is x ih =>
    obtain ⟨hinit, -, hlast⟩ := List.pairwise_append.mp hsorted
    have hlt : ∀ i ∈ is, i < x := fun i hi => hlast i hi x (List.mem_singleton_self x)
    have hlevel : ∀ j, Level f b.best (is ++ [x]) j ↔
        Level f b.best is j ∨ (j = x ∧ (scan f is b).best = f x) := fun _ =>
      level_append_singleton hinit hlt
    rw [scan_append_singleton]
    by_cases hmeets : (scan f is b).best = f x
    · have hsecond : (see f (scan f is b) x).second = some x := by simp [see, hmeets]
      refine .inr ⟨x, (hlevel x).mpr (.inr ⟨rfl, hmeets⟩), fun j' hj' => ?_, hsecond⟩
      rcases (hlevel j').mp hj' with hj' | ⟨rfl, -⟩
      · exact (hlt j' hj'.mem).le
      · exact le_rfl
    · have hsecond : (see f (scan f is b) x).second = (scan f is b).second := by
        unfold see
        rw [if_neg hmeets]
        split <;> rfl
      have hsame : ∀ j, Level f b.best (is ++ [x]) j ↔ Level f b.best is j := by
        intro j
        rw [hlevel j, or_iff_left fun h => hmeets h.2]
      simp only [hsame, hsecond]
      exact ih hinit

end

end Leader

end G361FPlatform.Library
