import Mathlib.Logic.Basic

namespace G361FPlatform.Library

universe u

/-- A text, cut at its line breaks. -/
structure Lines (α : Type u) where
  ended : List (List α)
  current : List α

namespace Lines

variable {α : Type u} [DecidableEq α] (cr lf : α)

/-- `cr` and `lf` behind it end a line. -/
def push (ls : Lines α) (a : α) : Lines α :=
  if a = lf ∧ ls.current.getLast? = some cr then ⟨ls.ended ++ [ls.current.dropLast], []⟩
  else ⟨ls.ended, ls.current ++ [a]⟩

def of (e : List α) : Lines α := e.foldl (push cr lf) ⟨[], []⟩

/-- No line is longer than `n`, the last one included. -/
def Within (n : Nat) (e : List α) : Prop :=
  ∀ l ∈ (of cr lf e).ended ++ [(of cr lf e).current], l.length ≤ n

instance (n : Nat) (e : List α) : Decidable (Within cr lf n e) := List.decidableBAll _ _

def column (e : List α) : Nat := (of cr lf e).current.length

variable {cr lf}

theorem foldl_push {t : List α} (h : lf ∉ t) (ls : Lines α) :
    t.foldl (push cr lf) ls = ⟨ls.ended, ls.current ++ t⟩ := by
  induction t generalizing ls with
  | nil => rw [List.foldl_nil, List.append_nil]
  | cons a t ih =>
    rw [List.mem_cons, not_or] at h
    rw [List.foldl_cons, ih h.2, push, if_neg fun ha => h.1 ha.1.symm, List.append_assoc]
    rfl

theorem of_append {t : List α} (h : lf ∉ t) (e : List α) :
    of cr lf (e ++ t) = ⟨(of cr lf e).ended, (of cr lf e).current ++ t⟩ := by
  rw [of, List.foldl_append]
  exact foldl_push h _

theorem of_break (h : cr ≠ lf) (e : List α) :
    of cr lf (e ++ [cr, lf]) = ⟨(of cr lf e).ended ++ [(of cr lf e).current], []⟩ := by
  have hcr := @of_append _ _ cr lf [cr] (fun hmem => h (List.mem_singleton.mp hmem).symm) e
  rw [show e ++ [cr, lf] = e ++ [cr] ++ [lf] by rw [List.append_assoc]; rfl, of, List.foldl_append]
  change push cr lf (of cr lf (e ++ [cr])) lf = _
  rw [hcr, push, if_pos ⟨rfl, List.getLast?_concat⟩, List.dropLast_concat]

theorem within_iff (n : Nat) (e : List α) :
    Within cr lf n e ↔ (∀ l ∈ (of cr lf e).ended, l.length ≤ n) ∧ column cr lf e ≤ n := by
  simp only [Within, List.mem_append, List.mem_singleton, or_imp, forall_and, forall_eq, column]

theorem within_append {n : Nat} {t : List α} (h : lf ∉ t) (e : List α) :
    Within cr lf n (e ++ t) ↔ Within cr lf n e ∧ column cr lf e + t.length ≤ n := by
  rw [within_iff, within_iff, column, of_append h, List.length_append, column]
  constructor
  · rintro ⟨hended, hcol⟩
    exact ⟨⟨hended, by omega⟩, hcol⟩
  · rintro ⟨⟨hended, -⟩, hcol⟩
    exact ⟨hended, hcol⟩

theorem column_append {t : List α} (h : lf ∉ t) (e : List α) :
    column cr lf (e ++ t) = column cr lf e + t.length := by
  rw [column, of_append h, List.length_append]
  rfl

theorem within_break {n : Nat} (h : cr ≠ lf) (e : List α) :
    Within cr lf n (e ++ [cr, lf]) ↔ Within cr lf n e := by
  rw [Within, of_break h]
  constructor
  · exact fun hall l hl => hall l (List.mem_append_left _ hl)
  · intro hall l hl
    rcases List.mem_append.mp hl with hl | hl
    · exact hall l hl
    · rw [List.mem_singleton.mp hl]
      exact Nat.zero_le n

theorem column_break (h : cr ≠ lf) (e : List α) : column cr lf (e ++ [cr, lf]) = 0 := by
  rw [column, of_break h]
  rfl

end Lines

end G361FPlatform.Library
