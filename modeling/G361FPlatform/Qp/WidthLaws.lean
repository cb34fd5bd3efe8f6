import G361FPlatform.Qp.TextLaws
import G361FPlatform.Library.Lines
import G361FPlatform.Library.Run

namespace G361FPlatform.Qp

open Library

abbrev Limited (e : List UInt8) : Prop := Lines.Within CR LF 76 e

abbrev column (e : List UInt8) : Nat := Lines.column CR LF e

section

variable (e : List UInt8)

theorem Limited.column_le {e : List UInt8} (h : Limited e) : column e ≤ 76 :=
  ((Lines.within_iff 76 e).mp h).2

theorem limited_soft : Limited (e ++ EQCRLF) ↔ Limited e ∧ column e ≤ 75 := by
  have heq : LF ∉ [EQ] := by decide
  rw [show e ++ EQCRLF = e ++ [EQ] ++ [CR, LF] by rw [List.append_assoc]; rfl, Limited,
    Lines.within_break (by decide), Lines.within_append heq, List.length_singleton, Nat.add_le_add_iff_right]

theorem column_soft : column (e ++ EQCRLF) = 0 := by
  rw [show e ++ EQCRLF = e ++ [EQ] ++ [CR, LF] by rw [List.append_assoc]; rfl]
  exact Lines.column_break (by decide) _

theorem lf_notMem_code (b : UInt8) : LF ∉ EncodeState.code b := by
  revert b
  exact forall_byte (by decide +kernel)

theorem limited_code (b : UInt8) :
    Limited (e ++ EncodeState.code b) ↔ Limited e ∧ column e + 3 ≤ 76 :=
  Lines.within_append (lf_notMem_code b) e

theorem column_code (b : UInt8) : column (e ++ EncodeState.code b) = column e + 3 :=
  Lines.column_append (lf_notMem_code b) e

end

namespace EncodeState

def fill (l : Nat) : Nat := (77 - l) / 3

def nullColumn (n l c : Nat) : Nat := if n < fill l then c + 3 * n else 3 * ((n - fill l) % 25)

theorem nullColumn_nullText (n : Nat) {l : Nat} (hl : l ≤ 74) (e : List UInt8) :
    column (e ++ nullText n l) = nullColumn n l (column e) ∧
      (Limited (e ++ nullText n l) ↔
        Limited e ∧ (fill l ≤ n → column e + 3 * fill l ≤ 75) ∧ nullColumn n l (column e) ≤ 76) := by
  induction n generalizing l e with
  | zero =>
    have hfill : 0 < fill l := by unfold fill; omega
    rw [nullText, List.append_nil, nullColumn, if_pos hfill]
    refine ⟨rfl, fun h => ⟨h, fun hle => by omega, h.column_le⟩, And.left⟩
  | succ n ih =>
    rw [nullText, ← List.append_assoc]
    have hcode := limited_code e 0
    have hcol := column_code e 0
    split
    next hlong =>
      have hfill : fill l = 1 := by unfold fill; omega
      obtain ⟨ihcol, ihlimited⟩ := ih (Nat.zero_le 74) (e ++ code 0 ++ EQCRLF)
      have hrest : nullColumn n 0 0 = nullColumn (n + 1) l (column e) := by
        unfold nullColumn
        rw [hfill, show fill 0 = 25 from rfl]
        split <;> split <;> omega
      rw [column_soft, hrest] at ihcol ihlimited
      rw [← List.append_assoc]
      refine ⟨ihcol, ihlimited.trans ?_⟩
      rw [limited_soft, hcode, hcol, hfill]
      constructor
      · rintro ⟨⟨⟨he, -⟩, hle⟩, -, hnext⟩
        exact ⟨he, fun _ => hle, hnext⟩
      · rintro ⟨he, hle, hnext⟩
        have hone := hle (Nat.succ_le_succ (Nat.zero_le n))
        exact ⟨⟨⟨he, by omega⟩, hone⟩, fun _ => by decide, hnext⟩
    next hshort =>
      have hfill : fill l = fill (l + 3) + 1 := by unfold fill; omega
      obtain ⟨ihcol, ihlimited⟩ := ih (l := l + 3) (by omega) (e ++ code 0)
      have hrest : nullColumn n (l + 3) (column e + 3) = nullColumn (n + 1) l (column e) := by
        unfold nullColumn
        rw [hfill]
        split <;> split <;> omega
      rw [hcol, hrest] at ihcol ihlimited
      refine ⟨ihcol, ihlimited.trans ?_⟩
      rw [hcode, hfill]
      constructor
      · rintro ⟨⟨he, -⟩, hle, hnext⟩
        exact ⟨he, fun hn => by have := hle (by omega); omega, hnext⟩
      · rintro ⟨he, hle, hnext⟩
        refine ⟨⟨he, ?_⟩, fun hn => by have := hle (by omega); omega, hnext⟩
        by_cases hn : n + 1 < fill l
        · rw [nullColumn, if_pos hn] at hnext
          omega
        · have := hle (by omega)
          omega

def need (s : EncodeState) (b : UInt8) : Nat :=
  if Plain b then 1
  else if b = LF then if s.guard = [] then 3 else 1
  else if b = CR then if s.guard = [] then 0 else 1
  else 3

theorem guard_cases (s : EncodeState) : s.guard = [] ∨ s.guard = EQCRLF := by
  unfold guard
  split
  · exact .inr rfl
  · exact .inl rfl

theorem limited_piece (s : EncodeState) (b : UInt8) (e : List UInt8) :
    Limited (e ++ s.piece b) ↔ Limited e ∧ column e + s.need b ≤ 76 := by
  unfold piece need
  split
  next hplain =>
    refine Lines.within_append (fun hlf => ?_) e
    rw [← List.mem_singleton.mp hlf] at hplain
    exact absurd hplain (by decide)
  split
  · rw [← List.append_assoc, limited_code]
    rcases guard_cases s with hguard | hguard
    · rw [hguard, List.append_nil, if_pos rfl]
    · rw [hguard, limited_soft, column_soft, if_neg (show EQCRLF ≠ [] by decide), and_iff_left (by decide),
        Nat.succ_le_succ_iff]
  split
  · rw [← List.append_assoc, Limited, Lines.within_break (by decide)]
    rcases guard_cases s with hguard | hguard
    · rw [hguard, List.append_nil, if_pos rfl]
      exact ⟨fun h => ⟨h, Limited.column_le h⟩, And.left⟩
    · rw [hguard, if_neg (show EQCRLF ≠ [] by decide)]
      exact (limited_soft e).trans (and_congr_right fun _ => Nat.succ_le_succ_iff.symm)
  · exact limited_code e b

def headColumn (s : EncodeState) : Nat := if 74 < s.linelen then 0 else column s.out

/-- The soft line breaks of a round and the byte that it encodes have room on the line. -/
def Fits (s : EncodeState) (b : UInt8) : Prop :=
  (74 < s.linelen → column s.out ≤ 75) ∧
  (b ≠ 0 → (fill s.headLine ≤ s.nullCount → s.headColumn + 3 * fill s.headLine ≤ 75) ∧
    nullColumn s.nullCount s.headLine s.headColumn + s.need b ≤ 76)

theorem limited_text (s : EncodeState) (b : UInt8) :
    Limited (s.out ++ s.text b) ↔ Limited s.out ∧ s.Fits b := by
  have hhead : column (s.out ++ if 74 < s.linelen then EQCRLF else []) = s.headColumn ∧
      (Limited (s.out ++ if 74 < s.linelen then EQCRLF else []) ↔
        Limited s.out ∧ (74 < s.linelen → column s.out ≤ 75)) := by
    unfold headColumn
    split
    next hlong =>
      refine ⟨column_soft s.out, (limited_soft s.out).trans ?_⟩
      rw [forall_prop_of_true hlong]
    next hshort =>
      rw [List.append_nil]
      exact ⟨rfl, fun h => ⟨h, fun hlong => absurd hlong hshort⟩, And.left⟩
  obtain ⟨hcol, hlimited⟩ := hhead
  rw [text, Fits, ← List.append_assoc]
  by_cases hzero : b = 0
  · rw [if_pos hzero, List.append_nil, hlimited]
    exact and_congr_right fun _ => (and_iff_left fun hne => absurd hzero hne).symm
  · obtain ⟨hcol', hlimited'⟩ := nullColumn_nullText s.nullCount (headLine_le s)
      (s.out ++ if 74 < s.linelen then EQCRLF else [])
    rw [hcol] at hcol' hlimited'
    rw [if_neg hzero, ← List.append_assoc, limited_piece, hlimited', hcol', hlimited, forall_prop_of_true hzero]
    constructor
    · rintro ⟨⟨⟨he, hsoft⟩, hnull, -⟩, hneed⟩
      exact ⟨he, hsoft, hnull, hneed⟩
    · rintro ⟨he, hsoft, hnull, hneed⟩
      exact ⟨⟨⟨he, hsoft⟩, hnull, by omega⟩, hneed⟩

def advance (s : EncodeState) (b : UInt8) : EncodeState := (s.step b).toOption.getD s

theorem limited_encodeLoop {s : EncodeState} (h : Ready s) (bs : List UInt8) :
    ∃ s', s.encodeLoop bs = .ok s' ∧ (Limited s'.out ↔ Limited s.out ∧ Every advance Fits s bs) := by
  induction bs generalizing s with
  | nil => exact ⟨s, rfl, (and_iff_left trivial).symm⟩
  | cons b bs ih =>
    obtain ⟨s₁, hstep, h₁, hadds, -⟩ := h.step b
    obtain ⟨s', hloop, hiff⟩ := ih h₁
    refine ⟨s', by rw [EncodeState.encodeLoop, hstep]; exact hloop, hiff.trans ?_⟩
    rw [hadds.out, limited_text, and_assoc, Every, show s.advance b = s₁ by rw [advance, hstep]; rfl]

end EncodeState

/-- The lines keep to the limit exactly where every round finds room on its line. -/
theorem encodeQP_limited_iff (x : List UInt8) :
    ∃ e written, encodeQP x = .ok (e, written) ∧
      (Limited e ↔ Every EncodeState.advance EncodeState.Fits EncodeState.init x) := by
  obtain ⟨s, hloop, hiff⟩ := EncodeState.limited_encodeLoop EncodeState.ready_init x
  refine ⟨s.out, s.written, encodeQP_eq hloop, hiff.trans (and_iff_right ?_)⟩
  decide

/-- Line feeds alone are written without any line break. -/
theorem not_limited_feeds :
    ¬∃ e written, encodeQP (List.replicate 26 LF) = .ok (e, written) ∧ Limited e := by
  rintro ⟨e, written, hencode, hlimited⟩
  have hlong : ((encodeQP (List.replicate 26 LF)).map fun p => decide (Limited p.1)).toOption = some false := by
    decide +kernel
  rw [hencode] at hlong
  exact absurd hlimited (of_decide_eq_false (Option.some.inj hlong))

end G361FPlatform.Qp
