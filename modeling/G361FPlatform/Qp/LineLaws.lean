import Mathlib.Algebra.GroupWithZero.Nat
import G361FPlatform.Qp.EmitLaws

namespace G361FPlatform.Qp

open Library

def newlines (nl x : List UInt8) : List UInt8 := x.flatMap fun b => if b = CR then nl else [b]

@[simp] theorem newlines_append (nl x y : List UInt8) :
    newlines nl (x ++ y) = newlines nl x ++ newlines nl y :=
  List.flatMap_append

theorem newlines_singleton (nl : List UInt8) (b : UInt8) :
    newlines nl [b] = if b = CR then nl else [b] := List.append_nil _

theorem newlines_eq {nl x : List UInt8} (h : CR ∉ x) : newlines nl x = x := by
  induction x with
  | nil => rfl
  | cons b x ih =>
    rw [List.mem_cons, not_or] at h
    rw [show b :: x = [b] ++ x from rfl, newlines_append, ih h.2, newlines_singleton, if_neg (Ne.symm h.1)]

namespace EncodeState

variable {nl x : List UInt8} {s : EncodeState}

structure Emitted (nl x : List UInt8) (s : EncodeState) : Prop where
  emits : ∃ kept, Emits nl (newlines nl x) kept s.out ∧ (s.lastspace = false → kept = true)
  fits : s.linelen ≤ 77
  nullCount : s.nullCount = 0
  previous : s.previous ≠ CR

theorem emitted_init (nl : List UInt8) : Emitted nl [] init :=
  ⟨⟨true, .nil, fun _ => rfl⟩, by decide, rfl, by decide⟩

theorem Emitted.breakLine (h : Emitted nl x s) :
    Emitted nl x (if 74 < s.linelen then { s.breakLine with previous := 0 } else s) ∧
      (if 74 < s.linelen then { s.breakLine with previous := 0 } else s).linelen ≤ 74 := by
  split
  next hlong =>
    obtain ⟨kept, hemits, -⟩ := h.emits
    rw [EncodeState.breakLine, if_pos hlong]
    refine ⟨⟨⟨true, ?_, fun _ => rfl⟩, Nat.zero_le _, h.nullCount, zero_ne_cr⟩, Nat.zero_le _⟩
    rw [out, List.append_nil]
    exact hemits.soft
  next hshort => exact ⟨h, Nat.not_lt.mp hshort⟩

theorem Emitted.putByte {b : UInt8} (h : Emitted nl x s) (hfits : s.linelen ≤ 74) (hnl : nl.length ≤ 2) :
    ∃ s', s.putByte b = .ok s' ∧ Emitted nl (x ++ [b]) s' := by
  obtain ⟨s', hput, hputs, hprev, hnull⟩ := putByte_puts (b := b) hfits h.previous
  obtain ⟨kept, hemits, hkept⟩ := h.emits
  have hnone : s'.nullCount = 0 := hnull.trans h.nullCount
  refine ⟨s', hput, ?_⟩
  cases hputs with
  | lit hb hout hspace hlen =>
    refine ⟨⟨!decide (b = SP ∨ b = HT), ?_, fun hs => ?_⟩, by omega, hnone, hprev⟩
    · rw [hout, newlines_append, newlines_singleton, if_neg hb.2.2]
      exact hemits.lit hb
    · rw [hs] at hspace
      rw [← hspace]
      rfl
  | code hb hout _ hlen =>
    refine ⟨⟨true, ?_, fun _ => rfl⟩, by omega, hnone, hprev⟩
    rw [hout, newlines_append, newlines_singleton, if_neg hb.2]
    exact hemits.code b
  | line guard hb hguard hout _ hlen =>
    refine ⟨⟨true, ?_, fun _ => rfl⟩, by omega, hnone, hprev⟩
    -- behind the guard no blank is left to be dropped
    have hguarded : Emits nl (newlines nl x) true (s.out ++ guard) := by
      rcases hguard with rfl | ⟨rfl, hspace⟩
      · exact hemits.soft
      · rw [List.append_nil, ← hkept hspace]
        exact hemits
    rw [hout, newlines_append, newlines_singleton]
    split
    · exact hguarded.hard hnl
    · exact hguarded.code b

theorem Emitted.step {b : UInt8} (h : Emitted nl x s) (hb : b ≠ 0) (hnl : nl.length ≤ 2) :
    ∃ s', s.step b = .ok s' ∧ Emitted nl (x ++ [b]) s' := by
  obtain ⟨hline, hfits⟩ := h.breakLine
  unfold EncodeState.step
  simp only [hb, hline.nullCount, Nat.lt_irrefl, if_false]
  exact hline.putByte hfits hnl

theorem Emitted.encodeLoop {bs : List UInt8} (h : Emitted nl x s) (hbs : 0 ∉ bs) (hnl : nl.length ≤ 2) :
    ∃ s', s.encodeLoop bs = .ok s' ∧ Emitted nl (x ++ bs) s' := by
  induction bs generalizing x s with
  | nil => exact ⟨s, rfl, by rwa [List.append_nil]⟩
  | cons b bs ih =>
    rw [List.mem_cons, not_or] at hbs
    obtain ⟨s₁, hstep, h₁⟩ := h.step (Ne.symm hbs.1) hnl
    obtain ⟨s', hloop, h'⟩ := ih h₁ hbs.2
    refine ⟨s', ?_, by rwa [List.append_assoc] at h'⟩
    rw [EncodeState.encodeLoop, hstep]
    exact hloop

end EncodeState

theorem decodeQP_encodeQP_newlines {nl x : List UInt8} (hx : 0 ∉ x) (hnl : nl.length ≤ 2) :
    ∃ e written, encodeQP x = .ok (e, written) ∧ decodeQP nl (some e) e.length = .ok (newlines nl x) := by
  obtain ⟨s, hloop, ⟨kept, hemits, -⟩, -⟩ := (EncodeState.emitted_init nl).encodeLoop hx hnl
  exact ⟨s.out, s.written, encodeQP_eq hloop, decodeQP_emits hemits⟩

theorem newlines_intercalate {nl : List UInt8} {lines : List (List UInt8)} (h : ∀ l ∈ lines, CR ∉ l) :
    newlines nl ([CR, LF].intercalate lines) = (nl ++ [LF]).intercalate lines := by
  have hsep : newlines nl [CR, LF] = nl ++ [LF] := rfl
  induction lines with
  | nil => rfl
  | cons l lines ih =>
    have hl : newlines nl l = l := newlines_eq (h l List.mem_cons_self)
    cases lines with
    | nil => simpa using hl
    | cons l' lines =>
      have hrest := ih fun m hm => h m (List.mem_cons_of_mem _ hm)
      rw [List.intercalate_cons_cons, List.intercalate_cons_cons, newlines_append, newlines_append, hl, hsep,
        hrest]

theorem length_intercalate (sep : List α) (lines : List (List α)) :
    (sep.intercalate lines).length = (lines.map List.length).sum + sep.length * (lines.length - 1) := by
  induction lines with
  | nil => rfl
  | cons l lines ih =>
    cases lines with
    | nil => simp
    | cons l' lines =>
      rw [List.intercalate_cons_cons, List.length_append, List.length_append, ih]
      simp only [List.map_cons, List.sum_cons, List.length_cons, Nat.add_sub_cancel, Nat.mul_succ]
      omega

theorem mem_intercalate {sep : List α} {lines : List (List α)} {a : α} (h : a ∈ sep.intercalate lines) :
    a ∈ sep ∨ ∃ l ∈ lines, a ∈ l := by
  induction lines with
  | nil => cases h
  | cons l lines ih =>
    cases lines with
    | nil => exact .inr ⟨l, List.mem_cons_self, by rwa [List.intercalate_singleton] at h⟩
    | cons l' lines =>
      rw [List.intercalate_cons_cons, List.mem_append, List.mem_append] at h
      rcases h with (h | h) | h
      · exact .inr ⟨l, List.mem_cons_self, h⟩
      · exact .inl h
      · rcases ih h with hsep | ⟨m, hm, ha⟩
        · exact .inl hsep
        · exact .inr ⟨m, List.mem_cons_of_mem _ hm, ha⟩

/-- The line breaks of a text come back doubled: only a text without any is the same. -/
theorem decodeQP_encodeQP_crlf {lines : List (List UInt8)}
    (h : ∀ l ∈ lines, CR ∉ l ∧ LF ∉ l ∧ 0 ∉ l) :
    ∃ e written, encodeQP ([CR, LF].intercalate lines) = .ok (e, written) ∧
      (decodeQP [LF] (some e) e.length = .ok ([LF].intercalate lines) ↔ lines.length ≤ 1) := by
  have hnul : (0 : UInt8) ∉ [CR, LF].intercalate lines := by
    intro hmem
    rcases mem_intercalate hmem with hsep | ⟨l, hl, hmem⟩
    · exact absurd hsep (by decide)
    · exact (h l hl).2.2 hmem
  obtain ⟨e, written, hencode, hdecode⟩ := @decodeQP_encodeQP_newlines [LF] _ hnul (by decide)
  refine ⟨e, written, hencode, ?_⟩
  rw [hdecode, newlines_intercalate fun l hl => (h l hl).1]
  constructor
  · intro heq
    have hlen := congrArg List.length (Except.ok.inj heq)
    rw [length_intercalate, length_intercalate] at hlen
    simp only [List.length_append, List.length_singleton] at hlen
    omega
  · intro hle
    match lines, hle with
    | [], _ => rfl
    | [l], _ => rfl

/-- One line, with a blank and a code in it. -/
theorem decodeQP_encodeQP_crlf_one : ∃ e written,
    encodeQP ([CR, LF].intercalate [[61, 32]]) = .ok (e, written) ∧
      (decodeQP [LF] (some e) e.length = .ok ([LF].intercalate [[61, 32]]) ↔ [[(61 : UInt8), 32]].length ≤ 1) :=
  decodeQP_encodeQP_crlf (by decide)

/-- Two lines of one letter each. -/
theorem not_decodeQP_encodeQP_crlf : ¬∃ e written,
    encodeQP ([CR, LF].intercalate [[97], [98]]) = .ok (e, written) ∧
      decodeQP [LF] (some e) e.length = .ok ([LF].intercalate [[97], [98]]) := by
  rintro ⟨e, written, hencode, hdecode⟩
  have hboth : ((encodeQP ([CR, LF].intercalate [[97], [98]])).bind fun p =>
      decodeQP [LF] (some p.1) p.1.length).toOption = some [97, 10, 10, 98] := by
    decide +kernel
  rw [hencode] at hboth
  change (decodeQP [LF] (some e) e.length).toOption = _ at hboth
  rw [hdecode] at hboth
  exact absurd hboth (by decide)

end G361FPlatform.Qp
