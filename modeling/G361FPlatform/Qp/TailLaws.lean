import Mathlib.Data.List.DropRight
import G361FPlatform.Qp.CodecLaws
import G361FPlatform.Qp.TextLaws

namespace G361FPlatform.Qp

open Library

def strip (x : List UInt8) : List UInt8 := x.rdropWhile (· == 0)

def EndsInNul (x : List UInt8) : Prop := x.getLast? = some 0

instance (x : List UInt8) : Decidable (EndsInNul x) := inferInstanceAs (Decidable (_ = _))

theorem strip_append (x : List UInt8) :
    ∃ n, x = strip x ++ List.replicate n 0 ∧ ¬EndsInNul (strip x) ∧ (0 < n ↔ EndsInNul x) := by
  unfold strip EndsInNul
  induction x using List.reverseRecOn with
  | nil => exact ⟨0, rfl, nofun, iff_of_false (Nat.lt_irrefl 0) nofun⟩
  | append_singleton x b ih =>
    by_cases hb : b = 0
    · subst hb
      obtain ⟨n, hx, hlast, -⟩ := ih
      refine ⟨n + 1, ?_, ?_, iff_of_true (Nat.succ_pos n) List.getLast?_concat⟩
      · rw [List.rdropWhile_concat_pos _ _ _ rfl, List.replicate_succ', ← List.append_assoc, ← hx]
      · rwa [List.rdropWhile_concat_pos _ _ _ rfl]
    · have hneg : ¬(b == 0) = true := fun h => hb (beq_iff_eq.mp h)
      have hlast : ¬(x ++ [b]).getLast? = some 0 := by
        rw [List.getLast?_concat]
        exact fun h => hb (Option.some.inj h)
      rw [List.rdropWhile_concat_neg (· == 0) x b hneg]
      exact ⟨0, (List.append_nil _).symm, hlast, iff_of_false (Nat.lt_irrefl 0) hlast⟩

namespace EncodeState

theorem encodeLoop_append (x y : List UInt8) (s : EncodeState) :
    s.encodeLoop (x ++ y) = (s.encodeLoop x).bind (encodeLoop y) := by
  induction x generalizing s with
  | nil => rfl
  | cons b x ih =>
    rw [List.cons_append, encodeLoop, encodeLoop]
    cases s.step b with
    | error e => rfl
    | ok s' => exact ih s'

theorem Ready.nuls {s : EncodeState} (h : Ready s) (n : Nat) :
    ∃ s', s.encodeLoop (List.replicate n 0) = .ok s' ∧
      s'.out = s.out ++ (if 0 < n ∧ 74 < s.linelen then EQCRLF else []) ∧ s'.nullCount = s.nullCount + n := by
  induction n generalizing s with
  | zero => exact ⟨s, rfl, by rw [if_neg (fun h => Nat.lt_irrefl 0 h.1), List.append_nil], rfl⟩
  | succ n ih =>
    obtain ⟨s₁, hstep, h₁, hadds, hline, hnull⟩ := h.step 0
    obtain ⟨s', hloop, hout, hnull'⟩ := ih h₁
    have hle := headLine_le s
    rw [line, if_pos rfl] at hline
    refine ⟨s', ?_, ?_, ?_⟩
    · rw [List.replicate_succ, EncodeState.encodeLoop, hstep]
      exact hloop
    · have hshort : ¬(0 < n ∧ 74 < s₁.linelen) := fun h => by omega
      rw [hout, if_neg hshort, List.append_nil, hadds.out, text, if_pos rfl, List.append_nil]
      simp only [Nat.succ_pos, true_and]
    · rw [hnull', hnull, if_pos rfl]
      omega

theorem encodeLoop_strip {x : List UInt8} (hcr : CR ∉ x) : ∃ s₀ s,
    init.encodeLoop (strip x) = .ok s₀ ∧ Encodes (strip x) s₀.out ∧ init.encodeLoop x = .ok s ∧
      s.out = s₀.out ++ (if EndsInNul x ∧ 74 < s₀.linelen then EQCRLF else []) ∧
      (s.nullCount = 0 ↔ ¬EndsInNul x) := by
  obtain ⟨n, hx, hlast, hpos⟩ := strip_append x
  have hcr₀ : CR ∉ strip x := fun hmem => hcr (by rw [hx]; exact List.mem_append_left _ hmem)
  obtain ⟨s₀, hs₀, hencoded⟩ := encoded_init.encodeLoop hcr₀
  obtain ⟨s₁, hs₁, hready, -⟩ := ready_init.encodeLoop (P := fun _ => True) trivial (fun _ _ _ _ _ _ => trivial)
    (strip x)
  obtain rfl := Except.ok.inj (hs₁.symm.trans hs₀)
  obtain ⟨hnull₀, henc⟩ := hencoded.complete hlast
  obtain ⟨s, hs, hout, hnull⟩ := hready.nuls n
  refine ⟨s₁, s, hs₁, henc, ?_, ?_, ?_⟩
  · have hloop := encodeLoop_append (strip x) (List.replicate n 0) init
    rw [← hx, hs₁, bind_ok] at hloop
    exact hloop.trans hs
  · rw [hout]
    simp only [hpos]
  · rw [hnull, hnull₀, Nat.zero_add, ← hpos, Nat.pos_iff_ne_zero, not_not]

end EncodeState

def lineAfter (x : List UInt8) : Nat :=
  match EncodeState.init.encodeLoop x with
  | .ok s => s.linelen
  | .error _ => 0

/-- The NULs at the end of an array are not written: arrays that differ in nothing else have one
encoding, but for a soft line break in front of the first NUL. -/
theorem encodeQP_ne_iff {a b : List UInt8} (ha : CR ∉ a) (hb : CR ∉ b) : ∃ s t,
    EncodeState.init.encodeLoop a = .ok s ∧ encodeQP a = .ok (s.out, s.written) ∧
    EncodeState.init.encodeLoop b = .ok t ∧ encodeQP b = .ok (t.out, t.written) ∧
    (s.nullCount = 0 ↔ ¬EndsInNul a) ∧
    (s.out ≠ t.out ↔ strip a ≠ strip b ∨ (¬(EndsInNul a ↔ EndsInNul b) ∧ 74 < lineAfter (strip a))) := by
  obtain ⟨s₀, s, hs₀, henc, hs, hout, hnull⟩ := EncodeState.encodeLoop_strip ha
  obtain ⟨t₀, t, ht₀, henc', ht, hout', -⟩ := EncodeState.encodeLoop_strip hb
  refine ⟨s, t, hs, encodeQP_eq hs, ht, encodeQP_eq ht, hnull, ?_⟩
  by_cases hstrip : strip a = strip b
  · rw [hstrip] at hs₀
    obtain rfl := Except.ok.inj (hs₀.symm.trans ht₀)
    have hline : lineAfter (strip a) = s₀.linelen := by rw [hstrip, lineAfter, hs₀]
    rw [hout, hout', hline, Ne, List.append_cancel_left_eq]
    have hne : EQCRLF ≠ [] := List.cons_ne_nil _ _
    by_cases hlong : 74 < s₀.linelen
    · by_cases hna : EndsInNul a <;> by_cases hnb : EndsInNul b <;> simp [hstrip, hlong, hna, hnb, hne, hne.symm]
    · simp [hstrip, hlong]
  · refine iff_of_true (fun heq => hstrip ?_) (.inl hstrip)
    have hdecode := decodeQP_encodes (henc.soft_if (EndsInNul a ∧ 74 < s₀.linelen)) []
    have hdecode' := decodeQP_encodes (henc'.soft_if (EndsInNul b ∧ 74 < t₀.linelen)) []
    rw [← hout, heq, hout', hdecode'] at hdecode
    exact (Except.ok.inj hdecode).symm

/-- A letter, and the same with NULs around it. -/
theorem encodeQP_ne_iff_letter : ∃ s t,
    EncodeState.init.encodeLoop [65] = .ok s ∧ encodeQP [65] = .ok (s.out, s.written) ∧
    EncodeState.init.encodeLoop [0, 65, 0] = .ok t ∧ encodeQP [0, 65, 0] = .ok (t.out, t.written) ∧
    (s.nullCount = 0 ↔ ¬EndsInNul [65]) ∧
    (s.out ≠ t.out ↔ strip [65] ≠ strip [0, 65, 0] ∨
      (¬(EndsInNul [65] ↔ EndsInNul [0, 65, 0]) ∧ 74 < lineAfter (strip [65]))) :=
  encodeQP_ne_iff (by decide) (by decide)

/-- A letter, and the same with a NUL behind it. -/
theorem encodeQP_nul_lost : ¬(CR ∉ [65] → (0 : Nat) ≠ 1 →
    (encodeQP ([65] ++ List.replicate 0 0)).map Prod.fst ≠ (encodeQP ([65] ++ List.replicate 1 0)).map Prod.fst) := by
  intro hdistinct
  exact hdistinct (by decide) (by decide) rfl

end G361FPlatform.Qp
