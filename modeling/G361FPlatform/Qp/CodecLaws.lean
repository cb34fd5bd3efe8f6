import G361FPlatform.Qp.EmitLaws

namespace G361FPlatform.Qp

open Library

/-- The encodings of a byte array: every byte stands for itself or as a code, with soft line
breaks anywhere between. -/
inductive Encodes : List UInt8 → List UInt8 → Prop
  | nil : Encodes [] []
  | lit {x e b} : Encodes x e → b ≠ EQ → b ≠ LF → b ≠ CR → Encodes (x ++ [b]) (e ++ [b])
  | code {x e} (b : UInt8) : Encodes x e → Encodes (x ++ [b]) (e ++ EncodeState.code b)
  | soft {x e} : Encodes x e → Encodes x (e ++ EQCRLF)

theorem Encodes.soft_if {x e : List UInt8} (h : Encodes x e) (p : Prop) [Decidable p] :
    Encodes x (e ++ if p then EQCRLF else []) := by
  split
  · exact h.soft
  · rwa [List.append_nil]

namespace EncodeState

/-- What is written or in the buffer encodes `x`, and the buffer has `room` bytes at most. -/
structure Writes (x : List UInt8) (room : Nat) (s : EncodeState) : Prop where
  encodes : Encodes x (s.output ++ s.buf)
  fits : s.linelen ≤ room

variable {x : List UInt8} {s : EncodeState}

theorem Writes.mono {room room' : Nat} (h : Writes x room s) (hle : room ≤ room') :
    Writes x room' s :=
  ⟨h.encodes, Nat.le_trans h.fits hle⟩

theorem Writes.breakLine {room : Nat} (h : Writes x room s) : Writes x 74 s.breakLine := by
  unfold EncodeState.breakLine
  split
  · refine ⟨?_, Nat.zero_le _⟩
    rw [List.append_nil]
    exact h.encodes.soft
  next hle => exact ⟨h.encodes, Nat.not_lt.mp hle⟩

theorem Writes.putCode (h : Writes x 77 s) (b : UInt8) :
    ∃ s', s.put (code b) = .ok s' ∧ Writes (x ++ [b]) (s.linelen + 3) s' ∧
      s'.previous = s.previous ∧ s'.nullCount = s.nullCount := by
  have hle := h.fits
  refine ⟨_, put_eq _ (by rw [length_code]; omega), ⟨?_, ?_⟩, rfl, rfl⟩
  · rw [← List.append_assoc]
    exact h.encodes.code b
  · simp [EncodeState.linelen]

theorem Writes.putNulls {n : Nat} (h : Writes x 74 s) :
    ∃ s', s.putNulls n = .ok s' ∧ Writes (x ++ List.replicate n 0) 74 s' := by
  induction n generalizing x s with
  | zero => exact ⟨s, rfl, by rwa [List.replicate_zero, List.append_nil]⟩
  | succ n ih =>
    obtain ⟨s₁, hput, h₁, -, -⟩ := (h.mono (by decide)).putCode 0
    obtain ⟨s', hnulls, h'⟩ := ih h₁.breakLine
    refine ⟨s', ?_, ?_⟩
    · rw [EncodeState.putNulls, hput]
      exact hnulls
    · rwa [List.append_assoc] at h'

theorem Writes.putByte {current : UInt8} (h : Writes x 74 s) (hcr : current ≠ CR)
    (hprev : s.previous ≠ CR) :
    ∃ s', s.putByte current = .ok s' ∧ Writes (x ++ [current]) 77 s' ∧ s'.previous ≠ CR ∧
      s'.nullCount = s.nullCount := by
  have hle := h.fits
  obtain ⟨s', hput, hputs, hprev', hnull⟩ := putByte_puts (b := current) hle hprev
  refine ⟨s', hput, ?_, hprev', hnull⟩
  cases hputs with
  | lit hb hout _ hfits => exact ⟨by rw [← out, hout]; exact h.encodes.lit hb.1 hb.2.1 hb.2.2, by omega⟩
  | code _ hout _ hfits => exact ⟨by rw [← out, hout]; exact h.encodes.code current, by omega⟩
  | line guard _ hguard hout _ hfits =>
    refine ⟨?_, by omega⟩
    rw [← out, hout, if_neg hcr]
    refine Encodes.code current ?_
    rcases hguard with rfl | ⟨rfl, -⟩
    · exact h.encodes.soft
    · rw [List.append_nil]
      exact h.encodes

structure Encoded (x : List UInt8) (s : EncodeState) : Prop where
  writes : ∃ y, Writes y 77 s ∧ x = y ++ List.replicate s.nullCount 0
  previous : s.previous ≠ CR

theorem encoded_init : Encoded [] init := ⟨⟨[], ⟨.nil, by decide⟩, rfl⟩, by decide⟩

theorem Encoded.step {current : UInt8} (h : Encoded x s) (hcr : current ≠ CR) :
    ∃ s', s.step current = .ok s' ∧ Encoded (x ++ [current]) s' := by
  obtain ⟨y, hy, rfl⟩ := h.writes
  unfold EncodeState.step
  obtain ⟨s₁, hs₁, hadds, hlen, hnull, -, hprev, -⟩ := head_adds h.previous
  have h₁ : Writes y 74 s₁ := by
    refine ⟨?_, by rw [hlen]; exact headLine_le s⟩
    change Encodes y s₁.out
    rw [hadds.out]
    exact hy.encodes.soft_if (74 < s.linelen)
  rw [hs₁]
  dsimp only
  split
  next hzero =>
    subst hzero
    refine ⟨_, rfl, ⟨y, ⟨h₁.encodes, Nat.le_trans h₁.fits (by decide)⟩, ?_⟩, zero_ne_cr⟩
    rw [hnull, List.append_assoc, ← List.replicate_succ']
  split
  · obtain ⟨s₂, hnulls, h₂⟩ := h₁.putNulls (n := s₁.nullCount)
    obtain ⟨s', hput, h', hprev', hnull'⟩ := Writes.putByte
      (s := { s₂ with previous := 0, nullCount := 0 }) ⟨h₂.encodes, h₂.fits⟩ hcr zero_ne_cr
    refine ⟨s', ?_, ⟨_, h', ?_⟩, hprev'⟩
    · rw [hnulls]
      exact hput
    · rw [hnull', List.replicate_zero, List.append_nil, hnull]
  next hnone =>
    obtain ⟨s', hput, h', hprev', hnull'⟩ := h₁.putByte hcr hprev
    have hzero : s₁.nullCount = 0 := by omega
    refine ⟨s', hput, ⟨_, h', ?_⟩, hprev'⟩
    rw [hnull', ← hnull, hzero, List.replicate_zero, List.append_nil, List.append_nil]

theorem Encoded.encodeLoop {bs : List UInt8} (h : Encoded x s) (hcr : CR ∉ bs) :
    ∃ s', s.encodeLoop bs = .ok s' ∧ Encoded (x ++ bs) s' := by
  induction bs generalizing x s with
  | nil => exact ⟨s, rfl, by rwa [List.append_nil]⟩
  | cons b bs ih =>
    rw [List.mem_cons, not_or] at hcr
    obtain ⟨s₁, hstep, h₁⟩ := h.step (Ne.symm hcr.1)
    obtain ⟨s', hloop, h'⟩ := ih h₁ hcr.2
    refine ⟨s', ?_, by rwa [List.append_assoc] at h'⟩
    rw [EncodeState.encodeLoop, hstep]
    exact hloop

theorem Encoded.complete (h : Encoded x s) (hlast : x.getLast? ≠ some 0) :
    s.nullCount = 0 ∧ Encodes x s.out := by
  obtain ⟨y, hy, hx⟩ := h.writes
  have hnull : s.nullCount = 0 := by
    by_contra hne
    obtain ⟨n, hn⟩ := Nat.exists_eq_succ_of_ne_zero hne
    rw [hx, hn, List.replicate_succ', ← List.append_assoc, List.getLast?_concat] at hlast
    exact hlast rfl
  rw [hnull, List.replicate_zero, List.append_nil] at hx
  rw [hx]
  exact ⟨hnull, hy.encodes⟩

end EncodeState

/-- Without CR nothing goes wrong, and nothing is lost but NULs at the end. -/
theorem encodeQP_encodes {x : List UInt8} (hcr : CR ∉ x) (hlast : x.getLast? ≠ some 0) :
    ∃ e written, encodeQP x = .ok (e, written) ∧ Encodes x e := by
  obtain ⟨s, hloop, hencoded⟩ := EncodeState.encoded_init.encodeLoop hcr
  exact ⟨s.out, s.written, encodeQP_eq hloop, (hencoded.complete hlast).2⟩

theorem Encodes.emits {x e : List UInt8} (h : Encodes x e) (nl : List UInt8) :
    ∃ kept, Emits nl x kept e := by
  induction h with
  | nil => exact ⟨_, .nil⟩
  | lit _ heq hlf hcr ih =>
    obtain ⟨kept, ih⟩ := ih
    exact ⟨_, ih.lit ⟨heq, hlf, hcr⟩⟩
  | code b _ ih =>
    obtain ⟨kept, ih⟩ := ih
    exact ⟨_, ih.code b⟩
  | soft _ ih =>
    obtain ⟨kept, ih⟩ := ih
    exact ⟨_, ih.soft⟩

/-- Every encoding of a byte array decodes to it. -/
theorem decodeQP_encodes {x e : List UInt8} (h : Encodes x e) (nl : List UInt8) :
    decodeQP nl (some e) e.length = .ok x := by
  obtain ⟨kept, hemits⟩ := h.emits nl
  exact decodeQP_emits hemits

/-- Quoted-printable text carries every array without CR that does not end in NUL. -/
theorem decodeQP_encodeQP (nl : List UInt8) {x : List UInt8} (hcr : CR ∉ x)
    (hlast : x.getLast? ≠ some 0) :
    ∃ e written, encodeQP x = .ok (e, written) ∧ decodeQP nl (some e) e.length = .ok x := by
  obtain ⟨e, written, hencode, henc⟩ := encodeQP_encodes hcr hlast
  exact ⟨e, written, hencode, decodeQP_encodes henc nl⟩

/-- A blank in front of a line feed, NULs inside, and a byte that is no ASCII. -/
theorem decodeQP_encodeQP_blank : ∃ e written,
    encodeQP [65, 32, 10, 0, 0, 46, 10, 200] = .ok (e, written) ∧
      decodeQP [10] (some e) e.length = .ok [65, 32, 10, 0, 0, 46, 10, 200] :=
  decodeQP_encodeQP [10] (by decide) (by decide)

end G361FPlatform.Qp
