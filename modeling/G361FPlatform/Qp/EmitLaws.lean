import G361FPlatform.Qp.TextLaws

namespace G361FPlatform.Qp

open Library

namespace EncodeState

/-- What `putByte` can do with a byte, where the line has room. -/
inductive Puts (s : EncodeState) (b : UInt8) (s' : EncodeState) : Prop
  | lit (hb : b ≠ EQ ∧ b ≠ LF ∧ b ≠ CR) (hout : s'.out = s.out ++ [b])
      (hspace : s'.lastspace = decide (b = SP ∨ b = HT)) (hfits : s'.linelen = s.linelen + 1)
  | code (hb : b ≠ LF ∧ b ≠ CR) (hout : s'.out = s.out ++ EncodeState.code b)
      (hspace : s'.lastspace = false) (hfits : s'.linelen = s.linelen + 3)
  | line (guard : List UInt8) (hb : b = LF ∨ b = CR)
      (hguard : guard = EQCRLF ∨ guard = [] ∧ s.lastspace = false)
      (hout : s'.out = s.out ++ guard ++ if b = CR then [CR, LF] else EncodeState.code b)
      (hspace : s'.lastspace = false) (hfits : s'.linelen = 0)

variable {s : EncodeState}

theorem putByte_puts {b : UInt8} (h : s.linelen ≤ 74) (hprev : s.previous ≠ CR) :
    ∃ s', s.putByte b = .ok s' ∧ Puts s b s' ∧ s'.previous ≠ CR ∧ s'.nullCount = s.nullCount := by
  obtain ⟨s', hput, hadds, hline, hprev', hnull, hspace⟩ := putByte_adds b h hprev
  refine ⟨s', hput, ?_, hprev', hnull⟩
  have hout := hadds.out
  have hguard : s.guard = EQCRLF ∨ s.guard = [] ∧ s.lastspace = false := by
    unfold guard
    split
    · exact .inl rfl
    next hplain =>
      refine .inr ⟨rfl, ?_⟩
      cases hs : s.lastspace with
      | false => rfl
      | true => exact absurd (.inl hs) hplain
  unfold piece at hout
  unfold pieceLine at hline
  by_cases hplain : Plain b
  · rw [if_pos hplain] at hout hline
    exact .lit hplain.ne hout hspace hline
  rw [if_neg hplain] at hout hline
  have hblank : s'.lastspace = false := by
    rw [hspace, decide_eq_false]
    rintro (rfl | rfl) <;> exact hplain (by decide)
  by_cases hlf : b = LF
  · rw [if_pos hlf, ← List.append_assoc] at hout
    rw [if_pos (.inl hlf)] at hline
    refine .line s.guard (.inl hlf) hguard ?_ hblank hline
    rw [hout, if_neg (by rw [hlf]; decide), hlf]
  rw [if_neg hlf] at hout
  by_cases hcr : b = CR
  · rw [if_pos hcr, ← List.append_assoc] at hout
    rw [if_pos (.inr hcr)] at hline
    refine .line s.guard (.inr hcr) hguard ?_ hblank hline
    rw [hout, if_pos hcr]
  · rw [if_neg hcr] at hout
    rw [if_neg (not_or.mpr ⟨hlf, hcr⟩)] at hline
    exact .code ⟨hlf, hcr⟩ hout hblank hline

end EncodeState

theorem at_append (p rest : List UInt8) (b : UInt8) : at_ (p ++ b :: rest) p.length = .ok b := by
  rw [at_, List.getElem?_append_right (Nat.le_refl _), Nat.sub_self, List.getElem?_cons_zero]

theorem at_append_succ (p rest : List UInt8) (b₀ b : UInt8) :
    at_ (p ++ b₀ :: b :: rest) (p.length + 1) = .ok b := by
  have h := at_append (p ++ [b₀]) rest b
  rwa [List.append_assoc, List.length_append] at h

theorem at_append_succ_succ (p rest : List UInt8) (b₀ b₁ b : UInt8) :
    at_ (p ++ b₀ :: b₁ :: b :: rest) (p.length + 2) = .ok b := by
  have h := at_append (p ++ [b₀, b₁]) rest b
  rwa [List.append_assoc, List.length_append] at h

theorem digit_hexmap {n : Nat} (h : n < 16) :
    digit (hexmap.getD n 0) = some n ∧ hexmap.getD n 0 ≠ LF ∧ hexmap.getD n 0 ≠ CR := by
  have hall : ∀ n < 16, digit (hexmap.getD n 0) = some n ∧ hexmap.getD n 0 ≠ LF ∧ hexmap.getD n 0 ≠ CR := by
    decide
  exact hall n h

theorem digits_eq (b : UInt8) :
    UInt8.ofNat (((b.toNat >>> 4) &&& 0xF) <<< 4 ||| (b.toNat &&& 0xF)) = b := by
  have hall : ∀ n < 256, ((n >>> 4) &&& 0xF) <<< 4 ||| (n &&& 0xF) = n := by
    decide +kernel
  rw [hall b.toNat b.toNat_lt, UInt8.ofNat_toNat]

section

variable (nl : List UInt8) {size : Nat} {s : DecodeState}

theorem push_eq (h : s.res.length < size) (b : UInt8) :
    s.push size b = .ok { s with res := s.res ++ [b] } := if_pos h

theorem decodeStep_lit (p rest : List UInt8) {b : UInt8} (hb : b ≠ EQ ∧ b ≠ LF ∧ b ≠ CR)
    (hroom : s.res.length < size) :
    decodeStep nl (p ++ b :: rest) size p.length s =
      .ok (p.length + 1, ⟨s.res ++ [b], if b = SP ∨ b = HT then s.last else s.res.length + 1⟩) := by
  have hline : ¬(b = LF ∨ b = CR) := fun h => h.elim hb.2.1 hb.2.2
  rw [decodeStep, at_append]
  simp only [Except.bind, hb.1, hline, if_false, push_eq hroom, Except.map]
  split
  · rfl
  · rw [DecodeState.mark, List.length_append, List.length_singleton]

theorem decodeStep_code (p rest : List UInt8) (b : UInt8) (hroom : s.res.length < size) :
    decodeStep nl (p ++ (EncodeState.code b ++ rest)) size p.length s =
      .ok (p.length + 3, ⟨s.res ++ [b], s.res.length + 1⟩) := by
  have hb := b.toNat_lt
  have hhigh : (b.toNat >>> 4) &&& 0xF < 16 := Nat.lt_succ_of_le Nat.and_le_right
  have hlow : b.toNat &&& 0xF < 16 := Nat.lt_succ_of_le Nat.and_le_right
  obtain ⟨hdigit, hlf, hcr⟩ := digit_hexmap hhigh
  have hline : ¬(hexmap.getD ((b.toNat >>> 4) &&& 0xF) 0 = LF ∨
      hexmap.getD ((b.toNat >>> 4) &&& 0xF) 0 = CR) := fun h => h.elim hlf hcr
  have hsrc : EncodeState.code b ++ rest = EQ :: hexmap.getD ((b.toNat >>> 4) &&& 0xF) 0 ::
      hexmap.getD (b.toNat &&& 0xF) 0 :: rest := rfl
  rw [hsrc, decodeStep, at_append]
  simp only [Except.bind, if_true]
  rw [decodeCode, at_append_succ]
  simp only [Except.bind, hline, if_false]
  rw [at_append_succ_succ]
  simp only [hdigit, (digit_hexmap hlow).1, push_eq hroom, Except.map, digits_eq, DecodeState.mark,
    List.length_append, List.length_singleton]

theorem decodeStep_soft (p rest : List UInt8) :
    decodeStep nl (p ++ (EQCRLF ++ rest)) size p.length s = .ok (p.length + 3, ⟨s.res, s.res.length⟩) := by
  have hsrc : EQCRLF ++ rest = EQ :: CR :: LF :: rest := rfl
  rw [hsrc, decodeStep, at_append]
  simp only [Except.bind, if_true]
  rw [decodeCode, at_append_succ]
  simp only [Except.bind, or_true, if_true]
  rw [at_append_succ_succ]
  rfl

theorem decodeStep_hard (p rest : List UInt8) (hlast : s.last = s.res.length)
    (hroom : s.res.length + nl.length ≤ size) :
    decodeStep nl (p ++ (CR :: LF :: rest)) size p.length s =
      .ok (p.length + 2, ⟨s.res ++ nl, s.res.length + nl.length⟩) := by
  rw [decodeStep, at_append]
  simp only [Except.bind, show CR ≠ EQ by decide, if_false, or_true, if_true]
  rw [decodeBreak, at_append_succ]
  simp only [Except.bind, Except.map, if_true, hlast, hroom, List.take_length, DecodeState.mark,
    List.length_append]

theorem decodeLoop_step {src : List UInt8} {len i i' : Nat} {s' : DecodeState} (hi : i < len)
    (h : decodeStep nl src (len + 1) i s = .ok (i', s')) :
    decodeLoop nl src len i s = decodeLoop nl src len i' s' := by
  rw [decodeLoop, if_pos hi]
  split
  next heq =>
    rw [h] at heq
    cases heq
  next heq =>
    rw [h] at heq
    cases heq
    rfl

/-- What the encoder writes, and the bytes it decodes to: a byte stands for itself or as a code,
soft line breaks stand anywhere between, and a hard one where no blank is in front of it.  The flag
says that the decoder keeps everything up to here. -/
inductive Emits (nl : List UInt8) : List UInt8 → Bool → List UInt8 → Prop
  | nil : Emits nl [] true []
  | lit {d kept e b} : Emits nl d kept e → b ≠ EQ ∧ b ≠ LF ∧ b ≠ CR →
      Emits nl (d ++ [b]) (!decide (b = SP ∨ b = HT)) (e ++ [b])
  | code {d kept e} (b : UInt8) : Emits nl d kept e → Emits nl (d ++ [b]) true (e ++ EncodeState.code b)
  | soft {d kept e} : Emits nl d kept e → Emits nl d true (e ++ EQCRLF)
  | hard {d e} : Emits nl d true e → nl.length ≤ 2 → Emits nl (d ++ nl) true (e ++ [CR, LF])

variable {nl}

theorem Emits.length_le {d e : List UInt8} {kept : Bool} (h : Emits nl d kept e) :
    d.length ≤ e.length := by
  induction h with
  | nil => exact Nat.le_refl _
  | lit _ _ ih => simpa using ih
  | code b _ ih =>
    rw [List.length_append, List.length_append, EncodeState.length_code, List.length_singleton]
    omega
  | soft _ ih =>
    rw [List.length_append]
    omega
  | hard _ hnl ih =>
    rw [List.length_append, List.length_append, List.length_cons, List.length_singleton]
    omega

/-- The decoder gets through `e` and has `d` then; with `kept` no blank at the end of it waits to
be dropped. -/
def Reads (nl e d : List UInt8) (kept : Bool) : Prop :=
  ∀ (rest : List UInt8) (len : Nat), e.length ≤ len → ∃ last, (kept = true → last = d.length) ∧
    decodeLoop nl (e ++ rest) len 0 ⟨[], 0⟩ = decodeLoop nl (e ++ rest) len e.length ⟨d, last⟩

theorem Reads.token {e d d' token : List UInt8} {kept kept' : Bool} (h : Reads nl e d kept)
    (hpos : 0 < token.length)
    (hstep : ∀ (rest : List UInt8) (size last : Nat), (e ++ token).length < size →
      (kept = true → last = d.length) → ∃ last', (kept' = true → last' = d'.length) ∧
        decodeStep nl (e ++ (token ++ rest)) size e.length ⟨d, last⟩ =
          .ok (e.length + token.length, ⟨d', last'⟩)) :
    Reads nl (e ++ token) d' kept' := by
  intro rest len hlen
  have hle := hlen
  rw [List.length_append] at hle
  obtain ⟨last, hlast, hloop⟩ := h (token ++ rest) len (by omega)
  obtain ⟨last', hlast', hnext⟩ := hstep rest (len + 1) last (by omega) hlast
  refine ⟨last', hlast', ?_⟩
  rw [List.append_assoc, hloop, decodeLoop_step nl (by omega) hnext, List.length_append]

/-- The decoder reads what the encoder writes. -/
theorem Emits.reads {d e : List UInt8} {kept : Bool} (h : Emits nl d kept e) : Reads nl e d kept := by
  induction h with
  | nil => exact fun rest len _ => ⟨0, fun _ => rfl, rfl⟩
  | @lit d kept e b henc hb ih =>
    have hle := henc.length_le
    refine ih.token (Nat.succ_pos _) fun rest size last hsize _ => ⟨_, ?_, decodeStep_lit nl e rest hb ?_⟩
    · intro hkept
      rw [if_neg (by simpa using hkept), List.length_append, List.length_singleton]
    · rw [List.length_append] at hsize
      exact Nat.lt_of_le_of_lt hle (by omega)
  | @code d kept e b henc ih =>
    have hle := henc.length_le
    refine ih.token (Nat.succ_pos _) fun rest size last hsize _ =>
      ⟨_, fun _ => ?_, decodeStep_code nl e rest b ?_⟩
    · rw [List.length_append, List.length_singleton]
    · rw [List.length_append] at hsize
      exact Nat.lt_of_le_of_lt hle (by omega)
  | @soft d kept e henc ih =>
    exact ih.token (by decide) fun rest size last _ _ => ⟨_, fun _ => rfl, decodeStep_soft nl e rest⟩
  | @hard d e henc hnl ih =>
    have hle := henc.length_le
    refine ih.token (by decide) fun rest size last hsize hlast =>
      ⟨_, fun _ => ?_, decodeStep_hard nl e rest (hlast rfl) ?_⟩
    · rw [List.length_append]
    · rw [List.length_append, List.length_cons, List.length_singleton] at hsize
      change d.length + nl.length ≤ size
      omega

theorem decodeQP_emits {d e : List UInt8} {kept : Bool} (h : Emits nl d kept e) :
    decodeQP nl (some e) e.length = .ok d := by
  obtain ⟨last, -, hloop⟩ := h.reads [] e.length (Nat.le_refl _)
  rw [List.append_nil] at hloop
  rw [decodeQP, hloop, decodeLoop, if_neg (Nat.lt_irrefl _)]
  rfl

end

end G361FPlatform.Qp
