import G361FPlatform.Qp.Codec

namespace G361FPlatform.Qp

open Library

def Plain (b : UInt8) : Prop :=
  b = HT ∨ (32 ≤ b ∧ b ≤ 126 ∧ b ≠ EQ ∧ b ≠ 40 ∧ b ≠ 41 ∧ b ≠ 59 ∧ b ≠ 58)

instance (b : UInt8) : Decidable (Plain b) := inferInstanceAs (Decidable (_ ∨ _))

theorem forall_byte {P : UInt8 → Prop} (h : ∀ n : Fin 256, P (UInt8.ofNat n)) (b : UInt8) : P b := by
  have hb := h ⟨b.toNat, b.toNat_lt⟩
  rwa [UInt8.ofNat_toNat] at hb

theorem signed_classes (b : UInt8) :
    ((signed SP < signed b ∧ signed b < 0x7F ∧ b ≠ EQ ∧ b ≠ 40 ∧ b ≠ 41 ∧ b ≠ 59 ∧ b ≠ 58) ↔
      Plain b ∧ ¬(b = SP ∨ b = HT)) ∧
    ((signed b < signed SP ∨ b = EQ ∨ 0x7F ≤ signed b ∨ b = 40 ∨ b = 41 ∨ b = 59 ∨ b = 58) ∨ Plain b) := by
  revert b
  exact forall_byte (by decide +kernel)

theorem Plain.ne {b : UInt8} (h : Plain b) : b ≠ EQ ∧ b ≠ LF ∧ b ≠ CR := by
  refine ⟨?_, ?_, ?_⟩ <;> rintro rfl <;> exact absurd h (by decide)

namespace EncodeState

def out (s : EncodeState) : List UInt8 := s.output ++ s.buf

@[simp] theorem length_code (b : UInt8) : (code b).length = 3 := rfl

theorem zero_ne_cr : (0 : UInt8) ≠ CR := by decide

theorem put_eq {s : EncodeState} (bs : List UInt8) (h : s.linelen + bs.length ≤ 80) :
    s.put bs =
      .ok { s with buf := s.buf ++ bs, written := s.written + Int32.ofNat bs.length } := if_pos h

@[simp] theorem out_flush (s : EncodeState) : s.flush.out = s.out := List.append_nil _

def guard (s : EncodeState) : List UInt8 :=
  if s.lastspace ∨ (s.previous = DOT ∧ s.linelen = 1) then EQCRLF else []

def piece (s : EncodeState) (b : UInt8) : List UInt8 :=
  if Plain b then [b]
  else if b = LF then s.guard ++ code LF
  else if b = CR then s.guard ++ [CR, LF]
  else code b

def pieceLine (b : UInt8) (n : Nat) : Nat :=
  if Plain b then n + 1 else if b = LF ∨ b = CR then 0 else n + 3

def nullText : Nat → Nat → List UInt8
  | 0, _ => []
  | n + 1, l => code 0 ++ if 74 < l + 3 then EQCRLF ++ nullText n 0 else nullText n (l + 3)

def nullLine : Nat → Nat → Nat
  | 0, l => l
  | n + 1, l => nullLine n (if 74 < l + 3 then 0 else l + 3)

def headLine (s : EncodeState) : Nat := if 74 < s.linelen then 0 else s.linelen

def text (s : EncodeState) (b : UInt8) : List UInt8 :=
  (if 74 < s.linelen then EQCRLF else []) ++
    if b = 0 then [] else nullText s.nullCount s.headLine ++ s.piece b

def line (s : EncodeState) (b : UInt8) : Nat :=
  if b = 0 then s.headLine else pieceLine b (nullLine s.nullCount s.headLine)

/-- The step to `s'` adds the bytes `t`, and counts them. -/
structure Adds (s : EncodeState) (t : List UInt8) (s' : EncodeState) : Prop where
  out : s'.out = s.out ++ t
  written : s'.written = s.written + Int32.ofNat t.length

theorem Adds.refl (s : EncodeState) : Adds s [] s where
  out := (List.append_nil _).symm
  written := (Int32.add_zero _).symm

theorem Adds.trans {s₁ s₂ s₃ : EncodeState} {t₁ t₂ : List UInt8} (h₁ : Adds s₁ t₁ s₂) (h₂ : Adds s₂ t₂ s₃) :
    Adds s₁ (t₁ ++ t₂) s₃ where
  out := by rw [h₂.out, h₁.out, List.append_assoc]
  written := by rw [h₂.written, h₁.written, List.length_append, Int32.ofNat_add, Int32.add_assoc]

variable {s : EncodeState}

theorem put_adds (bs : List UInt8) (h : s.linelen + bs.length ≤ 80) :
    ∃ s', s.put bs = .ok s' ∧ Adds s bs s' ∧ s'.linelen = s.linelen + bs.length ∧
      s'.previous = s.previous ∧ s'.nullCount = s.nullCount ∧ s'.lastspace = s.lastspace :=
  ⟨_, put_eq bs h, ⟨(List.append_assoc _ _ _).symm, rfl⟩, List.length_append, rfl, rfl, rfl⟩

theorem guardLine_adds (h : s.linelen ≤ 77) :
    ∃ s', s.guardLine = .ok s' ∧ Adds s s.guard s' ∧ s'.linelen = s.linelen + s.guard.length ∧
      s'.nullCount = s.nullCount := by
  unfold guardLine guard
  split
  · obtain ⟨s', hput, hadds, hlen, -, hnull, -⟩ := put_adds (s := s) EQCRLF (by rw [show EQCRLF.length = 3 from rfl]; omega)
    exact ⟨s', hput, hadds, hlen, hnull⟩
  · exact ⟨s, rfl, .refl s, rfl, rfl⟩

theorem length_guard_le (s : EncodeState) : s.guard.length ≤ 3 := by
  unfold guard
  split <;> decide

theorem endLine_adds (bs : List UInt8) (hbs : bs.length ≤ 3) (h : s.linelen ≤ 74) :
    ∃ s', (s.guardLine.bind fun s => (s.put bs).map fun s =>
      { s.flush with lastspace := false, previous := 0 }) = .ok s' ∧ Adds s (s.guard ++ bs) s' ∧
      s'.linelen = 0 ∧ s'.previous = 0 ∧ s'.nullCount = s.nullCount ∧ s'.lastspace = false := by
  have hguard := length_guard_le s
  obtain ⟨s₁, hline, h₁, hlen₁, hnull₁⟩ := guardLine_adds (s := s) (by omega)
  obtain ⟨s₂, hput, h₂, -, -, hnull₂, -⟩ := put_adds (s := s₁) bs (by omega)
  rw [hline, bind_ok, hput, map_ok]
  refine ⟨_, rfl, ⟨?_, (h₁.trans h₂).written⟩, rfl, rfl, hnull₂.trans hnull₁, rfl⟩
  exact (out_flush s₂).trans (h₁.trans h₂).out

theorem putByte_adds (b : UInt8) (h : s.linelen ≤ 74) (hprev : s.previous ≠ CR) :
    ∃ s', s.putByte b = .ok s' ∧ Adds s (s.piece b) s' ∧ s'.linelen = pieceLine b s.linelen ∧
      s'.previous ≠ CR ∧ s'.nullCount = s.nullCount ∧ s'.lastspace = decide (b = SP ∨ b = HT) := by
  obtain ⟨hclass, hspecial⟩ := signed_classes b
  have hlit : ∃ s', s.put [b] = .ok s' ∧ Adds s [b] s' ∧ s'.linelen = s.linelen + 1 ∧
      s'.nullCount = s.nullCount := by
    obtain ⟨s', hput, hadds, hlen, -, hnull, -⟩ := put_adds (s := s) [b] (by rw [List.length_singleton]; omega)
    exact ⟨s', hput, hadds, hlen, hnull⟩
  unfold putByte piece pieceLine
  split
  next hprint =>
    obtain ⟨s', hput, hadds, hlen, hnull⟩ := hlit
    rw [hput, map_ok, if_pos (hclass.mp hprint).1, if_pos (hclass.mp hprint).1]
    refine ⟨_, rfl, ⟨hadds.out, hadds.written⟩, hlen, ?_, hnull, (decide_eq_false (hclass.mp hprint).2).symm⟩
    rintro rfl
    exact absurd hprint.1 (by decide)
  next hprint =>
  split
  next hblank =>
    have hplain : Plain b := by rcases hblank with rfl | rfl <;> decide
    obtain ⟨s', hput, hadds, hlen, hnull⟩ := hlit
    rw [hput, map_ok, if_pos hplain, if_pos hplain]
    refine ⟨_, rfl, ⟨hadds.out, hadds.written⟩, hlen, ?_, hnull, (decide_eq_true hblank).symm⟩
    change b ≠ CR
    rcases hblank with rfl | rfl <;> decide
  next hblank =>
  have hplain : ¬Plain b := fun hplain => hprint (hclass.mpr ⟨hplain, hblank⟩)
  rw [if_neg hplain, if_neg hplain]
  split
  next hignored => exact absurd hignored.2 hprev
  split
  next hlf =>
    obtain ⟨s', hline, hadds, hlen, hprev', hnull, hspace⟩ := endLine_adds (code LF) (Nat.le_refl 3) h
    rw [if_pos (.inl hlf), decide_eq_false hblank]
    exact ⟨s', hline, hadds, hlen, hprev'.trans_ne zero_ne_cr, hnull, hspace⟩
  next hlf =>
  split
  next hcr =>
    obtain ⟨s', hline, hadds, hlen, hprev', hnull, hspace⟩ := endLine_adds [CR, LF] (Nat.le_succ 2) h
    rw [if_pos (.inr hcr), decide_eq_false hblank]
    exact ⟨s', hline, hadds, hlen, hprev'.trans_ne zero_ne_cr, hnull, hspace⟩
  next hcr =>
  rw [if_pos (hspecial.resolve_right hplain), if_neg (not_or.mpr ⟨hlf, hcr⟩)]
  obtain ⟨s', hput, hadds, hlen, -, hnull, -⟩ := put_adds (s := s) (code b) (by rw [length_code]; omega)
  rw [hput, map_ok]
  exact ⟨_, rfl, ⟨hadds.out, hadds.written⟩, hlen, hcr, hnull, (decide_eq_false hblank).symm⟩

theorem breakLine_adds (s : EncodeState) :
    Adds s (if 74 < s.linelen then EQCRLF else []) s.breakLine ∧ s.breakLine.linelen = s.headLine ∧
      s.breakLine.previous = s.previous ∧ s.breakLine.nullCount = s.nullCount ∧
      s.breakLine.lastspace = s.lastspace := by
  unfold breakLine headLine
  split
  · exact ⟨⟨List.append_nil _, rfl⟩, rfl, rfl, rfl, rfl⟩
  · exact ⟨.refl s, rfl, rfl, rfl, rfl⟩

theorem headLine_le (s : EncodeState) : s.headLine ≤ 74 := by
  unfold headLine
  split <;> omega

theorem putNulls_adds (n : Nat) (h : s.linelen ≤ 74) :
    ∃ s', s.putNulls n = .ok s' ∧ Adds s (nullText n s.linelen) s' ∧ s'.linelen = nullLine n s.linelen ∧
      s'.linelen ≤ 74 ∧ s'.lastspace = s.lastspace := by
  induction n generalizing s with
  | zero => exact ⟨s, rfl, .refl s, rfl, h, rfl⟩
  | succ n ih =>
    obtain ⟨s₁, hput, h₁, hlen₁, -, -, hspace₁⟩ := put_adds (s := s) (code 0) (by rw [length_code]; omega)
    obtain ⟨h₂, hlen₂, -, -, hspace₂⟩ := breakLine_adds s₁
    rw [length_code] at hlen₁
    obtain ⟨s', hnulls, h', hlen', hle, hspace'⟩ := ih (by rw [hlen₂]; exact headLine_le s₁)
    refine ⟨s', by rw [putNulls, hput]; exact hnulls, ?_, ?_, hle, by rw [hspace', hspace₂, hspace₁]⟩
    · have htext := h₁.trans (h₂.trans h')
      rw [hlen₂, headLine, hlen₁] at htext
      rw [nullText]
      split at htext <;> rename_i hlong
      · rwa [if_pos hlong]
      · rwa [if_neg hlong]
    · rw [hlen', hlen₂, headLine, hlen₁]
      rfl

structure Ready (s : EncodeState) : Prop where
  fits : s.linelen ≤ 77
  previous : s.previous ≠ CR
  nulls : 0 < s.nullCount → s.previous = 0

theorem ready_init : Ready init := ⟨Nat.zero_le _, zero_ne_cr, fun _ => rfl⟩

theorem pieceLine_le (b : UInt8) {n : Nat} (h : n ≤ 74) : pieceLine b n ≤ 77 := by
  unfold pieceLine
  split
  · omega
  · split <;> omega

theorem piece_congr {s₁ : EncodeState} (hspace : s₁.lastspace = s.lastspace)
    (hdot : (s₁.previous = DOT ∧ s₁.linelen = 1) ↔ (s.previous = DOT ∧ s.linelen = 1)) (b : UInt8) :
    s₁.piece b = s.piece b := by
  unfold piece guard
  rw [hspace]
  simp only [hdot]

theorem head_adds (hprev : s.previous ≠ CR) :
    ∃ s₁, (if 74 < s.linelen then { s.breakLine with previous := 0 } else s) = s₁ ∧
      Adds s (if 74 < s.linelen then EQCRLF else []) s₁ ∧ s₁.linelen = s.headLine ∧
      s₁.nullCount = s.nullCount ∧ s₁.lastspace = s.lastspace ∧ s₁.previous ≠ CR ∧
      ((s₁.previous = DOT ∧ s₁.linelen = 1) ↔ (s.previous = DOT ∧ s.linelen = 1)) := by
  obtain ⟨hadds, hlen, -, hnull, hspace⟩ := breakLine_adds s
  by_cases hlong : 74 < s.linelen
  · refine ⟨_, if_pos hlong, ⟨hadds.out, hadds.written⟩, hlen, hnull, hspace, zero_ne_cr, ?_⟩
    exact iff_of_false (fun hdot => absurd hdot.1 (show (0 : UInt8) ≠ DOT by decide)) fun hdot => by omega
  · refine ⟨s, if_neg hlong, ?_, ?_, rfl, rfl, hprev, .rfl⟩
    · rw [if_neg hlong]
      exact .refl s
    · rw [headLine, if_neg hlong]

/-- Every round succeeds, and adds what `text` says. -/
theorem Ready.step (h : Ready s) (b : UInt8) :
    ∃ s', s.step b = .ok s' ∧ Ready s' ∧ Adds s (s.text b) s' ∧ s'.linelen = s.line b ∧
      s'.nullCount = if b = 0 then s.nullCount + 1 else 0 := by
  have hfits := headLine_le s
  obtain ⟨s₁, hs₁, h₁, hlen₁, hnull₁, hspace₁, hprev₁, hdot₁⟩ := head_adds h.previous
  unfold EncodeState.step text line
  rw [hs₁, hlen₁.symm]
  dsimp only
  split
  next hzero =>
    subst hzero
    rw [List.append_nil, hnull₁]
    exact ⟨_, rfl, ⟨by change s₁.linelen ≤ 77; omega, zero_ne_cr, fun _ => rfl⟩, ⟨h₁.out, h₁.written⟩, rfl, rfl⟩
  next hzero =>
  rw [hnull₁]
  split
  next hpos =>
    obtain ⟨s₂, hnulls, h₂, hlen₂, hle₂, hspace₂⟩ := putNulls_adds (s := s₁) s.nullCount (by omega)
    let s₃ : EncodeState := { s₂ with previous := 0, nullCount := 0 }
    obtain ⟨s', hput, h', hlen', hprev', hnull', -⟩ := putByte_adds (s := s₃) b hle₂ zero_ne_cr
    rw [hnulls, bind_ok]
    refine ⟨s', hput, ⟨?_, hprev', fun hpos' => ?_⟩, ?_, ?_, hnull'⟩
    · rw [hlen']
      exact pieceLine_le b hle₂
    · rw [hnull'] at hpos'
      exact absurd hpos' (Nat.lt_irrefl 0)
    · -- a NUL in front of the byte was no dot
      have hpiece : s₃.piece b = s.piece b := by
        refine @piece_congr s s₃ (hspace₂.trans hspace₁) (iff_of_false (fun hdot => ?_) fun hdot => ?_) b
        · exact absurd hdot.1 (show (0 : UInt8) ≠ DOT by decide)
        · exact absurd (hdot.1.symm.trans (h.nulls hpos)) (by decide)
      rw [hpiece] at h'
      exact h₁.trans (h₂.trans ⟨h'.out, h'.written⟩)
    · rw [hlen', ← hlen₂]
      rfl
  next hpos =>
    have hnone : s.nullCount = 0 := Nat.eq_zero_of_not_pos hpos
    obtain ⟨s', hput, h', hlen', hprev', hnull', -⟩ := putByte_adds (s := s₁) b (by omega) hprev₁
    have hnull : s'.nullCount = 0 := by rw [hnull', hnull₁, hnone]
    rw [hnone, nullText, nullLine, List.nil_append]
    refine ⟨s', hput, ⟨?_, hprev', fun hpos' => ?_⟩, ?_, hlen', hnull⟩
    · rw [hlen']
      exact pieceLine_le b (by omega)
    · rw [hnull] at hpos'
      exact absurd hpos' (Nat.lt_irrefl 0)
    · rw [piece_congr hspace₁ hdot₁] at h'
      exact h₁.trans h'

theorem Ready.encodeLoop {P : EncodeState → Prop} (h : Ready s) (hp : P s)
    (hstep : ∀ s b s', Ready s → P s → s.step b = .ok s' → P s') (bs : List UInt8) :
    ∃ s', s.encodeLoop bs = .ok s' ∧ Ready s' ∧ P s' := by
  induction bs generalizing s with
  | nil => exact ⟨s, rfl, h, hp⟩
  | cons b bs ih =>
    obtain ⟨s₁, hs₁, h₁, -⟩ := h.step b
    obtain ⟨s', hloop, hall⟩ := ih h₁ (hstep s b s₁ h hp hs₁)
    refine ⟨s', ?_, hall⟩
    rw [EncodeState.encodeLoop, hs₁]
    exact hloop

end EncodeState

theorem encodeQP_eq {x : List UInt8} {s : EncodeState} (h : EncodeState.init.encodeLoop x = .ok s) :
    encodeQP x = .ok (s.out, s.written) := by
  rw [encodeQP, h, map_ok]
  split
  · rfl
  next hempty =>
    have hbuf : s.buf = [] := List.eq_nil_of_length_eq_zero (Nat.eq_zero_of_not_pos hempty)
    rw [EncodeState.out, hbuf, List.append_nil]

end G361FPlatform.Qp
