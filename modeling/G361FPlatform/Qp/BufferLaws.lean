import G361FPlatform.Qp.Buffer
import G361FPlatform.Qp.TextLaws

namespace G361FPlatform.Qp

open Library

namespace Encoder

/-- What the array and the counters of `m` say is the state `s`; `n` NULs are pending. -/
structure Holds (n : Int32) (m : Encoder) (s : EncodeState) : Prop where
  output : m.output = s.output
  buf : m.l_bufenc.toList.take s.linelen = s.buf
  linelen : m.linelen = Int32.ofNat s.linelen
  previous : m.previous = s.previous
  written : m.written = s.written
  lastspace : m.lastspace = 1 ↔ s.lastspace = true
  nullCount : m.nullCount = n
  pending : n.toInt.toNat = s.nullCount
  inBounds : ∀ a ∈ m.accesses, a.InBounds

theorem toInt_linelen {n : Nat} (h : n ≤ 80) : (Int32.ofNat n).toInt = n :=
  Int32.toInt_ofNat_of_lt (by omega)

theorem take_set (l : List UInt8) {i : Nat} (h : i < l.length) (b : UInt8) :
    (l.set i b).take (i + 1) = l.take i ++ [b] := by
  rw [List.take_succ_eq_append_getElem (by rwa [List.length_set]), List.getElem_set_self,
    List.take_set_of_le (Nat.le_refl i)]

theorem stores_eq {m : Encoder} {k : Nat} (bs : List UInt8) (hk : m.linelen = Int32.ofNat k)
    (hle : k + bs.length ≤ 80) : ∃ buf log,
      m.stores bs = .ok { m with
        l_bufenc := buf, linelen := Int32.ofNat (k + bs.length), accesses := m.accesses ++ log } ∧
      buf.toList.take (k + bs.length) = m.l_bufenc.toList.take k ++ bs ∧ ∀ a ∈ log, a.InBounds := by
  induction bs generalizing m k with
  | nil =>
    refine ⟨m.l_bufenc, [], ?_, (List.append_nil _).symm, fun a ha => nomatch ha⟩
    rw [stores, List.append_nil, List.length_nil, Nat.add_zero, ← hk]
  | cons b bs ih =>
    rw [List.length_cons] at hle
    have hint : m.linelen.toInt = k := by rw [hk, toInt_linelen (by omega)]
    have hin : 0 ≤ m.linelen.toInt ∧ m.linelen.toInt < 80 := by omega
    have hk₁ : m.linelen + 1 = Int32.ofNat (k + 1) := by
      rw [hk, Int32.ofNat_add]
      rfl
    obtain ⟨buf, log, hstores, hbuf, hlog⟩ := @ih { m with
      l_bufenc := m.l_bufenc.set m.linelen.toInt.toNat b (by omega)
      linelen := m.linelen + 1
      accesses := m.accesses ++ [.store m.linelen] } (k + 1) hk₁ (by omega)
    have hlen : k + 1 + bs.length = k + (b :: bs).length := by rw [List.length_cons]; omega
    refine ⟨buf, .store m.linelen :: log, ?_, ?_, ?_⟩
    · rw [stores, store, dif_pos hin, bind_ok, hstores, hlen, List.append_assoc]
      rfl
    · have hfits : k < m.l_bufenc.toList.length := by rw [Vector.length_toList]; omega
      rw [← hlen, hbuf, Vector.toList_set, show m.linelen.toInt.toNat = k by omega, take_set _ hfits,
        List.append_assoc]
      rfl
    · exact List.forall_mem_cons.mpr ⟨hin, hlog⟩

theorem no_blank : (0 : Int32) = 1 ↔ false = true := iff_of_false (by decide) Bool.false_ne_true

variable {n : Int32} {m : Encoder} {s s' : EncodeState}

theorem Holds.fits (h : Holds n m s) : s.linelen ≤ 80 := by
  have hlen := congrArg List.length h.buf
  rw [List.length_take, Vector.length_toList] at hlen
  change min s.linelen 80 = s.linelen at hlen
  omega

theorem Holds.toInt (h : Holds n m s) : m.linelen.toInt = s.linelen := by rw [h.linelen, toInt_linelen h.fits]

theorem Holds.lt_iff (h : Holds n m s) {k : Nat} (hk : k ≤ 80) :
    Int32.ofNat k < m.linelen ↔ k < s.linelen := by
  rw [Int32.lt_iff_toInt_lt, h.toInt, toInt_linelen hk, Int.ofNat_lt]

theorem Holds.long_iff (h : Holds n m s) : 74 < m.linelen ↔ 74 < s.linelen := h.lt_iff (by decide)

theorem Holds.one_iff (h : Holds n m s) : m.linelen = 1 ↔ s.linelen = 1 := by
  rw [← Int32.toInt_inj, h.toInt, show (1 : Int32).toInt = 1 from rfl]
  omega

theorem Holds.put {bs : List UInt8} (h : Holds n m s) (hput : s.put bs = .ok s') :
    ∃ m', m.put bs = .ok m' ∧ Holds n m' s' := by
  unfold EncodeState.put at hput
  split at hput
  next hle =>
    cases hput
    obtain ⟨buf, log, hstores, hbuf, hlog⟩ := stores_eq bs h.linelen hle
    refine ⟨{ m with
      l_bufenc := buf
      linelen := Int32.ofNat (s.linelen + bs.length)
      written := m.written + Int32.ofNat bs.length
      accesses := m.accesses ++ log }, ?_, h.output, ?_, ?_, h.previous, ?_, h.lastspace, h.nullCount, h.pending, ?_⟩
    · rw [Encoder.put, hstores]
      rfl
    · rw [h.buf] at hbuf
      change buf.toList.take (s.buf ++ bs).length = _
      rw [List.length_append]
      exact hbuf
    · change Int32.ofNat (s.linelen + bs.length) = Int32.ofNat (s.buf ++ bs).length
      rw [List.length_append]
      rfl
    · change m.written + _ = _
      rw [h.written]
    · exact List.forall_mem_append.mpr ⟨h.inBounds, hlog⟩
  · cases hput

theorem Holds.write (h : Holds n m s) :
    m.write = .ok { m with
      output := s.output ++ s.buf, accesses := m.accesses ++ [.write m.linelen] } ∧
    ∀ a ∈ m.accesses ++ [.write m.linelen], a.InBounds := by
  have hfits := h.fits
  have hint := h.toInt
  have hin : 0 ≤ m.linelen.toInt ∧ m.linelen.toInt ≤ 80 := by omega
  constructor
  · rw [Encoder.write, if_pos hin, h.output, hint, Int.toNat_natCast, h.buf]
  · exact List.forall_mem_append.mpr ⟨h.inBounds, List.forall_mem_singleton.mpr hin⟩

theorem Holds.mark (h : Holds n m s) {space : Int32} {blank : Bool} (hspace : space = 1 ↔ blank = true)
    (b : UInt8) : Holds n { m with lastspace := space, previous := b } { s with lastspace := blank, previous := b } :=
  ⟨h.output, h.buf, h.linelen, rfl, h.written, hspace, h.nullCount, h.pending, h.inBounds⟩

theorem Holds.putMark {bs : List UInt8} {space : Int32} {blank : Bool} {b : UInt8} (h : Holds n m s)
    (hspace : space = 1 ↔ blank = true)
    (hput : ((s.put bs).map fun s => { s with lastspace := blank, previous := b }) = .ok s') :
    ∃ m', ((m.put bs).map fun m => { m with lastspace := space, previous := b }) = .ok m' ∧ Holds n m' s' := by
  obtain ⟨s₁, hs₁, rfl⟩ := map_eq_ok hput
  obtain ⟨m₁, hm₁, h₁⟩ := h.put hs₁
  rw [hm₁, map_ok]
  exact ⟨_, rfl, h₁.mark hspace b⟩

theorem Holds.writeLine (h : Holds n m s) : ∃ m', m.write.map newLine = .ok m' ∧
    Holds n m' { s.flush with lastspace := false, previous := 0 } := by
  obtain ⟨hwrite, hall⟩ := h.write
  rw [hwrite, map_ok]
  exact ⟨_, rfl, rfl, rfl, rfl, rfl, h.written, no_blank, h.nullCount, h.pending, hall⟩

theorem Holds.breakLine (h : Holds n m s) :
    ∃ m', m.breakLine = .ok m' ∧ Holds n m' s.breakLine := by
  unfold Encoder.breakLine EncodeState.breakLine
  by_cases hlong : 74 < s.linelen
  · rw [if_pos hlong, if_pos (h.long_iff.mpr hlong)]
    obtain ⟨hwrite, hall⟩ := h.write
    rw [hwrite, map_ok]
    refine ⟨_, rfl, rfl, rfl, rfl, h.previous, ?_, h.lastspace, h.nullCount, h.pending, ?_⟩
    · change m.written + 3 = _
      rw [h.written]
    · exact List.forall_mem_append.mpr ⟨hall, List.forall_mem_singleton.mpr (by decide)⟩
  · rw [if_neg hlong, if_neg fun hm => hlong (h.long_iff.mp hm)]
    exact ⟨m, rfl, h⟩

theorem Holds.putNulls {k : Nat} (h : Holds n m s) (hnulls : s.putNulls k = .ok s') :
    ∃ m', m.putNulls k = .ok m' ∧ Holds n m' s' := by
  induction k generalizing m s with
  | zero =>
    cases hnulls
    exact ⟨m, rfl, h⟩
  | succ k ih =>
    obtain ⟨s₁, hput, hnulls⟩ := bind_eq_ok hnulls
    obtain ⟨m₁, hm₁, h₁⟩ := h.put hput
    obtain ⟨m₂, hm₂, h₂⟩ := h₁.breakLine
    obtain ⟨m', hm', h'⟩ := ih h₂ hnulls
    refine ⟨m', ?_, h'⟩
    rw [Encoder.putNulls, hm₁, bind_ok, hm₂]
    exact hm'

theorem Holds.guardLine (h : Holds n m s) (hguard : s.guardLine = .ok s') :
    ∃ m', m.guardLine = .ok m' ∧ Holds n m' s' := by
  unfold Encoder.guardLine
  unfold EncodeState.guardLine at hguard
  have hcond : (m.lastspace = 1 ∨ (m.previous = DOT ∧ m.linelen = 1)) ↔
      (s.lastspace ∨ (s.previous = DOT ∧ s.linelen = 1)) := by
    rw [h.previous]
    exact or_congr h.lastspace (and_congr_right fun _ => h.one_iff)
  split at hguard
  next hblank =>
    rw [if_pos (hcond.mpr hblank)]
    exact h.put hguard
  next hblank =>
    cases hguard
    exact ⟨m, if_neg fun hm => hblank (hcond.mp hm), h⟩

theorem Holds.putByte {b : UInt8} (h : Holds n m s) (hput : s.putByte b = .ok s') :
    ∃ m', m.putByte b = .ok m' ∧ Holds n m' s' := by
  -- both branches that end a line
  have hline : ∀ bs : List UInt8,
      (s.guardLine.bind fun s => (s.put bs).map fun s => { s.flush with lastspace := false, previous := 0 }) =
        .ok s' →
      ∃ m', (m.guardLine.bind fun m => (m.put bs).bind fun m => m.write.map newLine) = .ok m' ∧
        Holds n m' s' := by
    intro bs hput
    obtain ⟨s₁, hguard, hput⟩ := bind_eq_ok hput
    obtain ⟨s₂, hs₂, rfl⟩ := map_eq_ok hput
    obtain ⟨m₁, hm₁, h₁⟩ := h.guardLine hguard
    obtain ⟨m₂, hm₂, h₂⟩ := h₁.put hs₂
    rw [hm₁, bind_ok, hm₂]
    exact h₂.writeLine
  unfold EncodeState.putByte at hput
  rw [Encoder.putByte, h.previous]
  split at hput
  next hprint =>
    rw [if_pos hprint]
    exact h.putMark no_blank hput
  next hprint =>
  rw [if_neg hprint]
  split at hput
  next hblank =>
    rw [if_pos hblank]
    exact h.putMark (iff_of_true rfl rfl) hput
  next hblank =>
  rw [if_neg hblank]
  split at hput
  next hignored =>
    cases hput
    exact ⟨_, if_pos hignored, h.output, h.buf, h.linelen, rfl, h.written, h.lastspace, h.nullCount, h.pending, h.inBounds⟩
  next hignored =>
  rw [if_neg hignored]
  split at hput
  next hlf =>
    rw [if_pos hlf]
    exact hline [EQ, 48, 65] hput
  next hlf =>
  rw [if_neg hlf]
  split at hput
  next hcr =>
    rw [if_pos hcr]
    exact hline [CR, LF] hput
  next hcr =>
  rw [if_neg hcr]
  split at hput
  next hspecial =>
    rw [if_pos hspecial]
    exact h.putMark no_blank hput
  next hspecial =>
    rw [if_neg hspecial]
    exact h.putMark no_blank hput

theorem Holds.head (h : Holds n m s) :
    ∃ m₁ s₁, (if 74 < m.linelen then m.breakLine.map fun m => { m with previous := 0 } else .ok m) = .ok m₁ ∧
      (if 74 < s.linelen then { s.breakLine with previous := 0 } else s) = s₁ ∧ Holds n m₁ s₁ := by
  by_cases hlong : 74 < s.linelen
  · obtain ⟨m₁, hm₁, h₁⟩ := h.breakLine
    rw [if_pos hlong, if_pos (h.long_iff.mpr hlong), hm₁, map_ok]
    refine ⟨_, _, rfl, rfl, h₁.output, h₁.buf, h₁.linelen, rfl, h₁.written, h₁.lastspace, h₁.nullCount, h₁.pending,
      h₁.inBounds⟩
  · rw [if_neg hlong, if_neg fun hm => hlong (h.long_iff.mp hm)]
    exact ⟨m, s, rfl, rfl, h⟩

def nextNulls (n : Int32) (b : UInt8) : Int32 := if b = 0 then n + 1 else if 0 < n then 0 else n

theorem pos_iff (n : Int32) : 0 < n ↔ 0 < n.toInt.toNat := by
  rw [Int32.lt_iff_toInt_lt, show (0 : Int32).toInt = 0 from rfl]
  omega

/-- A round of one is a round of the other, but for the counter of the NULs. -/
theorem Holds.step (h : Holds n m s) (hready : s.Ready) (b : UInt8) :
    ∃ m' s', m.step b = .ok m' ∧ s.step b = .ok s' ∧
      Holds (nextNulls n b) m' { s' with nullCount := (nextNulls n b).toInt.toNat } := by
  obtain ⟨s', hs', -⟩ := hready.step b
  obtain ⟨m₁, s₁, hm₁, hs₁, h₁⟩ := h.head
  have hstep := hs'
  rw [EncodeState.step, hs₁] at hstep
  rw [Encoder.step, hm₁, bind_ok]
  split at hstep
  next hzero =>
    cases hstep
    rw [show nextNulls n b = n + 1 from if_pos hzero, if_pos hzero]
    refine ⟨_, _, rfl, hs', ?_⟩
    exact ⟨h₁.output, h₁.buf, h₁.linelen, rfl, h₁.written, no_blank, congrArg (· + 1) h₁.nullCount, rfl,
      h₁.inBounds⟩
  next hzero =>
  rw [show nextNulls n b = if 0 < n then 0 else n from if_neg hzero, if_neg hzero, h₁.nullCount]
  split at hstep
  next hpos =>
    obtain ⟨s₂, hnulls, hput⟩ := bind_eq_ok hstep
    obtain ⟨m₂, hm₂, h₂⟩ := h₁.putNulls hnulls
    have h₃ : Holds 0 { m₂ with previous := 0, nullCount := 0 } { s₂ with previous := 0, nullCount := 0 } :=
      ⟨h₂.output, h₂.buf, h₂.linelen, rfl, h₂.written, h₂.lastspace, rfl, rfl, h₂.inBounds⟩
    obtain ⟨m', hm', h'⟩ := h₃.putByte hput
    have hn : 0 < n := (pos_iff n).mpr (by rwa [h₁.pending])
    rw [if_pos hn, if_pos hn, h₁.pending, hm₂]
    refine ⟨m', s', hm', hs', ?_⟩
    rwa [h'.pending]
  next hpos =>
    obtain ⟨m', hm', h'⟩ := h₁.putByte hstep
    have hn : ¬0 < n := fun hn => hpos (by rw [← h₁.pending]; exact (pos_iff n).mp hn)
    rw [if_neg hn, if_neg hn]
    refine ⟨m', s', hm', hs', ?_⟩
    rwa [h'.pending]

theorem toInt_nextNulls {b : UInt8} {k : Nat} (hn : n.toInt = k) (hk : k + 1 < 2 ^ 31) :
    (nextNulls n b).toInt = (if b = 0 then k + 1 else 0 : Nat) := by
  obtain rfl : n = Int32.ofNat k := by rw [← Int32.toInt_inj, hn, Int32.toInt_ofNat_of_lt (by omega)]
  unfold nextNulls
  split
  · rw [show Int32.ofNat k + 1 = Int32.ofNat (k + 1) from (Int32.ofNat_add k 1).symm, Int32.toInt_ofNat_of_lt hk]
  · split
    · rfl
    next hpos =>
      rw [Int32.lt_iff_toInt_lt, hn, show (0 : Int32).toInt = 0 from rfl] at hpos
      rw [hn]
      omega

theorem ready_nextNulls {b : UInt8} (hready : s.Ready) (hnull : b = 0 → 0 < s.nullCount) :
    EncodeState.Ready { s with nullCount := (nextNulls n b).toInt.toNat } := by
  refine ⟨hready.fits, hready.previous, fun hpos => hready.nulls ?_⟩
  rw [← pos_iff, nextNulls] at hpos
  split at hpos
  next hzero => exact hnull hzero
  · split at hpos
    · exact absurd hpos (by decide)
    next hnone => exact absurd hpos hnone

/-- At the end the whole output is counted, and with fewer NULs than the counter can hold it is
what the text says. -/
theorem Holds.loop (h : Holds n m s) (hready : s.Ready) (hcount : s.written = Int32.ofNat s.out.length)
    (bs : List UInt8) :
    ∃ m', m.loop bs = .ok m' ∧ (∀ a ∈ m'.accesses, a.InBounds) ∧
      m'.written = Int32.ofNat m'.output.length ∧
      (0 ≤ n.toInt → s.nullCount + bs.length < 2 ^ 31 →
        ∃ s', s.encodeLoop bs = .ok s' ∧ m'.output = s'.out ∧ m'.written = s'.written) := by
  induction bs generalizing n m s with
  | nil =>
    have hpos : 0 < m.linelen ↔ 0 < s.linelen := h.lt_iff (Nat.zero_le 80)
    rw [Encoder.loop]
    by_cases hline : 0 < s.linelen
    · obtain ⟨hwrite, hall⟩ := h.write
      rw [if_pos (hpos.mpr hline)]
      exact ⟨_, hwrite, hall, h.written.trans hcount, fun _ _ => ⟨s, rfl, rfl, h.written⟩⟩
    · have hbuf : s.buf = [] := List.eq_nil_of_length_eq_zero (Nat.eq_zero_of_not_pos hline)
      have hout : m.output = s.out := by rw [h.output, EncodeState.out, hbuf, List.append_nil]
      rw [if_neg fun hm => hline (hpos.mp hm)]
      refine ⟨m, rfl, h.inBounds, ?_, fun _ _ => ⟨s, rfl, hout, h.written⟩⟩
      rw [hout, h.written, hcount]
  | cons b bs ih =>
    obtain ⟨m₁, s₁, hm₁, hs₁, h₁⟩ := h.step hready b
    obtain ⟨s', hs', hready', hadds, -, hnull⟩ := hready.step b
    obtain rfl := Except.ok.inj (hs'.symm.trans hs₁)
    have hnext : EncodeState.Ready { s' with nullCount := (nextNulls n b).toInt.toNat } :=
      ready_nextNulls hready' fun hb => by
        rw [hnull, if_pos hb]
        exact Nat.succ_pos _
    have hcount' : s'.written = Int32.ofNat s'.out.length := by
      rw [hadds.written, hadds.out, hcount, List.length_append, Int32.ofNat_add]
    obtain ⟨m', hm', hall, hwritten, hsame⟩ := ih h₁ hnext hcount'
    refine ⟨m', by rw [Encoder.loop, hm₁]; exact hm', hall, hwritten, fun hn hfew => ?_⟩
    have hpending := h.pending
    rw [List.length_cons] at hfew
    have hint := @toInt_nextNulls n b s.nullCount (by omega) (by omega)
    rw [← hnull] at hint
    have hexact : { s' with nullCount := (nextNulls n b).toInt.toNat } = s' := by rw [hint, Int.toNat_natCast]
    rw [hexact] at hsame
    have hle : s'.nullCount ≤ s.nullCount + 1 := by
      rw [hnull]
      split <;> omega
    obtain ⟨s'', hloop, hout⟩ := hsame (by rw [hint]; exact Int.natCast_nonneg _) (by omega)
    refine ⟨s'', ?_, hout⟩
    rw [EncodeState.encodeLoop, hs']
    exact hloop

theorem holds_init : Holds 0 init .init where
  output := rfl
  buf := List.take_zero
  linelen := rfl
  previous := rfl
  written := rfl
  lastspace := no_blank
  nullCount := rfl
  pending := rfl
  inBounds _ ha := nomatch ha

end Encoder

/-- Nothing is stored or written outside the array, and the number that is returned is that of the
bytes that are written, as long as it fits. -/
theorem encodeQPArray_exact (x : List UInt8) : ∃ m ret, encodeQPArray x = .ok (m, ret) ∧
    (∀ a ∈ m.accesses, a.InBounds) ∧ (m.output.length < 2 ^ 31 → ret = m.output.length) := by
  obtain ⟨m, hloop, hall, hwritten, -⟩ := Encoder.holds_init.loop EncodeState.ready_init rfl x
  refine ⟨m, _, by rw [encodeQPArray, hloop]; rfl, hall, fun hlen => ?_⟩
  rw [hwritten, Int32.toInt_ofNat_of_lt hlen]

theorem encodeQPArray_eq {x : List UInt8} (hx : x.length < 2 ^ 31) : ∃ m written,
    encodeQPArray x = .ok (m, written.toInt) ∧ encodeQP x = .ok (m.output, written) := by
  obtain ⟨m, hloop, -, -, hsame⟩ := Encoder.holds_init.loop EncodeState.ready_init rfl x
  obtain ⟨s, hs, hout, hwritten⟩ := hsame (Int.le_refl 0) (by rw [show EncodeState.init.nullCount = 0 from rfl]; omega)
  refine ⟨m, m.written, by rw [encodeQPArray, hloop]; rfl, ?_⟩
  rw [encodeQP_eq hs, hout, hwritten]

end G361FPlatform.Qp
