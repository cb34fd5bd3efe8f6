import G361FPlatform.Qp.TextLaws

namespace G361FPlatform.Qp

open Library

def UpperHex (b : UInt8) : Prop := (48 ≤ b ∧ b ≤ 57) ∨ (65 ≤ b ∧ b ≤ 70)

instance (b : UInt8) : Decidable (UpperHex b) := inferInstanceAs (Decidable (_ ∨ _))

/-- What a byte of quoted-printable text may be, between the bytes in front of it and those
behind it. -/
def Placed (front : List UInt8) (b : UInt8) (rest : List UInt8) : Prop :=
  (b = HT ∨ (0x20 ≤ b ∧ b ≤ 0x7E) ∨ b = CR ∨ b = LF) ∧
  (b = CR → rest.take 1 = [LF]) ∧
  (b = LF → front.getLast? = some CR) ∧
  (b ≠ 59 ∧ b ≠ 58 ∧ b ≠ 40 ∧ b ≠ 41) ∧
  (b = EQ → ((rest.take 2).length = 2 ∧ ∀ h ∈ rest.take 2, UpperHex h) ∨ rest.take 2 = [CR, LF])

instance (front : List UInt8) (b : UInt8) (rest : List UInt8) : Decidable (Placed front b rest) :=
  inferInstanceAs (Decidable (_ ∧ _ ∧ _ ∧ _ ∧ _))

def Alphabet (e : List UInt8) : Prop := ∀ front b rest, e = front ++ b :: rest → Placed front b rest

section

variable {front rest e e' : List UInt8} {b : UInt8}

theorem Placed.append_front (h : Placed front b rest) (e : List UInt8) :
    Placed (e ++ front) b rest := by
  obtain ⟨hrange, hcr, hlf, hreserved, heq⟩ := h
  refine ⟨hrange, hcr, fun hb => ?_, hreserved, heq⟩
  rw [List.getLast?_append, hlf hb]
  rfl

theorem take_append_of_length {n : Nat} {t : List UInt8} (h : rest.take n = t) (ht : t.length = n)
    (e : List UInt8) : (rest ++ e).take n = t := by
  have hle : n ≤ rest.length := by
    rw [← h, List.length_take] at ht
    omega
  rw [List.take_append_of_le_length hle, h]

theorem Placed.append_rest (h : Placed front b rest) (e : List UInt8) :
    Placed front b (rest ++ e) := by
  obtain ⟨hrange, hcr, hlf, hreserved, heq⟩ := h
  refine ⟨hrange, fun hb => take_append_of_length (hcr hb) rfl e, hlf, hreserved, fun hb => ?_⟩
  rcases heq hb with ⟨hlen, hhex⟩ | hsoft
  · rw [take_append_of_length rfl hlen e]
    exact .inl ⟨hlen, hhex⟩
  · exact .inr (take_append_of_length hsoft rfl e)

theorem alphabet_nil : Alphabet [] := by
  intro front b rest h
  exact absurd h (by simp)

theorem Alphabet.append (h : Alphabet e) (h' : Alphabet e') : Alphabet (e ++ e') := by
  intro front b rest heq
  rcases List.append_eq_append_iff.mp heq with ⟨mid, rfl, hmid⟩ | ⟨mid, hmid, hrest⟩
  · exact (h' mid b rest hmid).append_front e
  · cases mid with
    | nil =>
      have hplaced := (h' [] b rest hrest.symm).append_front front
      rwa [List.append_nil] at hplaced
    | cons b' mid =>
      obtain ⟨rfl, rfl⟩ := List.cons.inj hrest
      exact (h front b mid hmid).append_rest e'

theorem alphabet_token (h : ∀ i : Fin e.length, Placed (e.take i) e[i] (e.drop (i + 1))) : Alphabet e := by
  intro front b rest heq
  subst heq
  have hb := h ⟨front.length, by simp⟩
  simpa using hb

theorem alphabet_plain (h : Plain b) : Alphabet [b] := by
  have hplaced : ∀ b, Plain b → Placed [] b [] := forall_byte (by decide +kernel)
  exact alphabet_token fun
    | ⟨0, _⟩ => hplaced b h

theorem alphabet_code (b : UInt8) : Alphabet (EncodeState.code b) := by
  have hplaced : ∀ b, ∀ i : Fin 3, Placed ((EncodeState.code b).take i) (EncodeState.code b)[i]
      ((EncodeState.code b).drop (i + 1)) := forall_byte (by decide +kernel)
  exact alphabet_token (hplaced b)

theorem alphabet_soft : Alphabet EQCRLF := alphabet_token (by decide)

theorem alphabet_crlf : Alphabet [CR, LF] := alphabet_token (by decide)

end

namespace EncodeState

theorem alphabet_guard (s : EncodeState) : Alphabet s.guard := by
  unfold guard
  split
  · exact alphabet_soft
  · exact alphabet_nil

theorem alphabet_piece (s : EncodeState) (b : UInt8) : Alphabet (s.piece b) := by
  unfold piece
  split
  next hplain => exact alphabet_plain hplain
  split
  · exact (alphabet_guard s).append (alphabet_code LF)
  split
  · exact (alphabet_guard s).append alphabet_crlf
  · exact alphabet_code b

theorem alphabet_nullText (n l : Nat) : Alphabet (nullText n l) := by
  induction n generalizing l with
  | zero => exact alphabet_nil
  | succ n ih =>
    unfold nullText
    refine (alphabet_code 0).append ?_
    split
    · exact alphabet_soft.append (ih 0)
    · exact ih (l + 3)

theorem alphabet_text (s : EncodeState) (b : UInt8) : Alphabet (s.text b) := by
  unfold text
  refine Alphabet.append ?_ ?_
  · split
    · exact alphabet_soft
    · exact alphabet_nil
  · split
    · exact alphabet_nil
    · exact (alphabet_nullText _ _).append (alphabet_piece s b)

theorem alphabet_step {s s' : EncodeState} {b : UInt8} (h : Ready s) (hout : Alphabet s.out)
    (hstep : s.step b = .ok s') : Alphabet s'.out := by
  obtain ⟨s₁, hs₁, -, hadds, -⟩ := h.step b
  obtain rfl := Except.ok.inj (hstep.symm.trans hs₁)
  rw [hadds.out]
  exact hout.append (alphabet_text s b)

end EncodeState

/-- Every text that is encoded can stand in a vCard or vCalendar. -/
theorem encodeQP_alphabet (x : List UInt8) :
    ∃ e written, encodeQP x = .ok (e, written) ∧ Alphabet e := by
  obtain ⟨s, hloop, -, hout⟩ := EncodeState.ready_init.encodeLoop (P := fun s => Alphabet s.out) alphabet_nil
    (fun _ _ _ => EncodeState.alphabet_step) x
  exact ⟨s.out, s.written, encodeQP_eq hloop, hout⟩

end G361FPlatform.Qp
