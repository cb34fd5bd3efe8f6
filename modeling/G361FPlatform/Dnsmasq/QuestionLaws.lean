import G361FPlatform.Dnsmasq.NameLaws
import G361FPlatform.Library.Crc

namespace G361FPlatform.Dnsmasq

open Library

def crcPoly : BitVec 32 := 0x04c11db7

theorem crcShift_toBitVec (crc : UInt32) : (crcShift crc).toBitVec = Crc.shift crcPoly crc.toBitVec := by
  have hmsb : (crc &&& 0x80000000 ≠ 0) ↔ crc.toBitVec.msb = true := by
    rw [BitVec.msb_eq_getLsbD_last, Ne, ← UInt32.toBitVec_inj]
    constructor
    · intro h
      by_contra hbit
      apply h
      apply BitVec.eq_of_getLsbD_eq
      intro i hi
      rw [UInt32.toBitVec_and, BitVec.getLsbD_and]
      by_cases hlast : i = 31
      · rw [hlast, show crc.toBitVec.getLsbD 31 = false from Bool.eq_false_iff.mpr hbit]
        rfl
      · have : (0x80000000 : UInt32).toBitVec.getLsbD i = false := by
          have hall : ∀ i : Fin 31, (0x80000000 : UInt32).toBitVec.getLsbD i.val = false := by decide
          exact hall ⟨i, by omega⟩
        rw [this, Bool.and_false]
        simp
    · intro hbit h
      have h31 := congrArg (fun r => BitVec.getLsbD r 31) h
      rw [UInt32.toBitVec_and] at h31
      simp only [BitVec.getLsbD_and] at h31
      rw [hbit] at h31
      exact absurd h31 (by decide)
  unfold crcShift Crc.shift
  by_cases h : crc &&& 0x80000000 ≠ 0
  · rw [if_pos h, if_pos (hmsb.mp h)]
    rfl
  · rw [if_neg h, if_neg (mt hmsb.mpr h)]
    rfl

theorem iterate_crcShift_toBitVec (n : Nat) (crc : UInt32) :
    (Nat.iterate crcShift n crc).toBitVec = Nat.iterate (Crc.shift crcPoly) n crc.toBitVec := by
  induction n generalizing crc with
  | zero => rfl
  | succ n ih => rw [Function.iterate_succ_apply, ih, crcShift_toBitVec]; rfl

theorem crcByte_toBitVec (crc : UInt32) (c : UInt8) :
    (crcByte crc c).toBitVec = Crc.feed crcPoly crc.toBitVec c.toBitVec := by
  rw [crcByte, iterate_crcShift_toBitVec]
  rfl

theorem foldl_crcByte_toBitVec (crc : UInt32) (cs : List UInt8) :
    (cs.foldl crcByte crc).toBitVec = Crc.run crcPoly crc.toBitVec (cs.map UInt8.toBitVec) := by
  induction cs generalizing crc with
  | nil => rfl
  | cons c cs ih => rw [List.foldl_cons, ih, crcByte_toBitVec]; rfl

abbrev Question := CString × List UInt8

inductive QuestionsAt (header : Packet) : Nat → List Question → Prop
  | nil {p : Nat} : QuestionsAt header p []
  | cons {p q : Nat} {name : CString} {qs : List Question} (hname : extractName header p 4 = some (q, name))
      (hlen : q + 4 ≤ header.plen) (hqs : QuestionsAt header (q + 4) qs) :
      QuestionsAt header p ((name, header.bytes q 4) :: qs)

def Packet.Asks (header : Packet) (qs : List Question) : Prop :=
  header.qdcount.toNat = qs.length ∧ QuestionsAt header HEADER_SIZE qs

/-- What the check is taken of: names without regard to case, however they were compressed. -/
def questionBytes (qs : List Question) : List UInt8 := qs.flatMap fun q => q.1.map lowerCase ++ q.2

section

variable {header header' : Packet} {qs qs' : List Question}

theorem QuestionsAt.questionsCrcFrom {p : Nat} (h : QuestionsAt header p qs) (crc : UInt32) :
    Dnsmasq.questionsCrcFrom header qs.length crc p = (questionBytes qs).foldl crcByte crc := by
  induction h generalizing crc with
  | nil => rfl
  | cons hname hlen hqs ih =>
    rw [List.length_cons, Dnsmasq.questionsCrcFrom, hname]
    simp only [checkLen_iff, Nat.add_zero, hlen, not_true_eq_false, if_false]
    rw [ih, questionBytes, questionBytes, List.flatMap_cons, List.foldl_append, List.foldl_append]

theorem questionsCrc_eq (h : header.Asks qs) : questionsCrc header = (questionBytes qs).foldl crcByte 0xffffffff := by
  rw [questionsCrc, h.1, h.2.questionsCrcFrom]

/-- The check sees the questions only: two packets that ask the same, whatever the case and the compression of
the names, have the same check. -/
theorem questionsCrc_congr (h : header.Asks qs) (h' : header'.Asks qs')
    (hsame : qs.map (fun q => (q.1.map lowerCase, q.2)) = qs'.map fun q => (q.1.map lowerCase, q.2)) :
    questionsCrc header = questionsCrc header' := by
  have hbytes : ∀ qs : List Question,
      questionBytes qs = (qs.map fun q => (q.1.map lowerCase, q.2)).flatMap fun q => q.1 ++ q.2 := by
    intro qs
    rw [questionBytes, List.flatMap_map]
  rw [questionsCrc_eq h, questionsCrc_eq h', hbytes, hbytes, hsame]

/-- It tells questions apart that differ in a stretch of at most four bytes. -/
theorem questionsCrc_ne_of_burst (h : header.Asks qs) (h' : header'.Asks qs') {a x y b : List UInt8}
    (hqs : questionBytes qs = a ++ x ++ b) (hqs' : questionBytes qs' = a ++ y ++ b) (hlen : x.length = y.length)
    (hx : x.length ≤ 4) (hne : x ≠ y) : questionsCrc header ≠ questionsCrc header' := by
  intro heq
  have hbits := congrArg UInt32.toBitVec heq
  rw [questionsCrc_eq h, questionsCrc_eq h', foldl_crcByte_toBitVec, foldl_crcByte_toBitVec, hqs, hqs'] at hbits
  simp only [List.map_append] at hbits
  refine Crc.run_ne_of_burst (by decide) (by decide) _ (a.map UInt8.toBitVec) (b.map UInt8.toBitVec)
    (by rw [List.length_map, List.length_map, hlen]) (by rw [List.length_map]; omega) ?_ hbits
  exact fun hmap => hne (List.map_injective_iff.mpr (fun _ _ => UInt8.toBitVec_inj.mp) hmap)

theorem asks_of_one_char {c : UInt8} (hcount : header.qdcount = 1) (hplen : 19 ≤ header.plen)
    (hbytes : header.bytes 12 3 = [1, c, 0]) (hc : isNameChar c) : header.Asks [([c], header.bytes 15 4)] := by
  have h12 : header.mem 12 = 1 := List.head_eq_of_cons_eq hbytes
  have h13 : header.bytes 13 1 = [c] := List.cons_eq_cons.mpr
    ⟨List.head_eq_of_cons_eq (List.tail_eq_of_cons_eq hbytes), rfl⟩
  have h14 : header.mem 14 = 0 := List.head_eq_of_cons_eq (List.tail_eq_of_cons_eq (List.tail_eq_of_cons_eq hbytes))
  have hlen : header.labelLen 12 = 1 := by rw [Packet.labelLen, h12]; rfl
  have hroot : NameAt header (12 + 1 + header.labelLen 12) [] 0 15 15 := by
    rw [hlen]
    exact .root (by omega) h14
  have hls := NameFrom.chars (by omega) (by rw [h12]; decide) (by rw [Packet.labelType, h12]; decide) (by omega) hroot
  rw [hlen, h13] at hls
  refine ⟨by rw [hcount]; rfl, .cons (NameAt.extractName hls (by omega) ?_ ?_ (by omega)) (by omega) .nil⟩
  · simpa [Label.Legal] using hc
  · exact ⟨show 0 + 2 < 1025 by decide, trivial⟩

/-- The case of the name does not show. -/
theorem questionsCrc_congr_case :
    questionsCrc (.ofBytes [0, 0, 0, 0, 0, 1, 0, 0, 0, 0, 0, 0, 1, 97, 0, 0, 1, 0, 1]) =
      questionsCrc (.ofBytes [0, 0, 0, 0, 0, 1, 0, 0, 0, 0, 0, 0, 1, 65, 0, 0, 1, 0, 1]) :=
  questionsCrc_congr (asks_of_one_char (c := 97) (by decide) (by decide) (by decide) (by decide))
    (asks_of_one_char (c := 65) (by decide) (by decide) (by decide) (by decide)) (by decide)

/-- The type does. -/
theorem questionsCrc_ne_of_burst_type :
    questionsCrc (.ofBytes [0, 0, 0, 0, 0, 1, 0, 0, 0, 0, 0, 0, 1, 97, 0, 0, 1, 0, 1]) ≠
      questionsCrc (.ofBytes [0, 0, 0, 0, 0, 1, 0, 0, 0, 0, 0, 0, 1, 97, 0, 0, 28, 0, 1]) :=
  questionsCrc_ne_of_burst (a := [97, 0]) (x := [1]) (y := [28]) (b := [0, 1])
    (asks_of_one_char (c := 97) (by decide) (by decide) (by decide) (by decide))
    (asks_of_one_char (c := 97) (by decide) (by decide) (by decide) (by decide)) (by decide) (by decide) rfl (by decide)
    (by decide)

end

end G361FPlatform.Dnsmasq
