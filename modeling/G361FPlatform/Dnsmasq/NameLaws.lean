import Mathlib.Data.List.Basic
import G361FPlatform.Dnsmasq.Names

namespace G361FPlatform.Dnsmasq

open Library

inductive Label
  | chars (cs : List UInt8)
  | bits (digits : List UInt8) (count : Nat)

namespace Label

def text : Label → CString
  | chars cs => cs ++ [46]
  | bits digits count => [92, 91, 120] ++ digits ++ [47] ++ CString.ofString (toString count) ++ [93, 46]

def room : Label → Nat
  | chars cs => cs.length + 1
  | bits digits _ => digits.length + 9

def Legal : Label → Prop
  | chars cs => cs.all isNameChar
  | bits _ _ => True

/-- A bitstring whose digits fill its bytes. -/
def Whole : Label → Prop
  | chars _ => True
  | bits digits _ => digits.length % 2 = 0

end Label

def Fits (n : Nat) : List Label → Prop
  | [] => True
  | l :: ls => n + l.room < MAXDNAME ∧ Fits (n + l.text.length) ls

def nameText (ls : List Label) : CString := ls.flatMap Label.text

/-- The labels of the name at `p`, the pointers they are reached through, where the packet goes on behind the
name, and where the last label ends.  `bitBytes` tells how far to go on for so many digits of a bitstring. -/
inductive NameFrom (bitBytes : Nat → Nat) (header : Packet) : Nat → List Label → Nat → Nat → Nat → Prop
  | root {p : Nat} (hp : p + 1 ≤ header.plen) (h : header.mem p = 0) :
      NameFrom bitBytes header p [] 0 (p + 1) (p + 1)
  | chars {p : Nat} {ls : List Label} {jumps q e : Nat} (hp : p + 1 ≤ header.plen) (h : header.mem p ≠ 0)
      (htype : header.labelType p = 0) (hlen : p + 1 + header.labelLen p ≤ header.plen)
      (hls : NameFrom bitBytes header (p + 1 + header.labelLen p) ls jumps q e) :
      NameFrom bitBytes header p (.chars (header.bytes (p + 1) (header.labelLen p)) :: ls) jumps q e
  | bits {p : Nat} {ls : List Label} {jumps q e : Nat} (hp : p + 1 ≤ header.plen)
      (htype : header.labelType p = 0x40) (hbits : header.mem p &&& 0x3f = 1)
      (hlen : p + 2 + (header.bitCount p - 1) / 8 ≤ header.plen)
      (hls : NameFrom bitBytes header (p + 2 + bitBytes (header.bitDigits p)) ls jumps q e) :
      NameFrom bitBytes header p (.bits (header.hexDigits p) (header.bitCount p) :: ls) jumps q e
  | pointer {p : Nat} {ls : List Label} {jumps q e : Nat} (hp : p + 2 ≤ header.plen)
      (htype : header.labelType p = 0xc0) (hls : NameFrom bitBytes header (header.pointer p) ls jumps q e) :
      NameFrom bitBytes header p ls (jumps + 1) (p + 2) e

/-- A name of the wire format: a bitstring takes whole bytes. -/
abbrev WireAt : Packet → Nat → List Label → Nat → Nat → Nat → Prop := NameFrom fun digits => (digits + 1) / 2

/-- A name as `extract_name` reads it.  It leaves a byte of a bitstring behind with the second digit, so behind
an odd number of digits it goes on in the last byte. -/
abbrev NameAt : Packet → Nat → List Label → Nat → Nat → Nat → Prop := NameFrom (· / 2)

section

variable {header : Packet} {extrabytes p : Nat} {p1 : Option Nat} {hops : Nat} {text : CString}

@[simp] theorem checkLen_iff {len : Nat} : header.checkLen p len = true ↔ p + len ≤ header.plen := by
  rw [Packet.checkLen, decide_eq_true_eq]

theorem and_c0_cases (l : UInt8) : l &&& 0xc0 = 0xc0 ∨ l &&& 0xc0 = 0x80 ∨ l &&& 0xc0 = 0x40 ∨ l &&& 0xc0 = 0 := by
  obtain ⟨⟨l⟩⟩ := l
  revert l
  decide +kernel

theorem ne_zero_of_labelType (h : header.labelType p ≠ 0) : header.mem p ≠ 0 := by
  intro hzero
  apply h
  rw [Packet.labelType, hzero]
  rfl

theorem extractFrom_root (hp : p + 1 ≤ header.plen) (h : header.mem p = 0) (he : p + 1 + extrabytes ≤ header.plen) :
    extractFrom header extrabytes p p1 hops text = some (p1.getD (p + 1), text.dropLast) := by
  rw [extractFrom]
  simp [hp, h, he]

theorem extractFrom_pointer (hp : p + 2 ≤ header.plen) (htype : header.labelType p = 0xc0) (hhops : hops < 255) :
    extractFrom header extrabytes p p1 hops text =
      extractFrom header extrabytes (header.pointer p) (p1.or (some (p + 2))) (hops + 1) text := by
  have hmem : header.mem p ≠ 0 := ne_zero_of_labelType (by rw [htype]; decide)
  rw [extractFrom, if_neg (by simp; omega), if_neg hmem, if_pos htype, if_neg (by simp; omega), if_neg (by omega)]

theorem extractFrom_bits (hp : p + 1 ≤ header.plen) (htype : header.labelType p = 0x40)
    (hbits : header.mem p &&& 0x3f = 1) (hroom : text.length + header.bitDigits p + 9 < MAXDNAME)
    (hlen : p + 2 + (header.bitCount p - 1) / 8 ≤ header.plen) :
    extractFrom header extrabytes p p1 hops text =
      extractFrom header extrabytes (p + 2 + header.bitDigits p / 2) p1 hops (text ++ header.bitstring p) := by
  have hmem : header.mem p ≠ 0 := ne_zero_of_labelType (by rw [htype]; decide)
  rw [extractFrom]
  simp [hmem, htype, hp, hbits, hlen, Nat.not_le.mpr hroom]

theorem extractFrom_chars (hp : p + 1 ≤ header.plen) (h : header.mem p ≠ 0) (htype : header.labelType p = 0)
    (hroom : text.length + header.labelLen p + 1 < MAXDNAME) (hlen : p + 1 + header.labelLen p ≤ header.plen)
    (hlegal : (header.bytes (p + 1) (header.labelLen p)).all isNameChar) :
    extractFrom header extrabytes p p1 hops text =
      extractFrom header extrabytes (p + 1 + header.labelLen p) p1 hops
        (text ++ header.bytes (p + 1) (header.labelLen p) ++ [46]) := by
  rw [extractFrom, if_neg (by simpa using hp), if_neg h, if_neg (by rw [htype]; decide),
    if_neg (by rw [htype]; decide), if_neg (by rw [htype]; decide), if_neg (Nat.not_le.mpr hroom),
    if_neg (by simpa using hlen), if_pos hlegal]

theorem bytes_length (len : Nat) : (header.bytes p len).length = len := by
  rw [Packet.bytes, List.length_map, List.length_range]

theorem hexDigits_length (p : Nat) : (header.hexDigits p).length = header.bitDigits p := by
  rw [Packet.hexDigits, List.length_map, List.length_range]

theorem bitstring_eq (p : Nat) :
    header.bitstring p = (Label.bits (header.hexDigits p) (header.bitCount p)).text := rfl

theorem exists_of_extractFrom {r : Nat × CString} (h : extractFrom header extrabytes p p1 hops text = some r) :
    ∃ ls jumps q e, NameAt header p ls jumps q e ∧ (jumps = 0 ∨ hops + jumps ≤ 255) ∧ (∀ l ∈ ls, l.Legal) ∧
      Fits text.length ls ∧ e + extrabytes ≤ header.plen ∧ r = (p1.getD q, (text ++ nameText ls).dropLast) := by
  fun_induction extractFrom header extrabytes p p1 hops text with
  | case3 p p1 hops text hp hmem he =>
    simp only [checkLen_iff, Decidable.not_not] at hp he
    refine ⟨[], 0, p + 1, p + 1, .root hp hmem, .inl rfl, by simp, trivial, he, ?_⟩
    rw [← Option.some.inj h, nameText, List.flatMap_nil, List.append_nil]
  | case6 p p1 hops text hp hmem htype hp2 hhops ih =>
    simp only [checkLen_iff, Decidable.not_not] at hp hp2
    obtain ⟨ls, jumps, q, e, hls, hjumps, hlegal, hfits, he, hr⟩ := ih h
    refine ⟨ls, jumps + 1, p + 2, e, .pointer (by omega) htype hls, .inr (by omega), hlegal, hfits, he, ?_⟩
    rw [hr]
    cases p1 <;> rfl
  | case11 p p1 hops text hp hmem _ _ htype hbits hroom hlen ih =>
    simp only [checkLen_iff, Decidable.not_not] at hp hbits hlen
    obtain ⟨ls, jumps, q, e, hls, hjumps, hlegal, hfits, he, hr⟩ := ih h
    refine ⟨.bits (header.hexDigits p) (header.bitCount p) :: ls, jumps, q, e, .bits hp htype hbits hlen hls, hjumps,
      ?_, ⟨?_, ?_⟩, he, ?_⟩
    · simpa [Label.Legal] using hlegal
    · rw [Label.room, hexDigits_length]
      omega
    · rwa [List.length_append, bitstring_eq] at hfits
    · rw [hr, nameText, nameText, List.flatMap_cons, bitstring_eq, List.append_assoc]
  | case14 p p1 hops text hp hmem h1 h2 h3 hroom hlen hlegal' ih =>
    simp only [checkLen_iff, Decidable.not_not] at hp hlen
    have htype : header.labelType p = 0 := by
      have := and_c0_cases (header.mem p)
      unfold Packet.labelType at h1 h2 h3 ⊢
      tauto
    obtain ⟨ls, jumps, q, e, hls, hjumps, hlegal, hfits, he, hr⟩ := ih h
    refine ⟨.chars (header.bytes (p + 1) (header.labelLen p)) :: ls, jumps, q, e, .chars hp hmem htype hlen hls, hjumps,
      ?_, ⟨?_, ?_⟩, he, ?_⟩
    · simpa [Label.Legal] using And.intro (by simpa using hlegal') hlegal
    · rw [Label.room, bytes_length]
      omega
    · rwa [List.append_assoc, List.length_append] at hfits
    · rw [hr, nameText, nameText, List.flatMap_cons, Label.text, List.append_assoc, List.append_assoc,
        List.append_assoc]
  | case1 | case2 | case4 | case5 | case7 | case8 | case9 | case10 | case12 | case13 | case15 => cases h

theorem NameAt.extractFrom {ls : List Label} {jumps q e : Nat} (h : NameAt header p ls jumps q e)
    (hjumps : jumps = 0 ∨ hops + jumps ≤ 255) (hlegal : ∀ l ∈ ls, l.Legal) (hfits : Fits text.length ls)
    (he : e + extrabytes ≤ header.plen) :
    Dnsmasq.extractFrom header extrabytes p p1 hops text = some (p1.getD q, (text ++ nameText ls).dropLast) := by
  induction h generalizing p1 hops text with
  | root hp hmem => rw [extractFrom_root hp hmem he, nameText, List.flatMap_nil, List.append_nil]
  | @chars p ls jumps q e hp hmem htype hlen hls ih =>
    obtain ⟨hl, hlegal⟩ := List.forall_mem_cons.mp hlegal
    obtain ⟨hroom, hfits⟩ := hfits
    rw [Label.room, bytes_length] at hroom
    rw [extractFrom_chars hp hmem htype (by omega) hlen hl, ih hjumps hlegal ?_ he, nameText, nameText,
      List.flatMap_cons, Label.text, List.append_assoc, List.append_assoc, List.append_assoc]
    rwa [List.append_assoc, List.length_append]
  | @bits p ls jumps q e hp htype hbits hlen hls ih =>
    obtain ⟨-, hlegal⟩ := List.forall_mem_cons.mp hlegal
    obtain ⟨hroom, hfits⟩ := hfits
    rw [Label.room, hexDigits_length] at hroom
    rw [extractFrom_bits hp htype hbits (by omega) hlen, ih hjumps hlegal ?_ he, nameText, nameText, List.flatMap_cons,
      bitstring_eq, List.append_assoc]
    rwa [List.length_append, bitstring_eq]
  | @pointer p ls jumps q e hp htype hls ih =>
    rw [extractFrom_pointer hp htype (by omega), ih (.inr (by omega)) hlegal hfits he]
    cases p1 <;> rfl

theorem exists_of_extractName {q : Nat} {name : CString} (h : extractName header p extrabytes = some (q, name)) :
    ∃ ls jumps e, NameAt header p ls jumps q e ∧ jumps ≤ 255 ∧ (∀ l ∈ ls, l.Legal) ∧ Fits 0 ls ∧
      e + extrabytes ≤ header.plen ∧ name = (nameText ls).dropLast := by
  obtain ⟨ls, jumps, q', e, hls, hjumps, hlegal, hfits, he, hr⟩ := exists_of_extractFrom h
  cases hr
  exact ⟨ls, jumps, e, hls, by omega, hlegal, hfits, he, rfl⟩

theorem NameAt.extractName {ls : List Label} {jumps q e : Nat} (hls : NameAt header p ls jumps q e)
    (hjumps : jumps ≤ 255) (hlegal : ∀ l ∈ ls, l.Legal) (hfits : Fits 0 ls) (he : e + extrabytes ≤ header.plen) :
    extractName header p extrabytes = some (q, (nameText ls).dropLast) :=
  hls.extractFrom (by omega) hlegal hfits he

theorem NameFrom.congr {f g : Nat → Nat} (hfg : ∀ n, n % 2 = 0 → f n = g n) {ls : List Label} {jumps q e : Nat}
    (h : NameFrom f header p ls jumps q e) (hwhole : ∀ l ∈ ls, l.Whole) : NameFrom g header p ls jumps q e := by
  induction h with
  | root hp hmem => exact .root hp hmem
  | chars hp hmem htype hlen _ ih => exact .chars hp hmem htype hlen (ih (List.forall_mem_cons.mp hwhole).2)
  | @bits p ls jumps q e hp htype hbits hlen _ ih =>
    obtain ⟨hl, hwhole⟩ := List.forall_mem_cons.mp hwhole
    rw [Label.Whole, hexDigits_length] at hl
    refine .bits hp htype hbits hlen ?_
    rw [← hfg _ hl]
    exact ih hwhole
  | pointer hp htype _ ih => exact .pointer hp htype (ih hwhole)

/-- Where the digits of the bitstrings fill their bytes, the names are those of the wire format. -/
theorem nameAt_iff_wireAt {ls : List Label} {jumps q e : Nat} (hwhole : ∀ l ∈ ls, l.Whole) :
    NameAt header p ls jumps q e ↔ WireAt header p ls jumps q e :=
  ⟨fun h => h.congr (fun n hn => by omega) hwhole, fun h => h.congr (fun n hn => by omega) hwhole⟩

/-- `extract_name` gives exactly the names as it reads them that go through at most 255 pointers, have legal
characters and fit in the buffer, and these are the names of the wire format unless a bitstring ends in half a
byte. -/
theorem extractName_eq_some_iff {q : Nat} {name : CString} :
    (extractName header p extrabytes = some (q, name) ↔
      ∃ ls jumps e, NameAt header p ls jumps q e ∧ jumps ≤ 255 ∧ (∀ l ∈ ls, l.Legal) ∧ Fits 0 ls ∧
        e + extrabytes ≤ header.plen ∧ name = (nameText ls).dropLast) ∧
      ∀ ls jumps e, (∀ l ∈ ls, l.Whole) →
        (NameAt header p ls jumps q e ↔ WireAt header p ls jumps q e) := by
  refine ⟨⟨exists_of_extractName, ?_⟩, fun ls jumps e hwhole => nameAt_iff_wireAt hwhole⟩
  rintro ⟨ls, jumps, e, hls, hjumps, hlegal, hfits, he, rfl⟩
  exact hls.extractName hjumps hlegal hfits he

-- a bitstring of four bits before the root, whose last byte is taken for the next label
example : WireAt (.ofBytes [0x41, 4, 0xa0, 0]) 0 [.bits [65] 4] 0 4 4 ∧
    extractName (.ofBytes [0x41, 4, 0xa0, 0]) 0 0 = none := by
  refine ⟨.bits (by decide) (by decide) (by decide) (by decide) (.root (by decide) (by decide)), ?_⟩
  rw [extractName, extractFrom_bits (by decide) (by decide) (by decide) (by decide) (by decide), extractFrom]
  rfl

theorem NameAt.lt {ls : List Label} {jumps q e : Nat} (h : NameAt header p ls jumps q e) : p < header.plen := by
  cases h <;> omega

theorem NameAt.end_le {ls : List Label} {jumps q e : Nat} (h : NameAt header p ls jumps q e) : q ≤ header.plen := by
  induction h with
  | root hp | pointer hp => omega
  | chars _ _ _ _ _ ih | bits _ _ _ _ _ ih => exact ih

theorem length_nameText_le {n : Nat} {ls : List Label} (hfits : Fits n ls) (hn : n < MAXDNAME)
    (hroom : ∀ l ∈ ls, l.text.length ≤ l.room) : n + (nameText ls).length < MAXDNAME := by
  induction ls generalizing n with
  | nil => exact hn
  | cons l ls ih =>
    obtain ⟨hl, hroom⟩ := List.forall_mem_cons.mp hroom
    have := ih hfits.2 (by have := hfits.1; omega) hroom
    rw [nameText, List.flatMap_cons, List.length_append]
    rw [nameText] at this
    omega

theorem length_toString_le (n : Nat) (h : n ≤ 256) : (CString.ofString (toString n)).length ≤ 3 := by
  have : ∀ n : Fin 257, (CString.ofString (toString n.val)).length ≤ 3 := by decide +kernel
  exact this ⟨n, by omega⟩

theorem bitCount_le (p : Nat) : header.bitCount p ≤ 256 := by
  rw [Packet.bitCount]
  split
  · omega
  · exact Nat.le_of_lt (UInt8.toNat_lt _)

theorem NameAt.text_le_room {ls : List Label} {jumps q e : Nat} (h : NameAt header p ls jumps q e) :
    ∀ l ∈ ls, l.text.length ≤ l.room := by
  induction h with
  | root => simp
  | chars _ _ _ _ _ ih => exact List.forall_mem_cons.mpr ⟨Nat.le_of_eq List.length_append, ih⟩
  | @bits p _ _ _ _ _ _ _ _ _ ih =>
    refine List.forall_mem_cons.mpr ⟨?_, ih⟩
    have := length_toString_le (header.bitCount p) (bitCount_le p)
    simp only [Label.text, Label.room, List.length_append, List.length_cons, List.length_nil]
    omega
  | pointer _ _ _ ih => exact ih

end

section

variable {header header' : Packet} {extrabytes p : Nat}

theorem bytes_congr (hmem : ∀ i < header.plen, header.mem i = header'.mem i) {len : Nat}
    (hlen : p + len ≤ header.plen) : header.bytes p len = header'.bytes p len := by
  unfold Packet.bytes
  apply List.map_congr_left
  intro j hj
  exact hmem _ (by have := List.mem_range.mp hj; omega)

theorem hexDigits_congr (hmem : ∀ i < header.plen, header.mem i = header'.mem i)
    (hcount : header.bitCount p = header'.bitCount p) (hlen : p + 2 + (header.bitDigits p - 1) / 2 < header.plen) :
    header.hexDigits p = header'.hexDigits p := by
  have hdigits : header.bitDigits p = header'.bitDigits p := by rw [Packet.bitDigits, Packet.bitDigits, hcount]
  unfold Packet.hexDigits
  rw [← hdigits]
  apply List.map_congr_left
  intro j hj
  have hj := List.mem_range.mp hj
  have hle : j / 2 ≤ (header.bitDigits p - 1) / 2 := by omega
  simp only [hmem (p + 2 + j / 2) (by omega)]

theorem NameAt.mono (hplen : header.plen ≤ header'.plen) (hmem : ∀ i < header.plen, header.mem i = header'.mem i)
    {ls : List Label} {jumps q e : Nat} (h : NameAt header p ls jumps q e) : NameAt header' p ls jumps q e := by
  induction h with
  | root hp hzero => exact .root (by omega) (by rw [← hmem _ (by omega)]; exact hzero)
  | @chars p ls jumps q e hp hne htype hlen hls ih =>
    have hlab : header.labelLen p = header'.labelLen p := by
      unfold Packet.labelLen
      rw [hmem p (by omega)]
    rw [hlab] at ih hlen
    rw [hlab, bytes_congr hmem hlen]
    exact .chars (by omega) (by rwa [← hmem p (by omega)]) (by rwa [Packet.labelType, ← hmem p (by omega)])
      (by omega) ih
  | @bits p ls jumps q e hp htype hbits hlen hls ih =>
    have hnext := NameAt.lt hls
    have hcount : header.bitCount p = header'.bitCount p := by
      unfold Packet.bitCount
      rw [hmem (p + 1) (by omega)]
    have hdig : header.bitDigits p = header'.bitDigits p := by rw [Packet.bitDigits, Packet.bitDigits, hcount]
    rw [hexDigits_congr hmem hcount (by omega), hcount]
    rw [hdig] at ih
    exact .bits (by omega) (by rwa [Packet.labelType, ← hmem p (by omega)]) (by rwa [← hmem p (by omega)]) (by omega) ih
  | @pointer p ls jumps q e hp htype hls ih =>
    have hptr : header.pointer p = header'.pointer p := by
      unfold Packet.pointer
      rw [hmem p (by omega), hmem (p + 1) (by omega)]
    rw [hptr] at ih
    exact .pointer (by omega) (by rwa [Packet.labelType, ← hmem p (by omega)]) ih

/-- What a packet of any bytes gives stays inside: the name fits in the buffer, the packet goes on inside, and
nothing depends on what lies behind it. -/
theorem extractName_robust (hplen : header.plen = header'.plen)
    (hmem : ∀ i < header.plen, header.mem i = header'.mem i) :
    extractName header p extrabytes = extractName header' p extrabytes ∧
      ∀ q name, extractName header p extrabytes = some (q, name) →
        q ≤ header.plen ∧ name.length < MAXDNAME := by
  constructor
  · have half : ∀ {header header' : Packet}, header.plen = header'.plen →
        (∀ i < header.plen, header.mem i = header'.mem i) → ∀ r, extractName header p extrabytes = some r →
        extractName header' p extrabytes = some r := by
      rintro header header' hplen hmem ⟨q, name⟩ h
      obtain ⟨ls, jumps, e, hls, hjumps, hlegal, hfits, he, rfl⟩ := exists_of_extractName h
      exact (hls.mono (Nat.le_of_eq hplen) hmem).extractName hjumps hlegal hfits (by omega)
    refine Option.ext fun r => ⟨half hplen hmem r, half hplen.symm (fun i hi => (hmem i (by omega)).symm) r⟩
  · intro q name h
    obtain ⟨ls, jumps, e, hls, -, -, hfits, -, rfl⟩ := exists_of_extractName h
    have := length_nameText_le hfits (by decide) hls.text_le_room
    rw [List.length_dropLast]
    exact ⟨hls.end_le, by omega⟩

theorem extractName_robust_stale :
    extractName (.ofBytes [1, 97, 0]) 0 0 = extractName ⟨fun i => [1, 97, 0].getD i 7, 3⟩ 0 0 :=
  (@extractName_robust (.ofBytes [1, 97, 0]) ⟨fun i => [1, 97, 0].getD i 7, 3⟩ 0 0 rfl (by decide)).1

end

end G361FPlatform.Dnsmasq
