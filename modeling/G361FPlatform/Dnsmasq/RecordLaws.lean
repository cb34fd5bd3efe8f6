import Mathlib.Algebra.Group.Nat.Defs
import Mathlib.Data.List.TakeWhile
import G361FPlatform.Dnsmasq.NameWalkLaws
import G361FPlatform.Dnsmasq.Records
import G361FPlatform.Library.Run

namespace G361FPlatform.Dnsmasq

open Library

section Bytes

variable {header : Packet} {p : Nat}

theorem bytes_add (a b : Nat) : header.bytes p (a + b) = header.bytes p a ++ header.bytes (p + a) b := by
  simp only [Packet.bytes, List.range_add, List.map_append, List.map_map, Nat.add_assoc, Function.comp_def]

theorem bytes_succ (n : Nat) : header.bytes p (n + 1) = header.mem p :: header.bytes (p + 1) n := by
  rw [Nat.add_comm n 1, bytes_add]
  rfl

theorem bytes_eq_append (as bs : List UInt8) (h : header.bytes p (as ++ bs).length = as ++ bs) :
    header.bytes p as.length = as ∧ header.bytes (p + as.length) bs.length = bs := by
  rw [List.length_append, bytes_add] at h
  exact List.append_inj h (bytes_length _)

theorem bytes_eq_cons {b : UInt8} (bs : List UInt8) (h : header.bytes p (b :: bs).length = b :: bs) :
    header.mem p = b ∧ header.bytes (p + 1) bs.length = bs := by
  rw [List.length_cons, bytes_succ] at h
  exact List.cons.inj h

theorem bytes_ofBytes (bs cs : List UInt8) :
    (Packet.ofBytes (bs ++ cs)).bytes bs.length cs.length = cs := by
  apply List.ext_getElem
  · exact bytes_length _
  · intro i hi hi'
    simp [Packet.bytes, Packet.ofBytes, hi']

theorem ofBytes_append (bs cs : List UInt8) :
    (Packet.ofBytes bs).plen ≤ (Packet.ofBytes (bs ++ cs)).plen ∧
      ∀ i < (Packet.ofBytes bs).plen, (Packet.ofBytes bs).mem i = (Packet.ofBytes (bs ++ cs)).mem i := by
  refine ⟨by simp [Packet.ofBytes], ?_⟩
  intro i hi
  change i < bs.length at hi
  change bs.getD i 0 = (bs ++ cs).getD i 0
  rw [List.getD_eq_getElem?_getD, List.getD_eq_getElem?_getD, List.getElem?_append_left hi]

theorem shiftLeft_or {k b : Nat} (a : Nat) (hb : b < 2 ^ k) : a <<< k ||| b = a * 2 ^ k + b := by
  rw [Nat.shiftLeft_eq, Nat.mul_comm, Nat.two_pow_add_eq_or_of_lt hb]

theorem uint16_of_bytes (s : UInt16) : (s >>> 8).toUInt8.toUInt16 <<< 8 ||| s.toUInt8.toUInt16 = s := by
  apply UInt16.toNat_inj.mp
  have hs : s.toNat < 65536 := s.toNat_lt
  change ((s.toNat >>> 8) % 256) <<< 8 % 65536 ||| s.toNat % 256 = s.toNat
  rw [Nat.shiftRight_eq_div_pow, Nat.mod_eq_of_lt (b := 65536), shiftLeft_or (k := 8) _ (by omega)]
  · omega
  · rw [Nat.shiftLeft_eq]
    omega

theorem bytes_or (n : Nat) : (n / 2 ^ 24) <<< 24 ||| (n / 2 ^ 16 % 256) <<< 16 |||
    (n / 2 ^ 8 % 256) <<< 8 ||| n % 256 = n := by
  have h16 : (n / 2 ^ 24) <<< 24 ||| (n / 2 ^ 16 % 256) <<< 16 = (n / 2 ^ 16) <<< 16 := by
    have hb : (n / 2 ^ 16 % 256) <<< 16 < 2 ^ 24 := by rw [Nat.shiftLeft_eq]; omega
    rw [shiftLeft_or _ hb, Nat.shiftLeft_eq, Nat.shiftLeft_eq]
    omega
  have h8 : (n / 2 ^ 16) <<< 16 ||| (n / 2 ^ 8 % 256) <<< 8 = (n / 2 ^ 8) <<< 8 := by
    have hb : (n / 2 ^ 8 % 256) <<< 8 < 2 ^ 16 := by rw [Nat.shiftLeft_eq]; omega
    rw [shiftLeft_or _ hb, Nat.shiftLeft_eq, Nat.shiftLeft_eq]
    omega
  have hb : n % 256 < 2 ^ 8 := by omega
  rw [h16, h8, shiftLeft_or _ hb]
  omega

theorem uint32_of_bytes (l : UInt32) : (l >>> 24).toUInt8.toUInt32 <<< 24 ||| (l >>> 16).toUInt8.toUInt32 <<< 16 |||
    (l >>> 8).toUInt8.toUInt32 <<< 8 ||| l.toUInt8.toUInt32 = l := by
  apply UInt32.toNat_inj.mp
  have hl : l.toNat < 2 ^ 32 := l.toNat_lt
  have hbyte : ∀ k : Nat, k ≤ 24 → (l.toNat >>> k % 2 ^ 8) <<< k % 2 ^ 32 = (l.toNat / 2 ^ k % 256) <<< k := by
    intro k hk
    have hlt : (l.toNat / 2 ^ k % 2 ^ 8) <<< k < 2 ^ 32 := by
      rw [Nat.shiftLeft_eq]
      calc l.toNat / 2 ^ k % 2 ^ 8 * 2 ^ k < 2 ^ 8 * 2 ^ k :=
            Nat.mul_lt_mul_of_pos_right (Nat.mod_lt _ (by decide)) (Nat.two_pow_pos k)
        _ = 2 ^ (8 + k) := (Nat.pow_add 2 8 k).symm
        _ ≤ 2 ^ 32 := Nat.pow_le_pow_right (by decide) (by omega)
    rw [Nat.shiftRight_eq_div_pow]
    exact Nat.mod_eq_of_lt hlt
  have h := bytes_or l.toNat
  rw [← Nat.mod_eq_of_lt (b := 256) (a := l.toNat / 2 ^ 24) (by omega), ← hbyte 24 (by decide), ← hbyte 16 (by decide),
    ← hbyte 8 (by decide)] at h
  exact h

theorem toUInt8_shiftRight_or (s : UInt16) : ((s ||| 0xc000) >>> 8).toUInt8 = (s >>> 8).toUInt8 ||| 0xc0 := by
  apply UInt8.toNat_inj.mp
  change ((s.toNat ||| 49152) >>> 8) % 2 ^ 8 = (s.toNat >>> 8) % 2 ^ 8 ||| 192
  rw [Nat.shiftRight_or_distrib, Nat.or_mod_two_pow]
  rfl

theorem toUInt8_or (s : UInt16) : ((s ||| 0xc000)).toUInt8 = s.toUInt8 := by
  apply UInt8.toNat_inj.mp
  change (s.toNat ||| 49152) % 2 ^ 8 = s.toNat % 2 ^ 8
  rw [Nat.or_mod_two_pow, show 49152 % 2 ^ 8 = 0 from rfl, Nat.or_zero]

theorem getShort_of_putShort {s : UInt16} (h : header.bytes p 2 = putShort s) : header.getShort p = s := by
  obtain ⟨h0, h1⟩ := bytes_eq_cons [s.toUInt8] h
  rw [Packet.getShort, h0, (bytes_eq_cons [] h1).1, uint16_of_bytes]

theorem getLong_of_putLong {l : UInt32} (h : header.bytes p 4 = putLong l) : header.getLong p = l := by
  obtain ⟨h0, h1⟩ := bytes_eq_cons [(l >>> 16).toUInt8, (l >>> 8).toUInt8, l.toUInt8] h
  obtain ⟨h1, h2⟩ := bytes_eq_cons [(l >>> 8).toUInt8, l.toUInt8] h1
  obtain ⟨h2, h3⟩ := bytes_eq_cons [l.toUInt8] h2
  rw [Packet.getLong, h0, h1, h2, (bytes_eq_cons [] h3).1, uint32_of_bytes]

theorem or_c0_pointer (hi : UInt8) :
    (hi ||| 0xc0) &&& 0xc0 = 0xc0 ∧ ((hi ||| 0xc0) &&& 0x3f).toNat = hi.toNat % 64 := by
  obtain ⟨⟨hi⟩⟩ := hi
  revert hi
  decide +kernel

theorem pointer_of_putShort {o : UInt16} (ho : o < 0x4000) (h : header.bytes p 2 = putShort (o ||| 0xc000)) :
    header.labelType p = 0xc0 ∧ header.pointer p = o.toNat := by
  obtain ⟨h0, h1⟩ := bytes_eq_cons [(o ||| 0xc000).toUInt8] h
  have h1 := (bytes_eq_cons [] h1).1
  rw [toUInt8_shiftRight_or] at h0
  rw [toUInt8_or] at h1
  have ho : o.toNat < 16384 := ho
  refine ⟨by rw [Packet.labelType, h0, (or_c0_pointer _).1], ?_⟩
  rw [Packet.pointer, h0, h1, (or_c0_pointer _).2]
  change (o.toNat >>> 8) % 256 % 64 * 256 + o.toNat % 256 = o.toNat
  rw [Nat.shiftRight_eq_div_pow]
  omega

end Bytes

section Names

def GoodLabel (cs : List UInt8) : Prop := cs ≠ [] ∧ cs.length ≤ 63 ∧ cs.all isNameChar

def spell (css : List (List UInt8)) : CString := (nameText (css.map .chars)).dropLast

def wire (css : List (List UInt8)) : List UInt8 := css.flatMap fun cs => UInt8.ofNat cs.length :: cs

theorem notMem_of_isNameChar {cs : List UInt8} (h : cs.all isNameChar) : ∀ c ∈ cs, (decide (c ≠ 46)) = true := by
  intro c hc
  have := List.all_eq_true.mp h c hc
  simp only [isNameChar, decide_eq_true_eq] at this ⊢
  exact this.2.2

theorem takeWhile_label {cs : List UInt8} (h : cs.all isNameChar) (s : CString) :
    (cs ++ 46 :: s).takeWhile (fun c => decide (c ≠ 46)) = cs := by
  rw [List.takeWhile_append_of_pos (notMem_of_isNameChar h)]
  simp

theorem doRfc1035Name_cons (c : UInt8) (s : CString) :
    doRfc1035Name (c :: s) = UInt8.ofNat ((c :: s).takeWhile fun c => decide (c ≠ 46)).length ::
      (c :: s).takeWhile (fun c => decide (c ≠ 46)) ++
        doRfc1035Name (((c :: s).drop ((c :: s).takeWhile fun c => decide (c ≠ 46)).length).drop 1) := by
  rw [doRfc1035Name]

theorem doRfc1035Name_label {cs : List UInt8} (h : GoodLabel cs) (s : CString) :
    doRfc1035Name (cs ++ 46 :: s) = UInt8.ofNat cs.length :: cs ++ doRfc1035Name s := by
  obtain ⟨c, cs', rfl⟩ := List.exists_cons_of_ne_nil h.1
  have htake := takeWhile_label h.2.2 s
  rw [List.cons_append] at htake ⊢
  rw [doRfc1035Name_cons, htake, ← List.cons_append, List.drop_left]
  rfl

theorem doRfc1035Name_last {cs : List UInt8} (h : GoodLabel cs) : doRfc1035Name cs = UInt8.ofNat cs.length :: cs := by
  obtain ⟨c, cs', rfl⟩ := List.exists_cons_of_ne_nil h.1
  have htake : (c :: cs').takeWhile (fun c => decide (c ≠ 46)) = c :: cs' :=
    List.takeWhile_eq_self_iff.mpr (notMem_of_isNameChar h.2.2)
  rw [doRfc1035Name_cons, htake, List.drop_length, List.drop_nil, doRfc1035Name, List.append_nil]

theorem doRfc1035Name_spell {css : List (List UInt8)} (h : ∀ cs ∈ css, GoodLabel cs) :
    doRfc1035Name (spell css) = wire css := by
  induction css with
  | nil => rw [spell, List.map_nil, nameText, List.flatMap_nil, List.dropLast_nil, doRfc1035Name]; rfl
  | cons cs css ih =>
    obtain ⟨hcs, hcss⟩ := List.forall_mem_cons.mp h
    cases css with
    | nil =>
      rw [spell, List.map_cons, List.map_nil, dropLast_nameText_singleton, doRfc1035Name_last hcs]
      simp [wire]
    | cons cs' css =>
      have hspell : spell (cs :: cs' :: css) = cs ++ 46 :: spell (cs' :: css) := dropLast_nameText_cons cs _ _
      rw [hspell, doRfc1035Name_label hcs, ih hcss]
      rfl

theorem and_c0_of_lt {n : Nat} (hn : n ≤ 63) : UInt8.ofNat n &&& 0xc0 = 0 := by
  have : ∀ n : Fin 64, UInt8.ofNat n.val &&& 0xc0 = 0 := by decide
  exact this ⟨n, by omega⟩

variable {header : Packet} {p : Nat}

theorem NameAt.of_wire {css : List (List UInt8)} (hcss : ∀ cs ∈ css, GoodLabel cs)
    (hbytes : header.bytes p (wire css).length = wire css) {ls : List Label} {jumps q e : Nat}
    (h : NameAt header (p + (wire css).length) ls jumps q e) :
    NameAt header p (css.map .chars ++ ls) jumps q e := by
  induction css generalizing p with
  | nil => exact h
  | cons cs css ih =>
    obtain ⟨hcs, hcss⟩ := List.forall_mem_cons.mp hcss
    have hwire : wire (cs :: css) = UInt8.ofNat cs.length :: (cs ++ wire css) := by
      rw [wire, List.flatMap_cons, List.cons_append]
      rfl
    rw [hwire] at hbytes h
    obtain ⟨hmem, hrest⟩ := bytes_eq_cons _ hbytes
    obtain ⟨hlabel, hrest⟩ := bytes_eq_append _ _ hrest
    rw [List.length_cons, List.length_append] at h
    have hlen : header.labelLen p = cs.length := by
      rw [Packet.labelLen, hmem, UInt8.toNat_ofNat_of_lt']
      exact Nat.lt_of_le_of_lt hcs.2.1 (by decide)
    have hpos := List.length_pos_iff.mpr hcs.1
    have hnext := ih hcss hrest (by rwa [show p + 1 + cs.length + (wire css).length =
      p + (cs.length + (wire css).length + 1) by omega])
    have hlt := hnext.lt
    have hls := @NameFrom.chars (· / 2) header p _ _ _ _ (by omega)
      (fun h0 => by rw [Packet.labelLen, h0] at hlen; exact absurd hlen (Nat.ne_of_lt hpos))
      (by rw [Packet.labelType, hmem, and_c0_of_lt hcs.2.1]) (by omega) (by rwa [hlen])
    rwa [hlen, hlabel] at hls

theorem fits_chars {css : List (List UInt8)} {n : Nat} (h : n + (nameText (css.map .chars)).length < MAXDNAME) :
    Fits n (css.map .chars) := by
  induction css generalizing n with
  | nil => trivial
  | cons cs css ih =>
    rw [List.map_cons, nameText_cons, List.length_append] at h
    refine ⟨?_, ih (by omega)⟩
    rw [Label.text, List.length_append, List.length_singleton] at h
    rw [Label.room]
    omega

/-- A name that is written and read back is the same name. -/
theorem extractName_doRfc1035Name {css : List (List UInt8)} (hcss : ∀ cs ∈ css, GoodLabel cs)
    (hspell : (spell css).length + 1 < MAXDNAME) {extrabytes : Nat}
    (hbytes : header.bytes p ((doRfc1035Name (spell css)).length + 1) = doRfc1035Name (spell css) ++ [0])
    (hplen : p + (doRfc1035Name (spell css)).length + 1 + extrabytes ≤ header.plen) :
    extractName header p extrabytes = some (p + (doRfc1035Name (spell css)).length + 1, spell css) := by
  rw [doRfc1035Name_spell hcss] at hbytes hplen ⊢
  have hsplit := @bytes_eq_append header p (wire css) [0]
    (by rwa [List.length_append, List.length_singleton])
  have hroot : NameAt header (p + (wire css).length) [] 0 (p + (wire css).length + 1) (p + (wire css).length + 1) :=
    .root (by omega) (bytes_eq_cons [] hsplit.2).1
  have hls := NameAt.of_wire hcss hsplit.1 hroot
  rw [List.append_nil] at hls
  have hlen : (nameText (css.map .chars)).length ≤ (spell css).length + 1 := by
    rw [spell, List.length_dropLast]
    omega
  refine hls.extractName (by omega) ?_ (fits_chars (by omega)) (by omega)
  intro l hl
  obtain ⟨cs, hcs, rfl⟩ := List.mem_map.mp hl
  exact (hcss cs hcs).2.2

theorem extractName_doRfc1035Name_two :
    extractName (.ofBytes [1, 97, 1, 98, 0]) 0 0 = some (5, spell [[97], [98]]) := by
  have hcss : ∀ cs ∈ [[97], [98]], GoodLabel cs := by simp [GoodLabel, isNameChar]
  have hwire : doRfc1035Name (spell [[97], [98]]) = [1, 97, 1, 98] := doRfc1035Name_spell hcss
  have h := @extractName_doRfc1035Name (.ofBytes [1, 97, 1, 98, 0]) 0 _ hcss (by decide) 0
    (by rw [hwire]; rfl) (by rw [hwire]; decide)
  rwa [hwire] at h

end Names

section Records

variable {header header' : Packet} {p : Nat}

theorem NameAt.pointer_of_putShort {o : UInt16} (ho : o < 0x4000) (hp : p + 2 ≤ header.plen)
    (hbytes : header.bytes p 2 = putShort (o ||| 0xc000)) {ls : List Label} {jumps q e : Nat}
    (h : NameAt header o.toNat ls jumps q e) : NameAt header p ls (jumps + 1) (p + 2) e := by
  obtain ⟨htype, hptr⟩ := Dnsmasq.pointer_of_putShort ho hbytes
  exact .pointer hp htype (by rwa [hptr])

theorem extractName_mono (hplen : header.plen ≤ header'.plen)
    (hmem : ∀ i < header.plen, header.mem i = header'.mem i) {extrabytes : Nat} {r : Nat × CString}
    (h : extractName header p extrabytes = some r) : extractName header' p extrabytes = some r := by
  obtain ⟨q, name⟩ := r
  obtain ⟨ls, jumps, e, hls, hjumps, hlegal, hfits, he, rfl⟩ := exists_of_extractName h
  exact (hls.mono hplen hmem).extractName hjumps hlegal hfits (by omega)

theorem getShort_mono (hmem : ∀ i < header.plen, header.mem i = header'.mem i) (hp : p + 2 ≤ header.plen) :
    header.getShort p = header'.getShort p := by
  rw [Packet.getShort, Packet.getShort, hmem p (by omega), hmem (p + 1) (by omega)]

theorem getLong_mono (hmem : ∀ i < header.plen, header.mem i = header'.mem i) (hp : p + 4 ≤ header.plen) :
    header.getLong p = header'.getLong p := by
  rw [Packet.getLong, Packet.getLong, hmem p (by omega), hmem (p + 1) (by omega), hmem (p + 2) (by omega),
    hmem (p + 3) (by omega)]

theorem readRecord_mono (hplen : header.plen ≤ header'.plen) (hmem : ∀ i < header.plen, header.mem i = header'.mem i)
    {r : ReadRecord × Nat} (h : readRecord header p = some r) : readRecord header' p = some r := by
  obtain ⟨⟨q, name⟩, hname, h⟩ := Option.bind_eq_some_iff.mp h
  have hname' := extractName_mono hplen hmem hname
  simp only at h
  split at h
  · cases h
  · next hlen =>
    rw [checkLen_iff, Decidable.not_not] at hlen
    cases h
    rw [readRecord, hname']
    have hshort : header.getShort (q + 8) = header'.getShort (q + 8) := getShort_mono hmem (by omega)
    simp only [Option.bind_some, checkLen_iff, ← hshort,
      show q + 10 + (header.getShort (q + 8)).toNat + 0 ≤ header'.plen by omega, not_true_eq_false, if_false]
    rw [getShort_mono hmem (p := q) (by omega), getShort_mono hmem (p := q + 2) (by omega),
      getLong_mono hmem (by omega), bytes_congr hmem (by omega)]

theorem readRecords_mono (hplen : header.plen ≤ header'.plen) (hmem : ∀ i < header.plen, header.mem i = header'.mem i)
    {n : Nat} {r : List ReadRecord × Nat} (h : readRecords header n p = some r) : readRecords header' n p = some r := by
  induction n generalizing p r with
  | zero => exact h
  | succ n ih =>
    obtain ⟨r₁, hr₁, h⟩ := Option.bind_eq_some_iff.mp h
    obtain ⟨rs, hrs, rfl⟩ := Option.map_eq_some_iff.mp h
    rw [readRecords, readRecord_mono hplen hmem hr₁, Option.bind_some, ih hrs]
    rfl

theorem readRecords_snoc {n q e : Nat} {rs : List ReadRecord} {r : ReadRecord}
    (hrs : readRecords header n p = some (rs, q)) (hr : readRecord header q = some (r, e)) :
    readRecords header (n + 1) p = some (rs ++ [r], e) := by
  induction n generalizing p rs with
  | zero =>
    cases hrs
    rw [readRecords, hr]
    rfl
  | succ n ih =>
    obtain ⟨r₁, hr₁, h⟩ := Option.bind_eq_some_iff.mp hrs
    obtain ⟨⟨rs₁, q₁⟩, hrs₁, h⟩ := Option.map_eq_some_iff.mp h
    cases h
    rw [readRecords, hr₁, Option.bind_some, ih hrs₁]
    rfl

/-- What a record says, its owner's name being `owner`. -/
def Record.read (r : Record) (owner : CString) : ReadRecord := ⟨owner, r.type, r.rclass, r.ttl, r.rdata⟩

/-- At the record's offset lies the name that it is meant to have, and its data is not too long for the length field. -/
def Record.LiesIn (r : Record) (owner : CString) (packet : List UInt8) : Prop :=
  r.nameoffset < 0x4000 ∧ r.rdata.length < 65536 ∧ ∃ ls jumps q e,
    NameAt (.ofBytes packet) r.nameoffset.toNat ls jumps q e ∧ jumps < 255 ∧ (∀ l ∈ ls, l.Legal) ∧ Fits 0 ls ∧
      owner = (nameText ls).dropLast

theorem NameAt.last_le {ls : List Label} {jumps q e : Nat} (h : NameAt header p ls jumps q e) : e ≤ header.plen := by
  induction h with
  | root hp => exact hp
  | chars _ _ _ _ _ ih | bits _ _ _ _ _ ih | pointer _ _ _ ih => exact ih

theorem Record.bytes_length (r : Record) : r.bytes.length = 12 + r.rdata.length := by
  simp [Record.bytes, putShort, putLong]
  omega

theorem Record.bytes_fields (r : Record) (h : header.bytes p r.bytes.length = r.bytes) :
    header.bytes p 2 = putShort (r.nameoffset ||| 0xc000) ∧ header.bytes (p + 2) 2 = putShort r.type ∧
      header.bytes (p + 4) 2 = putShort r.rclass ∧ header.bytes (p + 6) 4 = putLong r.ttl ∧
      header.bytes (p + 10) 2 = putShort (UInt16.ofNat r.rdata.length) ∧
      header.bytes (p + 12) r.rdata.length = r.rdata := by
  obtain ⟨h, hdata⟩ := bytes_eq_append _ _ h
  obtain ⟨h, hlen⟩ := bytes_eq_append _ _ h
  obtain ⟨h, httl⟩ := bytes_eq_append _ _ h
  obtain ⟨h, hclass⟩ := bytes_eq_append _ _ h
  obtain ⟨hname, htype⟩ := bytes_eq_append _ _ h
  exact ⟨hname, htype, hclass, httl, hlen, hdata⟩

theorem readRecord_of_bytes {packet : List UInt8} {r : Record} {owner : CString} (h : r.LiesIn owner packet) :
    readRecord (.ofBytes (packet ++ r.bytes)) packet.length =
      some (r.read owner, (packet ++ r.bytes).length) := by
  obtain ⟨ho, hdata, ls, jumps, q, e, hls, hjumps, hlegal, hfits, rfl⟩ := h
  obtain ⟨hplen, hmem⟩ := ofBytes_append packet r.bytes
  obtain ⟨hname, htype, hclass, httl, hlen, hrdata⟩ := r.bytes_fields (bytes_ofBytes packet r.bytes)
  have hbytes := r.bytes_length
  have hall : (Packet.ofBytes (packet ++ r.bytes)).plen = packet.length + r.bytes.length := List.length_append
  have hlast : e ≤ packet.length := hls.last_le
  have howner := (hls.mono hplen hmem).pointer_of_putShort ho (by omega) hname
  have hextract : extractName (.ofBytes (packet ++ r.bytes)) packet.length 10 =
      some (packet.length + 2, (nameText ls).dropLast) :=
    howner.extractName (by omega) hlegal hfits (by omega)
  have hrdlen : ((Packet.ofBytes (packet ++ r.bytes)).getShort (packet.length + 2 + 8)).toNat = r.rdata.length := by
    rw [getShort_of_putShort hlen, UInt16.toNat_ofNat_of_lt' hdata]
  rw [readRecord, hextract]
  simp only [Option.bind_some, hrdlen, checkLen_iff]
  rw [if_neg (by omega), getShort_of_putShort htype, getShort_of_putShort hclass, getLong_of_putLong httl, hrdata,
    List.length_append, hbytes, Record.read, Nat.add_assoc, Nat.add_assoc, ← Nat.add_assoc 2]

def Building.Says (start : Nat) (b : Building) (rs : List ReadRecord) : Prop :=
  readRecords (.ofBytes b.packet) rs.length start = some (rs, b.packet.length)

def buildAnswer (limit : Option Nat) : List (Record × CString) → Building → Building × List ReadRecord
  | [], b => (b, [])
  | (r, owner) :: rs, b =>
    let rest := buildAnswer limit rs (addResourceRecord limit r b).2
    (rest.1, if (addResourceRecord limit r b).1 then r.read owner :: rest.2 else rest.2)

theorem addResourceRecord_cases (limit : Option Nat) (r : Record) (b : Building) :
    addResourceRecord limit r b = (true, { b with packet := b.packet ++ r.bytes }) ∧ b.trunc = false ∧
        (∀ n ∈ limit, (b.packet ++ r.bytes).length ≤ n) ∨
      addResourceRecord limit r b = (false, { b with trunc := true }) := by
  obtain ⟨packet, trunc⟩ := b
  cases trunc with
  | true => exact .inr rfl
  | false =>
    by_cases h : limit.any (· < (packet ++ r.bytes).length)
    · exact .inr ((if_neg Bool.false_ne_true).trans (if_pos h))
    · refine .inl ⟨(if_neg Bool.false_ne_true).trans (if_neg h), rfl, ?_⟩
      intro n hn
      rw [Option.mem_def.mp hn] at h
      simpa using h

theorem Building.Says.add {start : Nat} {b : Building} {rs : List ReadRecord} (hb : b.Says start rs) {r : Record}
    {owner : CString} (h : r.LiesIn owner b.packet) :
    Building.Says start { b with packet := b.packet ++ r.bytes } (rs ++ [r.read owner]) := by
  obtain ⟨hplen, hmem⟩ := ofBytes_append b.packet r.bytes
  rw [Building.Says, List.length_append]
  exact readRecords_snoc (readRecords_mono hplen hmem hb) (readRecord_of_bytes h)

theorem buildAnswer_trunc (limit : Option Nat) (rs : List (Record × CString)) {b : Building} (hb : b.trunc = true) :
    buildAnswer limit rs b = (b, []) := by
  have hadd : ∀ r, addResourceRecord limit r b = (false, b) := fun r => by simp [addResourceRecord, hb]
  induction rs with
  | nil => rfl
  | cons r rs ih => simp [buildAnswer, hadd, ih]

theorem buildAnswer_says {limit : Option Nat} {start : Nat} (rs : List (Record × CString)) {b : Building}
    {said : List ReadRecord} (hb : b.Says start said) (hlimit : ∀ n ∈ limit, b.packet.length ≤ n)
    (hrs : Every (fun b r => (addResourceRecord limit r.1 b).2) (fun b r => r.1.LiesIn r.2 b.packet) b rs) :
    (buildAnswer limit rs b).1.Says start (said ++ (buildAnswer limit rs b).2) ∧
      (∀ n ∈ limit, (buildAnswer limit rs b).1.packet.length ≤ n) ∧
      (buildAnswer limit rs b).2 <+: rs.map (fun r => r.1.read r.2) ∧
      ((buildAnswer limit rs b).1.trunc = false → (buildAnswer limit rs b).2.length = rs.length) := by
  induction rs generalizing b said with
  | nil => exact ⟨by simpa [buildAnswer] using hb, hlimit, List.prefix_rfl, fun _ => rfl⟩
  | cons r rs ih =>
    obtain ⟨r, owner⟩ := r
    obtain ⟨hr, hrs⟩ := hrs
    rcases addResourceRecord_cases limit r b with ⟨hadd, htrunc, hfit⟩ | hadd
    · have hnext := ih (b := (addResourceRecord limit r b).2) (by rw [hadd]; exact hb.add hr)
        (by rw [hadd]; exact hfit) hrs
      simp only [buildAnswer, hadd, if_true] at hnext ⊢
      obtain ⟨hmsg, hlen, hprefix, hcount⟩ := hnext
      refine ⟨by rwa [List.append_assoc] at hmsg, hlen, ?_, fun h => congrArg Nat.succ (hcount h)⟩
      exact List.prefix_cons_inj _ |>.mpr hprefix
    · simp only [buildAnswer, hadd, Bool.false_eq_true, if_false]
      rw [buildAnswer_trunc limit rs rfl]
      exact ⟨by simpa [Building.Says] using hb, hlimit, List.nil_prefix, fun h => by cases h⟩

theorem takeRecords_of_readRecords {maxTtl : UInt32} {n e : Nat} {rs : List ReadRecord}
    (h : readRecords header n p = some (rs, e)) (hmax : maxTtl = 0 ∨ ∀ r ∈ rs, r.ttl ≤ maxTtl) :
    takeRecords maxTtl header n p = some (rs, e, header) := by
  induction n generalizing p rs with
  | zero =>
    cases h
    rfl
  | succ n ih =>
    obtain ⟨⟨r, q⟩, hr, h⟩ := Option.bind_eq_some_iff.mp h
    obtain ⟨⟨rs, e'⟩, hrs, h⟩ := Option.map_eq_some_iff.mp h
    cases h
    have hsame : header.clampTtl maxTtl r q = header := by
      rw [Packet.clampTtl, if_neg]
      rintro ⟨hne, hlt⟩
      exact UInt32.not_lt.mpr (hmax.resolve_left hne r List.mem_cons_self) hlt
    rw [takeRecords, hr, Option.bind_some, hsame,
      ih hrs (hmax.imp_right fun h r' hr' => h r' (List.mem_cons_of_mem r hr')), Option.map_some]

/-- An answer reads back: whatever records are added to a packet, with whatever limit, the ones that got in are
read from it in their order, they are the first of those given and all of them unless the packet was truncated,
and the packet keeps to its limit. -/
theorem readRecords_buildAnswer {limit : Option Nat} {packet : List UInt8} (rs : List (Record × CString))
    (hlimit : ∀ n ∈ limit, packet.length ≤ n)
    (hrs : Every (fun b r => (addResourceRecord limit r.1 b).2) (fun b r => r.1.LiesIn r.2 b.packet)
      ⟨packet, false⟩ rs) :
    let built := buildAnswer limit rs ⟨packet, false⟩
    (∀ maxTtl : UInt32, (maxTtl = 0 ∨ ∀ r ∈ rs, r.1.ttl ≤ maxTtl) →
      takeRecords maxTtl (.ofBytes built.1.packet) built.2.length packet.length =
        some (built.2, built.1.packet.length, .ofBytes built.1.packet)) ∧
      (∀ n ∈ limit, built.1.packet.length ≤ n) ∧ built.2 <+: rs.map (fun r => r.1.read r.2) ∧
      (built.1.trunc = false → built.2.length = rs.length) := by
  have hmsg : Building.Says packet.length ⟨packet, false⟩ [] := rfl
  obtain ⟨hread, hlen, hfirst, hcount⟩ := buildAnswer_says rs hmsg hlimit hrs
  refine ⟨fun maxTtl hmax => takeRecords_of_readRecords hread (hmax.imp_right fun h r hr => ?_), hlen, hfirst, hcount⟩
  obtain ⟨r', hr', rfl⟩ := List.mem_map.mp (hfirst.subset hr)
  exact h r' hr'

/-- Two of three records get in. -/
theorem readRecords_buildAnswer_case :
    let built := buildAnswer (some 40)
      [(⟨0, 5, 1, 1, [.addr [10, 0, 0, 1]]⟩, [97]), (⟨0, 7, 16, 1, [.string [104, 105]]⟩, [97]),
        (⟨0, 9, 1, 1, [.addr [10, 0, 0, 2]]⟩, [97])] ⟨[1, 97, 0], false⟩
    built.2 = [⟨[97], 1, 1, 5, [10, 0, 0, 1]⟩, ⟨[97], 16, 1, 7, [2, 104, 105]⟩] ∧ built.1.packet.length = 34 ∧
      takeRecords 100 (.ofBytes built.1.packet) 2 3 = some (built.2, 34, .ofBytes built.1.packet) := by
  have hls : ∀ rest, NameAt (.ofBytes ([1, 97, 0] ++ rest)) 0 [.chars [97]] 0 3 3 := by
    intro rest
    obtain ⟨hplen, hmem⟩ := ofBytes_append [1, 97, 0] rest
    refine NameAt.mono hplen hmem ?_
    exact .chars (by decide) (by decide) (by decide) (by decide) (.root (by decide) (by decide))
  have hlies : ∀ (r : Record) rest, r.nameoffset = 0 → r.rdata.length < 65536 →
      r.LiesIn [97] ([1, 97, 0] ++ rest) := by
    intro r rest ho hdata
    refine ⟨by rw [ho]; decide, hdata, [.chars [97]], 0, 3, 3, ?_, by decide, by simp [Label.Legal, isNameChar],
      ⟨by decide, trivial⟩, rfl⟩
    rw [ho]
    exact hls rest
  refine ⟨rfl, rfl, (readRecords_buildAnswer _ (by decide) ?_).1 100 (.inr (by decide))⟩
  exact ⟨hlies _ [] rfl (by decide), hlies _ _ rfl (by decide), hlies _ _ rfl (by decide), trivial⟩

theorem skipSection_of_readRecords (hwhole : ∀ p ls jumps q e, NameAt header p ls jumps q e → ∀ l ∈ ls, l.Whole)
    {n e : Nat} {rs : List ReadRecord} (h : readRecords header n p = some (rs, e)) :
    skipSection header n p = some e := by
  induction n generalizing p rs with
  | zero =>
    cases h
    rfl
  | succ n ih =>
    obtain ⟨⟨r₁, p₁⟩, hr₁, h⟩ := Option.bind_eq_some_iff.mp h
    obtain ⟨⟨rs₁, q₁⟩, hrs₁, h⟩ := Option.map_eq_some_iff.mp h
    cases h
    obtain ⟨⟨q, name⟩, hname, hr₁⟩ := Option.bind_eq_some_iff.mp hr₁
    simp only at hr₁
    split at hr₁
    · cases hr₁
    · next hlen =>
      rw [checkLen_iff, Decidable.not_not] at hlen
      cases hr₁
      rw [skipSection, skipName_of_extractName hname fun ls jumps e hls => hwhole _ ls jumps _ e hls, if_pos (by omega)]
      simp only [Option.bind_some, checkLen_iff]
      rw [if_neg (by omega)]
      exact ih hrs₁

end Records

end G361FPlatform.Dnsmasq
