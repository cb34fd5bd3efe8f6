import G361FPlatform.Dnsmasq.NameLaws

namespace G361FPlatform.Dnsmasq

open Library

/-! The walks over a name agree: comparing with it, skipping it and writing it, against extracting it. -/

section Compare

theorem compareLabel_eq (label : List UInt8) (cp : CString) (same : Bool) :
    compareLabel label cp same =
      (cp.drop label.length, same && decide ((cp.take label.length).map lowerCase = label.map lowerCase)) := by
  induction label generalizing cp same with
  | nil => simp [compareLabel]
  | cons c2 label ih =>
    cases cp with
    | nil => simp [compareLabel, ih]
    | cons c1 cp =>
      rw [compareLabel, ih]
      by_cases h : lowerCase c1 = lowerCase c2 <;> simp [h]

theorem lowerCase_eq_dot (c : UInt8) : lowerCase c = lowerCase 46 ↔ c = 46 := by
  obtain ⟨⟨c⟩⟩ := c
  revert c
  decide +kernel

theorem nameText_cons (l : Label) (ls : List Label) : nameText (l :: ls) = l.text ++ nameText ls := List.flatMap_cons

theorem nameText_ne_nil (l : Label) (ls : List Label) : nameText (l :: ls) ≠ [] := by
  rw [nameText_cons]
  cases l <;> simp [Label.text]

theorem dropLast_nameText_cons (cs : List UInt8) (l : Label) (ls : List Label) :
    (nameText (.chars cs :: l :: ls)).dropLast = cs ++ 46 :: (nameText (l :: ls)).dropLast := by
  rw [nameText_cons, Label.text, List.append_assoc,
    List.dropLast_append_of_ne_nil (by simp), List.singleton_append,
    List.dropLast_cons_of_ne_nil (nameText_ne_nil l ls)]

theorem dropLast_nameText_singleton (cs : List UInt8) : (nameText [.chars cs]).dropLast = cs := by
  rw [nameText_cons, nameText, List.flatMap_nil, List.append_nil, Label.text, List.dropLast_concat]

def Label.IsChars (l : Label) : Prop := ∃ cs, l = .chars cs

variable {header : Packet} {extrabytes p : Nat} {p1 : Option Nat} {hops : Nat} {cp name : CString} {same : Bool}

theorem compareDot_spec (cs : List UInt8) {ls : List Label} (hls : ls ≠ [] → (nameText ls).dropLast ≠ [])
    (hdot : cp.getLast? ≠ some 46) :
    ((compareDot (compareLabel cs cp same)).2 &&
        decide ((compareDot (compareLabel cs cp same)).1.map lowerCase = (nameText ls).dropLast.map lowerCase)) =
      (same && decide (cp.map lowerCase = (nameText (.chars cs :: ls)).dropLast.map lowerCase)) := by
  rw [compareLabel_eq]
  by_cases hhd : (cp.take cs.length).map lowerCase = cs.map lowerCase
  · rw [decide_eq_true hhd, Bool.and_true]
    have hcp : cp.map lowerCase = cs.map lowerCase ++ (cp.drop cs.length).map lowerCase := by
      rw [← hhd, ← List.map_append, List.take_append_drop]
    have hlast : ∀ c, cp.drop cs.length = [c] → c ≠ 46 := by
      rintro c hc rfl
      apply hdot
      rw [← List.take_append_drop cs.length cp, hc, List.getLast?_concat]
    cases ls with
    | nil =>
      rw [dropLast_nameText_singleton, hcp]
      rcases htl : cp.drop cs.length with _ | ⟨c, _ | ⟨c', tl⟩⟩
      · simp [compareDot, nameText]
      · simp [compareDot, nameText, hlast c htl]
      · simp [compareDot, nameText]
    | cons l ls =>
      have hls := hls (List.cons_ne_nil l ls)
      rw [dropLast_nameText_cons, hcp, List.map_append]
      rcases cp.drop cs.length with _ | ⟨c, tl⟩
      · have hrest : (nameText (l :: ls)).dropLast.map lowerCase ≠ [] := mt List.map_eq_nil_iff.mp hls
        simpa [compareDot] using fun _ => hrest
      · simp [compareDot, lowerCase_eq_dot, Bool.and_assoc]
  · rw [decide_eq_false hhd, Bool.and_false]
    have hne : cp.map lowerCase ≠ (nameText (.chars cs :: ls)).dropLast.map lowerCase := by
      intro heq
      apply hhd
      have htake : ∀ tl : CString, (nameText (.chars cs :: ls)).dropLast = cs ++ tl →
          (cp.take cs.length).map lowerCase = cs.map lowerCase := by
        intro tl htl
        rw [List.map_take, heq, htl, ← List.map_take, List.take_left]
      cases ls with
      | nil => exact htake [] (by rw [dropLast_nameText_singleton, List.append_nil])
      | cons l ls => exact htake _ (dropLast_nameText_cons cs l ls)
    rw [decide_eq_false hne, Bool.and_false]
    cases cp.drop cs.length <;> rfl

theorem compareDot_length (cs : List UInt8) :
    cp.length ≤ (compareDot (compareLabel cs cp same)).1.length + (cs.length + 1) ∧
      (compareDot (compareLabel cs cp same)).1.length ≤ cp.length := by
  rw [compareLabel_eq]
  have hdrop := List.length_drop (l := cp) (i := cs.length)
  rcases htl : cp.drop cs.length with _ | ⟨c, tl⟩
  · simp only [htl, compareDot, List.length_nil] at hdrop ⊢
    omega
  · simp only [htl, compareDot, List.length_cons] at hdrop ⊢
    omega

theorem compareDot_getLast? (cs : List UInt8) (hdot : cp.getLast? ≠ some 46) :
    (compareDot (compareLabel cs cp same)).1.getLast? ≠ some 46 := by
  rw [compareLabel_eq]
  rcases htl : cp.drop cs.length with _ | ⟨c, _ | ⟨c', tl⟩⟩
  · simp [compareDot]
  · simp [compareDot]
  · intro h
    apply hdot
    rw [← List.take_append_drop cs.length cp, htl, List.getLast?_append_of_ne_nil _ (List.cons_ne_nil _ _),
      List.getLast?_cons_cons]
    exact h

theorem compareFrom_root (hp : p + 1 ≤ header.plen) (h : header.mem p = 0) (he : p + 1 + extrabytes ≤ header.plen) :
    compareFrom header name extrabytes p p1 hops cp same = some (p1.getD (p + 1), same && cp.isEmpty) := by
  rw [compareFrom]
  simp [hp, h, he]

theorem compareFrom_pointer (hp : p + 2 ≤ header.plen) (htype : header.labelType p = 0xc0) (hhops : hops < 255) :
    compareFrom header name extrabytes p p1 hops cp same =
      compareFrom header name extrabytes (header.pointer p) (p1.or (some (p + 2))) (hops + 1) cp same := by
  have hmem : header.mem p ≠ 0 := ne_zero_of_labelType (by rw [htype]; decide)
  rw [compareFrom, if_neg (by simp; omega), if_neg hmem, if_pos htype, if_neg (by simp; omega), if_neg (by omega)]

theorem compareFrom_bits (htype : header.labelType p = 0x40) :
    compareFrom header name extrabytes p p1 hops cp same = none := by
  have hmem : header.mem p ≠ 0 := ne_zero_of_labelType (by rw [htype]; decide)
  rw [compareFrom]
  simp [hmem, htype]

theorem compareFrom_chars (hp : p + 1 ≤ header.plen) (h : header.mem p ≠ 0) (htype : header.labelType p = 0)
    (hroom : name.length - cp.length + header.labelLen p + 1 < MAXDNAME)
    (hlen : p + 1 + header.labelLen p ≤ header.plen) :
    compareFrom header name extrabytes p p1 hops cp same =
      compareFrom header name extrabytes (p + 1 + header.labelLen p) p1 hops
        (compareDot (compareLabel (header.bytes (p + 1) (header.labelLen p)) cp same)).1
        (compareDot (compareLabel (header.bytes (p + 1) (header.labelLen p)) cp same)).2 := by
  rw [compareFrom, if_neg (by simpa using hp), if_neg h, if_neg (by rw [htype]; decide),
    if_neg (by rw [htype]; decide), if_neg (by rw [htype]; decide), if_neg (Nat.not_le.mpr hroom),
    if_neg (by simpa using hlen)]

theorem labelLen_pos (h : header.mem p ≠ 0) : 0 < header.labelLen p := by
  rw [Packet.labelLen, Nat.pos_iff_ne_zero]
  exact fun h0 => h (UInt8.toNat_inj.mp h0)

theorem NameAt.dropLast_ne_nil {ls : List Label} {jumps q e : Nat} (h : NameAt header p ls jumps q e)
    (hls : ls ≠ []) : (nameText ls).dropLast ≠ [] := by
  intro hnil
  have hlen : (nameText ls).length ≤ 1 := by
    have := congrArg List.length hnil
    rw [List.length_dropLast, List.length_nil] at this
    omega
  induction h with
  | root => exact hls rfl
  | @chars p ls jumps q e hp hmem htype _ _ ih =>
    have := labelLen_pos hmem
    rw [nameText_cons, List.length_append, Label.text, List.length_append, bytes_length, List.length_singleton] at hlen
    omega
  | bits =>
    rw [nameText_cons, List.length_append] at hlen
    simp only [Label.text, List.length_append, List.length_cons] at hlen
    omega
  | pointer _ _ _ ih => exact ih hls hnil hlen

theorem NameAt.compareFrom {ls : List Label} {jumps q e n : Nat} (h : NameAt header p ls jumps q e)
    (hchars : ∀ l ∈ ls, l.IsChars) (hjumps : jumps = 0 ∨ hops + jumps ≤ 255) (hfits : Fits n ls)
    (he : e + extrabytes ≤ header.plen) (hn : name.length ≤ cp.length + n) (hdot : cp.getLast? ≠ some 46) :
    Dnsmasq.compareFrom header name extrabytes p p1 hops cp same =
      some (p1.getD q, same && decide (cp.map lowerCase = (nameText ls).dropLast.map lowerCase)) := by
  induction h generalizing p1 hops cp same n with
  | root hp hmem =>
    rw [compareFrom_root hp hmem he]
    cases cp <;> simp [nameText]
  | @chars p ls jumps q e hp hmem htype hlen hls ih =>
    obtain ⟨-, hchars⟩ := List.forall_mem_cons.mp hchars
    obtain ⟨hroom, hfits⟩ := hfits
    rw [Label.room, bytes_length] at hroom
    have hgone := @compareDot_length cp same (header.bytes (p + 1) (header.labelLen p))
    rw [bytes_length] at hgone
    rw [Label.text, List.length_append, bytes_length, List.length_singleton] at hfits
    rw [compareFrom_chars hp hmem htype (by omega) hlen,
      ih hchars hjumps hfits he (by omega) (compareDot_getLast? _ hdot), compareDot_spec _ (NameAt.dropLast_ne_nil hls) hdot]
  | @bits p ls jumps q e hp htype hbits hlen hls ih =>
    obtain ⟨⟨cs, hcs⟩, -⟩ := List.forall_mem_cons.mp hchars
    cases hcs
  | @pointer p ls jumps q e hp htype hls ih =>
    rw [compareFrom_pointer hp htype (by omega), ih hchars (.inr (by omega)) hfits he hn hdot]
    cases p1 <;> rfl

theorem NameAt.compareFrom_none {ls : List Label} {jumps q e : Nat} (h : NameAt header p ls jumps q e)
    (hbits : ¬∀ l ∈ ls, l.IsChars) : Dnsmasq.compareFrom header name extrabytes p p1 hops cp same = none := by
  induction h generalizing p1 hops cp same with
  | root => exact absurd (by simp) hbits
  | @chars p ls jumps q e hp hmem htype hlen hls ih =>
    have hbits : ¬∀ l ∈ ls, l.IsChars := fun h => hbits (List.forall_mem_cons.mpr ⟨⟨_, rfl⟩, h⟩)
    by_cases hroom : name.length - cp.length + header.labelLen p + 1 < MAXDNAME
    · rw [compareFrom_chars hp hmem htype hroom hlen, ih hbits]
    · rw [Dnsmasq.compareFrom, if_neg (by simpa using hp), if_neg hmem, if_neg (by rw [htype]; decide),
        if_neg (by rw [htype]; decide), if_neg (by rw [htype]; decide), if_pos (Nat.not_lt.mp hroom)]
  | @bits p ls jumps q e _ htype _ _ _ _ => exact compareFrom_bits htype
  | @pointer p ls jumps q e hp htype hls ih =>
    by_cases hhops : hops < 255
    · rw [compareFrom_pointer hp htype hhops, ih hbits]
    · have hmem : header.mem p ≠ 0 := ne_zero_of_labelType (by rw [htype]; decide)
      rw [Dnsmasq.compareFrom, if_neg (by simp; omega), if_neg hmem, if_pos htype, if_neg (by simp; omega),
        if_pos (by omega)]

/-- Comparing in place and extracting agree: for a name that can be extracted, `extract_name` without `isExtract`
goes on at the same place and says whether the two names are equal, unless a bitstring is in the way. -/
theorem compareName_of_extractName {q : Nat} {text : CString} (h : extractName header p extrabytes = some (q, text))
    (hdot : name.getLast? ≠ some 46) :
    compareName header p name extrabytes = some (q, hostnameIsequal name text) ∨
      compareName header p name extrabytes = none ∧
        ∃ ls jumps e, NameAt header p ls jumps q e ∧ ∃ digits count, .bits digits count ∈ ls := by
  obtain ⟨ls, jumps, e, hls, hjumps, -, hfits, he, rfl⟩ := exists_of_extractName h
  by_cases hchars : ∀ l ∈ ls, l.IsChars
  · exact .inl (hls.compareFrom hchars (by omega) hfits he (by omega) hdot)
  · refine .inr ⟨hls.compareFrom_none hchars, ls, jumps, e, hls, ?_⟩
    push Not at hchars
    obtain ⟨l, hl, hnot⟩ := hchars
    cases l with
    | chars cs => exact absurd ⟨cs, rfl⟩ hnot
    | bits digits count => exact ⟨digits, count, hl⟩

theorem compareName_of_extractName_case :
    compareName (.ofBytes [1, 97, 0]) 0 [65] 0 = some (3, hostnameIsequal [65] [97]) ∨
      compareName (.ofBytes [1, 97, 0]) 0 [65] 0 = none ∧ ∃ ls jumps e,
        NameAt (.ofBytes [1, 97, 0]) 0 ls jumps 3 e ∧ ∃ digits count, .bits digits count ∈ ls := by
  have hls : NameAt (.ofBytes [1, 97, 0]) 0 [.chars [97]] 0 3 3 :=
    .chars (by decide) (by decide) (by decide) (by decide) (.root (by decide) (by decide))
  have h : extractName (.ofBytes [1, 97, 0]) 0 0 = some (3, [97]) :=
    hls.extractName (by decide) (by simp [Label.Legal, isNameChar]) ⟨by decide, trivial⟩ (by decide)
  exact compareName_of_extractName h (by decide)

end Compare

section Skip

variable {header : Packet} {extrabytes p : Nat}

theorem toNat_and_3f (l : UInt8) (h : l &&& 0xc0 = 0) : (l &&& 0x3f).toNat = l.toNat := by
  obtain ⟨⟨l⟩⟩ := l
  revert l
  decide +kernel

theorem skipName_finish (header : Packet) (q n : Nat) :
    (if ¬header.checkLen q n then none else some q) = if q + n ≤ header.plen then some q else none := by
  rw [ite_not]
  exact if_congr checkLen_iff rfl rfl

theorem NameAt.skipName {ls : List Label} {jumps q e : Nat} (h : NameAt header p ls jumps q e)
    (hwhole : ∀ l ∈ ls, l.Whole) :
    Dnsmasq.skipName header p extrabytes = if q + extrabytes ≤ header.plen then some q else none := by
  induction h with
  | @root p hp hmem =>
    have htype : header.labelType p = 0 := by rw [Packet.labelType, hmem]; rfl
    rw [Dnsmasq.skipName, if_neg (by simpa using hp), if_neg (by rw [htype]; decide), if_neg (by rw [htype]; decide),
      if_neg (by rw [htype]; decide), hmem]
    exact (if_neg (by simpa using hp)).trans (skipName_finish header (p + 1) extrabytes)
  | @chars p ls jumps q e hp hmem htype hlen hls ih =>
    obtain ⟨-, hwhole⟩ := List.forall_mem_cons.mp hwhole
    have hlab : (header.mem p &&& 0x3f).toNat = header.labelLen p := toNat_and_3f _ htype
    have hpos := labelLen_pos hmem
    rw [Dnsmasq.skipName, if_neg (by simpa using hp), if_neg (by rw [htype]; decide), if_neg (by rw [htype]; decide),
      if_neg (by rw [htype]; decide), hlab, if_neg (by simpa using hlen), if_neg (by omega), ih hwhole]
  | @bits p ls jumps q e hp htype hbits hlen hls ih =>
    obtain ⟨hl, hwhole⟩ := List.forall_mem_cons.mp hwhole
    rw [Label.Whole, hexDigits_length, Packet.bitDigits] at hl
    have hlt := NameAt.lt hls
    have hnext : (p + 2 + if header.mem (p + 1) = 0 then 32 else (header.bitCount p - 1) / 8 + 1) =
        p + 2 + header.bitDigits p / 2 := by
      rw [Packet.bitDigits]
      split
      · next h0 => simp [Packet.bitCount, h0]
      · omega
    rw [Dnsmasq.skipName, if_neg (by simpa using hp), if_neg (by rw [htype]; decide), if_neg (by rw [htype]; decide),
      if_pos htype, if_neg (by simp; omega), if_neg (by simpa using hbits), hnext, ih hwhole]
  | @pointer p ls jumps q e hp htype hls ih =>
    rw [Dnsmasq.skipName, if_neg (by simp; omega), if_pos htype]
    exact skipName_finish header (p + 2) extrabytes

theorem skipName_of_extractName {extra q : Nat} {text : CString} (h : extractName header p extra = some (q, text))
    (hwhole : ∀ ls jumps e, NameAt header p ls jumps q e → ∀ l ∈ ls, l.Whole) :
    skipName header p extrabytes = if q + extrabytes ≤ header.plen then some q else none := by
  obtain ⟨ls, jumps, e, hls, -⟩ := exists_of_extractName h
  exact hls.skipName (hwhole ls jumps e hls)

end Skip

end G361FPlatform.Dnsmasq
