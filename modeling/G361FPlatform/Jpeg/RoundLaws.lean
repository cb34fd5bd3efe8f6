import G361FPlatform.Jpeg.Data

namespace G361FPlatform.Jpeg

open Library

/-- The recorded size is the size of the buffer; where there is none it is 0. -/
def JPEGSection.Sized (s : JPEGSection Exif) : Prop :=
  match s.content with
  | .buffer bytes => s.size = bytes.length
  | .null => s.size = 0
  | .exif _ => s.size = 0

namespace JPEGData

def Sized (data : JPEGData Exif) : Prop := ∀ s ∈ data.sections, s.Sized

def Opened (data : JPEGData Exif) : Prop :=
  ∃ init marker, data.sections = init ++ [⟨marker, .null, 0⟩] ∧ ∀ s ∈ init, s.Sized

variable {data : JPEGData Exif}

theorem sections_modifyLast {init : List (JPEGSection Exif)} {s : JPEGSection Exif}
    (h : data.sections = init ++ [s]) (f : JPEGSection Exif → JPEGSection Exif) :
    (data.modifyLast f).sections = init ++ [f s] := by
  rw [modifyLast, h, List.dropLast_concat, List.getLast?_concat]
  rfl

theorem Opened.sized (h : data.Opened) : data.Sized := by
  obtain ⟨init, marker, hsections, hinit⟩ := h
  intro s hs
  rw [hsections, List.mem_append, List.mem_singleton] at hs
  rcases hs with hs | rfl
  · exact hinit s hs
  · rfl

theorem Opened.modifyLast (h : data.Opened) {f : JPEGSection Exif → JPEGSection Exif}
    (hf : ∀ marker, (f ⟨marker, .null, 0⟩).Sized) : (data.modifyLast f).Sized := by
  obtain ⟨init, marker, hsections, hinit⟩ := h
  intro s hs
  rw [sections_modifyLast hsections, List.mem_append, List.mem_singleton] at hs
  rcases hs with hs | rfl
  · exact hinit s hs
  · exact hf marker

theorem Sized.opened (h : data.Sized) (marker : UInt8) :
    ((data.appendSection true).modifyLast fun s => { s with marker := marker }).Opened :=
  ⟨data.sections, marker, sections_modifyLast (s := ⟨0, .null, 0⟩) rfl _, h⟩

end JPEGData

theorem uintSub_eq {a b : Nat} (ha : a < uintSize) (hb : b ≤ a) : uintSub a b = a - b := by
  have hsize : 0 < uintSize := by decide
  rw [uintSub, Nat.add_comm, Nat.add_sub_assoc hb, Nat.add_mod_left, Nat.mod_eq_of_lt (by omega)]

theorem sectionLength_cases (hi lo : UInt8) :
    (2 ≤ hi.toNat * 256 + lo.toNat ∧ sectionLength hi lo = hi.toNat * 256 + lo.toNat - 2) ∨
      (hi.toNat * 256 + lo.toNat < 2 ∧ uintSize - 2 ≤ sectionLength hi lo) := by
  have hhi := hi.toNat_lt
  have hlo := lo.toNat_lt
  have hlt : hi.toNat * 256 + lo.toNat < 65536 := by omega
  rcases Nat.lt_or_ge (hi.toNat * 256 + lo.toNat) 2 with hshort | hlong
  · refine .inr ⟨hshort, ?_⟩
    unfold sectionLength uintSub uintSize
    omega
  · exact .inl ⟨hlong, uintSub_eq (Nat.lt_trans hlt (by decide)) hlong⟩

theorem scanMarker_eq {d : List UInt8} {o n i : Nat} (h : o + i + n ≤ d.length) :
    ∃ j, scanMarker d o n i = .ok j ∧ i ≤ j ∧ j ≤ i + n := by
  induction n generalizing i with
  | zero => exact ⟨i, rfl, Nat.le_refl _, Nat.le_refl _⟩
  | succ n ih =>
    rw [scanMarker, Block.byteAt_eq (by omega)]
    simp only [Except.bind]
    split
    · exact ⟨i, rfl, Nat.le_refl _, by omega⟩
    · obtain ⟨j, hscan, hlow, hhigh⟩ := ih (i := i + 1) (by omega)
      exact ⟨j, hscan, by omega, by omega⟩

section

variable {lib : ExifLib Exif} {alloc : Allocs} {d : Input} {round : Nat} {marker : UInt8}
  {data : JPEGData Exif}

theorem scanSize_eq {o : Nat} (h : o ≤ d.1.length) :
    ∃ n, scanSize d o = .ok n ∧ o + n ≤ d.1.length := by
  unfold scanSize
  rw [uintSub_eq d.2 h]
  dsimp only
  split
  · rw [Block.byteAt_eq (by omega), Except.map]
    refine ⟨_, rfl, ?_⟩
    split <;> omega
  · exact ⟨_, rfl, by omega⟩

/-- What a round leaves where it stays in the input: it goes on behind `o`, inside the input. -/
structure Continues (d : Input) (o : Nat) (opened : Prop) (next : Option Nat) (data' : JPEGData Exif) :
    Prop where
  bounds : ∀ o', next = some o' → o ≤ o' ∧ o' ≤ d.1.length
  sized : opened → data'.Sized

theorem loadContent_eq {o len : Nat} (hlen : o + len ≤ d.1.length) (ho : marker = APP1 → 4 ≤ o) :
    ∃ next data', loadContent lib alloc d round marker o len data = .ok (next, data') ∧
      Continues d o data.Opened next data' := by
  have hsize := d.2
  have hnext : ∀ n, o + n ≤ d.1.length →
      ∀ o', some ((o + n) % uintSize) = some o' → o ≤ o' ∧ o' ≤ d.1.length := by
    intro n hn o' heq
    rw [Nat.mod_eq_of_lt (by omega)] at heq
    cases heq
    omega
  unfold loadContent
  split
  next happ =>
    have ho := ho happ
    have hslice : Block.slice d.1 ((o : Int) - 4) ((len + 4) % uintSize) =
        .ok ((d.1.drop (o - 4)).take (len + 4)) := by
      rw [Nat.mod_eq_of_lt (by omega), show (o : Int) - 4 = (o - 4 : Nat) by omega,
        Block.slice_eq (by omega)]
    rw [hslice]
    refine ⟨_, _, rfl, hnext len hlen, fun hopened => hopened.modifyLast fun marker => ?_⟩
    cases alloc .exif round <;> rfl
  split
  · exact ⟨_, _, rfl, (fun _ h => nomatch h), fun hopened => hopened.modifyLast fun _ => rfl⟩
  rw [Block.slice_eq hlen]
  have hsized : data.Opened → (data.modifyLast fun s =>
      { s with content := .buffer ((d.1.drop o).take len), size := len }).Sized :=
    fun hopened => hopened.modifyLast fun _ => by
      simp only [JPEGSection.Sized, List.length_take, List.length_drop]
      omega
  rw [bind_ok]
  dsimp only
  split
  · obtain ⟨n, hscan, hn⟩ := scanSize_eq (d := d) hlen
    rw [hscan, bind_ok]
    split
    · exact ⟨_, _, rfl, (fun _ h => nomatch h), hsized⟩
    · have hbounds := hnext (n + len) (by omega)
      rw [← Nat.add_assoc] at hbounds
      rw [Block.slice_eq hn]
      exact ⟨_, _, rfl, hbounds, hsized⟩
  · exact ⟨_, _, rfl, hnext len hlen, hsized⟩

theorem loadContent_fault {o len : Nat} (happ : marker = APP1) (ho : o < 4) :
    loadContent lib alloc d round marker o len data = .error .fault := by
  rw [loadContent, if_pos happ, Block.slice, if_neg (by omega)]
  rfl

def Fits (d : List UInt8) (o : Nat) : Prop :=
  ∃ hi lo rest, d.drop o = hi :: lo :: rest ∧ 2 ≤ hi.toNat * 256 + lo.toNat ∧
    hi.toNat * 256 + lo.toNat ≤ rest.length + 2

theorem loadSection_cases (data : JPEGData Exif) {o : Nat} (ho : o ≤ d.1.length)
    (hmarker : ¬(marker = SOI ∨ marker = EOI)) :
    (¬Fits d.1 o ∧ loadSection lib alloc d round marker o data = .ok (some d.1.length, data)) ∨
      ∃ hi lo rest, d.1.drop o = hi :: lo :: rest ∧ 2 ≤ hi.toNat * 256 + lo.toNat ∧
        hi.toNat * 256 + lo.toNat ≤ rest.length + 2 ∧ loadSection lib alloc d round marker o data =
          loadContent lib alloc d round marker (o + 2) (hi.toNat * 256 + lo.toNat - 2) data := by
  have hsize := d.2
  unfold loadSection
  simp only [hmarker, if_false, uintSub_eq d.2 ho]
  split
  next hshort =>
    refine .inl ⟨?_, rfl⟩
    rintro ⟨hi, lo, rest, hdrop, -, -⟩
    have hlen := congrArg List.length hdrop
    simp only [List.length_drop, List.length_cons] at hlen
    omega
  next hlong =>
    rw [Block.byteAt_eq (by omega), Block.byteAt_eq (by omega), bind_ok, bind_ok,
      Nat.mod_eq_of_lt (by omega), uintSub_eq d.2 (by omega)]
    have hdrop : d.1.drop o = d.1[o] :: d.1[o + 1] :: d.1.drop (o + 2) := by
      rw [List.drop_eq_getElem_cons (by omega), List.drop_eq_getElem_cons (i := o + 1) (by omega)]
    have hfits : Fits d.1 o → 2 ≤ d.1[o].toNat * 256 + d.1[o + 1].toNat ∧
        d.1[o].toNat * 256 + d.1[o + 1].toNat ≤ (d.1.drop (o + 2)).length + 2 := by
      rintro ⟨hi, lo, rest, heq, hlow, hhigh⟩
      rw [hdrop] at heq
      cases heq
      exact ⟨hlow, hhigh⟩
    rw [List.length_drop] at hfits
    rcases sectionLength_cases d.1[o] d.1[o + 1] with ⟨hlow, hlen⟩ | ⟨hlow, hlen⟩
    · rw [hlen]
      split
      next h => exact .inl ⟨fun hf => by have := (hfits hf).2; omega, rfl⟩
      split
      next h => exact .inl ⟨fun hf => by have := (hfits hf).2; omega, rfl⟩
      next h =>
        refine .inr ⟨_, _, _, hdrop, hlow, ?_, rfl⟩
        rw [List.length_drop]
        omega
    · have hnot : ¬Fits d.1 o := fun hf => by
        have := (hfits hf).1
        omega
      refine .inl ⟨hnot, ?_⟩
      split
      · rfl
      · rw [if_pos (by omega)]

/-- The input starts with an APP1 marker that has no `0xff` in front of it, and the section is
complete. -/
def LeadingApp1 (d : List UInt8) : Prop := d.head? = some APP1 ∧ Fits d 1

theorem loadSection_eq (data : JPEGData Exif) {o : Nat} (ho : o ≤ d.1.length)
    (happ : marker = APP1 → Fits d.1 o → 2 ≤ o) :
    ∃ next data', loadSection lib alloc d round marker o data = .ok (next, data') ∧
      Continues d o data.Opened next data' := by
  by_cases hmarker : marker = SOI ∨ marker = EOI
  · rw [loadSection, if_pos hmarker]
    refine ⟨_, _, rfl, ⟨fun o' heq => ?_, JPEGData.Opened.sized⟩⟩
    cases heq
    exact ⟨Nat.le_refl _, ho⟩
  · rcases loadSection_cases data ho hmarker with ⟨-, heq⟩ | ⟨hi, lo, rest, hdrop, hlow, hhigh, heq⟩
    · rw [heq]
      refine ⟨_, _, rfl, ⟨fun o' heq => ?_, JPEGData.Opened.sized⟩⟩
      cases heq
      exact ⟨ho, Nat.le_refl _⟩
    · rw [heq]
      have happ' : marker = APP1 → 4 ≤ o + 2 := fun h => by
        have := happ h ⟨hi, lo, rest, hdrop, hlow, hhigh⟩
        omega
      have hlen : o + 2 + (hi.toNat * 256 + lo.toNat - 2) ≤ d.1.length := by
        have hlength := congrArg List.length hdrop
        simp only [List.length_drop, List.length_cons] at hlength
        omega
      obtain ⟨next, data', hcontent, hcont⟩ := loadContent_eq hlen happ'
      refine ⟨next, data', hcontent, ⟨fun o' h => ?_, hcont.sized⟩⟩
      have := hcont.bounds o' h
      omega

/-- What a round does: it returns, goes on further behind, or hands libexif a range that starts in
front of the input. -/
theorem loadRound_cases (hround : round < d.1.length) :
    (∃ next data', loadRound lib alloc d round data = .ok (next, data') ∧
      Continues d (round + 1) (data.Sized ∧ alloc .section round = true) next data') ∨
    (loadRound lib alloc d round data = .error .fault ∧ round = 0 ∧ LeadingApp1 d.1 ∧
      (alloc .section 0 = true ∨ data.sections ≠ [])) := by
  have hsize := d.2
  have hstop : ∀ data' : JPEGData Exif, (data.Sized → data'.Sized) →
      Continues d (round + 1) (data.Sized ∧ alloc .section round = true) none data' :=
    fun data' hsized => ⟨(fun _ h => nomatch h), fun h => hsized h.1⟩
  unfold loadRound
  dsimp only
  rw [uintSub_eq d.2 (Nat.le_of_lt hround)]
  obtain ⟨i, hscan, -, hi⟩ := scanMarker_eq (d := d.1) (o := round) (n := min 7 (d.1.length - round))
    (i := 0) (by omega)
  rw [hscan, bind_ok]
  split
  · exact .inl ⟨_, _, rfl, hstop _ id⟩
  next hleft =>
    rw [Block.byteAt_eq (by omega), bind_ok]
    generalize hmarker : d.1[round + i] = marker
    split
    swap
    · exact .inl ⟨_, _, rfl, hstop _ id⟩
    split
    next hempty =>
      refine .inl ⟨_, _, rfl, hstop _ fun hsized => ?_⟩
      intro s hs
      rw [hempty] at hs
      cases hs
    next hsections =>
      rw [Nat.mod_eq_of_lt (by omega)]
      by_cases hbad : marker = APP1 ∧ Fits d.1 (round + i + 1) ∧ round + i + 1 < 2
      · obtain ⟨happ, hfits, hfirst⟩ := hbad
        obtain ⟨rfl, rfl⟩ : round = 0 ∧ i = 0 := by omega
        refine .inr ⟨?_, rfl, ⟨?_, hfits⟩, ?_⟩
        · rcases loadSection_cases
            ((data.appendSection (alloc .section 0)).modifyLast fun s => { s with marker := marker })
            hround (show ¬(marker = SOI ∨ marker = EOI) by rw [happ]; decide) with
            ⟨hnot, -⟩ | ⟨_, _, _, -, -, -, heq⟩
          · exact absurd hfits hnot
          · rw [heq]
            exact loadContent_fault happ (by decide)
        · rw [List.head?_eq_getElem?, List.getElem?_eq_getElem hround, ← happ, ← hmarker]
        · by_contra hnone
          rw [not_or, not_not] at hnone
          rw [JPEGData.appendSection, if_neg hnone.1] at hsections
          exact hsections hnone.2
      · obtain ⟨next, data', hload, hcont⟩ := loadSection_eq
          ((data.appendSection (alloc .section round)).modifyLast fun s => { s with marker := marker })
          (show round + i + 1 ≤ d.1.length by omega) fun (happ : marker = APP1) hfits =>
            Nat.not_lt.mp fun hlt => hbad ⟨happ, hfits, hlt⟩
        refine .inl ⟨next, data', hload, ⟨fun o' heq => ?_, fun hdata => hcont.sized ?_⟩⟩
        · have := hcont.bounds o' heq
          omega
        · rw [hdata.2]
          exact hdata.1.opened marker

theorem loadRound_fault (h : LeadingApp1 d.1) (hsection : alloc .section 0 = true ∨ data.sections ≠ []) :
    loadRound lib alloc d 0 data = .error .fault := by
  obtain ⟨hhead, hfits⟩ := h
  obtain ⟨rest, hd⟩ := List.head?_eq_some_iff.mp hhead
  have hpos : 0 < d.1.length := by
    rw [hd]
    exact Nat.succ_pos _
  have hscan : scanMarker d.1 0 (min 7 d.1.length) 0 = .ok 0 := by
    obtain ⟨n, hn⟩ : ∃ n, min 7 d.1.length = n + 1 := ⟨min 7 d.1.length - 1, by omega⟩
    rw [hn, hd]
    rfl
  have hfirst : Block.byteAt d.1 0 = .ok APP1 := by
    rw [hd]
    rfl
  have hsections : (data.appendSection (alloc .section 0)).sections ≠ [] := by
    unfold JPEGData.appendSection
    split
    · simp
    next hfull => exact hsection.resolve_left hfull
  have hone : (0 + 0 + 1) % uintSize = 1 := rfl
  unfold loadRound
  dsimp only
  rw [uintSub_eq d.2 (Nat.zero_le _), Nat.sub_zero, hscan, bind_ok, if_neg (by omega), hfirst, bind_ok,
    if_pos (by decide), if_neg hsections, hone]
  rcases loadSection_cases
    ((data.appendSection (alloc .section 0)).modifyLast fun s => { s with marker := APP1 })
    hpos (show ¬(APP1 = SOI ∨ APP1 = EOI) by decide) with
    ⟨hnot, -⟩ | ⟨_, _, _, -, -, -, heq⟩
  · exact absurd hfits hnot
  · rw [heq]
    exact loadContent_fault rfl (by decide)

theorem loadRound_lt {next : Nat} {data' : JPEGData Exif} (hround : round < d.1.length)
    (h : loadRound lib alloc d round data = .ok (some next, data')) : round < next := by
  rcases loadRound_cases hround with ⟨next', data'', heq, hcont⟩ | ⟨heq, -⟩
  · rw [h] at heq
    cases heq
    exact (hcont.bounds next rfl).1
  · rw [h] at heq
    cases heq

end

end G361FPlatform.Jpeg
