import G361FPlatform.Jpeg.Save

namespace G361FPlatform.Jpeg

open Library

def lengthField (n : Nat) : List UInt8 :=
  [UInt8.ofNat ((n + 2) % uintSize / 256), UInt8.ofNat ((n + 2) % uintSize)]

def sectionBytes (lib : ExifLib Exif) (data : JPEGData Exif) (sec : JPEGSection Exif) : List UInt8 :=
  [0xff, sec.marker] ++
    if sec.marker = SOI ∨ sec.marker = EOI then []
    else if sec.marker = APP1 then
      match sec.content with
      | .exif app1 => ((lib.save app1).map fun bytes =>
          lengthField (bytes.length % uintSize) ++ bytes.take (bytes.length % uintSize)).getD []
      | _ => []
    else lengthField sec.size ++ sec.content.bytes.take sec.size ++
      if sec.marker = SOS then (data.data.getD []).take data.size else []

/-- The pointers reach as far as the sizes say. -/
def Readable (data : JPEGData Exif) (sec : JPEGSection Exif) : Prop :=
  sec.marker ≠ APP1 → ¬(sec.marker = SOI ∨ sec.marker = EOI) →
    sec.size ≤ sec.content.bytes.length ∧ (sec.marker = SOS → data.size ≤ (data.data.getD []).length)

/-- `libexif` gives data for the section. -/
def Serialises (lib : ExifLib Exif) (sec : JPEGSection Exif) : Prop :=
  ∃ app1 bytes, sec.content = .exif app1 ∧ lib.save app1 = some bytes

/-- The buffer holds `bs` and then `rest`, and `*ds` is behind `bs`. -/
structure Holds (s : SaveState) (bs : List UInt8) (rest : Block) : Prop where
  d : s.d.getD [] = bs.map some ++ rest
  ds : s.ds = bs.length

/-- What a way of reserving memory does for a file of at most `limit` bytes: there is room, and
`Q` still holds of what is behind the bytes written. -/
structure Reserves (reserve : Reserve) (limit : Nat) (Q : Nat → Block → Prop) : Prop where
  small : limit < uintSize
  reserve : ∀ {s bs rest} (k : Nat), Holds s bs rest → Q bs.length rest → bs.length + k ≤ limit →
    (s.d = none → 0 < k) → ∃ rest' : Block, reserve ((s.ds + k) % uintSize) s = .ok { s with d := some (bs.map some ++ rest') } ∧
      k ≤ rest'.length ∧ Q bs.length rest'
  drop : ∀ {n rest} (k : Nat), Q n rest → Q (n + k) (rest.drop k)

theorem reserves_cleanupRealloc {limit : Nat} (h : limit < uintSize) :
    Reserves (cleanupRealloc fun _ => true) limit fun _ _ => True := by
  refine ⟨h, fun {s bs rest} k hs _ hk _ => ?_, fun _ _ => trivial⟩
  obtain ⟨rest', hresize, hlen⟩ := Block.resize_append (bs.map some) rest k
  rw [List.length_map] at hresize
  refine ⟨rest', ?_, Nat.le_of_eq hlen.symm, trivial⟩
  rw [cleanupRealloc, if_pos rfl, hs.d, hs.ds, Nat.mod_eq_of_lt (by omega), hresize]

theorem reserves_noRealloc {limit : Nat} {d : Block} (h : limit < uintSize) (hd : limit ≤ d.length) :
    Reserves noRealloc limit fun n rest => rest = d.drop n := by
  refine ⟨h, fun {s bs rest} k hs hrest hk hnull => ?_, fun k hrest => by rw [hrest, List.drop_drop]⟩
  have hlen : k ≤ rest.length := by
    rw [hrest, List.length_drop]
    omega
  refine ⟨rest, ?_, hlen, hrest⟩
  have hsd := hs.d
  cases hd' : s.d with
  | none =>
    have hpos := hnull hd'
    rw [hd'] at hsd
    have := congrArg List.length hsd
    simp only [Option.getD_none, List.length_nil, List.length_append] at this
    omega
  | some d' =>
    rw [hd'] at hsd
    rw [noRealloc, ← show d' = bs.map some ++ rest from hsd, ← hd']

section

variable {reserve : Reserve} {limit : Nat} {Q : Nat → Block → Prop} {s : SaveState} {bs : List UInt8}
  {rest : Block}

theorem write_eq (hd : s.d = some (bs.map some ++ rest)) {i : Nat} (hi : i = bs.length)
    (new : List UInt8) (hnew : new.length ≤ rest.length) :
    s.write i new = .ok { s with d := some ((bs ++ new).map some ++ rest.drop new.length) } := by
  have hstore := Block.store_append (bs.map some) rest new hnew
  rw [List.length_map] at hstore
  rw [SaveState.write, hd]
  simp only [hi, hstore, Except.map, Except.mapError, List.map_append, List.append_assoc]

theorem put_eq (hd : s.d = some (bs.map some ++ rest)) (hds : s.ds = bs.length) (a b : UInt8)
    (hroom : 2 ≤ rest.length) (hsmall : bs.length + 2 < uintSize) :
    s.put a b = .ok { s with d := some ((bs ++ [a, b]).map some ++ rest.drop 2), ds := bs.length + 2 } := by
  have hfirst := write_eq hd hds [a] (by rw [List.length_singleton]; omega)
  have hsecond := @write_eq { s with d := some ((bs ++ [a]).map some ++ rest.drop 1) } (bs ++ [a])
    (rest.drop 1) rfl ((s.ds + 1) % uintSize)
    (by rw [hds, Nat.mod_eq_of_lt (by omega), List.length_append, List.length_singleton]) [b]
    (by rw [List.length_singleton, List.length_drop]; omega)
  rw [List.length_singleton] at hfirst
  rw [SaveState.put, hfirst, bind_ok, hsecond, map_ok, hds, Nat.mod_eq_of_lt hsmall, List.append_assoc, List.drop_drop]
  rfl

theorem copy_eq (hd : s.d = some (bs.map some ++ rest)) (hds : s.ds = bs.length) {src : List UInt8} {n : Nat}
    (hsrc : n ≤ src.length) (hroom : n ≤ rest.length) (hsmall : bs.length + n < uintSize) :
    s.copy src n =
      .ok { s with d := some ((bs ++ src.take n).map some ++ rest.drop n), ds := bs.length + n } := by
  have hlen : (src.take n).length = n := by
    rw [List.length_take]
    omega
  have hslice : Block.slice src 0 n = .ok (src.take n) := Block.slice_eq (i := 0) (by omega)
  rw [SaveState.copy, hslice, Except.mapError, bind_ok, write_eq hd hds _ (by omega), map_ok, hds, hlen,
    Nat.mod_eq_of_lt hsmall]

/-- The buffer holds `bs`, with room for `k` bytes more and `Q` true of what is behind them. -/
structure Room (limit : Nat) (Q : Nat → Block → Prop) (s : SaveState) (bs : List UInt8) (k : Nat) : Prop where
  d : ∃ rest : Block, s.d = some (bs.map some ++ rest) ∧ k ≤ rest.length ∧ Q bs.length rest
  ds : s.ds = bs.length
  fits : bs.length + k ≤ limit

def Keeps (s s' : SaveState) : Prop := s'.ed = s.ed ∧ s'.eds = s.eds

section

variable {k n : Nat}

theorem Reserves.grow (hreserve : Reserves reserve limit Q) (hs : Holds s bs rest) (hQ : Q bs.length rest)
    (hk : bs.length + k ≤ limit) (hnull : s.d = none → 0 < k) :
    ∃ s', reserve ((s.ds + k) % uintSize) s = .ok s' ∧ Room limit Q s' bs k ∧ Keeps s s' := by
  obtain ⟨rest', heq, hlen, hQ'⟩ := hreserve.reserve k hs hQ hk hnull
  exact ⟨_, heq, ⟨⟨rest', rfl, hlen, hQ'⟩, hs.ds, hk⟩, rfl, rfl⟩

theorem Room.grow (h : Room limit Q s bs n) (hreserve : Reserves reserve limit Q)
    (hk : bs.length + k ≤ limit) :
    ∃ s', reserve ((s.ds + k) % uintSize) s = .ok s' ∧ Room limit Q s' bs k ∧ Keeps s s' := by
  obtain ⟨rest, hd, -, hQ⟩ := h.d
  refine hreserve.grow ⟨by rw [hd, Option.getD_some], h.ds⟩ hQ hk fun hnull => ?_
  rw [hd] at hnull
  cases hnull

theorem Room.put (h : Room limit Q s bs (k + 2)) (hreserve : Reserves reserve limit Q) (a b : UInt8) :
    ∃ s', s.put a b = .ok s' ∧ Room limit Q s' (bs ++ [a, b]) k ∧ Keeps s s' := by
  obtain ⟨rest, hd, hlen, hQ⟩ := h.d
  have hfits := h.fits
  have hsmall := hreserve.small
  have hlength : (bs ++ [a, b]).length = bs.length + 2 := by
    rw [List.length_append]
    rfl
  refine ⟨_, put_eq hd h.ds a b (by omega) (by omega), ⟨⟨rest.drop 2, rfl, ?_, ?_⟩, hlength.symm, ?_⟩, rfl, rfl⟩
  · rw [List.length_drop]
    omega
  · rw [hlength]
    exact hreserve.drop 2 hQ
  · omega

theorem Room.copy (h : Room limit Q s bs (k + n)) (hreserve : Reserves reserve limit Q) {src : List UInt8}
    (hsrc : n ≤ src.length) :
    ∃ s', s.copy src n = .ok s' ∧ Room limit Q s' (bs ++ src.take n) k ∧ Keeps s s' := by
  obtain ⟨rest, hd, hlen, hQ⟩ := h.d
  have hfits := h.fits
  have hsmall := hreserve.small
  have hlength : (bs ++ src.take n).length = bs.length + n := by
    rw [List.length_append, List.length_take]
    omega
  refine ⟨_, copy_eq hd h.ds hsrc (by omega) (by omega), ⟨⟨rest.drop n, rfl, ?_, ?_⟩, hlength.symm, ?_⟩, rfl, rfl⟩
  · rw [List.length_drop]
    omega
  · rw [hlength]
    exact hreserve.drop n hQ
  · omega

theorem Room.putLength (h : Room limit Q s bs (k + 2)) (hreserve : Reserves reserve limit Q) (m : Nat) :
    ∃ s', s.putLength m = .ok s' ∧ Room limit Q s' (bs ++ lengthField m) k ∧ Keeps s s' :=
  h.put hreserve _ _

end

def edAfter (lib : ExifLib Exif) (sec : JPEGSection Exif) (ed : SavedExif) : SavedExif :=
  if sec.marker = APP1 then
    match sec.content with
    | .exif app1 => if (lib.save app1).isSome then .freed else .null
    | _ => ed
  else ed

structure Saves (lib : ExifLib Exif) (data : JPEGData Exif) (sec : JPEGSection Exif) (ed : SavedExif) :
    Prop where
  readable : Readable data sec
  app1 : sec.marker = APP1 → (∃ app1, sec.content = .exif app1) ∨ sec.content = .null ∧ ed = .null

section

variable {lib : ExifLib Exif} {data : JPEGData Exif} {sec : JPEGSection Exif}

theorem length_lengthField (n : Nat) : (lengthField n).length = 2 := rfl

theorem saveApp1_eq (hreserve : Reserves reserve limit Q) (hroom : Room limit Q s bs 0) {app1 : Exif}
    {bytes : List UInt8} (hsave : lib.save app1 = some bytes)
    (hlimit : bs.length + 2 + bytes.length % uintSize ≤ limit) :
    ∃ s', saveApp1 lib reserve (.exif app1) s = .ok s' ∧ s'.ed = .freed ∧
      Room limit Q s' (bs ++ lengthField (bytes.length % uintSize) ++ bytes.take (bytes.length % uintSize)) 0 := by
  have hroom₀ : Room limit Q { s with ed := .live bytes, eds := bytes.length % uintSize } bs 0 :=
    ⟨hroom.d, hroom.ds, hroom.fits⟩
  obtain ⟨s₁, h₁, hroom₁, hed₁, heds₁⟩ := hroom₀.grow (k := 0 + 2) hreserve (by omega)
  obtain ⟨s₂, h₂, hroom₂, hed₂, heds₂⟩ := hroom₁.putLength hreserve (bytes.length % uintSize)
  obtain ⟨s₃, h₃, hroom₃, hed₃, heds₃⟩ := hroom₂.grow (k := 0 + bytes.length % uintSize) hreserve
    (by rw [List.length_append, length_lengthField]; omega)
  obtain ⟨s₄, h₄, hroom₄, hed₄, heds₄⟩ := hroom₃.copy hreserve (Nat.mod_le _ _)
  rw [Nat.zero_add] at h₁ h₃
  have heds : s₁.eds = bytes.length % uintSize := heds₁
  have hed : s₄.ed = .live bytes := by rw [hed₄, hed₃, hed₂, hed₁]
  refine ⟨{ s₄ with ed := .freed }, ?_, rfl, ⟨hroom₄.d, hroom₄.ds, hroom₄.fits⟩⟩
  simp only [saveApp1, exifDataSaveData, hsave, bind_ok]
  rw [h₁, bind_ok, heds, h₂, bind_ok, heds₂, heds, h₃, bind_ok, heds₃, heds₂, heds, h₄, bind_ok,
    SaveState.freeExif, hed]

theorem saveGeneric_eq (hreserve : Reserves reserve limit Q) (hroom : Room limit Q s bs 0)
    (hsize : sec.size ≤ sec.content.bytes.length)
    (hdata : sec.marker = SOS → data.size ≤ (data.data.getD []).length)
    (hlimit : bs.length + 2 + sec.size + (if sec.marker = SOS then data.size else 0) ≤ limit) :
    ∃ s', saveGeneric reserve data sec s = .ok s' ∧ s'.ed = s.ed ∧
      Room limit Q s' (bs ++ lengthField sec.size ++ sec.content.bytes.take sec.size ++
        if sec.marker = SOS then (data.data.getD []).take data.size else []) 0 := by
  obtain ⟨s₁, h₁, hroom₁, hed₁, -⟩ := hroom.grow (k := 0 + sec.size + 2) hreserve (by omega)
  obtain ⟨s₂, h₂, hroom₂, hed₂, -⟩ := hroom₁.putLength hreserve sec.size
  obtain ⟨s₃, h₃, hroom₃, hed₃, -⟩ := hroom₂.copy hreserve hsize
  rw [Nat.zero_add, ← Nat.add_assoc] at h₁
  rw [saveGeneric, h₁, bind_ok, h₂, bind_ok, h₃, bind_ok]
  have hed : s₃.ed = s.ed := by rw [hed₃, hed₂, hed₁]
  split
  next hsos =>
    rw [if_pos hsos] at hlimit
    have hlength : (bs ++ lengthField sec.size ++ sec.content.bytes.take sec.size).length =
        bs.length + 2 + sec.size := by
      rw [List.length_append, List.length_append, length_lengthField, List.length_take, Nat.min_eq_left hsize]
    obtain ⟨s₄, h₄, hroom₄, hed₄, -⟩ := hroom₃.grow (k := 0 + data.size) hreserve (by omega)
    obtain ⟨s₅, h₅, hroom₅, hed₅, -⟩ := hroom₄.copy hreserve (hdata hsos)
    rw [Nat.zero_add] at h₄
    refine ⟨s₅, ?_, ?_, hroom₅⟩
    · rw [h₄, bind_ok, h₅]
    · rw [hed₅, hed₄, hed]
  · exact ⟨s₃, rfl, hed, by rwa [List.append_nil]⟩

theorem saveSection_eq (hreserve : Reserves reserve limit Q) (hs : Holds s bs rest) (hQ : Q bs.length rest)
    (hsec : Saves lib data sec s.ed) (hlimit : bs.length + (sectionBytes lib data sec).length ≤ limit) :
    ∃ s', saveSection lib reserve data sec s = .ok s' ∧ s'.ed = edAfter lib sec s.ed ∧
      Room limit Q s' (bs ++ sectionBytes lib data sec) 0 := by
  obtain ⟨s₁, h₁, hroom₁, hed₁, -⟩ := hreserve.grow (k := 0 + 2) hs hQ (by
    unfold sectionBytes at hlimit
    rw [List.length_append] at hlimit
    exact Nat.le_trans (Nat.add_le_add_left (Nat.le_add_right 2 _) _) hlimit) fun _ => by decide
  obtain ⟨s₂, h₂, hroom₂, hed₂, -⟩ := hroom₁.put hreserve 0xff sec.marker
  have hed : s₂.ed = s.ed := by rw [hed₂, hed₁]
  have happend : ∀ bs' : List UInt8, bs ++ ([0xff, sec.marker] ++ bs') = bs ++ [0xff, sec.marker] ++ bs' :=
    fun bs' => (List.append_assoc _ _ _).symm
  rw [Nat.zero_add] at h₁
  rw [saveSection, h₁, bind_ok, h₂, bind_ok]
  unfold sectionBytes at hlimit ⊢
  unfold edAfter
  rw [List.length_append] at hlimit
  rw [happend]
  split
  next hplain =>
    have happ : sec.marker ≠ APP1 := by
      rintro happ
      rw [happ] at hplain
      exact absurd hplain (by decide)
    refine ⟨s₂, rfl, ?_, by rwa [List.append_nil]⟩
    rw [if_neg happ, hed]
  next hplain =>
    rw [if_neg hplain] at hlimit
    split
    next happ =>
      rw [if_pos happ] at hlimit
      rcases hsec.app1 happ with ⟨app1, hcontent⟩ | ⟨hcontent, hnull⟩
      · rw [hcontent] at hlimit ⊢
        cases hsave : lib.save app1 with
        | none =>
          refine ⟨{ s₂ with ed := .null, eds := 0 }, ?_, by simp [hsave], ?_⟩
          · simp only [saveApp1, exifDataSaveData, hsave, bind_ok]
          · simp only [hsave, Option.map_none, Option.getD_none, List.append_nil]
            exact ⟨hroom₂.d, hroom₂.ds, hroom₂.fits⟩
        | some bytes =>
          simp only [hsave, Option.map_some, Option.getD_some, List.length_append, length_lengthField,
            List.length_take, Nat.min_eq_left (Nat.mod_le bytes.length uintSize)] at hlimit
          obtain ⟨s', h', hed', hroom'⟩ := saveApp1_eq hreserve hroom₂ hsave (by
            rw [List.length_append]
            exact Nat.le_trans (Nat.le_of_eq (by omega)) hlimit)
          rw [List.append_assoc] at hroom'
          exact ⟨s', h', by simp [hsave, hed'], by simpa [hsave] using hroom'⟩
      · rw [hcontent]
        refine ⟨{ s₂ with eds := 0 }, ?_, hed, ?_⟩
        · simp only [saveApp1, exifDataSaveData, bind_ok, hed, hnull]
        · rw [List.append_nil]
          exact ⟨hroom₂.d, hroom₂.ds, hroom₂.fits⟩
    next happ =>
      rw [if_neg happ] at hlimit
      obtain ⟨hsize, hdata⟩ := hsec.readable happ hplain
      obtain ⟨s', h', hed', hroom'⟩ := saveGeneric_eq hreserve hroom₂ hsize hdata (by
        simp only [List.length_append, length_lengthField, List.length_take, Nat.min_eq_left hsize] at hlimit ⊢
        refine Nat.le_trans (Nat.le_of_eq ?_) hlimit
        split
        next hsos =>
          rw [List.length_take, Nat.min_eq_left (hdata hsos)]
          simp only [List.length_cons, List.length_nil]
          omega
        · simp only [List.length_cons, List.length_nil]
          omega)
      simp only [List.append_assoc] at hroom' ⊢
      exact ⟨s', h', hed'.trans hed, hroom'⟩

def SavesAll (lib : ExifLib Exif) (data : JPEGData Exif) : List (JPEGSection Exif) → SavedExif → Prop
  | [], _ => True
  | sec :: rest, ed => Saves lib data sec ed ∧ SavesAll lib data rest (edAfter lib sec ed)

def fileBytes (lib : ExifLib Exif) (data : JPEGData Exif) (sections : List (JPEGSection Exif)) :
    List UInt8 :=
  sections.flatMap (sectionBytes lib data)

theorem saveLoop_eq {reserve : Nat → Reserve} (hreserve : ∀ i, Reserves (reserve i) limit Q)
    {sections : List (JPEGSection Exif)} (i : Nat) (hs : Holds s bs rest) (hQ : Q bs.length rest)
    (hsec : SavesAll lib data sections s.ed) (hlimit : bs.length + (fileBytes lib data sections).length ≤ limit) :
    ∃ s' rest', saveLoop lib reserve data i sections s = .ok s' ∧
      Holds s' (bs ++ fileBytes lib data sections) rest' ∧
      Q (bs ++ fileBytes lib data sections).length rest' ∧ (sections ≠ [] → s'.d ≠ none) := by
  induction sections generalizing i s bs rest with
  | nil => exact ⟨s, rest, rfl, by rwa [fileBytes, List.flatMap_nil, List.append_nil],
      by rwa [fileBytes, List.flatMap_nil, List.append_nil], fun h => absurd rfl h⟩
  | cons sec sections ih =>
    rw [fileBytes, List.flatMap_cons, List.length_append, ← fileBytes] at hlimit
    obtain ⟨s₁, h₁, hed₁, hroom₁⟩ := saveSection_eq (hreserve i) hs hQ hsec.1 (by omega)
    obtain ⟨rest₁, hd₁, -, hQ₁⟩ := hroom₁.d
    have hall := hsec.2
    rw [← hed₁] at hall
    obtain ⟨s', rest', h', hs', hQ', hd'⟩ := ih (i + 1) ⟨by rw [hd₁, Option.getD_some], hroom₁.ds⟩ hQ₁ hall
      (by rw [List.length_append]; omega)
    rw [fileBytes, List.flatMap_cons, ← fileBytes, ← List.append_assoc]
    refine ⟨s', rest', by rw [saveLoop, h₁, bind_ok, h'], hs', hQ', fun _ => ?_⟩
    by_cases hnil : sections = []
    · rw [hnil, saveLoop] at h'
      cases h'
      rw [hd₁]
      exact Option.some_ne_none _
    · exact hd' hnil

end

end

end G361FPlatform.Jpeg
