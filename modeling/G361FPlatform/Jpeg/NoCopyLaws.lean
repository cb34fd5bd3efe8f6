import G361FPlatform.Jpeg.SaveLaws

namespace G361FPlatform.Jpeg

open Library

def NoReturn (x : Saving) : Prop := ∀ s, x ≠ .error (.ret s)

theorem NoReturn.bind {x : Saving} {f : SaveState → Saving} (hx : NoReturn x) (hf : ∀ s, NoReturn (f s)) :
    NoReturn (x.bind f) := by
  cases x with
  | ok s => exact hf s
  | error e =>
    intro s heq
    cases heq
    exact hx s rfl

theorem noReturn_ok (s : SaveState) : NoReturn (.ok s) := fun _ h => nomatch h

theorem noReturn_stuck (why : Stuck) : NoReturn (.error (.stuck why)) := fun _ h => nomatch h

theorem NoReturn.map {x : Saving} {f : SaveState → SaveState} (hx : NoReturn x) :
    NoReturn (x.map f) := by
  cases x with
  | ok s => exact noReturn_ok _
  | error e =>
    intro s heq
    cases heq
    exact hx s rfl

theorem noReturn_write (i : Nat) (bs : List UInt8) (s : SaveState) : NoReturn (s.write i bs) := by
  unfold SaveState.write
  split
  · exact noReturn_stuck _
  · generalize Block.store _ _ _ = x
    cases x with
    | ok d => exact noReturn_ok _
    | error e => exact noReturn_stuck _

theorem noReturn_put (a b : UInt8) (s : SaveState) : NoReturn (s.put a b) :=
  (noReturn_write _ _ _).bind fun _ => (noReturn_write _ _ _).map

theorem noReturn_copy (src : List UInt8) (n : Nat) (s : SaveState) : NoReturn (s.copy src n) := by
  unfold SaveState.copy
  cases Block.slice src 0 n with
  | ok bs => exact (noReturn_write _ _ _).map
  | error e => exact noReturn_stuck _

abbrev plainRealloc : Reserve := cleanupRealloc fun _ => true

theorem noReturn_plainRealloc (n : Nat) (s : SaveState) : NoReturn (plainRealloc n s) := noReturn_ok _

variable {lib : ExifLib Exif} {data : JPEGData Exif} {sec : JPEGSection Exif} {s s' : SaveState}

theorem noReturn_freeExif (s : SaveState) : NoReturn s.freeExif := by
  unfold SaveState.freeExif
  split
  · exact noReturn_stuck _
  · exact noReturn_ok _

theorem noReturn_saveApp1 {reserve : Reserve} (hreserve : ∀ n s, NoReturn (reserve n s)) (app1 : Pointer Exif) :
    NoReturn (saveApp1 lib reserve app1 s) := by
  unfold saveApp1
  refine NoReturn.bind ?_ fun s => ?_
  · unfold exifDataSaveData
    split
    · exact noReturn_ok _
    · split <;> exact noReturn_ok _
    · exact noReturn_stuck _
  · split
    · exact noReturn_ok _
    · exact noReturn_stuck _
    · exact (hreserve _ _).bind fun s => (noReturn_put _ _ _).bind fun s =>
        (hreserve _ _).bind fun s => (noReturn_copy _ _ _).bind noReturn_freeExif

theorem noReturn_saveGeneric : NoReturn (saveGeneric plainRealloc data sec s) := by
  refine (noReturn_plainRealloc _ _).bind fun s => (noReturn_put _ _ _).bind fun s =>
    (noReturn_copy _ _ _).bind fun s => ?_
  split
  · exact (noReturn_plainRealloc _ _).bind fun s => noReturn_copy _ _ _
  · exact noReturn_ok _

theorem noReturn_saveLoop {sections : List (JPEGSection Exif)} (i : Nat) :
    NoReturn (saveLoop lib (fun _ => plainRealloc) data i sections s) := by
  induction sections generalizing i s with
  | nil => exact noReturn_ok _
  | cons sec sections ih =>
    refine NoReturn.bind ?_ fun s => ih (i + 1)
    refine (noReturn_plainRealloc _ _).bind fun s => (noReturn_put _ _ _).bind fun s => ?_
    split
    · exact noReturn_ok _
    · split
      · exact noReturn_saveApp1 noReturn_plainRealloc _
      · exact noReturn_saveGeneric

def allocated (s : SaveState) : Nat := (s.d.getD []).length

theorem write_inv {i : Nat} {new : List UInt8} (h : s.write i new = .ok s') :
    i + new.length ≤ allocated s ∧ allocated s' = allocated s ∧ s'.ds = s.ds ∧ Keeps s s' := by
  unfold SaveState.write at h
  unfold allocated
  cases hd : s.d with
  | none => rw [hd] at h; cases h
  | some d =>
    rw [hd] at h
    dsimp only at h
    cases hstore : d.store i new with
    | error e => rw [hstore] at h; cases h
    | ok d' =>
      rw [hstore] at h
      cases h
      obtain ⟨hroom, hlen⟩ := Block.length_of_store hstore
      exact ⟨hroom, hlen, rfl, rfl, rfl⟩

theorem put_inv {a b : UInt8} (hsmall : allocated s < uintSize) (h : s.put a b = .ok s') :
    s.ds + 2 ≤ allocated s ∧ allocated s' = allocated s ∧ s'.ds = s.ds + 2 ∧ Keeps s s' := by
  obtain ⟨s₁, h₁, h⟩ := bind_eq_ok h
  obtain ⟨hroom₁, hlen₁, hds₁, hed₁, heds₁⟩ := write_inv h₁
  obtain ⟨s₂, h₂, rfl⟩ := map_eq_ok h
  obtain ⟨hroom₂, hlen₂, hds₂, hed₂, heds₂⟩ := write_inv h₂
  rw [List.length_singleton] at hroom₁ hroom₂
  have hds : s.ds + 2 ≤ allocated s := by
    rw [hds₁] at hroom₂
    rcases Nat.lt_or_ge (s.ds + 1) uintSize with hlt | hge
    · rw [Nat.mod_eq_of_lt hlt] at hroom₂
      omega
    · omega
  refine ⟨hds, hlen₂.trans hlen₁, ?_, hed₂.trans hed₁, heds₂.trans heds₁⟩
  change (s₂.ds + 2) % uintSize = s.ds + 2
  rw [hds₂, hds₁, Nat.mod_eq_of_lt (by omega)]

theorem copy_inv {src : List UInt8} {n : Nat} (hsmall : allocated s < uintSize) (h : s.copy src n = .ok s') :
    n ≤ src.length ∧ s.ds + n ≤ allocated s ∧ allocated s' = allocated s ∧ s'.ds = s.ds + n ∧ Keeps s s' := by
  obtain ⟨bs, hslice, h⟩ := bind_eq_ok h
  obtain ⟨s₁, h₁, rfl⟩ := map_eq_ok h
  obtain ⟨hroom₁, hlen₁, hds₁, hed₁, heds₁⟩ := write_inv h₁
  have hbs : n ≤ src.length ∧ bs.length = n := by
    cases hs : Block.slice src 0 n with
    | error e => rw [hs] at hslice; cases hslice
    | ok bs' =>
      rw [hs] at hslice
      cases hslice
      refine ⟨?_, Block.length_of_slice hs⟩
      unfold Block.slice at hs
      split at hs
      next hin => omega
      · cases hs
  have hds : (s₁.ds + n) % uintSize = s.ds + n := by rw [hds₁, Nat.mod_eq_of_lt (by omega)]
  exact ⟨hbs.1, by omega, hlen₁, hds, hed₁, heds₁⟩

theorem plainRealloc_inv {n : Nat} (h : plainRealloc n s = .ok s') :
    allocated s' = n ∧ s'.ds = s.ds ∧ Keeps s s' := by
  cases h
  exact ⟨Block.length_resize _ _, rfl, rfl, rfl⟩

theorem mod_uintSize_lt (n : Nat) : n % uintSize < uintSize := Nat.mod_lt _ (by decide)

section

variable {reserve : Reserve}

theorem freeExif_cases (h : s.freeExif = .ok s') : s' = { s with ed := .freed } := by
  unfold SaveState.freeExif at h
  split at h
  · cases h
  · cases h
    rfl

theorem saveApp1_cases {app1 : Pointer Exif} (h : saveApp1 lib reserve app1 s = .ok s') :
    ∃ s₀, exifDataSaveData lib app1 s = .ok s₀ ∧
      (s₀.ed = .null ∧ s' = s₀ ∨
        ∃ bytes s₁ s₂ s₃ s₄, s₀.ed = .live bytes ∧ reserve ((s₀.ds + 2) % uintSize) s₀ = .ok s₁ ∧
          s₁.putLength s₁.eds = .ok s₂ ∧ reserve ((s₂.ds + s₂.eds) % uintSize) s₂ = .ok s₃ ∧
          s₃.copy bytes s₃.eds = .ok s₄ ∧ s' = { s₄ with ed := .freed }) := by
  obtain ⟨s₀, h₀, h⟩ := bind_eq_ok h
  refine ⟨s₀, h₀, ?_⟩
  split at h
  next hnull =>
    cases h
    exact .inl ⟨hnull, rfl⟩
  next => cases h
  next bytes hlive =>
    obtain ⟨s₁, h₁, h⟩ := bind_eq_ok h
    obtain ⟨s₂, h₂, h⟩ := bind_eq_ok h
    obtain ⟨s₃, h₃, h⟩ := bind_eq_ok h
    obtain ⟨s₄, h₄, h⟩ := bind_eq_ok h
    exact .inr ⟨bytes, s₁, s₂, s₃, s₄, hlive, h₁, h₂, h₃, h₄, freeExif_cases h⟩

theorem saveGeneric_cases (h : saveGeneric reserve data sec s = .ok s') :
    ∃ s₁ s₂ s₃, reserve ((s.ds + sec.size + 2) % uintSize) s = .ok s₁ ∧
      s₁.putLength sec.size = .ok s₂ ∧ s₂.copy sec.content.bytes sec.size = .ok s₃ ∧
      (sec.marker = SOS ∧ (∃ s₄, reserve ((s₃.ds + data.size) % uintSize) s₃ = .ok s₄ ∧
          s₄.copy (data.data.getD []) data.size = .ok s') ∨
        sec.marker ≠ SOS ∧ s' = s₃) := by
  obtain ⟨s₁, h₁, h⟩ := bind_eq_ok h
  obtain ⟨s₂, h₂, h⟩ := bind_eq_ok h
  obtain ⟨s₃, h₃, h⟩ := bind_eq_ok h
  refine ⟨s₁, s₂, s₃, h₁, h₂, h₃, ?_⟩
  split at h
  next hsos =>
    obtain ⟨s₄, h₄, h⟩ := bind_eq_ok h
    exact .inl ⟨hsos, s₄, h₄, h⟩
  next hsos =>
    cases h
    exact .inr ⟨hsos, rfl⟩

theorem saveSection_cases (h : saveSection lib reserve data sec s = .ok s') :
    ∃ s₁ s₂, reserve ((s.ds + 2) % uintSize) s = .ok s₁ ∧ s₁.put 0xff sec.marker = .ok s₂ ∧
      ((sec.marker = SOI ∨ sec.marker = EOI) ∧ s' = s₂ ∨
        ¬(sec.marker = SOI ∨ sec.marker = EOI) ∧
          (sec.marker = APP1 ∧ saveApp1 lib reserve sec.content s₂ = .ok s' ∨
            sec.marker ≠ APP1 ∧ saveGeneric reserve data sec s₂ = .ok s')) := by
  obtain ⟨s₁, h₁, h⟩ := bind_eq_ok h
  obtain ⟨s₂, h₂, h⟩ := bind_eq_ok h
  refine ⟨s₁, s₂, h₁, h₂, ?_⟩
  split at h
  next hplain =>
    cases h
    exact .inl ⟨hplain, rfl⟩
  next hplain =>
    split at h
    next happ => exact .inr ⟨hplain, .inl ⟨happ, h⟩⟩
    next happ => exact .inr ⟨hplain, .inr ⟨happ, h⟩⟩

end

theorem saveApp1_inv {app1 : Exif} {bytes : List UInt8} (hsave : lib.save app1 = some bytes)
    (h : saveApp1 lib plainRealloc (.exif app1) s = .ok s') :
    s'.ds = s.ds + 2 + bytes.length % uintSize ∧ s'.ds < uintSize := by
  obtain ⟨s₀, h₀, hend⟩ := saveApp1_cases h
  simp only [exifDataSaveData, hsave] at h₀
  cases h₀
  rcases hend with ⟨hnull, -⟩ | ⟨_, s₁, s₂, s₃, s₄, -, h₁, h₂, h₃, h₄, rfl⟩
  · cases hnull
  obtain ⟨hlen₁, hds₁, -, heds₁⟩ := plainRealloc_inv h₁
  obtain ⟨hroom₂, hlen₂, hds₂, -, heds₂⟩ := put_inv (by rw [hlen₁]; exact mod_uintSize_lt _) h₂
  obtain ⟨hlen₃, hds₃, -, heds₃⟩ := plainRealloc_inv h₃
  have hsmall₃ : allocated s₃ < uintSize := by
    rw [hlen₃]
    exact mod_uintSize_lt _
  obtain ⟨-, hroom₄, hlen₄, hds₄, -⟩ := copy_inv hsmall₃ h₄
  have heds : s₃.eds = bytes.length % uintSize := by rw [heds₃, heds₂, heds₁]
  rw [hds₃, hds₂, hds₁, heds] at hroom₄ hds₄
  refine ⟨hds₄, ?_⟩
  change s₄.ds < uintSize
  rw [hds₄]
  exact Nat.lt_of_le_of_lt hroom₄ hsmall₃

theorem saveGeneric_inv (h : saveGeneric plainRealloc data sec s = .ok s') :
    sec.size ≤ sec.content.bytes.length ∧ (sec.marker = SOS → data.size ≤ (data.data.getD []).length) ∧
      s'.ds = s.ds + 2 + sec.size + (if sec.marker = SOS then data.size else 0) ∧ s'.ds < uintSize := by
  obtain ⟨s₁, s₂, s₃, h₁, h₂, h₃, hend⟩ := saveGeneric_cases h
  obtain ⟨hlen₁, hds₁, -⟩ := plainRealloc_inv h₁
  have hsmall₁ : allocated s₁ < uintSize := by
    rw [hlen₁]
    exact mod_uintSize_lt _
  obtain ⟨hroom₂, hlen₂, hds₂, -⟩ := put_inv hsmall₁ h₂
  obtain ⟨hsize, hroom₃, hlen₃, hds₃, -⟩ := copy_inv (by rw [hlen₂]; exact hsmall₁) h₃
  rw [hds₂, hds₁] at hroom₃ hds₃
  rcases hend with ⟨hsos, s₄, h₄, h₅⟩ | ⟨hsos, rfl⟩
  · obtain ⟨hlen₄, hds₄, -⟩ := plainRealloc_inv h₄
    have hsmall₄ : allocated s₄ < uintSize := by
      rw [hlen₄]
      exact mod_uintSize_lt _
    obtain ⟨hdata, hroom₅, -, hds₅, -⟩ := copy_inv hsmall₄ h₅
    rw [if_pos hsos]
    exact ⟨hsize, fun _ => hdata, by rw [hds₅, hds₄, hds₃], by omega⟩
  · rw [if_neg hsos]
    exact ⟨hsize, fun h => absurd h hsos, hds₃, by omega⟩

theorem saveSection_inv (hexif : sec.marker = APP1 → Serialises lib sec)
    (h : saveSection lib plainRealloc data sec s = .ok s') :
    Readable data sec ∧ s'.ds = s.ds + (sectionBytes lib data sec).length ∧ s'.ds < uintSize := by
  obtain ⟨s₁, s₂, h₁, h₂, hend⟩ := saveSection_cases h
  obtain ⟨hlen₁, hds₁, -⟩ := plainRealloc_inv h₁
  have hsmall₁ : allocated s₁ < uintSize := by
    rw [hlen₁]
    exact mod_uintSize_lt _
  obtain ⟨hroom₂, -, hds₂, -⟩ := put_inv hsmall₁ h₂
  unfold sectionBytes
  rw [List.length_append, show [0xff, sec.marker].length = 2 from rfl]
  rcases hend with ⟨hplain, rfl⟩ | ⟨hplain, ⟨happ, h₃⟩ | ⟨happ, h₃⟩⟩
  · rw [if_pos hplain]
    refine ⟨fun _ hnot => absurd hplain hnot, ?_, by omega⟩
    rw [List.length_nil, hds₂, hds₁]
  · obtain ⟨app1, bytes, hcontent, hsave⟩ := hexif happ
    rw [hcontent] at h₃
    obtain ⟨hds, hsmall⟩ := saveApp1_inv hsave h₃
    rw [if_neg hplain, if_pos happ, hcontent]
    refine ⟨fun hnot => absurd happ hnot, ?_, hsmall⟩
    simp only [hsave, Option.map_some, Option.getD_some, List.length_append, length_lengthField,
      List.length_take, Nat.min_eq_left (Nat.mod_le bytes.length uintSize)]
    omega
  · obtain ⟨hsize, hdata, hds, hsmall⟩ := saveGeneric_inv h₃
    rw [if_neg hplain, if_neg happ]
    refine ⟨fun _ _ => ⟨hsize, hdata⟩, ?_, hsmall⟩
    simp only [List.length_append, length_lengthField, List.length_take, Nat.min_eq_left hsize]
    rw [hds, hds₂, hds₁]
    split
    next hsos =>
      rw [List.length_take, Nat.min_eq_left (hdata hsos)]
      omega
    · rw [List.length_nil]
      omega

theorem saveLoop_inv {sections : List (JPEGSection Exif)} (i : Nat)
    (hexif : ∀ sec ∈ sections, sec.marker = APP1 → Serialises lib sec) (hds : s.ds < uintSize)
    (h : saveLoop lib (fun _ => plainRealloc) data i sections s = .ok s') :
    (∀ sec ∈ sections, Readable data sec) ∧ s.ds + (fileBytes lib data sections).length < uintSize := by
  induction sections generalizing i s with
  | nil => exact ⟨(fun _ hsec => nomatch hsec), hds⟩
  | cons sec sections ih =>
    obtain ⟨s₁, h₁, h⟩ := bind_eq_ok h
    obtain ⟨hread, hds₁, hsmall⟩ := saveSection_inv (hexif sec List.mem_cons_self) h₁
    obtain ⟨hreads, htotal⟩ := ih (i + 1) (fun sec hsec => hexif sec (List.mem_cons_of_mem _ hsec)) hsmall h
    rw [fileBytes, List.flatMap_cons, List.length_append, ← fileBytes]
    refine ⟨fun sec' hsec' => ?_, by omega⟩
    rcases List.mem_cons.mp hsec' with rfl | hsec'
    · exact hread
    · exact hreads sec' hsec'

theorem savesAll_of_serialises {sections : List (JPEGSection Exif)} (ed : SavedExif)
    (hexif : ∀ sec ∈ sections, sec.marker = APP1 → Serialises lib sec)
    (hread : ∀ sec ∈ sections, Readable data sec) : SavesAll lib data sections ed := by
  induction sections generalizing ed with
  | nil => trivial
  | cons sec sections ih =>
    refine ⟨⟨hread sec List.mem_cons_self, fun happ => ?_⟩, ih _
      (fun sec hsec => hexif sec (List.mem_cons_of_mem _ hsec))
      fun sec hsec => hread sec (List.mem_cons_of_mem _ hsec)⟩
    obtain ⟨app1, bytes, hcontent, -⟩ := hexif sec List.mem_cons_self happ
    exact .inl ⟨app1, hcontent⟩

theorem saveData_eq (hsaves : SavesAll lib data data.sections .null)
    (hsmall : (fileBytes lib data data.sections).length < uintSize) :
    ∃ (d : Option Block) (rest : Block), jpegDataSaveData lib (fun _ _ => true) data none =
        .ok (d, (fileBytes lib data data.sections).length) ∧
      d.getD [] = (fileBytes lib data data.sections).map some ++ rest := by
  obtain ⟨s', rest', h', hs', -, -⟩ := saveLoop_eq
    (fun _ => reserves_cleanupRealloc hsmall) 0 (s := ⟨none, 0, .null, 0⟩)
    (show Holds ⟨none, 0, .null, 0⟩ [] [] from ⟨rfl, rfl⟩) trivial hsaves
    (by simp)
  refine ⟨s'.d, rest', ?_, hs'.d⟩
  rw [jpegDataSaveData, h', saved, hs'.ds]
  rfl

theorem saveDataNoCopy_eq (hsaves : SavesAll lib data data.sections .null)
    (hsmall : (fileBytes lib data data.sections).length < uintSize) {buf : Block}
    (hbuf : (fileBytes lib data data.sections).length ≤ buf.length) :
    jpegDataSaveDataNoCopy lib data buf =
      .ok (some ((fileBytes lib data data.sections).map some ++
        buf.drop (fileBytes lib data data.sections).length), (fileBytes lib data data.sections).length) := by
  obtain ⟨s', rest', h', hs', hrest, hd⟩ := saveLoop_eq
    (fun _ => reserves_noRealloc hsmall hbuf) 0
    (show Holds ⟨some buf, 0, .null, 0⟩ [] buf from ⟨rfl, rfl⟩) rfl hsaves (by simp)
  have hsome : s'.d ≠ none := by
    by_cases hnil : data.sections = []
    · rw [hnil, saveLoop] at h'
      cases h'
      exact Option.some_ne_none _
    · exact hd hnil
  obtain ⟨d, hd⟩ := Option.ne_none_iff_exists'.mp hsome
  have hbytes := hs'.d
  rw [hd, Option.getD_some, List.nil_append, hrest, List.nil_append] at hbytes
  rw [jpegDataSaveDataNoCopy, h', saved, hd, hs'.ds, hbytes, List.nil_append]

theorem saveData_inv {d : Option Block} {ds : Nat}
    (hexif : ∀ sec ∈ data.sections, sec.marker = APP1 → Serialises lib sec)
    (h : jpegDataSaveData lib (fun _ _ => true) data none = .ok (d, ds)) :
    (∀ sec ∈ data.sections, Readable data sec) ∧ (fileBytes lib data data.sections).length < uintSize := by
  unfold jpegDataSaveData at h
  cases hloop : saveLoop lib (fun _ => plainRealloc) data 0 data.sections ⟨none, 0, .null, 0⟩ with
  | ok s' =>
    obtain ⟨hread, hsmall⟩ := saveLoop_inv 0 hexif (by decide) hloop
    rw [Nat.zero_add] at hsmall
    exact ⟨hread, hsmall⟩
  | error e =>
    cases e with
    | ret s' => exact absurd hloop (noReturn_saveLoop 0 s')
    | stuck why =>
      rw [hloop] at h
      cases h

/-- The two routines write the same file: wherever the plain one ends, the zero copy one does, and
touches nothing behind the file. -/
theorem saveDataNoCopy_agrees (lib : ExifLib Exif) (data : JPEGData Exif)
    (hexif : ∀ sec ∈ data.sections, sec.marker = APP1 → Serialises lib sec) :
    (∀ d ds, jpegDataSaveData lib (fun _ _ => true) data none = .ok (d, ds) →
      ∃ bytes : List UInt8, bytes.length = ds ∧ (d.getD []).take ds = bytes.map some ∧
        ∀ buf : Block, ds ≤ buf.length →
          jpegDataSaveDataNoCopy lib data buf = .ok (some (bytes.map some ++ buf.drop ds), ds)) ∧
      ((∀ sec ∈ data.sections, Readable data sec) →
        (fileBytes lib data data.sections).length < uintSize →
          ∃ d ds, jpegDataSaveData lib (fun _ _ => true) data none = .ok (d, ds)) := by
  refine ⟨fun d ds h => ?_, fun hread hsmall => ?_⟩
  · obtain ⟨hread, hsmall⟩ := saveData_inv hexif h
    have hsaves := savesAll_of_serialises .null hexif hread
    obtain ⟨d', rest, heq, hd'⟩ := saveData_eq hsaves hsmall
    rw [heq] at h
    cases h
    refine ⟨fileBytes lib data data.sections, rfl, ?_, fun buf hbuf => saveDataNoCopy_eq hsaves hsmall hbuf⟩
    rw [hd', ← List.length_map (f := some), List.take_left]
  · obtain ⟨d, rest, heq, -⟩ := saveData_eq (savesAll_of_serialises .null hexif hread) hsmall
    exact ⟨d, _, heq⟩

def headerExif : ExifLib (List UInt8) := ⟨fun bytes => bytes.drop 4, some⟩

def fiveSections : JPEGData (List UInt8) :=
  ⟨[⟨SOI, .null, 0⟩, ⟨APP1, .exif [69, 120], 0⟩, ⟨SOS, .buffer [1], 1⟩, ⟨APP1, .exif [105], 0⟩,
    ⟨SOS, .buffer [], 0⟩], some [7, 8], 2⟩

theorem saveDataNoCopy_agrees_fiveSections :
    (∀ d ds, jpegDataSaveData headerExif (fun _ _ => true) fiveSections none = .ok (d, ds) →
      ∃ bytes : List UInt8, bytes.length = ds ∧ (d.getD []).take ds = bytes.map some ∧
        ∀ buf : Block, ds ≤ buf.length →
          jpegDataSaveDataNoCopy headerExif fiveSections buf =
            .ok (some (bytes.map some ++ buf.drop ds), ds)) ∧
      ((∀ sec ∈ fiveSections.sections, Readable fiveSections sec) →
        (fileBytes headerExif fiveSections fiveSections.sections).length < uintSize →
          ∃ d ds, jpegDataSaveData headerExif (fun _ _ => true) fiveSections none = .ok (d, ds)) :=
  saveDataNoCopy_agrees headerExif fiveSections fun sec hsec happ => by
    simp only [fiveSections, List.mem_cons, List.not_mem_nil, or_false] at hsec
    rcases hsec with rfl | rfl | rfl | rfl | rfl
    · exact absurd happ (by decide)
    · exact ⟨_, _, rfl, rfl⟩
    · exact absurd happ (by decide)
    · exact ⟨_, _, rfl, rfl⟩
    · exact absurd happ (by decide)

end G361FPlatform.Jpeg
