import Mathlib.Data.List.Forall2
import G361FPlatform.Jpeg.RoundTripLaws

namespace G361FPlatform.Jpeg

open Library

/-- SOI, segments with an APP1 section among them, SOS and EOI. -/
structure Layout (Exif : Type) where
  before : List Segment
  app1 : Exif
  after : List Segment
  scan : List UInt8
  image : List UInt8

def Layout.data (l : Layout Exif) : JPEGData Exif :=
  ⟨[⟨SOI, .null, 0⟩] ++ l.before.map Segment.loaded ++ [⟨APP1, .exif l.app1, 0⟩] ++
    l.after.map Segment.loaded ++ [⟨SOS, .buffer l.scan, l.scan.length⟩, ⟨EOI, .null, 0⟩],
    some l.image, l.image.length⟩

def keepBytes : ExifLib (List UInt8) := ⟨id, fun _ => none⟩

/-- A section comes back: with its marker, its payload, or an APP1 payload of as many bytes as were
serialised.  The loader gives libexif the four bytes in front of the payload besides. -/
structure ComesBack (lib : ExifLib Exif) (sec : JPEGSection Exif) (sec' : JPEGSection (List UInt8)) : Prop where
  marker : sec'.marker = sec.marker
  generic : ∀ bytes, sec.content = .buffer bytes → sec'.content = .buffer bytes
  exif : ∀ app1, sec.content = .exif app1 → ∃ bytes given, lib.save app1 = some bytes ∧
    sec'.content = .exif given ∧ given.length = bytes.length % uintSize + 4

/-- However the `realloc`s go, saving ends, and what it wrote is loaded as the same sections. -/
def Reparses (lib : ExifLib Exif) (data : JPEGData Exif) : Prop :=
  ∀ alloc : Nat → Nat → Bool, ∃ out ds, jpegDataSaveData lib alloc data none = .ok (out, ds) ∧
    ∀ block, out = some block → ∃ (d : Input) (data' : JPEGData (List UInt8)),
      d.1.length = ds ∧ block.take ds = d.1.map some ∧
        jpegDataLoadData keepBytes succeeds d jpegDataNew = .ok data' ∧
          List.Forall₂ (ComesBack lib) data.sections data'.sections

def JPEGSection.Short (sec : JPEGSection (List UInt8)) : Prop :=
  (∀ bytes, sec.content = .buffer bytes → bytes.length ≤ 65533) ∧
    ∀ given, sec.content = .exif given → given.length ≤ 65537

def JPEGData.Short (data : JPEGData (List UInt8)) : Prop := ∀ sec ∈ data.sections, sec.Short

section

variable {alloc : Allocs} {d : Input} {data data' : JPEGData (List UInt8)} {round : Nat} {marker : UInt8}
  {next : Option Nat}

theorem JPEGData.Short.modifyLast (h : data.Short) {f : JPEGSection (List UInt8) → JPEGSection (List UInt8)}
    (hf : ∀ sec, sec.Short → (f sec).Short) : (data.modifyLast f).Short := by
  intro sec hsec
  rw [JPEGData.modifyLast, List.mem_append, Option.mem_toList, Option.map_eq_some_iff] at hsec
  rcases hsec with hsec | ⟨last, hlast, rfl⟩
  · exact h sec (List.dropLast_subset _ hsec)
  · exact hf last (h last (List.mem_of_getLast? hlast))

theorem JPEGData.Short.appendSection (h : data.Short) (ok : Bool) :
    (data.appendSection ok).Short := by
  unfold JPEGData.appendSection
  split
  · intro sec hsec
    rcases List.mem_append.mp hsec with hsec | hsec
    · exact h sec hsec
    · rw [List.mem_singleton.mp hsec]
      exact ⟨(fun _ heq => nomatch heq), (fun _ heq => nomatch heq)⟩
  · exact h

theorem loadContent_short {o len : Nat} (hlen : len ≤ 65533) (hdata : data.Short)
    (h : loadContent keepBytes alloc d round marker o len data = .ok (next, data')) :
    data'.Short := by
  unfold loadContent at h
  split at h
  · obtain ⟨bytes, hslice, heq⟩ := map_eq_ok h
    cases heq
    refine hdata.modifyLast fun sec _ => ?_
    have hgiven := Block.length_of_slice hslice
    rw [Nat.mod_eq_of_lt (Nat.lt_of_le_of_lt (Nat.add_le_add_right hlen 4) (by decide))] at hgiven
    constructor
    · intro bytes' heq
      dsimp only at heq
      split at heq <;> cases heq
    · intro given heq
      dsimp only at heq
      split at heq
      · cases heq
        exact Nat.le_trans (Nat.le_of_eq hgiven) (by omega)
      · cases heq
  split at h
  · cases h
    exact hdata.modifyLast fun sec _ => ⟨(fun _ heq => nomatch heq), (fun _ heq => nomatch heq)⟩
  obtain ⟨bytes, hslice, h⟩ := bind_eq_ok h
  have hbytes := Block.length_of_slice hslice
  have hshort : (data.modifyLast fun s => { s with content := .buffer bytes, size := len }).Short := by
    refine hdata.modifyLast fun sec _ => ⟨fun bytes' heq => ?_, fun _ heq => nomatch heq⟩
    cases heq
    omega
  dsimp only at h
  split at h
  · obtain ⟨size, -, h⟩ := bind_eq_ok h
    split at h
    · cases h
      exact hshort
    · obtain ⟨image, -, heq⟩ := map_eq_ok h
      cases heq
      exact hshort
  · cases h
    exact hshort

theorem loadSection_short {o : Nat} (ho : o ≤ d.1.length) (hdata : data.Short)
    (h : loadSection keepBytes alloc d round marker o data = .ok (next, data')) : data'.Short := by
  by_cases hplain : marker = SOI ∨ marker = EOI
  · rw [loadSection, if_pos hplain] at h
    cases h
    exact hdata
  rcases loadSection_cases data ho hplain with ⟨-, heq⟩ | ⟨hi, lo, rest, -, -, -, heq⟩
  · rw [heq] at h
    cases h
    exact hdata
  · rw [heq] at h
    have hhi := hi.toNat_lt
    have hlo := lo.toNat_lt
    exact loadContent_short (by omega) hdata h

theorem loadRound_short (hround : round < d.1.length) (hdata : data.Short)
    (h : loadRound keepBytes alloc d round data = .ok (next, data')) : data'.Short := by
  have hsize := d.2
  unfold loadRound at h
  dsimp only at h
  rw [uintSub_eq d.2 (Nat.le_of_lt hround)] at h
  obtain ⟨i, hscan, -, hi⟩ := scanMarker_eq (d := d.1) (o := round) (n := min 7 (d.1.length - round))
    (i := 0) (by omega)
  rw [hscan, bind_ok] at h
  split at h
  · cases h
    exact hdata
  obtain ⟨marker, -, h⟩ := bind_eq_ok h
  split at h
  · have happend := hdata.appendSection (alloc .section round)
    split at h
    · cases h
      exact happend
    · rw [Nat.mod_eq_of_lt (by omega)] at h
      have hopened := happend.modifyLast (f := fun s => { s with marker := marker }) fun _ hsec => hsec
      exact loadSection_short (by omega) hopened h
  · cases h
    exact hdata

theorem loadData_short (h : jpegDataLoadData keepBytes alloc d jpegDataNew = .ok data') :
    data'.Short :=
  Forward.run_post (l := loadLoop keepBytes alloc d) (fun _ _ _ _ ho hs hround => loadRound_short ho hs hround)
    (show JPEGData.Short jpegDataNew from fun _ hsec => nomatch hsec) h

end

def OrFails (x y : Saving) : Prop := x = y ∨ ∃ s, x = .error (.ret s) ∧ s.d = none

theorem OrFails.bind {x y : Saving} {f g : SaveState → Saving} (hx : OrFails x y)
    (hf : ∀ s, OrFails (f s) (g s)) : OrFails (x.bind f) (y.bind g) := by
  rcases hx with rfl | ⟨s, rfl, hnone⟩
  · cases x with
    | error e => exact .inl rfl
    | ok s => exact hf s
  · exact .inr ⟨s, rfl, hnone⟩

theorem orFails_refl (x : Saving) : OrFails x x := .inl rfl

theorem orFails_cleanupRealloc (ok : Nat → Bool) (n : Nat) (s : SaveState) :
    OrFails (cleanupRealloc ok n s) (plainRealloc n s) := by
  unfold cleanupRealloc
  split
  · exact .inl rfl
  · exact .inr ⟨_, rfl, rfl⟩

section

variable {lib : ExifLib Exif} {data : JPEGData Exif} {sec : JPEGSection Exif} {s s' : SaveState}

theorem orFails_saveSection (ok : Nat → Bool) :
    OrFails (saveSection lib (cleanupRealloc ok) data sec s) (saveSection lib plainRealloc data sec s) := by
  refine (orFails_cleanupRealloc ok _ _).bind fun s => (orFails_refl _).bind fun s => ?_
  split
  · exact orFails_refl _
  · split
    · refine (orFails_refl _).bind fun s => ?_
      split
      · exact orFails_refl _
      · exact orFails_refl _
      · exact (orFails_cleanupRealloc ok _ _).bind fun s => (orFails_refl _).bind fun s =>
          (orFails_cleanupRealloc ok _ _).bind fun s => orFails_refl _
    · refine (orFails_cleanupRealloc ok _ _).bind fun s => (orFails_refl _).bind fun s =>
        (orFails_refl _).bind fun s => ?_
      split
      · exact (orFails_cleanupRealloc ok _ _).bind fun s => orFails_refl _
      · exact orFails_refl _

theorem orFails_saveLoop (alloc : Nat → Nat → Bool) {sections : List (JPEGSection Exif)} (i : Nat) :
    OrFails (saveLoop lib (fun i => cleanupRealloc (alloc i)) data i sections s)
      (saveLoop lib (fun _ => plainRealloc) data i sections s) := by
  induction sections generalizing i s with
  | nil => exact orFails_refl _
  | cons sec sections ih => exact (orFails_saveSection (alloc i)).bind fun s => ih (i + 1)

theorem saveData_orFails (alloc : Nat → Nat → Bool) {out : Option Block} {ds : Nat}
    (h : jpegDataSaveData lib (fun _ _ => true) data none = .ok (out, ds)) :
    jpegDataSaveData lib alloc data none = .ok (out, ds) ∨
      ∃ ds', jpegDataSaveData lib alloc data none = .ok (none, ds') := by
  rcases @orFails_saveLoop _ lib data ⟨none, 0, .null, 0⟩ alloc data.sections 0 with heq | ⟨s, heq, hnone⟩
  · exact .inl (by rw [jpegDataSaveData, heq, ← h, jpegDataSaveData])
  · exact .inr ⟨s.ds, by rw [jpegDataSaveData, heq, saved, hnone]⟩

theorem write_some {i : Nat} {bs : List UInt8} (h : s.write i bs = .ok s') : s'.d ≠ none := by
  unfold SaveState.write at h
  split at h
  · cases h
  next d hd =>
    cases hstore : d.store i bs with
    | error e =>
      rw [hstore] at h
      cases h
    | ok d' =>
      rw [hstore] at h
      cases h
      exact Option.some_ne_none _

theorem put_some {a b : UInt8} (h : s.put a b = .ok s') : s'.d ≠ none := by
  obtain ⟨s₁, -, h⟩ := bind_eq_ok h
  obtain ⟨s₂, h₂, rfl⟩ := map_eq_ok h
  exact show s₂.d ≠ none from write_some h₂

theorem copy_some {src : List UInt8} {n : Nat} (h : s.copy src n = .ok s') : s'.d ≠ none := by
  obtain ⟨bs, -, h⟩ := bind_eq_ok h
  obtain ⟨s₁, h₁, rfl⟩ := map_eq_ok h
  exact show s₁.d ≠ none from write_some h₁

theorem saveApp1_some {reserve : Reserve} {app1 : Pointer Exif} (hs : s.d ≠ none)
    (h : saveApp1 lib reserve app1 s = .ok s') : s'.d ≠ none := by
  obtain ⟨s₀, h₀, ⟨-, rfl⟩ | ⟨_, _, _, _, s₄, -, -, -, -, h₄, rfl⟩⟩ := saveApp1_cases h
  · unfold exifDataSaveData at h₀
    split at h₀
    · cases h₀
      exact hs
    · split at h₀ <;> cases h₀ <;> exact hs
    · cases h₀
  · exact show s₄.d ≠ none from copy_some h₄

theorem saveSection_some {reserve : Reserve} (h : saveSection lib reserve data sec s = .ok s') :
    s'.d ≠ none := by
  obtain ⟨s₁, s₂, -, h₂, ⟨-, rfl⟩ | ⟨-, ⟨-, h₃⟩ | ⟨-, h₃⟩⟩⟩ := saveSection_cases h
  · exact put_some h₂
  · exact saveApp1_some (put_some h₂) h₃
  · obtain ⟨_, _, _, -, -, h₅, ⟨-, _, -, h₆⟩ | ⟨-, rfl⟩⟩ := saveGeneric_cases h₃
    · exact copy_some h₆
    · exact copy_some h₅

theorem saveLoop_some {reserve : Nat → Reserve} {sections : List (JPEGSection Exif)} (i : Nat)
    (hs : sections ≠ [] ∨ s.d ≠ none) (h : saveLoop lib reserve data i sections s = .ok s') :
    s'.d ≠ none := by
  induction sections generalizing i s with
  | nil =>
    cases h
    exact hs.resolve_left fun hne => hne rfl
  | cons sec sections ih =>
    obtain ⟨s₁, h₁, h⟩ := bind_eq_ok h
    exact ih (i + 1) (.inr (saveSection_some h₁)) h

theorem saveData_some {out : Option Block} {ds : Nat} (hsections : data.sections ≠ [])
    (h : jpegDataSaveData lib (fun _ _ => true) data none = .ok (out, ds)) : ∃ block, out = some block := by
  unfold jpegDataSaveData at h
  cases hloop : saveLoop lib (fun _ => plainRealloc) data 0 data.sections ⟨none, 0, .null, 0⟩ with
  | ok s' =>
    rw [hloop] at h
    cases h
    exact Option.ne_none_iff_exists'.mp (saveLoop_some 0 (.inl hsections) hloop)
  | error e =>
    cases e with
    | ret s' => exact absurd hloop (noReturn_saveLoop 0 s')
    | stuck why =>
      rw [hloop] at h
      cases h

end

section

variable {Exif : Type} (lib : ExifLib Exif) {d : Input} {data : JPEGData Exif} {p rest : List UInt8}

theorem run_app1 {payload : List UInt8} (hd : d.1 = p ++ (segmentBytes APP1 payload ++ rest))
    (hshort : payload.length ≤ 65533) :
    (loadLoop lib succeeds d).run p.length data =
      (loadLoop lib succeeds d).run (p ++ segmentBytes APP1 payload).length
        (data.push ⟨APP1, .exif (lib.load (segmentBytes APP1 payload)), 0⟩) := by
  have hsize := d.2
  have hlen : d.1.length = p.length + (payload.length + 4 + rest.length) := by
    rw [hd, List.length_append, List.length_append, length_segmentBytes]
  have hslice : Block.slice d.1 ((p.length + 4 : Nat) - 4 : Int) ((payload.length + 4) % uintSize) =
      .ok (segmentBytes APP1 payload) := by
    rw [show ((p.length + 4 : Nat) - 4 : Int) = p.length by omega, Nat.mod_eq_of_lt (by omega), hd,
      ← length_segmentBytes APP1]
    exact Block.slice_append p _ rest
  have hround := loadRound_segment lib data hd (by decide) (by decide) hshort
  rw [loadContent, if_pos rfl, hslice, map_ok, Nat.mod_eq_of_lt (by omega), ← round_loadLoop] at hround
  simp only [succeeds, if_true, JPEGData.modifyLast_push] at hround
  have hlt : p.length < (loadLoop lib succeeds d).bound := by
    change p.length < d.1.length
    omega
  rw [Forward.run_step hlt hround, List.length_append, length_segmentBytes, Nat.add_right_comm, Nat.add_assoc]

end

theorem exists_of_forall₂ {R : α → β → Prop} {as : List α} {bs : List β} (h : List.Forall₂ R as bs) :
    ∀ a ∈ as, ∃ b ∈ bs, R a b := by
  induction h with
  | nil => exact fun _ ha => nomatch ha
  | cons hab _ ih =>
    intro a ha
    rcases List.mem_cons.mp ha with rfl | ha
    · exact ⟨_, List.mem_cons_self, hab⟩
    · obtain ⟨b, hb, hR⟩ := ih a ha
      exact ⟨b, List.mem_cons_of_mem _ hb, hR⟩

namespace Layout

variable {Exif : Type} (l : Layout Exif) {lib : ExifLib Exif} {bytes : List UInt8}

def file (payload : List UInt8) : List UInt8 :=
  [0xff, SOI] ++ (l.before.flatMap Segment.bytes ++ (segmentBytes APP1 payload ++
    (l.after.flatMap Segment.bytes ++ (segmentBytes SOS l.scan ++ (l.image ++ [0xff, EOI])))))

theorem fileBytes_eq (hsave : lib.save l.app1 = some bytes) :
    fileBytes lib l.data l.data.sections = l.file (bytes.take (bytes.length % uintSize)) := by
  have hsegs : ∀ segs : List Segment, (segs.map Segment.loaded).flatMap (sectionBytes lib l.data) =
      segs.flatMap Segment.bytes := by
    intro segs
    rw [List.flatMap_map]
    exact congrArg (segs.flatMap ·) (funext fun seg => sectionBytes_loaded _ seg)
  have happ1 : sectionBytes lib l.data ⟨APP1, .exif l.app1, 0⟩ =
      segmentBytes APP1 (bytes.take (bytes.length % uintSize)) := by
    have hplain : ¬(APP1 = SOI ∨ APP1 = EOI) := by decide
    simp only [sectionBytes, hplain, if_false, if_true, hsave, Option.map_some, Option.getD_some, segmentBytes,
      List.length_take, Nat.min_eq_left (Nat.mod_le bytes.length uintSize), List.append_assoc]
  have hsos : sectionBytes lib l.data ⟨SOS, .buffer l.scan, l.scan.length⟩ =
      segmentBytes SOS l.scan ++ l.image := by
    have hplain : ¬(SOS = SOI ∨ SOS = EOI) := by decide
    have happ : SOS ≠ APP1 := by decide
    simp [sectionBytes, hplain, happ, segmentBytes, Pointer.bytes, Layout.data]
  have hsoi : sectionBytes lib l.data ⟨SOI, .null, 0⟩ = [0xff, SOI] := rfl
  have heoi : sectionBytes lib l.data ⟨EOI, .null, 0⟩ = [0xff, EOI] := rfl
  rw [fileBytes]
  nth_rewrite 2 [Layout.data]
  simp only [List.flatMap_append, List.flatMap_cons, List.flatMap_nil, List.append_nil, hsegs, happ1, hsos, hsoi,
    heoi, file, List.append_assoc]

theorem readable : ∀ sec ∈ l.data.sections, Readable l.data sec := by
  intro sec hsec _ _
  refine ⟨?_, fun _ => Nat.le_refl _⟩
  simp only [Layout.data, List.mem_append, List.mem_cons, List.mem_map, List.not_mem_nil, or_false] at hsec
  rcases hsec with (((rfl | ⟨seg, -, rfl⟩) | rfl) | ⟨seg, -, rfl⟩) | rfl | rfl <;> exact Nat.le_refl _

theorem serialises (hsave : lib.save l.app1 = some bytes) :
    ∀ sec ∈ l.data.sections, sec.marker = APP1 → Serialises lib sec := by
  intro sec hsec happ
  simp only [Layout.data, List.mem_append, List.mem_cons, List.mem_map, List.not_mem_nil, or_false] at hsec
  rcases hsec with (((rfl | ⟨seg, -, rfl⟩) | rfl) | ⟨seg, -, rfl⟩) | rfl | rfl
  · exact absurd happ (show SOI ≠ APP1 by decide)
  · exact absurd happ seg.plain.2.2.1
  · exact ⟨l.app1, bytes, rfl, hsave⟩
  · exact absurd happ seg.plain.2.2.1
  · exact absurd happ (show SOS ≠ APP1 by decide)
  · exact absurd happ (show EOI ≠ APP1 by decide)

def loaded (payload : List UInt8) : JPEGData (List UInt8) :=
  ⟨[⟨SOI, .null, 0⟩] ++ l.before.map Segment.loaded ++ [⟨APP1, .exif (segmentBytes APP1 payload), 0⟩] ++
    l.after.map Segment.loaded ++ [⟨SOS, .buffer l.scan, l.scan.length⟩, ⟨EOI, .null, 0⟩],
    some l.image, l.image.length⟩

def withApp1 {Exif' : Type} (app1 : Exif') : Layout Exif' := ⟨l.before, app1, l.after, l.scan, l.image⟩

theorem load_withApp1 {Exif' : Type} (loader : ExifLib Exif') {d : Input} {payload : List UInt8}
    (hd : d.1 = l.file payload) (hpayload : payload.length ≤ 65533) (hscan : l.scan.length ≤ 65533) :
    jpegDataLoadData loader succeeds d jpegDataNew =
      .ok (l.withApp1 (loader.load (segmentBytes APP1 payload))).data := by
  have hsoi := hd
  rw [file] at hsoi
  have happ1 : d.1 = ([0xff, SOI] ++ l.before.flatMap Segment.bytes) ++ (segmentBytes APP1 payload ++
      (l.after.flatMap Segment.bytes ++ (segmentBytes SOS l.scan ++ (l.image ++ [0xff, EOI])))) := by
    rw [hsoi, List.append_assoc]
  have hafter : d.1 = ([0xff, SOI] ++ l.before.flatMap Segment.bytes ++ segmentBytes APP1 payload) ++
      (l.after.flatMap Segment.bytes ++ (segmentBytes SOS l.scan ++ (l.image ++ [0xff, EOI]))) := by
    rw [happ1, List.append_assoc _ (segmentBytes APP1 payload)]
  have hsos : d.1 = ([0xff, SOI] ++ l.before.flatMap Segment.bytes ++ segmentBytes APP1 payload ++
      l.after.flatMap Segment.bytes) ++ (segmentBytes SOS l.scan ++ (l.image ++ [0xff, EOI])) := by
    rw [hafter, List.append_assoc _ (l.after.flatMap Segment.bytes)]
  have himage : d.1 = ([0xff, SOI] ++ l.before.flatMap Segment.bytes ++ segmentBytes APP1 payload ++
      l.after.flatMap Segment.bytes ++ segmentBytes SOS l.scan) ++ (l.image ++ [0xff, EOI]) := by
    rw [hsos, List.append_assoc _ (segmentBytes SOS l.scan)]
  have heoi : d.1 = ([0xff, SOI] ++ l.before.flatMap Segment.bytes ++ segmentBytes APP1 payload ++
      l.after.flatMap Segment.bytes ++ segmentBytes SOS l.scan ++ l.image) ++ [0xff, EOI] := by
    rw [himage, List.append_assoc _ l.image]
  rw [jpegDataLoadData, run_soi hsoi, run_segments l.before hsoi, run_app1 loader happ1 hpayload,
    run_segments l.after hafter, run_scan hsos hscan (scanSize_marker himage) (by simp), List.take_left,
    ← List.length_append, run_tail heoi, if_pos (by decide)]
  simp [withApp1, data, JPEGData.push, jpegDataNew]

theorem load_file {d : Input} {payload : List UInt8} (hd : d.1 = l.file payload) (hpayload : payload.length ≤ 65533)
    (hscan : l.scan.length ≤ 65533) :
    jpegDataLoadData keepBytes succeeds d jpegDataNew = .ok (l.loaded payload) :=
  l.load_withApp1 keepBytes hd hpayload hscan

theorem comesBack_loaded (hsave : lib.save l.app1 = some bytes) :
    List.Forall₂ (ComesBack lib) l.data.sections (l.loaded (bytes.take (bytes.length % uintSize))).sections := by
  have hempty : ∀ marker, ComesBack lib ⟨marker, .null, 0⟩ ⟨marker, .null, 0⟩ := fun marker =>
    ⟨rfl, (fun _ heq => nomatch heq), (fun _ heq => nomatch heq)⟩
  have hbuffer : ∀ marker payload n,
      ComesBack lib ⟨marker, .buffer payload, n⟩ ⟨marker, .buffer payload, n⟩ :=
    fun marker payload n => ⟨rfl, (fun bytes heq => by cases heq; rfl), (fun _ heq => nomatch heq)⟩
  have hsegs : ∀ segs : List Segment, List.Forall₂ (ComesBack lib) (segs.map Segment.loaded)
      (segs.map Segment.loaded) := by
    intro segs
    induction segs with
    | nil => exact .nil
    | cons seg segs ih => exact .cons (hbuffer _ _ _) ih
  have happ1 : ComesBack lib ⟨APP1, .exif l.app1, 0⟩
      ⟨APP1, .exif (segmentBytes APP1 (bytes.take (bytes.length % uintSize))), 0⟩ := by
    refine ⟨rfl, (fun _ heq => nomatch heq), fun app1 heq => ⟨bytes, _, ?_, rfl, ?_⟩⟩
    · cases heq
      exact hsave
    · rw [length_segmentBytes, List.length_take, Nat.min_eq_left (Nat.mod_le _ _)]
  exact List.rel_append (List.rel_append (List.rel_append (List.rel_append (.cons (hempty _) .nil)
    (hsegs l.before)) (.cons happ1 .nil)) (hsegs l.after)) (.cons (hbuffer _ _ _) (.cons (hempty _) .nil))

def Fits (l : Layout Exif) (lib : ExifLib Exif) : Prop :=
  (∃ bytes, lib.save l.app1 = some bytes ∧ bytes.length % uintSize ≤ 65533) ∧
    l.scan.length ≤ 65533 ∧ (fileBytes lib l.data l.data.sections).length < uintSize

theorem fits_of_reparses (h : Reparses lib l.data) : l.Fits lib := by
  have hsections : l.data.sections ≠ [] := List.append_ne_nil_of_right_ne_nil _ (List.cons_ne_nil _ _)
  obtain ⟨out, ds, hok, hreload⟩ := h fun _ _ => true
  obtain ⟨block, rfl⟩ := saveData_some hsections hok
  obtain ⟨d, data', -, -, hload, hall⟩ := hreload block rfl
  have hshort := loadData_short hload
  have hback : ∀ sec ∈ l.data.sections, ∃ sec', sec'.Short ∧ ComesBack lib sec sec' := by
    intro sec hsec
    obtain ⟨sec', hmem, hsec'⟩ := exists_of_forall₂ hall sec hsec
    exact ⟨sec', hshort sec' hmem, hsec'⟩
  obtain ⟨sec, hsec, happ1⟩ := hback ⟨APP1, .exif l.app1, 0⟩ (by simp [Layout.data])
  obtain ⟨bytes, given, hsave, hgiven, hlen⟩ := happ1.exif l.app1 rfl
  obtain ⟨sos, hsos, hscan⟩ := hback ⟨SOS, .buffer l.scan, l.scan.length⟩ (by simp [Layout.data])
  refine ⟨⟨bytes, hsave, ?_⟩, hsos.1 l.scan (hscan.generic l.scan rfl), ?_⟩
  · have := hsec.2 given hgiven
    omega
  · exact (saveData_inv (l.serialises hsave) hok).2

theorem reparses_of_fits (h : l.Fits lib) : Reparses lib l.data := by
  obtain ⟨⟨bytes, hsave, heds⟩, hscan, hsmall⟩ := h
  intro alloc
  obtain ⟨out, rest, hok, hout⟩ := saveData_eq (savesAll_of_serialises .null (l.serialises hsave) l.readable) hsmall
  rcases saveData_orFails alloc hok with halloc | ⟨ds, halloc⟩
  · refine ⟨out, _, halloc, fun block hblock => ?_⟩
    rw [hblock, Option.getD_some] at hout
    refine ⟨⟨_, hsmall⟩, l.loaded (bytes.take (bytes.length % uintSize)), rfl, ?_, ?_,
      l.comesBack_loaded hsave⟩
    · rw [hout, ← List.length_map (f := some), List.take_left]
    · refine l.load_file (l.fileBytes_eq hsave) ?_ hscan
      rw [List.length_take, Nat.min_eq_left (Nat.mod_le _ _)]
      exact heds
  · exact ⟨none, ds, halloc, fun _ h => nomatch h⟩

end Layout

/-- A saved stream is loaded as the same sections exactly if libexif gives data, which fits a length
field, as the scan header does, and the whole file has a size. -/
theorem reparses_iff (lib : ExifLib Exif) (l : Layout Exif) : Reparses lib l.data ↔ l.Fits lib :=
  ⟨l.fits_of_reparses, l.reparses_of_fits⟩

def largeExif (n : Nat) : Layout (List UInt8) := ⟨[], List.replicate n 0, [], [], []⟩

theorem not_reparses_large {n : Nat} (h : 65533 < n % uintSize) :
    ¬Reparses headerExif (largeExif n).data := by
  intro hre
  obtain ⟨⟨bytes, hsave, heds⟩, -⟩ := (largeExif n).fits_of_reparses hre
  cases hsave
  rw [largeExif, List.length_replicate] at heds
  omega

/-- One byte too many for a length field. -/
theorem not_reparses_largeExif : ¬Reparses headerExif (largeExif 65534).data :=
  not_reparses_large (by decide)

end G361FPlatform.Jpeg
