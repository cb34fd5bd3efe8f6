import G361FPlatform.Exif.RoundTripLaws
import G361FPlatform.Jpeg.ReparseLaws

namespace G361FPlatform.Jpeg

open Library Exif

/-- libexif, as `jpeg_data_load_data` and `jpeg_data_save_data` use it. -/
def libexif (libc : LibC) (fresh : Nat → UInt8) (lib : LoadLib) : ExifLib LoadData where
  load d := (exifDataLoadData lib allSucceed exifDataNew d).toOption.getD exifDataNew
  save data := (Exif.exifDataSaveData libc fresh data.toExifData).map (·.2)

theorem searchMarker_app1 (hi lo : UInt8) (d : Bytes) :
    searchMarker (0xff :: APP1 :: hi :: lo :: d) = .ok (some d) := by
  have hskip : (0xff :: APP1 :: hi :: lo :: d).dropWhile (· = 0xff) = APP1 :: hi :: lo :: d := rfl
  unfold searchMarker
  rw [dif_neg (by simp)]
  split
  next hrest =>
    rw [hskip] at hrest
    cases hrest
  next b rest hrest =>
    rw [hskip] at hrest
    cases hrest
    rw [if_neg (by decide), if_neg fun h => absurd h.1 (by decide), if_pos (show APP1 = JPEG_MARKER_APP1 from rfl),
      if_neg (by simp), show Block.slice (hi :: lo :: d) 0 2 = _ from Block.slice_append [] [hi, lo] d, map_ok]
    rfl

theorem exifDataLoadData_segment (lib : LoadLib) (a : LoadData) {d : Bytes} (hd : EXIF_HEADER <+: d) :
    exifDataLoadData lib allSucceed a (segmentBytes APP1 d) = exifDataLoadData lib allSucceed a d := by
  obtain ⟨rest, rfl⟩ := hd
  obtain ⟨hi, lo, hseg⟩ : ∃ hi lo, segmentBytes APP1 (EXIF_HEADER ++ rest) =
      0xff :: APP1 :: hi :: lo :: (EXIF_HEADER ++ rest) := ⟨_, _, rfl⟩
  have hlen : (EXIF_HEADER ++ rest).length = 6 + rest.length := List.length_append
  have hname : Block.slice (EXIF_HEADER ++ rest) 0 6 = .ok EXIF_HEADER := Block.slice_append [] EXIF_HEADER rest
  have hmarker : Block.slice (0xff :: APP1 :: hi :: lo :: (EXIF_HEADER ++ rest)) 0 6 =
      .ok [0xff, APP1, hi, lo, 0x45, 0x78] := Block.slice_append [] [0xff, APP1, hi, lo, 0x45, 0x78] _
  have hne : [0xff, APP1, hi, lo, 0x45, 0x78] ≠ EXIF_HEADER := fun h => by
    have hfirst := List.head_eq_of_cons_eq h
    revert hfirst
    decide
  rw [hseg, exifDataLoadData, exifDataLoadData, if_neg (by simp only [List.length_cons]; omega), if_neg (by omega),
    hmarker, hname, bind_ok, bind_ok, if_neg hne, if_pos rfl, searchMarker_app1, bind_ok]

variable (libc : LibC) (fresh : Nat → UInt8) (lib : LoadLib)

theorem exifDataLoadData_libexif (d : Bytes) :
    exifDataLoadData lib allSucceed exifDataNew d = .ok ((libexif libc fresh lib).load d) := by
  obtain ⟨b, hb, -⟩ := exifDataLoadData_finished lib (succeed_allSucceed .entry) exifDataNew d
  change _ = Except.ok ((exifDataLoadData lib allSucceed exifDataNew d).toOption.getD exifDataNew)
  rw [hb]
  rfl

theorem libexif_load_saved {data saved : ExifData} {bytes : Bytes}
    (hsave : Exif.exifDataSaveData libc fresh data = some (saved, bytes)) (hbytes : bytes.length ≤ 0xfffe)
    (hwhole : saved.Whole lib true) :
    ∃ b, (libexif libc fresh lib).load (segmentBytes APP1 bytes) = finishLoad lib bytes b ∧
      Reloaded saved exifDataNew b := by
  have hfresh : exifDataNew.Fresh := ⟨fun _ => rfl, rfl, rfl⟩
  obtain ⟨hheader, b, hb, hreloaded⟩ := exifDataSaveData_loadTiff libc fresh lib hsave hbytes hfresh hwhole
  have hname : EXIF_HEADER <+: bytes := by
    rw [exifHeader_eq] at hheader
    exact (List.prefix_append _ _).trans hheader
  have hloaded : exifDataLoadData lib allSucceed exifDataNew (segmentBytes APP1 bytes) = .ok (finishLoad lib bytes b) := by
    rw [exifDataLoadData_segment lib exifDataNew hname, exifDataLoadData_of_header hheader hbytes, hb]
  exact ⟨b, Except.ok.inj ((exifDataLoadData_libexif libc fresh lib _).symm.trans hloaded), hreloaded⟩

/-- A file that is saved with an ExifData is loaded as the same sections, with what the ExifData had, if all payloads
fit their length fields. -/
theorem jpegDataSaveData_load (l : Layout LoadData) {saved : ExifData} {bytes : Bytes}
    (hsave : Exif.exifDataSaveData libc fresh l.app1.toExifData = some (saved, bytes)) (hbytes : bytes.length ≤ 65533)
    (hscan : l.scan.length ≤ 65533) (hsmall : (l.file bytes).length < uintSize) (hwhole : saved.Whole lib true)
    (alloc : Nat → Nat → Bool) :
    ∃ out ds, jpegDataSaveData (libexif libc fresh lib) alloc l.data none = .ok (out, ds) ∧
      ∀ block, out = some block → ∃ (d : Input) (b : LoadData), d.1.length = ds ∧ block.take ds = d.1.map some ∧
        jpegDataLoadData (libexif libc fresh lib) succeeds d jpegDataNew =
            .ok (l.withApp1 (finishLoad lib bytes b)).data ∧
          Reloaded saved exifDataNew b := by
  have hlib : (libexif libc fresh lib).save l.app1 = some bytes := by
    change (Exif.exifDataSaveData libc fresh l.app1.toExifData).map (·.2) = _
    rw [hsave, Option.map_some]
  have hfile : fileBytes (libexif libc fresh lib) l.data l.data.sections = l.file bytes := by
    rw [l.fileBytes_eq hlib, Nat.mod_eq_of_lt (Nat.lt_of_le_of_lt hbytes (by decide)), List.take_length]
  obtain ⟨b, hload, hreloaded⟩ := libexif_load_saved libc fresh lib hsave (by omega) hwhole
  obtain ⟨out, rest, hok, hout⟩ :=
    saveData_eq (savesAll_of_serialises .null (l.serialises hlib) l.readable) (hfile ▸ hsmall)
  rw [hfile] at hok hout
  rcases saveData_orFails alloc hok with halloc | ⟨ds, halloc⟩
  · refine ⟨out, _, halloc, fun block hblock => ⟨⟨l.file bytes, hsmall⟩, b, rfl, ?_, ?_, hreloaded⟩⟩
    · rw [hblock, Option.getD_some] at hout
      rw [hout, ← List.length_map (f := some), List.take_left]
    · rw [l.load_withApp1 (libexif libc fresh lib) rfl hbytes hscan, hload]
  · exact ⟨none, ds, halloc, fun _ h => nomatch h⟩

def thumbnailLayout : Layout LoadData := ⟨[], ⟨thumbnailData, true, true, 0, 0⟩, [], [1], [2, 3]⟩

theorem jpegDataSaveData_load_thumbnail : ∃ bytes, bytes.length = 77 ∧ ∀ alloc,
    ∃ out ds, jpegDataSaveData (libexif insertionSort (fun _ => 0) namesAll) alloc thumbnailLayout.data none =
        .ok (out, ds) ∧
      ∀ block, out = some block → ∃ (d : Input) (b : LoadData), d.1.length = ds ∧ block.take ds = d.1.map some ∧
        jpegDataLoadData (libexif insertionSort (fun _ => 0) namesAll) succeeds d jpegDataNew =
            .ok (thumbnailLayout.withApp1 (finishLoad namesAll bytes b)).data ∧
          Reloaded thumbnailData exifDataNew b := by
  obtain ⟨bytes, h, hlen⟩ := exists_save_thumbnailData
  refine ⟨bytes, hlen, fun alloc => ?_⟩
  refine jpegDataSaveData_load insertionSort (fun _ => 0) namesAll thumbnailLayout h (by omega) (by decide) ?_
    whole_thumbnailData alloc
  simp [Layout.file, thumbnailLayout, length_segmentBytes, hlen, uintSize]

end G361FPlatform.Jpeg
