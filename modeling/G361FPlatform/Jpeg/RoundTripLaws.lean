import G361FPlatform.Jpeg.Load
import G361FPlatform.Jpeg.NoCopyLaws

namespace G361FPlatform.Jpeg

open Library

structure Segment where
  marker : UInt8
  payload : List UInt8
  isMarker : isMarker marker = true
  plain : marker ≠ SOI ∧ marker ≠ EOI ∧ marker ≠ APP1 ∧ marker ≠ SOS
  short : payload.length ≤ 65533

def segmentBytes (marker : UInt8) (payload : List UInt8) : List UInt8 :=
  [0xff, marker] ++ lengthField payload.length ++ payload

def Segment.bytes (seg : Segment) : List UInt8 := segmentBytes seg.marker seg.payload

def container (segs : List Segment) (scan tail : List UInt8) : List UInt8 :=
  [0xff, SOI] ++ segs.flatMap Segment.bytes ++ segmentBytes SOS scan ++ tail

abbrev succeeds : Allocs := fun _ _ => true

theorem be16_lengthField {n : Nat} (h : n ≤ 65533) :
    (UInt8.ofNat ((n + 2) % uintSize / 256)).toNat * 256 + (UInt8.ofNat ((n + 2) % uintSize)).toNat = n + 2 := by
  rw [Nat.mod_eq_of_lt (Nat.lt_of_le_of_lt (Nat.add_le_add_right h 2) (by decide)), UInt8.toNat_ofNat',
    UInt8.toNat_ofNat']
  omega

namespace JPEGData

def push (sec : JPEGSection Exif) (data : JPEGData Exif) : JPEGData Exif :=
  { data with sections := data.sections ++ [sec] }

theorem modifyLast_push (sec : JPEGSection Exif) (data : JPEGData Exif)
    (f : JPEGSection Exif → JPEGSection Exif) : (data.push sec).modifyLast f = data.push (f sec) := by
  rw [modifyLast, push, List.dropLast_concat, List.getLast?_concat]
  rfl

end JPEGData

theorem byteAt_append_succ (p rest : List UInt8) (b₀ b : UInt8) :
    Block.byteAt (p ++ b₀ :: b :: rest) (p.length + 1) = .ok b := by
  have h := Block.byteAt_append (p ++ [b₀]) rest b
  rwa [List.append_assoc, List.length_append] at h

section

variable {lib : ExifLib Exif} {d : Input} {data : JPEGData Exif} {p rest : List UInt8} {marker : UInt8}

theorem scanMarker_marker {n : Nat} (hm : marker ≠ 0xff) :
    scanMarker (p ++ 0xff :: marker :: rest) p.length (n + 2) 0 = .ok 1 := by
  rw [scanMarker, Nat.add_zero, Block.byteAt_append, bind_ok, if_neg (not_not.mpr rfl), scanMarker,
    byteAt_append_succ, bind_ok, if_pos hm]

theorem loadRound_marker (lib : ExifLib Exif) (data : JPEGData Exif) {alloc : Allocs}
    (hd : d.1 = p ++ 0xff :: marker :: rest) (hm : isMarker marker = true)
    (halloc : alloc .section p.length = true) :
    loadRound lib alloc d p.length data =
      loadSection lib alloc d p.length marker (p.length + 2) (data.push ⟨marker, .null, 0⟩) := by
  have hsize := d.2
  have hlen : d.1.length = p.length + (rest.length + 2) := by
    rw [hd, List.length_append]
    rfl
  have hff : marker ≠ 0xff := by
    rintro rfl
    exact absurd hm (by decide)
  obtain ⟨n, hn⟩ : ∃ n, min 7 (rest.length + 2) = n + 2 := ⟨min 7 (rest.length + 2) - 2, by omega⟩
  have hscan : scanMarker d.1 p.length (n + 2) 0 = .ok 1 := by
    rw [hd]
    exact scanMarker_marker hff
  have hbyte : Block.byteAt d.1 (p.length + 1) = .ok marker := by
    rw [hd]
    exact byteAt_append_succ p rest 0xff marker
  have hsections : (data.appendSection true).sections ≠ [] := by simp [JPEGData.appendSection]
  unfold loadRound
  dsimp only
  rw [uintSub_eq hsize (by omega), hlen, Nat.add_sub_cancel_left, hn, hscan, bind_ok, if_neg (by omega), hbyte,
    bind_ok, if_pos hm, halloc, if_neg hsections, Nat.mod_eq_of_lt (by omega)]
  exact congrArg _ (JPEGData.modifyLast_push ⟨0, .null, 0⟩ data _)

theorem loadSection_payload (lib : ExifLib Exif) (data : JPEGData Exif) (alloc : Allocs) (round : Nat)
    {payload : List UInt8}
    (hd : d.1 = p ++ (lengthField payload.length ++ (payload ++ rest)))
    (hplain : ¬(marker = SOI ∨ marker = EOI)) (hshort : payload.length ≤ 65533) :
    loadSection lib alloc d round marker p.length data =
      loadContent lib alloc d round marker (p.length + 2) payload.length data := by
  have hdrop : d.1.drop p.length = UInt8.ofNat ((payload.length + 2) % uintSize / 256) ::
      UInt8.ofNat ((payload.length + 2) % uintSize) :: (payload ++ rest) := by
    rw [hd, List.drop_left]
    rfl
  have hfield := be16_lengthField hshort
  have ho : p.length ≤ d.1.length := by
    rw [hd, List.length_append]
    omega
  rcases loadSection_cases data ho hplain with ⟨hnot, -⟩ | ⟨hi, lo, rest', hdrop', -, -, heq⟩
  · refine absurd ⟨_, _, _, hdrop, ?_, ?_⟩ hnot
    · omega
    · rw [hfield, List.length_append]
      omega
  · rw [hdrop] at hdrop'
    cases hdrop'
    rw [heq, hfield, Nat.add_sub_cancel]

theorem loadContent_segment (lib : ExifLib Exif) (data : JPEGData Exif) (round : Nat)
    {payload : List UInt8} (hd : d.1 = p ++ (payload ++ rest))
    (hmarker : marker ≠ APP1 ∧ marker ≠ SOS) :
    loadContent lib succeeds d round marker p.length payload.length (data.push ⟨marker, .null, 0⟩) =
      .ok (some (p.length + payload.length), data.push ⟨marker, .buffer payload, payload.length⟩) := by
  have hsize := d.2
  have hlen : d.1.length = p.length + (payload.length + rest.length) := by
    rw [hd, List.length_append, List.length_append]
  have hslice : Block.slice d.1 p.length payload.length = .ok payload := by
    rw [hd]
    exact Block.slice_append p payload rest
  have hpayload : ¬succeeds .payload round = false := Bool.noConfusion
  rw [loadContent, if_neg hmarker.1, if_neg hpayload, hslice, bind_ok, if_neg hmarker.2,
    Nat.mod_eq_of_lt (by omega), JPEGData.modifyLast_push]

theorem eq_append_pair {tail : List UInt8} (h : 2 ≤ tail.length) : ∃ t a b, tail = t ++ [a, b] := by
  have hne : tail ≠ [] := by
    rintro rfl
    cases h
  have hne' : tail.dropLast ≠ [] := by
    intro hnil
    have := congrArg List.length hnil
    rw [List.length_dropLast, List.length_nil] at this
    omega
  refine ⟨tail.dropLast.dropLast, tail.dropLast.getLast hne', tail.getLast hne, ?_⟩
  rw [← List.singleton_append (l := [tail.getLast hne]), ← List.append_assoc, List.dropLast_concat_getLast,
    List.dropLast_concat_getLast]

/-- How much of what follows the scan header is taken for image data: the last two bytes are not,
where they might be a marker. -/
theorem scanSize_marker {t : List UInt8} {b : UInt8} (hd : d.1 = p ++ (t ++ [0xff, b])) :
    scanSize d p.length = .ok t.length := by
  have hlen : d.1.length = p.length + (t.length + 2) := by
    rw [hd, List.length_append, List.length_append]
    rfl
  have hbyte : Block.byteAt d.1 (p.length + t.length) = .ok 0xff := by
    rw [hd, ← List.append_assoc, ← List.length_append]
    exact Block.byteAt_append (p ++ t) [b] 0xff
  unfold scanSize
  dsimp only
  rw [uintSub_eq d.2 (by omega), hlen, Nat.add_sub_cancel_left, if_pos (by omega), Nat.add_sub_cancel, hbyte, map_ok,
    if_neg (by decide)]

theorem scanSize_all {tail : List UInt8} (hd : d.1 = p ++ tail) (h : ∀ t b, tail ≠ t ++ [0xff, b]) :
    scanSize d p.length = .ok tail.length := by
  have hlen : d.1.length = p.length + tail.length := by rw [hd, List.length_append]
  unfold scanSize
  dsimp only
  rw [uintSub_eq d.2 (by omega), hlen, Nat.add_sub_cancel_left]
  split
  next hlong =>
    obtain ⟨t, a, b, rfl⟩ := eq_append_pair hlong
    have ha : a ≠ 0xff := by
      rintro rfl
      exact h t b rfl
    have hbyte : Block.byteAt d.1 (p.length + t.length) = .ok a := by
      rw [hd, ← List.append_assoc, ← List.length_append]
      exact Block.byteAt_append (p ++ t) [b] a
    rw [List.length_append, show [a, b].length = 2 from rfl, Nat.add_sub_cancel, hbyte, map_ok, if_pos ha]
  · rfl

theorem loadContent_scan (lib : ExifLib Exif) (data : JPEGData Exif) (round : Nat)
    {scan : List UInt8} {n : Nat} (hd : d.1 = p ++ (scan ++ rest)) (hscan : scanSize d (p ++ scan).length = .ok n) (hn : n ≤ rest.length) :
    loadContent lib succeeds d round SOS p.length scan.length (data.push ⟨SOS, .null, 0⟩) =
      .ok (some (p.length + scan.length + n),
        { data.push ⟨SOS, .buffer scan, scan.length⟩ with data := some (rest.take n), size := n }) := by
  have hsize := d.2
  have hlen : d.1.length = p.length + (scan.length + rest.length) := by
    rw [hd, List.length_append, List.length_append]
  have hslice : Block.slice d.1 p.length scan.length = .ok scan := by
    rw [hd]
    exact Block.slice_append p scan rest
  have hdata : Block.slice d.1 (p.length + scan.length : Nat) n = .ok (rest.take n) := by
    rw [hd, Block.slice_eq (by simp only [List.length_append]; omega), ← List.append_assoc, ← List.length_append,
      List.drop_left]
  rw [List.length_append] at hscan
  have hpayload : ¬succeeds .payload round = false := Bool.noConfusion
  have himage : ¬succeeds .scan round = false := Bool.noConfusion
  rw [loadContent, if_neg (by decide), if_neg hpayload, hslice, bind_ok, JPEGData.modifyLast_push, if_pos rfl, hscan,
    bind_ok, if_neg himage, hdata, map_ok, Nat.mod_eq_of_lt (by omega), Nat.add_right_comm]

end

section

variable {lib : ExifLib Exif} {d : Input} {data : JPEGData Exif} {p rest : List UInt8} {marker : UInt8}

theorem loadRound_segment (lib : ExifLib Exif) (data : JPEGData Exif) {payload : List UInt8}
    (hd : d.1 = p ++ (segmentBytes marker payload ++ rest)) (hm : isMarker marker = true)
    (hplain : ¬(marker = SOI ∨ marker = EOI)) (hshort : payload.length ≤ 65533) :
    loadRound lib succeeds d p.length data = loadContent lib succeeds d p.length marker (p.length + 4)
      payload.length (data.push ⟨marker, .null, 0⟩) := by
  have hfirst : d.1 = p ++ 0xff :: marker :: (lengthField payload.length ++ (payload ++ rest)) := by
    rw [hd]
    simp [segmentBytes]
  have hsecond : d.1 = (p ++ [0xff, marker]) ++ (lengthField payload.length ++ (payload ++ rest)) := by
    rw [hd]
    simp [segmentBytes]
  have hsection := loadSection_payload lib (data.push ⟨marker, .null, 0⟩) succeeds p.length hsecond hplain hshort
  rw [List.length_append] at hsection
  rw [loadRound_marker lib data hfirst hm rfl]
  exact hsection

theorem length_segmentBytes (marker : UInt8) (payload : List UInt8) :
    (segmentBytes marker payload).length = payload.length + 4 := by
  simp only [segmentBytes, List.length_append, length_lengthField, List.length_cons, List.length_nil]
  omega

theorem payload_segmentBytes {payload : List UInt8} (hd : d.1 = p ++ (segmentBytes marker payload ++ rest)) :
    d.1 = (p ++ ([0xff, marker] ++ lengthField payload.length)) ++ (payload ++ rest) := by
  rw [hd]
  simp [segmentBytes]

theorem length_header (p : List UInt8) (marker : UInt8) (n : Nat) :
    (p ++ ([0xff, marker] ++ lengthField n)).length = p.length + 4 := by
  rw [List.length_append, List.length_append, length_lengthField]
  rfl

namespace Segment

variable (seg : Segment)

def loaded : JPEGSection Exif := ⟨seg.marker, .buffer seg.payload, seg.payload.length⟩

theorem run_eq (hd : d.1 = p ++ (seg.bytes ++ rest)) :
    (loadLoop lib succeeds d).run p.length data =
      (loadLoop lib succeeds d).run (p ++ seg.bytes).length (data.push seg.loaded) := by
  have hround := loadRound_segment lib data hd seg.isMarker
    (fun h => h.elim seg.plain.1 seg.plain.2.1) seg.short
  have hcontent := loadContent_segment lib data p.length (payload_segmentBytes hd)
    ⟨seg.plain.2.2.1, seg.plain.2.2.2⟩
  rw [length_header] at hcontent
  rw [hcontent, ← round_loadLoop] at hround
  have hlt : p.length < (loadLoop lib succeeds d).bound := by
    change p.length < d.1.length
    rw [hd, List.length_append, List.length_append, bytes, length_segmentBytes]
    omega
  rw [Forward.run_step hlt hround, List.length_append, bytes, length_segmentBytes]
  congr 1
  omega

end Segment

theorem run_segments (segs : List Segment) (hd : d.1 = p ++ (segs.flatMap Segment.bytes ++ rest)) :
    (loadLoop lib succeeds d).run p.length data =
      (loadLoop lib succeeds d).run (p ++ segs.flatMap Segment.bytes).length
        { data with sections := data.sections ++ segs.map Segment.loaded } := by
  induction segs generalizing p data with
  | nil => simp
  | cons seg segs ih =>
    rw [List.flatMap_cons, List.append_assoc] at hd
    have hnext : d.1 = (p ++ seg.bytes) ++ (segs.flatMap Segment.bytes ++ rest) := by
      rw [hd, List.append_assoc]
    rw [seg.run_eq hd, ih hnext, List.flatMap_cons, ← List.append_assoc, List.map_cons, ← List.singleton_append,
      ← List.append_assoc]
    rfl

theorem run_soi (hd : d.1 = [0xff, SOI] ++ rest) :
    (loadLoop lib succeeds d).run 0 data =
      (loadLoop lib succeeds d).run [0xff, SOI].length (data.push ⟨SOI, .null, 0⟩) := by
  have hround := @loadRound_marker _ d [] rest SOI lib data succeeds hd (by decide) rfl
  rw [loadSection, if_pos (.inl rfl), ← round_loadLoop] at hround
  refine Forward.run_step ?_ hround
  change 0 < d.1.length
  rw [hd]
  exact Nat.succ_pos _

theorem run_scan {scan : List UInt8} {n : Nat} (hd : d.1 = p ++ (segmentBytes SOS scan ++ rest))
    (hshort : scan.length ≤ 65533) (hscan : scanSize d (p ++ segmentBytes SOS scan).length = .ok n)
    (hn : n ≤ rest.length) :
    (loadLoop lib succeeds d).run p.length data =
      (loadLoop lib succeeds d).run ((p ++ segmentBytes SOS scan).length + n)
        { data.push ⟨SOS, .buffer scan, scan.length⟩ with data := some (rest.take n), size := n } := by
  have hround := loadRound_segment lib data hd (by decide) (by decide) hshort
  have hlen : (p ++ segmentBytes SOS scan).length = p.length + 4 + scan.length := by
    rw [List.length_append, length_segmentBytes]
    omega
  have hheader : ((p ++ ([0xff, SOS] ++ lengthField scan.length)) ++ scan).length =
      (p ++ segmentBytes SOS scan).length := by rw [List.length_append, length_header, hlen]
  rw [← hheader] at hscan
  have hcontent := loadContent_scan lib data p.length (payload_segmentBytes hd) hscan hn
  rw [length_header] at hcontent
  rw [hcontent, ← round_loadLoop] at hround
  have hlt : p.length < (loadLoop lib succeeds d).bound := by
    change p.length < d.1.length
    rw [hd, List.length_append, List.length_append, length_segmentBytes]
    omega
  rw [Forward.run_step hlt hround, hlen]

theorem run_tail {b : UInt8} (hd : d.1 = p ++ [0xff, b]) :
    (loadLoop lib succeeds d).run p.length data =
      .ok (if isMarker b then data.push ⟨b, .null, 0⟩ else data) := by
  have hsize := d.2
  have hlen : d.1.length = p.length + 2 := by
    rw [hd, List.length_append]
    rfl
  have hlt : p.length < (loadLoop lib succeeds d).bound := by
    change p.length < d.1.length
    omega
  by_cases hm : isMarker b = true
  · rw [if_pos hm]
    have hround := @loadRound_marker _ d p [] b lib data succeeds hd hm rfl
    have hsection : loadSection lib succeeds d p.length b (p.length + 2) (data.push ⟨b, .null, 0⟩) =
        .ok (some d.1.length, data.push ⟨b, .null, 0⟩) := by
      unfold loadSection
      split
      · rw [hlen]
      · dsimp only
        rw [uintSub_eq hsize (by omega), if_pos (by omega)]
    rw [hsection, ← round_loadLoop] at hround
    rw [Forward.run_step hlt hround]
    exact Forward.run_end (Nat.le_refl _) _
  · rw [if_neg hm]
    refine Forward.run_return hlt ?_
    rw [round_loadLoop]
    unfold loadRound
    dsimp only
    rw [uintSub_eq hsize (by omega), hlen, Nat.add_sub_cancel_left, show min 7 2 = 0 + 2 from rfl, hd]
    by_cases hff : b = 0xff
    · rw [hff, scanMarker, Nat.add_zero, Block.byteAt_append, bind_ok, if_neg (not_not.mpr rfl), scanMarker,
        byteAt_append_succ, bind_ok, if_neg (not_not.mpr rfl)]
      rfl
    · rw [scanMarker_marker hff, bind_ok, if_neg (by decide), byteAt_append_succ, bind_ok, if_neg hm]

end

def image (segs : List Segment) (scan data : List UInt8) (last : List (JPEGSection Exif)) :
    JPEGData Exif :=
  ⟨[⟨SOI, .null, 0⟩] ++ segs.map Segment.loaded ++ [⟨SOS, .buffer scan, scan.length⟩] ++ last, some data,
    data.length⟩

section

variable {lib : ExifLib Exif} {d : Input} {segs : List Segment} {scan tail : List UInt8}

theorem run_container (hd : d.1 = container segs scan tail) (hshort : scan.length ≤ 65533) {n : Nat}
    (hscan : scanSize d (([0xff, SOI] ++ segs.flatMap Segment.bytes) ++ segmentBytes SOS scan).length = .ok n)
    (hn : n ≤ tail.length) :
    jpegDataLoadData lib succeeds d jpegDataNew = (loadLoop lib succeeds d).run
      ((([0xff, SOI] ++ segs.flatMap Segment.bytes) ++ segmentBytes SOS scan).length + n)
        (image segs scan (tail.take n) []) := by
  have hsoi : d.1 = [0xff, SOI] ++ (segs.flatMap Segment.bytes ++ (segmentBytes SOS scan ++ tail)) := by
    rw [hd]
    simp [container]
  have hsos : d.1 = ([0xff, SOI] ++ segs.flatMap Segment.bytes) ++ (segmentBytes SOS scan ++ tail) := by
    rw [hd]
    simp [container]
  rw [jpegDataLoadData, run_soi hsoi, run_segments segs hsoi, run_scan hsos hshort hscan hn]
  congr 1
  simp [image, JPEGData.push, jpegDataNew, Nat.min_eq_left hn]

theorem load_container_all (hd : d.1 = container segs scan tail) (hshort : scan.length ≤ 65533)
    (htail : ∀ t b, tail ≠ t ++ [0xff, b]) :
    jpegDataLoadData lib succeeds d jpegDataNew = .ok (image segs scan tail []) := by
  rw [run_container hd hshort (scanSize_all hd htail) (Nat.le_refl _), List.take_length]
  refine Forward.run_end ?_ _
  change d.1.length ≤ _
  exact Nat.le_of_eq (by rw [hd, container, List.length_append])

theorem load_container_marker (lib : ExifLib Exif) {t : List UInt8} {b : UInt8}
    (hd : d.1 = container segs scan (t ++ [0xff, b])) (hshort : scan.length ≤ 65533) :
    jpegDataLoadData lib succeeds d jpegDataNew =
      .ok (image segs scan t (if isMarker b then [⟨b, .null, 0⟩] else [])) := by
  have hrest : d.1 = ([0xff, SOI] ++ segs.flatMap Segment.bytes ++ segmentBytes SOS scan ++ t) ++ [0xff, b] := by
    rw [hd]
    simp [container]
  rw [run_container hd hshort (scanSize_marker hd) (by simp), List.take_left, ← List.length_append, run_tail hrest]
  split <;> simp [image, JPEGData.push]

theorem sectionBytes_loaded (data : JPEGData Exif) (seg : Segment) :
    sectionBytes lib data seg.loaded = seg.bytes := by
  simp [sectionBytes, Segment.loaded, Segment.bytes, segmentBytes, seg.plain, Pointer.bytes]

theorem sectionBytes_marker (data : JPEGData Exif) {b : UInt8} (hb : b = SOI ∨ b = EOI ∨ b = APP1) :
    sectionBytes lib data ⟨b, .null, 0⟩ = [0xff, b] := by
  rcases hb with rfl | rfl | rfl <;> rfl

theorem le_length_sectionBytes (lib : ExifLib Exif) (data : JPEGData Exif) {b : UInt8}
    (hb : ¬(b = SOI ∨ b = EOI ∨ b = APP1)) :
    4 ≤ (sectionBytes lib data ⟨b, .null, 0⟩).length := by
  rw [not_or, not_or] at hb
  have hplain : ¬(b = SOI ∨ b = EOI) := fun h => h.elim hb.1 hb.2.1
  unfold sectionBytes
  simp only [hplain, hb.2.2, if_false, List.length_append, length_lengthField, List.length_cons, List.length_nil]
  omega

theorem fileBytes_image (data : List UInt8) (last : List (JPEGSection Exif)) :
    fileBytes lib (image segs scan data last) (image segs scan data last).sections =
      container segs scan data ++ last.flatMap (sectionBytes lib (image segs scan data last)) := by
  have hsegs : (segs.map Segment.loaded).flatMap (sectionBytes lib (image segs scan data last)) =
      segs.flatMap Segment.bytes := by
    rw [List.flatMap_map]
    exact congrArg (segs.flatMap ·) (funext fun seg => sectionBytes_loaded _ seg)
  have hsoi : sectionBytes lib (image segs scan data last) ⟨SOI, .null, 0⟩ = [0xff, SOI] := rfl
  have hsos : sectionBytes lib (image segs scan data last) ⟨SOS, .buffer scan, scan.length⟩ =
      segmentBytes SOS scan ++ data := by
    have hplain : ¬(SOS = SOI ∨ SOS = EOI) := by decide
    have happ : SOS ≠ APP1 := by decide
    simp [sectionBytes, hplain, happ, segmentBytes, Pointer.bytes, image]
  rw [fileBytes, image, List.flatMap_append, List.flatMap_append, List.flatMap_append, ← image, hsegs,
    List.flatMap_singleton, List.flatMap_singleton, hsoi, hsos]
  simp [container]

theorem readable_image (data : List UInt8) (last : List (JPEGSection Exif))
    (hlast : ∀ sec ∈ last, sec.content = .null ∧ sec.size = 0) :
    ∀ sec ∈ (image segs scan data last).sections, Readable (image segs scan data last) sec := by
  intro sec hsec _ _
  refine ⟨?_, fun _ => Nat.le_refl _⟩
  simp only [image, List.mem_append, List.mem_singleton, List.mem_map] at hsec
  rcases hsec with ((rfl | ⟨seg, -, rfl⟩) | rfl) | hsec
  · exact Nat.le_refl _
  · exact Nat.le_refl _
  · exact Nat.le_refl _
  · rw [(hlast sec hsec).2]
    exact Nat.zero_le _

theorem savesAll_append {data : JPEGData Exif} {sections last : List (JPEGSection Exif)} {ed : SavedExif}
    (happ : ∀ sec ∈ sections, sec.marker ≠ APP1) (hread : ∀ sec ∈ sections, Readable data sec)
    (hlast : SavesAll lib data last ed) : SavesAll lib data (sections ++ last) ed := by
  induction sections with
  | nil => exact hlast
  | cons sec sections ih =>
    have hsec := happ sec List.mem_cons_self
    refine ⟨⟨hread sec List.mem_cons_self, fun h => absurd h hsec⟩, ?_⟩
    rw [edAfter, if_neg hsec]
    exact ih (fun sec hsec => happ sec (List.mem_cons_of_mem _ hsec))
      fun sec hsec => hread sec (List.mem_cons_of_mem _ hsec)

theorem ne_app1_image : ∀ sec ∈ [(⟨SOI, .null, 0⟩ : JPEGSection Exif)] ++ segs.map Segment.loaded ++
    [⟨SOS, .buffer scan, scan.length⟩], sec.marker ≠ APP1 := by
  intro sec hsec
  simp only [List.mem_append, List.mem_singleton, List.mem_map] at hsec
  rcases hsec with (rfl | ⟨seg, -, rfl⟩) | rfl
  · exact show SOI ≠ APP1 by decide
  · exact seg.plain.2.2.1
  · exact show SOS ≠ APP1 by decide

end

section

variable {lib : ExifLib Exif} {segs : List Segment} {scan : List UInt8}

theorem savesAll_image (data : List UInt8) {last : List (JPEGSection Exif)}
    (hlast : ∀ sec ∈ last, sec.content = .null ∧ sec.size = 0)
    (hsaves : SavesAll lib (image segs scan data last) last .null) :
    SavesAll lib (image segs scan data last) (image segs scan data last).sections .null :=
  savesAll_append ne_app1_image
    (fun sec hsec => readable_image data last hlast sec (List.mem_append_left _ hsec)) hsaves

theorem serialises_image {data : List UInt8} {last : List (JPEGSection Exif)}
    (hlast : ∀ sec ∈ last, sec.marker ≠ APP1) :
    ∀ sec ∈ (image segs scan data last).sections, sec.marker = APP1 → Serialises lib sec := by
  intro sec hsec happ
  rcases List.mem_append.mp hsec with hsec | hsec
  · exact absurd happ (ne_app1_image sec hsec)
  · exact absurd happ (hlast sec hsec)

theorem length_container (segs : List Segment) (scan t t' : List UInt8) :
    (container segs scan (t ++ t')).length = (container segs scan t).length + t'.length := by
  rw [container, container, ← List.append_assoc, List.length_append]

end

def loadAndSave (lib : ExifLib Exif) (d : Input) : Except Stuck (Option Block × Nat) :=
  (jpegDataLoadData lib succeeds d jpegDataNew).bind fun data =>
    jpegDataSaveData lib (fun _ _ => true) data none

def RoundTrips (lib : ExifLib Exif) (d : Input) : Prop :=
  ∃ out : Option Block, loadAndSave lib d = .ok (out, d.1.length) ∧
    (out.getD []).take d.1.length = d.1.map some

section

variable {lib : ExifLib Exif} {d : Input} {data : JPEGData Exif}

theorem roundTrips_of_fileBytes (hload : jpegDataLoadData lib succeeds d jpegDataNew = .ok data)
    (hsaves : SavesAll lib data data.sections .null) (hbytes : fileBytes lib data data.sections = d.1) :
    RoundTrips lib d := by
  obtain ⟨out, rest, hsave, hout⟩ := saveData_eq hsaves (by rw [hbytes]; exact d.2)
  rw [hbytes] at hsave hout
  refine ⟨out, by rw [loadAndSave, hload, bind_ok, hsave], ?_⟩
  rw [hout, ← List.length_map (f := some), List.take_left]

theorem fileBytes_of_roundTrips (hload : jpegDataLoadData lib succeeds d jpegDataNew = .ok data)
    (hexif : ∀ sec ∈ data.sections, sec.marker = APP1 → Serialises lib sec) (h : RoundTrips lib d) :
    fileBytes lib data data.sections = d.1 := by
  obtain ⟨out, hsave, hout⟩ := h
  rw [loadAndSave, hload, bind_ok] at hsave
  obtain ⟨hread, hsmall⟩ := saveData_inv hexif hsave
  obtain ⟨out', rest, heq, hout'⟩ := saveData_eq (savesAll_of_serialises .null hexif hread) hsmall
  rw [heq] at hsave
  obtain ⟨rfl, hlen⟩ := Prod.mk.inj (Except.ok.inj hsave)
  rw [hout', ← hlen, ← List.length_map (f := some), List.take_left] at hout
  exact (List.map_inj_right fun _ _ => Option.some.inj).mp hout

end

/-- The last two bytes come back, if they are taken for a marker. -/
def TailKept (tail : List UInt8) : Prop :=
  ∀ t b, tail = t ++ [0xff, b] → b = SOI ∨ b = EOI ∨ b = APP1

/-- A file is the same after load and save exactly if its last two bytes are no `0xff` and something
else than SOI, EOI or APP1. -/
theorem roundTrips_iff (lib : ExifLib Exif) (segs : List Segment) {scan : List UInt8} (tail : List UInt8)
    (hshort : scan.length ≤ 65533) (hsize : (container segs scan tail).length < uintSize) :
    RoundTrips lib ⟨container segs scan tail, hsize⟩ ↔ TailKept tail := by
  by_cases hlast : ∃ t b, tail = t ++ [0xff, b]
  · obtain ⟨t, b, rfl⟩ := hlast
    have hload := load_container_marker lib (d := ⟨_, hsize⟩) rfl hshort
    have hkept : TailKept (t ++ [0xff, b]) ↔ b = SOI ∨ b = EOI ∨ b = APP1 := by
      refine ⟨fun h => h t b rfl, fun h t' b' heq => ?_⟩
      have := (List.append_inj' heq rfl).2
      cases this
      exact h
    rw [hkept]
    by_cases hm : isMarker b = true
    · rw [if_pos hm] at hload
      have hnull : ∀ sec ∈ [(⟨b, .null, 0⟩ : JPEGSection Exif)], sec.content = .null ∧ sec.size = 0 := by
        intro sec hsec
        rw [List.mem_singleton.mp hsec]
        exact ⟨rfl, rfl⟩
      by_cases hb : b = SOI ∨ b = EOI ∨ b = APP1
      · refine ⟨fun _ => hb, fun _ => roundTrips_of_fileBytes hload (savesAll_image t hnull ⟨⟨?_, ?_⟩, trivial⟩) ?_⟩
        · exact readable_image t _ hnull _ (List.mem_append_right _ List.mem_cons_self)
        · exact fun _ => .inr ⟨rfl, rfl⟩
        · rw [fileBytes_image, List.flatMap_singleton, sectionBytes_marker _ hb]
          simp [container]
      · refine ⟨fun h => ?_, fun h => absurd h hb⟩
        -- the section written for the two bytes has a length field besides
        have hbytes := congrArg List.length (fileBytes_of_roundTrips hload (serialises_image fun sec hsec => by
          rw [List.mem_singleton.mp hsec]
          exact fun happ => hb (.inr (.inr happ))) h)
        have hlong := le_length_sectionBytes lib (image segs scan t [⟨b, .null, 0⟩]) hb
        rw [fileBytes_image, List.flatMap_singleton, List.length_append, length_container] at hbytes
        simp only [List.length_cons, List.length_nil] at hbytes
        omega
    · rw [if_neg hm] at hload
      refine ⟨fun h => ?_, fun h => absurd ?_ hm⟩
      · -- the two bytes are dropped
        have hbytes := congrArg List.length (fileBytes_of_roundTrips hload
          (serialises_image fun _ h => nomatch h) h)
        rw [fileBytes_image, List.flatMap_nil, List.append_nil, length_container] at hbytes
        simp only [List.length_cons, List.length_nil] at hbytes
        omega
      · rcases h with rfl | rfl | rfl <;> decide
  · have hall : ∀ t b, tail ≠ t ++ [0xff, b] := fun t b heq => hlast ⟨t, b, heq⟩
    refine ⟨fun _ t b heq => absurd heq (hall t b), fun _ => ?_⟩
    refine roundTrips_of_fileBytes (load_container_all rfl hshort hall)
      (savesAll_image tail (fun _ h => nomatch h) trivial) ?_
    rw [fileBytes_image, List.flatMap_nil, List.append_nil]

/-- A comment, and image data that ends in EOI. -/
theorem roundTrips_iff_comment :
    RoundTrips noExif ⟨container [⟨COM, [65], by decide, by decide, by decide⟩] [1] [7, 0xff, EOI], by decide⟩ ↔
      TailKept [7, 0xff, EOI] :=
  roundTrips_iff noExif _ _ (by decide) _

/-- Image data that was cut off behind a stuffed `0xff`: the last two bytes are lost. -/
theorem not_roundTrips_stuffed : ¬RoundTrips noExif ⟨container [] [1] [7, 0xff, 0], by decide⟩ := by
  rintro ⟨out, hsave, -⟩
  have hsize : (loadAndSave noExif ⟨container [] [1] [7, 0xff, 0], by decide⟩).toOption.map Prod.snd = some 8 := by
    decide +kernel
  rw [hsave] at hsize
  exact absurd (Option.some.inj hsize) (show (container [] [1] [7, 0xff, 0]).length ≠ 8 by decide)

end G361FPlatform.Jpeg
