import G361FPlatform.Exif.AlikeLaws

namespace G361FPlatform.Exif

open Library

theorem length_exifSetShort (order : ExifByteOrder) (value : Nat) :
    (exifSetShort order value).length = 2 := by
  cases order <;> rfl

theorem length_exifSetLong (order : ExifByteOrder) (value : Nat) :
    (exifSetLong order value).length = 4 := by
  cases order <;> rfl

theorem length_copied {data : Option Bytes} {s : Nat} {bytes : Bytes} (h : copied data s = some bytes) :
    bytes.length = s := by
  unfold copied at h
  split at h
  · split at h
    next hs =>
      cases h
      exact List.length_take_of_le hs
    · cases h
  · cases h
    exact List.length_replicate

section

variable (fresh : Nat → UInt8)

theorem grow_add (d : Bytes) (k : Nat) : ∃ new : Bytes, new.length = k ∧
    grow fresh (d.length + k) d = if d.length + k < 2 ^ 32 then some (d ++ new) else none := by
  refine ⟨(List.range (d.length + k - d.length)).map fun i => fresh (d.length + i), ?_, rfl⟩
  rw [List.length_map, List.length_range, Nat.add_sub_cancel_left]

theorem patch_tag_format {pos : Nat} {A J x y : Bytes} (B : Bytes) (hA : A.length = pos) (hJ : J.length = 12)
    (hx : x.length = 2) (hy : y.length = 2) :
    patch (pos + 2) y (patch (pos + 0) x (A ++ (J ++ B))) = (A ++ (x ++ y)) ++ (J.drop 4 ++ B) := by
  rw [patch_append_drop A B (show A.length = pos + 0 from hA) (by omega), ← List.append_assoc A x,
    patch_append_drop (A ++ x) B (by rw [List.length_append, hA, hx])
      (by rw [List.length_drop]; omega), List.drop_drop, hx, hy]
  simp only [List.append_assoc]

theorem patch_components {pos : Nat} {A J h z : Bytes} (B : Bytes) (hA : A.length = pos) (hJ : J.length = 12)
    (hh : h.length = 4) (hz : z.length = 4) :
    patch (pos + 4) z ((A ++ h) ++ (J.drop 4 ++ B)) = (A ++ (h ++ z)) ++ (J.drop 8 ++ B) := by
  rw [patch_append_drop (A ++ h) B (by rw [List.length_append, hA, hh]) (by rw [List.length_drop]; omega),
    List.drop_drop, hz]
  simp only [List.append_assoc]

theorem setSpecial_append (order : ExifByteOrder) (tag value : Nat) {offset : Nat} {A J : Bytes} (B : Bytes)
    (hA : A.length = 6 + offset) (hJ : J.length = 12) :
    setSpecial order tag value offset (A ++ (J ++ B)) = A ++ (specialSlot order tag value ++ B) := by
  have hshort := length_exifSetShort order
  have hlong := length_exifSetLong order
  unfold setSpecial
  dsimp only
  rw [patch_tag_format B hA hJ (hshort _) (hshort _),
    patch_components B hA hJ (by simp only [List.length_append, hshort]) (hlong _),
    patch_append _ B (by simp only [List.length_append, hshort, hlong, hA]) (by rw [List.length_drop, hJ, hlong])]
  simp only [specialSlot, List.append_assoc]

theorem pad_append {Q F : Bytes} {s : Nat} (hF : F.length = s + s % 2) :
    (if s % 2 = 1 then patch ((Q ++ F).length - 1) [0] (Q ++ F) else Q ++ F) =
      Q ++ (F.take s ++ List.replicate (s % 2) 0) := by
  by_cases hodd : s % 2 = 1
  · have hlen : (Q ++ F.take s).length = (Q ++ F).length - 1 := by
      rw [List.length_append, List.length_append, List.length_take]
      omega
    have hsplit : Q ++ F = (Q ++ F.take s) ++ (F.drop s ++ []) := by
      rw [List.append_nil, List.append_assoc, List.take_append_drop]
    rw [if_pos hodd, hodd]
    nth_rewrite 2 [hsplit]
    rw [patch_append _ _ hlen (by rw [List.length_drop, hF, hodd, Nat.add_sub_cancel_left]; rfl), List.append_assoc]
    rfl
  · have heven : s % 2 = 0 := by omega
    rw [if_neg hodd, heven, List.take_of_length_le (by omega)]
    exact congrArg (Q ++ ·) (List.append_nil F).symm

theorem patch_value {P J bytes : Bytes} (B : Bytes) {offset s : Nat} (hP : P.length = 6 + offset) (hJ : J.length = 4)
    (hs : s ≤ 4) (hbytes : bytes.length = s) :
    (let d := patch (6 + offset) bytes (P ++ (J ++ B))
      if s < 4 then patch (6 + offset + s) (List.replicate (4 - s) 0) d else d) =
      P ++ ((bytes ++ List.replicate (4 - s) 0) ++ B) := by
  subst hbytes
  dsimp only
  rw [patch_append_drop P B hP (by omega)]
  by_cases hshorter : bytes.length < 4
  · rw [if_pos hshorter, ← List.append_assoc P bytes,
      patch_append (P ++ bytes) B (by rw [List.length_append, hP])
        (by rw [List.length_drop, List.length_replicate, hJ])]
    simp only [List.append_assoc]
  · rw [if_neg hshorter, List.drop_eq_nil_of_le (by omega), Nat.sub_eq_zero_of_le (Nat.not_lt.mp hshorter),
      List.replicate_zero, List.append_nil, List.nil_append]

theorem patch_offset {P J F bytes value : Bytes} (B : Bytes) {offset s : Nat} (hP : P.length = 6 + offset)
    (hJ : J.length = 4) (hvalue : value.length = 4) (hF : F.length = s + s % 2) (hbytes : bytes.length = s) :
    (let d := patch (6 + offset) value ((P ++ (J ++ B)) ++ F);
      patch (6 + ((P ++ (J ++ B)).length - 6)) bytes (if s % 2 = 1 then patch (d.length - 1) [0] d else d)) =
      P ++ (value ++ (B ++ (bytes ++ List.replicate (s % 2) 0))) := by
  have hold : 6 + ((P ++ (J ++ B)).length - 6) = (P ++ (value ++ B)).length := by
    simp only [List.length_append, hP, hJ, hvalue]
    omega
  have hfield : patch (6 + offset) value ((P ++ (J ++ B)) ++ F) = (P ++ (value ++ B)) ++ F := by
    rw [List.append_assoc P, List.append_assoc J, patch_append P (B ++ F) hP (by rw [hJ, hvalue])]
    simp only [List.append_assoc]
  dsimp only
  rw [hold, hfield, pad_append hF, patch_append _ _ rfl (by rw [List.length_take, hF, hbytes]; omega)]
  simp only [List.append_assoc]

theorem fills_entry (data : ExifData) (e : ExifEntry) :
    Fills 6 12 (exifDataSaveDataEntry fresh data e) (entryOut data e) := by
  have hshort := length_exifSetShort data.order
  have hlong := length_exifSetLong data.order
  refine ⟨fun h => ?_, fun A J B offset hA hJ => ?_⟩
  · unfold entryOut at h
    dsimp only at h
    split at h
    · split at h
      · obtain ⟨bytes, _, rfl⟩ := Option.map_eq_some_iff.mp h
        simp only [List.length_append, hshort, hlong]
      · cases h
    next hs =>
      obtain ⟨bytes, hbytes, rfl⟩ := Option.map_eq_some_iff.mp h
      simp only [List.length_append, List.length_replicate, hshort, hlong, length_copied hbytes]
      omega
  · have hlen : ((A ++ (exifSetShort data.order e.tag.toNat ++ exifSetShort data.order e.format)) ++
        (J.drop 4 ++ B)).length = A.length + 12 + B.length := by
      simp only [List.length_append, List.length_drop, hshort, hJ]
      omega
    unfold exifDataSaveDataEntry entryOut
    dsimp only
    rw [patch_tag_format B hA hJ (hshort _) (hshort _), hlen]
    generalize data.updateMakerNote (A.length + 12 + B.length) e = e'
    rw [patch_components B hA hJ (by simp only [List.length_append, hshort]) (hlong _)]
    have hhead : (A ++ (exifSetShort data.order e.tag.toNat ++ exifSetShort data.order e.format ++
        exifSetLong data.order e'.components)).length = 6 + (offset + 8) := by
      simp only [List.length_append, hshort, hlong, hA]
      omega
    have hlast : (J.drop 8).length = 4 := by rw [List.length_drop, hJ]
    have hall : (A ++ (exifSetShort data.order e.tag.toNat ++ exifSetShort data.order e.format ++
        exifSetLong data.order e'.components) ++ (J.drop 8 ++ B)).length = A.length + 12 + B.length := by
      rw [List.length_append, hhead, List.length_append, hlast]
      omega
    rw [← hall]
    split
    next hs =>
      obtain ⟨F, hF, hgrow⟩ := grow_add fresh (A ++ (exifSetShort data.order e.tag.toNat ++
        exifSetShort data.order e.format ++ exifSetLong data.order e'.components) ++ (J.drop 8 ++ B))
        (e'.dataSize + e'.dataSize % 2)
      rw [Nat.add_assoc, hgrow]
      split
      · rw [Option.bind_some, Option.map_map]
        apply Option.map_congr
        intro bytes hbytes
        rw [Nat.add_assoc 6 offset 8, patch_offset B hhead hlast (hlong _) hF (length_copied hbytes)]
        simp only [Function.comp_apply, List.append_assoc]
      · rfl
    next hs =>
      rw [Option.map_map]
      apply Option.map_congr
      intro bytes hbytes
      rw [patch_value B hhead hlast (Nat.not_lt.mp hs) (length_copied hbytes)]
      simp only [Function.comp_apply, List.append_assoc, List.append_nil]

theorem fills_entries (data : ExifData) (es : List ExifEntry) :
    Fills 6 (12 * es.length) (saveEntries fresh data es) (entriesOut data es) := by
  induction es with
  | nil => exact Fills.skip []
  | cons e es ih =>
    have hwidth : 12 * (e :: es).length = 12 + 12 * es.length := by
      rw [List.length_cons]
      omega
    rw [hwidth]
    have hboth := Fills.bind
      (g := fun x offset d => (saveEntries fresh data es offset d).map fun q => (x :: q.1, q.2))
      (p := fun x n => (entriesOut data es n).map fun q => ⟨x :: q.value, q.slot, q.tail⟩)
      (fills_entry fresh data e)
      fun _ r _ => ih.map (r.value :: ·)
    have hout : entriesOut data (e :: es) = fun n => (entryOut data e n).bind fun r =>
        ((entriesOut data es (n + r.tail.length)).map fun q =>
          (⟨r.value :: q.value, q.slot, q.tail⟩ : Filled (List ExifEntry) UInt8)).map r.and := by
      funext n
      simp only [entriesOut, Option.map_map]
      rfl
    rw [hout]
    exact hboth

theorem length_specialSlot (order : ExifByteOrder) (tag value : Nat) :
    (specialSlot order tag value).length = 12 := by
  simp only [specialSlot, List.length_append, length_exifSetShort, length_exifSetLong]

theorem fills_thumbnail (data : ExifData) :
    Fills 6 (if data.needsThumbnail then 24 else 0) (saveThumbnail fresh data) (thumbnailOut data) := by
  have hslot := length_specialSlot data.order
  by_cases hneeds : data.needsThumbnail = true
  swap
  · have hstep : saveThumbnail fresh data = fun _ d => some (data, d) := by
      funext offset d
      exact if_neg hneeds
    have hout : thumbnailOut data = fun _ => some ⟨data, [], []⟩ := by
      funext n
      exact if_neg hneeds
    rw [if_neg hneeds, hstep, hout]
    exact Fills.skip data
  rw [if_pos hneeds]
  refine ⟨fun h => ?_, fun A J B offset hA hJ => ?_⟩
  · rw [thumbnailOut, if_pos hneeds] at h
    split at h
    · obtain ⟨bytes, _, rfl⟩ := Option.map_eq_some_iff.mp h
      simp only [List.length_append, hslot]
    · cases h
  · have hsplit : A ++ (J ++ B) = A ++ (J.take 12 ++ (J.drop 12 ++ B)) := by
      rw [← List.append_assoc (J.take 12), List.take_append_drop]
    have hn : (A ++ (J ++ B)).length = A.length + 24 + B.length := by
      rw [List.length_append, List.length_append, hJ, Nat.add_assoc]
    have hfirst : ∀ tag value, setSpecial data.order tag value offset (A ++ (J ++ B)) =
        A ++ (specialSlot data.order tag value ++ (J.drop 12 ++ B)) := by
      intro tag value
      rw [hsplit, setSpecial_append data.order tag value _ hA (List.length_take_of_le (by omega))]
    have hlen : ∀ tag value, (A ++ (specialSlot data.order tag value ++ (J.drop 12 ++ B))).length =
        A.length + 24 + B.length := by
      intro tag value
      simp only [List.length_append, List.length_drop, hslot, hJ]
      omega
    rw [saveThumbnail, thumbnailOut, if_pos hneeds, if_pos hneeds, hn]
    dsimp only
    rw [hfirst]
    obtain ⟨F, hF, hgrow⟩ := grow_add fresh (A ++ (specialSlot data.order EXIF_TAG_JPEG_INTERCHANGE_FORMAT
      (A.length + 24 + B.length - 6) ++ (J.drop 12 ++ B))) data.size
    rw [hgrow, hlen]
    split
    · rw [Option.bind_some, Option.map_map]
      apply Option.map_congr
      intro bytes hbytes
      have hsize : bytes.length = data.size := by
        obtain ⟨block, _, hcopied⟩ := Option.bind_eq_some_iff.mp hbytes
        exact length_copied hcopied
      have hfirst12 := hslot EXIF_TAG_JPEG_INTERCHANGE_FORMAT (A.length + 24 + B.length - 6)
      generalize specialSlot data.order EXIF_TAG_JPEG_INTERCHANGE_FORMAT (A.length + 24 + B.length - 6) = first at *
      have hbehind : patch ((A ++ (first ++ (J.drop 12 ++ B)) ++ F).length - data.size) bytes
          (A ++ (first ++ (J.drop 12 ++ B)) ++ F) = (A ++ first) ++ (J.drop 12 ++ (B ++ bytes)) := by
        rw [patch_end _ hF hsize]
        simp only [List.append_assoc]
      rw [hbehind, setSpecial_append data.order _ _ _ _ (by rw [List.length_drop, hJ])]
      · simp only [Function.comp_apply, List.append_assoc]
      · rw [List.length_append, hA, hfirst12, Nat.add_assoc]
    · rfl

def Serves (save : ExifIfd → ExifData → Nat → Bytes → Option (ExifData × Bytes))
    (sub : ExifIfd → ExifData → Nat → Option (ExifData × Bytes)) : Prop :=
  ∀ i data d, 6 ≤ d.length → Appends (fun d => save i data (d.length - 6) d) (sub i data) d

variable {save : ExifIfd → ExifData → Nat → Bytes → Option (ExifData × Bytes)}
  {sub : ExifIfd → ExifData → Nat → Option (ExifData × Bytes)}

theorem fills_pointer (hsave : Serves save sub) (needed : Bool) (tag : Nat) (i : ExifIfd) (data : ExifData) :
    Fills 6 (if needed then 12 else 0) (savePointer save needed tag i data) (pointerOut sub needed tag i data) := by
  cases needed
  · exact Fills.skip data
  refine ⟨fun h => ?_, fun A J B offset hA hJ => ?_⟩
  · obtain ⟨q, _, rfl⟩ := Option.map_eq_some_iff.mp h
    exact length_specialSlot data.order tag _
  · have hn : (A ++ (J ++ B)).length = A.length + 12 + B.length := by
      rw [List.length_append, List.length_append, hJ, Nat.add_assoc]
      rfl
    change save i data ((A ++ (J ++ B)).length - 6) (setSpecial data.order tag ((A ++ (J ++ B)).length - 6) offset
      (A ++ (J ++ B))) = ((sub i data (A.length + 12 + B.length)).map _).map _
    rw [hn, setSpecial_append data.order tag _ B hA hJ]
    have hlen : (A ++ (specialSlot data.order tag (A.length + 12 + B.length - 6) ++ B)).length =
        A.length + 12 + B.length := by
      rw [List.length_append, List.length_append, length_specialSlot, Nat.add_assoc]
    have happends := hsave i data (A ++ (specialSlot data.order tag (A.length + 12 + B.length - 6) ++ B)) (by omega)
    rw [Appends, hlen] at happends
    rw [happends, Option.map_map]
    apply congrArg (fun f => Option.map f _)
    funext q
    simp only [Function.comp_apply, List.append_assoc]
    rfl

theorem fills_special (hsave : Serves save sub) (hsub : Steady sub True) (i : ExifIfd) (data : ExifData) :
    Fills 6 (12 * data.specialCount i) (saveSpecial fresh save i data) (specialOut sub i data) := by
  cases i with
  | ifd0 =>
    have hwidth : 12 * data.specialCount .ifd0 =
        (if data.needsExif then 12 else 0) + (if data.needsGps then 12 else 0) := by
      rw [ExifData.specialCount]
      cases data.needsExif <;> cases data.needsGps <;> rfl
    rw [hwidth]
    apply Fills.bind
      (g := fun data' offset d => savePointer save data'.needsGps EXIF_TAG_GPS_INFO_IFD_POINTER .gps data' offset d)
      (p := fun data' n => pointerOut sub data'.needsGps EXIF_TAG_GPS_INFO_IFD_POINTER .gps data' n)
      (fills_pointer hsave data.needsExif EXIF_TAG_EXIF_IFD_POINTER .exif data)
    intro n r hr
    rw [← (pointerOut_updates hsub hr).needsGps]
    exact fills_pointer hsave _ _ _ _
  | ifd1 =>
    have hwidth : 12 * data.specialCount .ifd1 = if data.needsThumbnail then 24 else 0 := by
      rw [ExifData.specialCount]
      cases data.needsThumbnail <;> rfl
    rw [hwidth]
    exact fills_thumbnail fresh data
  | exif =>
    have hwidth : 12 * data.specialCount .exif = if data.needsInteroperability then 12 else 0 := by
      rw [ExifData.specialCount]
      cases data.needsInteroperability <;> rfl
    rw [hwidth]
    exact fills_pointer hsave _ _ _ data
  | gps => exact Fills.skip data
  | interoperability => exact Fills.skip data

theorem specialCount_setIfd (data : ExifData) (i : ExifIfd) (es : ExifContent) :
    (data.setIfd i es).specialCount i = data.specialCount i := by
  cases i <;> rfl

theorem fills_directory (hsave : Serves save sub) (hsub : Steady sub True) (i : ExifIfd) (data : ExifData) :
    Fills 6 (12 * data.entryCount i) (saveDirectory fresh save i data) (directoryOut sub i data) := by
  rw [ExifData.entryCount, Nat.mul_add]
  apply Fills.bind (g := fun es offset d => saveSpecial fresh save i (data.setIfd i es) offset d)
    (p := fun es n => specialOut sub i (data.setIfd i es) n) (fills_entries fresh data (data.ifd i))
  intro n r _
  rw [← specialCount_setIfd data i r.value]
  exact fills_special fresh hsave hsub i _

theorem length_sorted (libc : LibC) (order : ExifByteOrder) {S : Bytes} {n : Nat} (hS : S.length = 12 * n) :
    (sorted libc order n S).length = S.length := by
  have hperm := (libc.perm (cmpFunc order) ((List.range n).map fun k => (S.drop (12 * k)).take 12)).flatten.length_eq
  have htwelve : ∀ k ∈ List.range n, (List.length ∘ fun k => (S.drop (12 * k)).take 12) k = 12 := by
    intro k hk
    have hlt := List.mem_range.mp hk
    rw [Function.comp_apply, List.length_take, List.length_drop]
    omega
  rw [sorted, hperm, List.length_flatten, List.map_map, List.map_congr_left htwelve,
    List.map_const', List.length_range,
    List.sum_replicate_nat, hS, Nat.mul_comm]

theorem sortDirectory_append (libc : LibC) (order : ExifByteOrder) {A S : Bytes} (B : Bytes) {offset n : Nat}
    (hA : A.length = 6 + offset) (hS : S.length = 12 * n) :
    sortDirectory libc order offset n (A ++ (S ++ B)) = A ++ (sorted libc order n S ++ B) := by
  have hentry : ∀ k ∈ List.range n, ((A ++ (S ++ B)).drop (6 + offset + 12 * k)).take 12 =
      (S.drop (12 * k)).take 12 := by
    intro k hk
    have hlt := List.mem_range.mp hk
    rw [← hA, List.drop_append, List.drop_eq_nil_of_le (Nat.le_add_right _ _), List.nil_append,
      Nat.add_sub_cancel_left, List.drop_append_of_le_length (by omega),
      List.take_append_of_le_length (by rw [List.length_drop]; omega)]
  rw [sortDirectory, List.map_congr_left hentry]
  exact patch_append A B hA (length_sorted libc order hS).symm

theorem exists_room {J : Bytes} {count : Nat} (hJ : J.length = 2 + count * 12 + 4) :
    ∃ J₀ J₁ J₂, J = J₀ ++ (J₁ ++ J₂) ∧ J₀.length = 2 ∧ J₁.length = 12 * count ∧ J₂.length = 4 := by
  refine ⟨J.take 2, (J.drop 2).take (12 * count), (J.drop 2).drop (12 * count), ?_, ?_, ?_, ?_⟩
  · rw [List.take_append_drop, List.take_append_drop]
  · rw [List.length_take]
    omega
  · rw [List.length_take, List.length_drop]
    omega
  · rw [List.length_drop, List.length_drop]
    omega

theorem serves_content (libc : LibC) (hsave : Serves save sub) (hsub : Steady sub True) :
    Serves (exifDataSaveDataContentWith libc fresh save) (contentOut libc sub) := by
  intro i data d hd
  have hshort := length_exifSetShort data.order (data.entryCount i)
  obtain ⟨J, hJ, hgrow⟩ := grow_add fresh d (2 + data.entryCount i * 12 + 4)
  unfold Appends exifDataSaveDataContentWith contentOut
  dsimp only
  rw [hgrow]
  split
  swap
  · rfl
  obtain ⟨J₀, J₁, J₂, rfl, hJ₀, hJ₁, hJ₂⟩ := exists_room hJ
  have hpos : d.length = 6 + (d.length - 6) := by omega
  rw [Option.bind_some, patch_append d (J₁ ++ J₂) hpos (hJ₀.trans hshort.symm), ← List.append_assoc]
  have hA : (d ++ exifSetShort data.order (data.entryCount i)).length = 6 + (d.length - 6 + 2) := by
    rw [List.length_append, hshort]
    omega
  rw [(fills_directory fresh hsave hsub i data).fill _ J₁ J₂ _ hA hJ₁]
  have hfirst : (d ++ exifSetShort data.order (data.entryCount i)).length + 12 * data.entryCount i + J₂.length =
      d.length + (2 + data.entryCount i * 12 + 4) := by
    omega
  rw [hfirst]
  cases hr : directoryOut sub i data (d.length + (2 + data.entryCount i * 12 + 4)) with
  | none => rfl
  | some r =>
    have hslot := (fills_directory fresh hsave hsub i data).slot_length hr
    have hlen := length_sorted libc r.value.order hslot
    simp only [Option.map_some, Option.bind_some]
    rw [sortDirectory_append libc r.value.order (J₂ ++ r.tail) hA hslot]
    generalize sorted libc r.value.order (data.entryCount i) r.slot = S at hlen ⊢
    have hterminate : ∀ value, patch (6 + (d.length - 6 + 2 + 12 * data.entryCount i))
        (exifSetLong r.value.order value) (d ++ exifSetShort data.order (data.entryCount i) ++ (S ++ (J₂ ++ r.tail))) =
          d ++ (exifSetShort data.order (data.entryCount i) ++ S ++ (exifSetLong r.value.order value ++ r.tail)) := by
      intro value
      rw [← List.append_assoc _ S, patch_append _ r.tail]
      · simp only [List.append_assoc]
      · rw [List.length_append, hA, hlen, hslot, Nat.add_assoc]
      · rw [hJ₂, length_exifSetLong]
    have hnext : (d ++ exifSetShort data.order (data.entryCount i) ++ (S ++ (J₂ ++ r.tail))).length =
        d.length + (2 + data.entryCount i * 12 + 4) + r.tail.length := by
      simp only [List.length_append, hshort, hlen, hslot, hJ₂]
      omega
    rw [hterminate, hterminate, hnext]
    split
    · have hlast : (d ++ (exifSetShort data.order (data.entryCount i) ++ S ++ (exifSetLong r.value.order
          (d.length + (2 + data.entryCount i * 12 + 4) + r.tail.length - 6) ++ r.tail))).length =
            d.length + (2 + data.entryCount i * 12 + 4) + r.tail.length := by
        simp only [List.length_append, hshort, hlen, hslot, length_exifSetLong]
        omega
      generalize hl : d ++ (exifSetShort data.order (data.entryCount i) ++ S ++ (exifSetLong r.value.order
          (d.length + (2 + data.entryCount i * 12 + 4) + r.tail.length - 6) ++ r.tail)) = l at hlast ⊢
      have happends := hsave .ifd1 r.value l (by omega)
      rw [Appends, hlast] at happends
      rw [happends, Option.map_map, ← hl]
      apply congrArg (fun f => Option.map f _)
      funext q
      simp only [Function.comp_apply, List.append_assoc]
    · rfl

theorem serves_serial (libc : LibC) (depth : Nat) :
    Serves (exifDataSaveDataContent libc fresh depth) (serial libc depth) := by
  induction depth with
  | zero => exact fun _ _ _ _ => rfl
  | succ depth ih => exact serves_content fresh libc ih (serial_steady libc True depth)

end

theorem length_directoryOut (libc : LibC) {depth n : Nat} {i : ExifIfd} {data : ExifData} {r : Filled ExifData UInt8}
    (h : directoryOut (serial libc depth) i data n = some r) :
    r.slot.length = 12 * data.entryCount i :=
  (fills_directory (fun _ => 0) (serves_serial (fun _ => 0) libc depth) (serial_steady libc True depth) i
    data).slot_length h

end G361FPlatform.Exif
