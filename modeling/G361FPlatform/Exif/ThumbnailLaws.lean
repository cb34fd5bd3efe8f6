import Mathlib.Data.List.Sort
import G361FPlatform.Exif.SerialLaws

namespace G361FPlatform.Exif

open Library

def ExifData.nextIfd (data : ExifData) : Nat := 16 + 12 * data.entryCount .ifd0

/-- What is left when IFD 1 and the thumbnail are cut off: all before them, with zeros where IFD 0 said where they
start. -/
structure Cut (data : ExifData) (before after : Bytes) : Prop where
  within : data.nextIfd + 4 ≤ after.length
  le : after.length ≤ before.length
  eq : after = patch data.nextIfd [0, 0, 0, 0] (before.take after.length)
  whole : data.needsIfd1 = false → after = before
  start : data.needsIfd1 = true → (before.drop data.nextIfd).take 4 = exifSetLong data.order (after.length - 6)

theorem exifSetLong_zero (order : ExifByteOrder) : exifSetLong order 0 = [0, 0, 0, 0] := by
  cases order <;> rfl

theorem length_exifHeader (order : ExifByteOrder) : (exifHeader order).length = 14 := by
  cases order <;> rfl

section

variable (libc : LibC) (fresh : Nat → UInt8)

theorem exifDataSaveData_eq (data : ExifData) : exifDataSaveData libc fresh data =
    (serial libc 3 .ifd0 data 14).map fun q => (q.1, exifHeader data.order ++ q.2) := by
  have hlen := length_exifHeader data.order
  have happends := serves_serial fresh libc 3 .ifd0 data (exifHeader data.order) (by omega)
  exact happends.trans (by rw [hlen])

theorem cut_of_parts {data : ExifData} {entries tail rest : Bytes} {value : Nat}
    (hentries : entries.length = data.nextIfd) (hnone : data.needsIfd1 = false → value = 0 ∧ rest = [])
    (hstart : data.needsIfd1 = true → value = entries.length + 4 + tail.length - 6) :
    Cut data (entries ++ (exifSetLong data.order value ++ (tail ++ rest)))
      (entries ++ (exifSetLong data.order 0 ++ tail)) := by
  have hlong := length_exifSetLong data.order
  have hafter : (entries ++ (exifSetLong data.order 0 ++ tail)).length = entries.length + 4 + tail.length := by
    simp only [List.length_append, hlong]
    omega
  refine ⟨?_, ?_, ?_, fun h => ?_, fun h => ?_⟩
  · rw [hafter, hentries]
    omega
  · simp only [List.length_append, hlong]
    omega
  · have htake : (entries ++ (exifSetLong data.order value ++ (tail ++ rest))).take
        (entries ++ (exifSetLong data.order 0 ++ tail)).length = entries ++ (exifSetLong data.order value ++ tail) := by
      rw [← List.append_assoc _ tail rest, ← List.append_assoc entries (_ ++ tail) rest]
      apply List.take_left'
      simp only [List.length_append, hlong]
    rw [htake, patch_append entries tail hentries (hlong value), exifSetLong_zero]
  · obtain ⟨rfl, rfl⟩ := hnone h
    rw [List.append_nil]
  · rw [← hentries, List.drop_left, List.take_left' (hlong value), hafter, hstart h]

def alone (a : ExifData) (r : Filled ExifData UInt8) : Bytes :=
  exifSetShort a.order (a.entryCount .ifd0) ++ sorted libc a.order (a.entryCount .ifd0) r.slot ++
    (exifSetLong a.order 0 ++ r.tail)

theorem cut_alone {a a' : ExifData} {before : Bytes} {r : Filled ExifData UInt8}
    (hr : directoryOut (serial libc 2) .ifd0 a (14 + (2 + a.entryCount .ifd0 * 12 + 4)) = some r)
    (h : contentOut libc (serial libc 2) .ifd0 a 14 = some (a', before)) :
    Cut a (exifHeader a.order ++ before) (exifHeader a.order ++ alone libc a r) := by
  obtain ⟨-, s, hs, hend⟩ := contentOut_cases h
  obtain rfl : r = s := Option.some.inj (hr.symm.trans hs)
  have hupdates := directoryOut_updates (serial_steady libc True 2) hr
  have hslot := length_directoryOut libc hr
  have hneeds := hupdates.needsIfd1 trivial
  have hlength : (exifSetShort a.order (a.entryCount .ifd0) ++
      sorted libc a.order (a.entryCount .ifd0) r.slot).length = 2 + 12 * a.entryCount .ifd0 := by
    rw [List.length_append, length_exifSetShort, length_sorted libc a.order hslot, hslot]
  unfold alone
  rw [hupdates.order] at hend
  generalize exifSetShort a.order (a.entryCount .ifd0) ++
    sorted libc a.order (a.entryCount .ifd0) r.slot = entries at hend hlength ⊢
  have hentries : (exifHeader a.order ++ entries).length = a.nextIfd := by
    rw [List.length_append, length_exifHeader, hlength, ExifData.nextIfd]
    omega
  rw [← List.append_assoc _ entries]
  rcases hend with ⟨-, hnext, q, -, hpair⟩ | ⟨hnext, hpair⟩
  · cases hpair
    rw [← List.append_assoc _ entries]
    apply cut_of_parts hentries
    · intro hnone
      rw [← hneeds, hnext] at hnone
      cases hnone
    · intro _
      rw [hentries, ExifData.nextIfd]
      omega
  · cases hpair
    have hnone : a.needsIfd1 = false := by
      rw [← hneeds]
      exact Bool.eq_false_iff.mpr fun hneeds => hnext ⟨rfl, hneeds⟩
    have hcut : Cut a (exifHeader a.order ++ entries ++ (exifSetLong a.order 0 ++ (r.tail ++ [])))
        (exifHeader a.order ++ entries ++ (exifSetLong a.order 0 ++ r.tail)) :=
      cut_of_parts hentries (fun _ => ⟨rfl, rfl⟩) fun hneeds => by
        rw [hnone] at hneeds
        cases hneeds
    rw [List.append_nil] at hcut
    rw [← List.append_assoc _ entries]
    exact hcut

theorem contentOut_alone {a b : ExifData} {r : Filled ExifData UInt8}
    (hroom : 14 + (2 + a.entryCount .ifd0 * 12 + 4) < 2 ^ 32)
    (hr : directoryOut (serial libc 2) .ifd0 a (14 + (2 + a.entryCount .ifd0 * 12 + 4)) = some r)
    (hab : Alike False a b) (hb : b.needsIfd1 = false) :
    ∃ b', contentOut libc (serial libc 2) .ifd0 b 14 = some (b', alone libc a r) ∧ Alike False a b' := by
  have hsteady := serial_steady libc False 2
  have hupdates := directoryOut_updates hsteady hr
  obtain ⟨b', hb', halike⟩ := directoryOut_congr hsteady hab (fun heq : ExifIfd.ifd0 = .ifd1 => nomatch heq) r hr
  have hneeds : b'.needsIfd1 = false := (directoryOut_updates hsteady hb').needsIfd1 trivial ▸ hb
  have hcount : b.entryCount .ifd0 = a.entryCount .ifd0 := hab.entryCount fun heq => nomatch heq
  have hstop : ¬(ExifIfd.ifd0 = .ifd0 ∧ b'.needsIfd1 = true) := by
    rw [hneeds]
    exact fun hand => nomatch hand.2
  refine ⟨b', ?_, (hupdates.mono fun _ => trivial).trans halike⟩
  unfold contentOut alone
  dsimp only
  rw [hcount, if_pos hroom, hb', Option.bind_some, hab.order]
  dsimp only
  rw [if_neg hstop, halike.order, hupdates.order]

theorem serial_cut {a a' : ExifData} {before : Bytes} (h : serial libc 3 .ifd0 a 14 = some (a', before)) :
    ∃ after, Cut a (exifHeader a.order ++ before) (exifHeader a.order ++ after) ∧
      ∀ b, Alike False a b → b.needsIfd1 = false →
        ∃ b', serial libc 3 .ifd0 b 14 = some (b', after) ∧ Alike False a b' := by
  obtain ⟨hroom, r, hr, -⟩ := contentOut_cases (show contentOut libc (serial libc 2) .ifd0 a 14 = _ from h)
  exact ⟨alone libc a r, cut_alone libc hr h, fun b hab hb => contentOut_alone libc hroom hr hab hb⟩

theorem alike_removeThumbnail {a b : ExifData} (h : Alike False a b) :
    Alike False a (exifDataRemoveThumbnail b) := by
  refine ⟨h.order, h.md, h.option, fun i hi => ?_, fun hfalse => hfalse.elim⟩
  have hne : i ≠ .ifd1 := hi
  change (Function.update b.ifd .ifd1 [] i).map a.anew = _
  rw [Function.update_of_ne hne]
  exact h.ifd i hi

theorem needsIfd1_removeThumbnail (data : ExifData) :
    (exifDataRemoveThumbnail data).needsIfd1 = false := rfl

end

/-- Saved after the thumbnail has been removed, an ExifData gives what it gave before, cut off where IFD 1 started.
Whether it was saved before does not matter, nor does a second removal. -/
theorem exifDataRemoveThumbnail_cut (libc : LibC) (fresh : Nat → UInt8) {data data' : ExifData} {before : Bytes}
    (h : exifDataSaveData libc fresh data = some (data', before)) :
    ∃ after, Cut data before after ∧ ∀ kept, kept = data ∨ kept = data' → ∀ fresh₁, ∃ data₁,
      exifDataSaveData libc fresh₁ (exifDataRemoveThumbnail kept) = some (data₁, after) ∧
        ∀ fresh₂, ∃ data₂,
          exifDataSaveData libc fresh₂ (exifDataRemoveThumbnail data₁) = some (data₂, after) := by
  rw [exifDataSaveData_eq] at h
  obtain ⟨q, hq, hpair⟩ := Option.map_eq_some_iff.mp h
  cases hpair
  obtain ⟨after, hcut, hall⟩ := serial_cut libc hq
  have hsave : ∀ b, Alike False data b → ∀ fresh, ∃ b',
      exifDataSaveData libc fresh (exifDataRemoveThumbnail b) = some (b', exifHeader data.order ++ after) ∧
        Alike False data b' := by
    intro b hb fresh
    have halike := alike_removeThumbnail hb
    obtain ⟨b', hb', halike'⟩ := hall _ halike (needsIfd1_removeThumbnail b)
    refine ⟨b', ?_, halike'⟩
    rw [exifDataSaveData_eq, hb', halike.order]
    rfl
  refine ⟨_, hcut, fun kept hkept fresh₁ => ?_⟩
  have hstart : Alike False data kept := by
    rcases hkept with rfl | rfl
    · exact Alike.refl False kept
    · exact ((serial_steady libc True 3).updates hq).mono fun _ => trivial
  obtain ⟨data₁, hsave₁, halike₁⟩ := hsave kept hstart fresh₁
  refine ⟨data₁, hsave₁, fun fresh₂ => ?_⟩
  obtain ⟨data₂, hsave₂, _⟩ := hsave data₁ halike₁ fresh₂
  exact ⟨data₂, hsave₂⟩

def insertionSort : LibC :=
  ⟨fun cmp l => l.insertionSort fun a b => cmp a b ≤ 0,
    fun cmp l => List.perm_insertionSort (fun a b => cmp a b ≤ 0) l⟩

def thumbnailData : ExifData :=
  ⟨fun i => match i with
    | .ifd0 => [⟨0x0100, 3, 1, some [7, 8], 2⟩]
    | .ifd1 => [⟨0x0103, 3, 1, some [0, 6], 2⟩]
    | _ => [],
    some [9, 9, 9], 3, .motorola, none, false⟩

theorem exifDataRemoveThumbnail_cut_thumbnail : ∃ data' before after,
    exifDataSaveData insertionSort (fun _ => 0) thumbnailData = some (data', before) ∧
      Cut thumbnailData before after ∧ ∀ kept, kept = thumbnailData ∨ kept = data' → ∀ fresh₁, ∃ data₁,
        exifDataSaveData insertionSort fresh₁ (exifDataRemoveThumbnail kept) = some (data₁, after) ∧
          ∀ fresh₂, ∃ data₂,
            exifDataSaveData insertionSort fresh₂ (exifDataRemoveThumbnail data₁) = some (data₂, after) := by
  obtain ⟨⟨data', before⟩, h⟩ : ∃ saved, exifDataSaveData insertionSort (fun _ => 0) thumbnailData = some saved :=
    Option.isSome_iff_exists.mp (by decide +kernel)
  obtain ⟨after, hafter⟩ := exifDataRemoveThumbnail_cut insertionSort (fun _ => 0) h
  exact ⟨data', before, after, h, hafter⟩

end G361FPlatform.Exif
