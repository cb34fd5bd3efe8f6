import G361FPlatform.Exif.Save

namespace G361FPlatform.Exif

open Library

/-! What `exif_data_save_data` writes, put together from front to back: no byte is written twice, and nothing
depends on what memory held before. -/

section Pieces

variable (data : ExifData)

/-- An entry where `n` bytes have been written so far: its 12 bytes, and what it puts behind everything. -/
def entryOut (e : ExifEntry) (n : Nat) : Option (Filled ExifEntry UInt8) :=
  let e' := data.updateMakerNote n e
  let head := exifSetShort data.order e.tag.toNat ++
    (exifSetShort data.order e.format ++ exifSetLong data.order e'.components)
  let s := e'.dataSize
  if 4 < s then
    if n + s + s % 2 < 2 ^ 32 then
      (copied e'.data s).map fun bytes =>
        ⟨e', head ++ exifSetLong data.order (n - 6), bytes ++ List.replicate (s % 2) 0⟩
    else none
  else (copied e'.data s).map fun bytes => ⟨e', head ++ (bytes ++ List.replicate (4 - s) 0), []⟩

def entriesOut : List ExifEntry → Nat → Option (Filled (List ExifEntry) UInt8)
  | [], _ => some ⟨[], [], []⟩
  | e :: es, n =>
    (entryOut data e n).bind fun r => (entriesOut es (n + r.tail.length)).map fun q =>
      r.and ⟨r.value :: q.value, q.slot, q.tail⟩

def specialSlot (order : ExifByteOrder) (tag value : Nat) : Bytes :=
  exifSetShort order tag ++
    (exifSetShort order EXIF_FORMAT_LONG ++ (exifSetLong order 1 ++ exifSetLong order value))

def thumbnailOut (n : Nat) : Option (Filled ExifData UInt8) :=
  if data.needsThumbnail then
    if n + data.size < 2 ^ 32 then
      (data.data.bind fun block => copied (some block) data.size).map fun bytes =>
        ⟨data, specialSlot data.order EXIF_TAG_JPEG_INTERCHANGE_FORMAT (n - 6) ++
          specialSlot data.order EXIF_TAG_JPEG_INTERCHANGE_FORMAT_LENGTH data.size, bytes⟩
    else none
  else some ⟨data, [], []⟩

end Pieces

section Directory

variable (libc : LibC) (sub : ExifIfd → ExifData → Nat → Option (ExifData × Bytes))

def pointerOut (needed : Bool) (tag : Nat) (i : ExifIfd) (data : ExifData) (n : Nat) :
    Option (Filled ExifData UInt8) :=
  if needed then (sub i data n).map fun q => ⟨q.1, specialSlot data.order tag (n - 6), q.2⟩
  else some ⟨data, [], []⟩

def specialOut (i : ExifIfd) (data : ExifData) (n : Nat) : Option (Filled ExifData UInt8) :=
  match i with
  | .ifd0 =>
    (pointerOut sub data.needsExif EXIF_TAG_EXIF_IFD_POINTER .exif data n).bind fun r =>
      (pointerOut sub r.value.needsGps EXIF_TAG_GPS_INFO_IFD_POINTER .gps r.value (n + r.tail.length)).map r.and
  | .exif => pointerOut sub data.needsInteroperability EXIF_TAG_INTEROPERABILITY_IFD_POINTER .interoperability data n
  | .ifd1 => thumbnailOut data n
  | _ => some ⟨data, [], []⟩

/-- All entries of a directory, unsorted, with what they put behind everything. -/
def directoryOut (i : ExifIfd) (data : ExifData) (n : Nat) : Option (Filled ExifData UInt8) :=
  (entriesOut data (data.ifd i) n).bind fun r =>
    (specialOut sub i (data.setIfd i r.value) (n + r.tail.length)).map fun q =>
      ⟨q.value, r.slot ++ q.slot, r.tail ++ q.tail⟩

def sorted (order : ExifByteOrder) (n : Nat) (slots : Bytes) : Bytes :=
  (libc.qsort (cmpFunc order) ((List.range n).map fun k => (slots.drop (12 * k)).take 12)).flatten

/-- A directory where `n` bytes have been written so far, with all that belongs to it. -/
def contentOut (i : ExifIfd) (data : ExifData) (n : Nat) : Option (ExifData × Bytes) :=
  let count := data.entryCount i
  let first := n + (2 + count * 12 + 4)
  if first < 2 ^ 32 then
    (directoryOut sub i data first).bind fun r =>
      let entries := exifSetShort data.order count ++ sorted libc r.value.order count r.slot
      let next := first + r.tail.length
      if i = .ifd0 ∧ r.value.needsIfd1 then
        (sub .ifd1 r.value next).map fun q =>
          (q.1, entries ++ (exifSetLong r.value.order (next - 6) ++ (r.tail ++ q.2)))
      else some (r.value, entries ++ (exifSetLong r.value.order 0 ++ r.tail))
  else none

end Directory

/-- The serialiser, up to a depth of directories. -/
def serial (libc : LibC) : Nat → ExifIfd → ExifData → Nat → Option (ExifData × Bytes)
  | 0, _, _, _ => none
  | depth + 1, i, data, n => contentOut libc (serial libc depth) i data n

end G361FPlatform.Exif
