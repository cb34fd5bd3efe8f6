import Mathlib.Algebra.Group.Nat.Defs
import Mathlib.Data.List.Range
import Mathlib.Logic.Function.Basic
import G361FPlatform.Library.Slots

namespace G361FPlatform.Exif

open Library

abbrev Bytes := List UInt8

inductive ExifByteOrder
  | motorola | intel
  deriving DecidableEq, Repr

inductive ExifIfd
  | ifd0 | ifd1 | exif | gps | interoperability
  deriving DecidableEq, Repr

/-- `data` is the block behind the pointer, if there is one. -/
structure ExifEntry where
  tag : UInt16
  format : Nat
  components : Nat
  data : Option Bytes
  size : Nat
  deriving DecidableEq, Repr

abbrev ExifContent := List ExifEntry

/-- What `exif_mnote_data_save` stores after `exif_mnote_data_set_offset`: a block, and its size. -/
abbrev MnoteData := Nat → Option Bytes × Nat

structure ExifData where
  ifd : ExifIfd → ExifContent
  /-- The thumbnail. -/
  data : Option Bytes
  size : Nat
  order : ExifByteOrder
  md : Option MnoteData
  dontChangeMakerNote : Bool

def EXIF_TAG_JPEG_INTERCHANGE_FORMAT : Nat := 0x0201
def EXIF_TAG_JPEG_INTERCHANGE_FORMAT_LENGTH : Nat := 0x0202
def EXIF_TAG_EXIF_IFD_POINTER : Nat := 0x8769
def EXIF_TAG_GPS_INFO_IFD_POINTER : Nat := 0x8825
def EXIF_TAG_MAKER_NOTE : Nat := 0x927c
def EXIF_TAG_INTEROPERABILITY_IFD_POINTER : Nat := 0xa005

def EXIF_FORMAT_LONG : Nat := 4

def exifFormatGetSize : Nat → Nat
  | 1 | 2 | 6 | 7 => 1
  | 3 | 8 => 2
  | 4 | 9 | 11 => 4
  | 5 | 10 | 12 => 8
  | _ => 0

def exifSetShort (order : ExifByteOrder) (value : Nat) : Bytes :=
  match order with
  | .motorola => [UInt8.ofNat (value / 256), UInt8.ofNat value]
  | .intel => [UInt8.ofNat value, UInt8.ofNat (value / 256)]

def exifSetLong (order : ExifByteOrder) (value : Nat) : Bytes :=
  match order with
  | .motorola => exifSetShort order (value / 65536) ++ exifSetShort order value
  | .intel => exifSetShort order value ++ exifSetShort order (value / 65536)

def exifGetShort (order : ExifByteOrder) (buf : Bytes) : Nat :=
  match order with
  | .motorola => 256 * (buf.getD 0 0).toNat + (buf.getD 1 0).toNat
  | .intel => 256 * (buf.getD 1 0).toNat + (buf.getD 0 0).toNat

/-- By the tag at the start of an entry. -/
def cmpFunc (order : ExifByteOrder) (p₁ p₂ : Bytes) : Int :=
  let tag₁ := exifGetShort order p₁
  let tag₂ := exifGetShort order p₂
  if tag₁ < tag₂ then -1 else if tag₁ > tag₂ then 1 else 0

/-- The `qsort` of the C library, which may put equal elements in any order. -/
structure LibC where
  qsort : (Bytes → Bytes → Int) → List Bytes → List Bytes
  perm : ∀ cmp l, (qsort cmp l).Perm l

section

variable (libc : LibC) (fresh : Nat → UInt8)

/-- `exif_mem_realloc`: anything may stand behind the old end of the block.  No block is as long as 4 GiB. -/
def grow (ts : Nat) (d : Bytes) : Option Bytes :=
  if ts < 2 ^ 32 then some (d ++ (List.range (ts - d.length)).map fun i => fresh (d.length + i)) else none

/-- The `s` bytes that an entry is written with.  There is no result where C reads behind the block. -/
def copied (data : Option Bytes) (s : Nat) : Option Bytes :=
  match data with
  | some block => if s ≤ block.length then some (block.take s) else none
  | none => some (List.replicate s 0)

/-- The maker note is made anew for the place it comes to. -/
def ExifData.updateMakerNote (data : ExifData) (ds : Nat) (e : ExifEntry) : ExifEntry :=
  if data.dontChangeMakerNote = false ∧ e.tag.toNat = EXIF_TAG_MAKER_NOTE then
    match data.md with
    | some md =>
      let saved := md (ds - 6)
      { e with data := saved.1, size := saved.2, components := saved.2 }
    | none => e
  else e

def ExifEntry.dataSize (e : ExifEntry) : Nat := exifFormatGetSize e.format * e.components % 2 ^ 32

def exifDataSaveDataEntry (data : ExifData) (e : ExifEntry) (offset : Nat) (d : Bytes) :
    Option (ExifEntry × Bytes) :=
  let d := patch (6 + offset + 0) (exifSetShort data.order e.tag.toNat) d
  let d := patch (6 + offset + 2) (exifSetShort data.order e.format) d
  let e := data.updateMakerNote d.length e
  let d := patch (6 + offset + 4) (exifSetLong data.order e.components) d
  let s := e.dataSize
  if 4 < s then
    let doff := d.length - 6
    -- the offset of what comes next must be even
    (grow fresh (d.length + s + s % 2) d).bind fun d =>
      let d := patch (6 + offset + 8) (exifSetLong data.order doff) d
      let d := if s % 2 = 1 then patch (d.length - 1) [0] d else d
      (copied e.data s).map fun bytes => (e, patch (6 + doff) bytes d)
  else
    let doff := offset + 8
    (copied e.data s).map fun bytes =>
      let d := patch (6 + doff) bytes d
      (e, if s < 4 then patch (6 + doff + s) (List.replicate (4 - s) 0) d else d)

def saveEntries (data : ExifData) : List ExifEntry → Nat → Bytes → Option (List ExifEntry × Bytes)
  | [], _, d => some ([], d)
  | e :: es, offset, d =>
    (exifDataSaveDataEntry fresh data e offset d).bind fun saved =>
      (saveEntries data es (offset + 12) saved.2).map fun rest => (saved.1 :: rest.1, rest.2)

/-- A special entry: one LONG. -/
def setSpecial (order : ExifByteOrder) (tag value offset : Nat) (d : Bytes) : Bytes :=
  let d := patch (6 + offset + 0) (exifSetShort order tag) d
  let d := patch (6 + offset + 2) (exifSetShort order EXIF_FORMAT_LONG) d
  let d := patch (6 + offset + 4) (exifSetLong order 1) d
  patch (6 + offset + 8) (exifSetLong order value) d

def sortDirectory (order : ExifByteOrder) (offset n : Nat) (d : Bytes) : Bytes :=
  let entries := (List.range n).map fun k => (d.drop (6 + offset + 12 * k)).take 12
  patch (6 + offset) (libc.qsort (cmpFunc order) entries).flatten d

namespace ExifData

variable (data : ExifData)

def needsExif : Bool := data.ifd .exif ≠ [] ∨ data.ifd .interoperability ≠ []
def needsGps : Bool := data.ifd .gps ≠ []
def needsInteroperability : Bool := data.ifd .interoperability ≠ []
def needsThumbnail : Bool := data.size ≠ 0
def needsIfd1 : Bool := data.ifd .ifd1 ≠ [] ∨ data.size ≠ 0

/-- The extra entries for pointers and for the thumbnail. -/
def specialCount : ExifIfd → Nat
  | .ifd0 => (if data.needsExif then 1 else 0) + (if data.needsGps then 1 else 0)
  | .exif => if data.needsInteroperability then 1 else 0
  | .ifd1 => if data.needsThumbnail then 2 else 0
  | _ => 0

def entryCount (i : ExifIfd) : Nat := (data.ifd i).length + data.specialCount i

def setIfd (i : ExifIfd) (entries : ExifContent) : ExifData :=
  { data with ifd := Function.update data.ifd i entries }

end ExifData

section

-- the recursive call
variable (save : ExifIfd → ExifData → Nat → Bytes → Option (ExifData × Bytes))

def savePointer (needed : Bool) (tag : Nat) (i : ExifIfd) (data : ExifData) (offset : Nat) (d : Bytes) :
    Option (ExifData × Bytes) :=
  if needed then save i data (d.length - 6) (setSpecial data.order tag (d.length - 6) offset d)
  else some (data, d)

def saveThumbnail (data : ExifData) (offset : Nat) (d : Bytes) : Option (ExifData × Bytes) :=
  if data.needsThumbnail then
    let d := setSpecial data.order EXIF_TAG_JPEG_INTERCHANGE_FORMAT (d.length - 6) offset d
    (grow fresh (d.length + data.size) d).bind fun d =>
      (data.data.bind fun block => copied (some block) data.size).map fun bytes =>
        let d := patch (d.length - data.size) bytes d
        (data, setSpecial data.order EXIF_TAG_JPEG_INTERCHANGE_FORMAT_LENGTH data.size (offset + 12) d)
  else some (data, d)

def saveSpecial (i : ExifIfd) (data : ExifData) (offset : Nat) (d : Bytes) :
    Option (ExifData × Bytes) :=
  match i with
  | .ifd0 =>
    (savePointer save data.needsExif EXIF_TAG_EXIF_IFD_POINTER .exif data offset d).bind fun saved =>
      savePointer save saved.1.needsGps EXIF_TAG_GPS_INFO_IFD_POINTER .gps saved.1
        (offset + if data.needsExif then 12 else 0) saved.2
  | .exif =>
    savePointer save data.needsInteroperability EXIF_TAG_INTEROPERABILITY_IFD_POINTER .interoperability data offset d
  | .ifd1 => saveThumbnail fresh data offset d
  | _ => some (data, d)

def saveDirectory (i : ExifIfd) (data : ExifData) (offset : Nat) (d : Bytes) :
    Option (ExifData × Bytes) :=
  (saveEntries fresh data (data.ifd i) offset d).bind fun saved =>
    saveSpecial fresh save i (data.setIfd i saved.1) (offset + 12 * (data.ifd i).length) saved.2

def exifDataSaveDataContentWith (i : ExifIfd) (data : ExifData) (offset : Nat) (d : Bytes) :
    Option (ExifData × Bytes) :=
  let n := data.entryCount i
  (grow fresh (d.length + (2 + n * 12 + 4)) d).bind fun d =>
    let d := patch (6 + offset) (exifSetShort data.order n) d
    let offset := offset + 2
    (saveDirectory fresh save i data offset d).bind fun saved =>
      let data := saved.1
      let d := sortDirectory libc data.order offset n saved.2
      let offset := offset + 12 * n
      if i = .ifd0 ∧ data.needsIfd1 then
        save .ifd1 data (d.length - 6) (patch (6 + offset) (exifSetLong data.order (d.length - 6)) d)
      else some (data, patch (6 + offset) (exifSetLong data.order 0) d)

end

/-- The recursion, up to a depth.  IFD 0 leads to EXIF, and that to INTEROPERABILITY: it is three deep. -/
def exifDataSaveDataContent : Nat → ExifIfd → ExifData → Nat → Bytes → Option (ExifData × Bytes)
  | 0, _, _, _, _ => none
  | depth + 1, i, data, offset, d =>
    exifDataSaveDataContentWith libc fresh (exifDataSaveDataContent depth) i data offset d

def exifHeader (order : ExifByteOrder) : Bytes :=
  let name : Bytes := [0x45, 0x78, 0x69, 0x66, 0x00, 0x00]
  let marks : Bytes :=
    match order with
    | .intel => [0x49, 0x49]
    | .motorola => [0x4d, 0x4d]
  name ++ marks ++ exifSetShort order 0x002a ++ exifSetLong order 8

/-- The ExifData afterwards, and the bytes.  There are none where C reads behind a block or cannot have one. -/
def exifDataSaveData (data : ExifData) : Option (ExifData × Bytes) :=
  let d := exifHeader data.order
  exifDataSaveDataContent libc fresh 3 .ifd0 data (d.length - 6) d

end

def exifDataRemoveThumbnail (data : ExifData) : ExifData :=
  { data.setIfd .ifd1 [] with data := none, size := 0 }

end G361FPlatform.Exif
