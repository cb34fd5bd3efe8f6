import G361FPlatform.Exif.Save
import G361FPlatform.Library.Block

namespace G361FPlatform.Exif

open Library

/-- An ExifData with the options that loading looks at, where the maker note was found, and how many allocations
have been asked for. -/
structure LoadData extends ExifData where
  ignoreUnknownTags : Bool
  followSpecification : Bool
  offsetMnote : Nat
  allocs : Nat

/-- The allocations of the loader: by `exif_entry_new_mem`, by `exif_data_alloc`, and by `exif_mem_realloc` for the
entries of a directory. -/
inductive LoadSite
  | entry | data | slot
  deriving DecidableEq

/-- Does the allocation succeed that so many went before? -/
abbrev LoadAllocs := LoadSite → Nat → Bool

def LoadAllocs.Succeed (alloc : LoadAllocs) : Prop := ∀ site n, alloc site n = true

def allSucceed : LoadAllocs := fun _ _ => true

theorem succeed_allSucceed : allSucceed.Succeed := fun _ _ => rfl

/-- What the loader uses of the rest of libexif.  The code for the makers' notes stays outside. -/
structure LoadLib where
  /-- Does `exif_tag_get_name_in_ifd` have a name? -/
  nameInIfd : Nat → ExifIfd → Bool
  /-- A new maker note of the first kind whose `identify` knows the entry. -/
  identify : LoadData → ExifEntry → Option MnoteData
  /-- `exif_mnote_data_load`, after the byte order and the offset have been set. -/
  loadMnote : MnoteData → ExifByteOrder → Nat → Bytes → MnoteData
  /-- `exif_data_fix` -/
  fix : LoadData → LoadData

def exifDataNew : LoadData := ⟨⟨fun _ => [], none, 0, .motorola, none, false⟩, true, true, 0, 0⟩

def exifGetLong (order : ExifByteOrder) (buf : Bytes) : Nat :=
  match order with
  | .motorola => 65536 * exifGetShort order buf + exifGetShort order (buf.drop 2)
  | .intel => 65536 * exifGetShort order (buf.drop 2) + exifGetShort order buf

def getShort (order : ExifByteOrder) (d : Bytes) (offset : Nat) : Except Stuck Nat :=
  (Block.slice d offset 2).map (exifGetShort order)

def getLong (order : ExifByteOrder) (d : Bytes) (offset : Nat) : Except Stuck Nat :=
  (Block.slice d offset 4).map (exifGetLong order)

def exifContentGetEntry (c : ExifContent) (tag : Nat) : Option ExifEntry :=
  c.find? fun e => e.tag.toNat = tag

/-- "One tag can only be added once to an IFD."  `ok` tells how the `realloc` goes. -/
def exifContentAddEntry (ok : Bool) (c : ExifContent) (entry : ExifEntry) : ExifContent :=
  match exifContentGetEntry c entry.tag.toNat with
  | some _ => c
  | none => if ok then c ++ [entry] else c

namespace LoadData

def setIfd (data : LoadData) (i : ExifIfd) (entries : ExifContent) : LoadData :=
  { data with toExifData := data.toExifData.setIfd i entries }

def tick (data : LoadData) : LoadData := { data with allocs := data.allocs + 1 }

def addEntry (alloc : LoadAllocs) (data : LoadData) (i : ExifIfd) (entry : ExifEntry) : LoadData :=
  (data.setIfd i (exifContentAddEntry (alloc .slot data.allocs) (data.ifd i) entry)).tick

/-- `exif_data_get_entry` -/
def getEntry (data : LoadData) (tag : Nat) : Option ExifEntry :=
  [ExifIfd.ifd0, .ifd1, .exif, .gps, .interoperability].findSome? fun i =>
    exifContentGetEntry (data.ifd i) tag

end LoadData

/-- Does the block end before an object of `s` bytes at `o`, or the address space? -/
def outside (o s size : Nat) : Bool :=
  let stop := (o + s) % 2 ^ 32
  stop < o ∨ stop < s ∨ size < stop

/-- The entry at an offset, where it has data of its own.  It is an entry as well if there is no memory for them. -/
def exifDataLoadDataEntry (alloc : LoadAllocs) (data : LoadData) (d : Bytes) (size offset : Nat) :
    Except Stuck (Option (ExifEntry × LoadData)) :=
  (getShort data.order d offset).bind fun tag =>
    (getShort data.order d (offset + 2)).bind fun format =>
      (getLong data.order d (offset + 4)).bind fun components =>
        let s := exifFormatGetSize format * components % 2 ^ 32
        if s < components ∨ s = 0 then .ok none
        else
          (if 4 < s then getLong data.order d (offset + 8) else .ok (offset + 8)).bind fun doff =>
            if outside doff s size then .ok none
            else
              let found := if tag = EXIF_TAG_MAKER_NOTE then { data.tick with offsetMnote := doff } else data.tick
              if alloc .data data.allocs then
                (Block.slice d doff s).map fun block =>
                  some (⟨UInt16.ofNat tag, format, components, some block, s⟩, found)
              else .ok (some (⟨UInt16.ofNat tag, format, components, none, 0⟩, found))

/-- The old thumbnail is gone even if there is no memory for the new one. -/
def exifDataLoadDataThumbnail (alloc : LoadAllocs) (data : LoadData) (d : Bytes) (ds o s : Nat) :
    Except Stuck LoadData :=
  if outside o s ds ∨ ds < o then .ok data
  else if alloc .data data.allocs then
    (Block.slice d o s).map fun block => { data.tick with data := some block, size := s }
  else .ok { data.tick with data := none, size := 0 }

def isSpecialTag (tag : Nat) : Bool :=
  tag = EXIF_TAG_EXIF_IFD_POINTER ∨ tag = EXIF_TAG_GPS_INFO_IFD_POINTER ∨
    tag = EXIF_TAG_INTEROPERABILITY_IFD_POINTER ∨ tag = EXIF_TAG_JPEG_INTERCHANGE_FORMAT_LENGTH ∨
      tag = EXIF_TAG_JPEG_INTERCHANGE_FORMAT

/-- What the loop over the slots of a directory keeps. -/
structure Loading where
  data : LoadData
  thumbnailOffset : Nat
  thumbnailLength : Nat

section

variable (lib : LoadLib) (alloc : LoadAllocs) (d : Bytes) (ds : Nat)

/-- An entry that is none is left out. -/
def loadEntry (ifd : ExifIfd) (pos : Nat) (l : Loading) : Except Stuck Loading :=
  -- what `exif_entry_new_mem` returns is stored through at once
  if alloc .entry l.data.allocs = false then .error .fault
  else
    (exifDataLoadDataEntry alloc l.data.tick d ds pos).map fun
      | some (entry, data) => { l with data := data.addEntry alloc ifd entry }
      | none => { l with data := l.data.tick }

def loadThumbnail (l : Loading) : Except Stuck Loading :=
  if l.thumbnailOffset ≠ 0 ∧ l.thumbnailLength ≠ 0 then
    (exifDataLoadDataThumbnail alloc l.data d ds l.thumbnailOffset l.thumbnailLength).map fun data =>
      { l with data := data }
  else .ok l

-- the recursive call
variable (load : ExifIfd → Nat → LoadData → Except Stuck LoadData)

/-- A pointer to the directory that is being loaded, or to one that has entries, is not followed. -/
def loadPointer (ifd i : ExifIfd) (o : Nat) (l : Loading) : Except Stuck Loading :=
  if i = ifd ∨ l.data.ifd i ≠ [] then .ok l
  else (load i o l.data).map fun data => { l with data := data }

def loadSpecial (ifd : ExifIfd) (tag o : Nat) (l : Loading) : Except Stuck Loading :=
  if tag = EXIF_TAG_EXIF_IFD_POINTER then loadPointer load ifd .exif o l
  else if tag = EXIF_TAG_GPS_INFO_IFD_POINTER then loadPointer load ifd .gps o l
  else if tag = EXIF_TAG_INTEROPERABILITY_IFD_POINTER then loadPointer load ifd .interoperability o l
  else if tag = EXIF_TAG_JPEG_INTERCHANGE_FORMAT then loadThumbnail alloc d ds { l with thumbnailOffset := o }
  else loadThumbnail alloc d ds { l with thumbnailLength := o }

def loadSlot (ifd : ExifIfd) (pos : Nat) (l : Loading) : Except Stuck Loading :=
  (getShort l.data.order d pos).bind fun tag =>
    if isSpecialTag tag then
      (getLong l.data.order d (pos + 8)).bind fun o => loadSpecial alloc d ds load ifd tag o l
    else if lib.nameInIfd tag ifd then loadEntry alloc d ds ifd pos l
    else (Block.slice d pos 4).bind fun start =>
      -- tag and format 0: "Photoshop writes it anyways"
      if start = [0, 0, 0, 0] ∨ l.data.ignoreUnknownTags then .ok l else loadEntry alloc d ds ifd pos l

def loadSlots (ifd : ExifIfd) : Nat → Nat → Loading → Except Stuck Loading
  | 0, _, l => .ok l
  | n + 1, pos, l => (loadSlot lib alloc d ds load ifd pos l).bind (loadSlots ifd n (pos + 12))

def exifDataLoadDataContentWith (ifd : ExifIfd) (offset : Nat) (data : LoadData) :
    Except Stuck LoadData :=
  if outside offset 2 ds then .ok data
  else
    (getShort data.order d offset).bind fun n =>
      let offset := offset + 2
      let n := if ds < (offset + 12 * n) % 2 ^ 32 then (ds - offset) / 12 % 2 ^ 16 else n
      (loadSlots lib alloc d ds load ifd n offset ⟨data, 0, 0⟩).map Loading.data

end

section

variable (lib : LoadLib) (alloc : LoadAllocs)

/-- The recursion, as deep as is left of 31 levels. -/
def exifDataLoadDataContent (d : Bytes) (ds : Nat) :
    Nat → ExifIfd → Nat → LoadData → Except Stuck LoadData
  | 0, _, _, data => .ok data
  | depth + 1, ifd, offset, data =>
    exifDataLoadDataContentWith lib alloc d ds (exifDataLoadDataContent d ds depth) ifd offset data

def interpretMakerNote (d : Bytes) (data : LoadData) : LoadData :=
  match data.getEntry EXIF_TAG_MAKER_NOTE with
  | none => data
  | some e =>
    let md := (lib.identify data e).or data.md
    { data with md := md.map fun md => lib.loadMnote md data.order data.offsetMnote d }

/-- What is done with an ExifData whose directories have all been loaded. -/
def finishLoad (d : Bytes) (data : LoadData) : LoadData :=
  let data := interpretMakerNote lib d data
  if data.followSpecification then lib.fix data else data

def loadIfd1 (d : Bytes) (ds offset : Nat) (data : LoadData) : Except Stuck LoadData :=
  if offset = 0 ∨ ds < offset ∨ ds < (offset + 6) % 2 ^ 32 then .ok data
  else exifDataLoadDataContent lib alloc (d.drop 6) (ds - 6) 31 .ifd1 offset data

/-- From the fixed value on. -/
def loadTiff (d : Bytes) (ds : Nat) (data : LoadData) : Except Stuck LoadData :=
  (getShort data.order d 8).bind fun fixed =>
    if fixed ≠ 0x002a then .ok data
    else
      (getLong data.order d 10).bind fun offset =>
        if ds < offset ∨ ds < (offset + 6 + 2) % 2 ^ 32 then .ok data
        else
          (exifDataLoadDataContent lib alloc (d.drop 6) (ds - 6) 31 .ifd0 offset data).bind fun data =>
            (getShort data.order d (6 + offset)).bind fun n =>
              if ds < (offset + 6 + 2 + 12 * n + 4) % 2 ^ 32 then .ok data
              else
                (getLong data.order d (6 + offset + 2 + 12 * n)).bind fun offset =>
                  (loadIfd1 lib alloc d ds offset data).map (finishLoad lib d)

def EXIF_HEADER : Bytes := [0x45, 0x78, 0x69, 0x66, 0x00, 0x00]

/-- What starts with the header.  No more than an APP1 section can hold is looked at. -/
def loadHeader (d : Bytes) (data : LoadData) : Except Stuck LoadData :=
  if d.length < 6 then .ok data
  else
    (Block.slice d 0 6).bind fun name =>
      if name ≠ EXIF_HEADER ∨ d.length < 14 then .ok data
      else
        let ds := min d.length 0xfffe
        (Block.slice d 6 2).bind fun marks =>
          if marks = [0x49, 0x49] then loadTiff lib alloc d ds { data with order := .intel }
          else if marks = [0x4d, 0x4d] then loadTiff lib alloc d ds { data with order := .motorola }
          else .ok data

def JPEG_MARKER_SOI : UInt8 := 0xd8
def JPEG_MARKER_APP0 : UInt8 := 0xe0
def JPEG_MARKER_APP1 : UInt8 := 0xe1

/-- What follows the length of the first APP1 section, where one is found. -/
def searchMarker (d : Bytes) : Except Stuck (Option Bytes) :=
  if _hd : d.length < 3 then .ok none
  else
    match hrest : d.dropWhile (· = 0xff) with
    | [] => .ok none
    | b :: rest =>
      if b = JPEG_MARKER_SOI then searchMarker rest
      else if b = JPEG_MARKER_APP0 ∧ 3 ≤ rest.length + 1 then
        (Block.byteAt rest 0).bind fun hi => (Block.byteAt rest 1).bind fun lo =>
          let l := 256 * hi.toNat + lo.toNat
          if rest.length < l then .ok none else searchMarker (rest.drop l)
      else if b = JPEG_MARKER_APP1 then
        if rest.length + 1 < 3 then .ok none
        else (Block.slice rest 0 2).map fun _ => some (rest.drop 2)
      else .ok none
termination_by d.length
decreasing_by
  all_goals
    have hle := (List.dropWhile_suffix (l := d) fun x : UInt8 => decide (x = 0xff)).length_le
    simp only [hrest, List.length_cons, List.length_drop] at hle ⊢
    omega

def exifDataLoadData (data : LoadData) (d : Bytes) : Except Stuck LoadData :=
  if d.length < 6 then .ok data
  else
    (Block.slice d 0 6).bind fun name =>
      if name = EXIF_HEADER then loadHeader lib alloc d data
      else
        (searchMarker d).bind fun
          | some rest => loadHeader lib alloc rest data
          | none => .ok data

end

end G361FPlatform.Exif
