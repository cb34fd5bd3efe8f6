import G361FPlatform.Library.Block

namespace G361FPlatform.Jpeg

open Library

def SOF0 : UInt8 := 0xc0
def SOI : UInt8 := 0xd8
def EOI : UInt8 := 0xd9
def SOS : UInt8 := 0xda
def APP1 : UInt8 := 0xe1
def COM : UInt8 := 0xfe

/-- `JPEG_IS_MARKER` -/
def isMarker (m : UInt8) : Bool := decide (SOF0 ≤ m ∧ m ≤ COM)

/-- The number of values of an `unsigned int`. -/
def uintSize : Nat := 4294967296

/-- `a - b` of two `unsigned int`s. -/
def uintSub (a b : Nat) : Nat := (a + uintSize - b) % uintSize

/-- Where `content.generic.data` and `content.app1` point: the two share their place in the union. -/
inductive Pointer (Exif : Type)
  | null
  | buffer (bytes : List UInt8)
  | exif (data : Exif)
  deriving DecidableEq

structure JPEGSection (Exif : Type) where
  marker : UInt8
  content : Pointer Exif
  /-- `content.generic.size` -/
  size : Nat
  deriving DecidableEq

/-- `count` is the length of `sections`; `data` and `size` are the image data behind SOS. -/
structure JPEGData (Exif : Type) where
  sections : List (JPEGSection Exif)
  data : Option (List UInt8)
  size : Nat
  deriving DecidableEq

def jpegDataNew : JPEGData Exif := ⟨[], none, 0⟩

/-- What the program uses of libexif. -/
structure ExifLib (Exif : Type) where
  /-- `exif_data_load_data` into an object just made by `exif_data_new` -/
  load : List UInt8 → Exif
  /-- what `exif_data_save_data` serialises an object to, or NULL -/
  save : Exif → Option (List UInt8)

/-- The allocations of one round of the load loop. -/
inductive AllocSite
  | section | exif | payload | scan
  deriving DecidableEq

/-- Does the allocation in the round at offset `o` succeed? -/
abbrev Allocs := AllocSite → Nat → Bool

/-- The bytes given to `jpeg_data_load_data`; their number is an `unsigned int`. -/
abbrev Input := { d : List UInt8 // d.length < uintSize }

namespace JPEGData

/-- `jpeg_data_append_section`: the sections after it, which are the same where `realloc` fails. -/
def appendSection (ok : Bool) (data : JPEGData Exif) : JPEGData Exif :=
  if ok then { data with sections := data.sections ++ [⟨0, .null, 0⟩] } else data

/-- A store through `s = &data->sections[data->count - 1]`. -/
def modifyLast (f : JPEGSection Exif → JPEGSection Exif) (data : JPEGData Exif) : JPEGData Exif :=
  { data with sections := data.sections.dropLast ++ (data.sections.getLast?.map f).toList }

end JPEGData

/-- `for (i = 0; i < MIN(7, size - o); i++) if (d[o + i] != 0xff) break;` with `n` rounds left. -/
def scanMarker (d : List UInt8) (o : Nat) : Nat → Nat → Except Stuck Nat
  | 0, i => .ok i
  | n + 1, i => (Block.byteAt d (o + i)).bind fun b =>
    if b ≠ 0xff then .ok i else scanMarker d o n (i + 1)

/-- The length field of a section, without its own two bytes. -/
def sectionLength (hi lo : UInt8) : Nat := uintSub (hi.toNat * 256 + lo.toNat) 2

section

variable (lib : ExifLib Exif) (alloc : Allocs) (d : Input) (round : Nat)

/-- How many bytes behind a SOS section at `o` are image data: all, or all but the last two
"which are hoped to be" an EOI. -/
def scanSize (o : Nat) : Except Stuck Nat :=
  let size := uintSub d.1.length o
  if 2 ≤ size then
    (Block.byteAt d.1 (o + (size - 2))).map fun b => if b ≠ 0xff then size else size - 2
  else .ok size

/-- The payload of a section, `len` bytes from `o` on.  The offset of the next section, or
`none` where the function returns. -/
def loadContent (marker : UInt8) (o len : Nat) (data : JPEGData Exif) :
    Except Stuck (Option Nat × JPEGData Exif) :=
  if marker = APP1 then
    (Block.slice d.1 ((o : Int) - 4) ((len + 4) % uintSize)).map fun bytes =>
      let app1 : Pointer Exif := if alloc .exif round then .exif (lib.load bytes) else .null
      (some ((o + len) % uintSize), data.modifyLast fun s => { s with content := app1 })
  else if alloc .payload round = false then
    .ok (none, data.modifyLast fun s => { s with content := .null })
  else
    (Block.slice d.1 o len).bind fun bytes =>
      let data := data.modifyLast fun s => { s with content := .buffer bytes, size := len }
      if marker = SOS then
        (scanSize d (o + len)).bind fun size =>
          if alloc .scan round = false then .ok (none, { data with data := none, size := 0 })
          else (Block.slice d.1 (o + len : Nat) size).map fun bytes =>
            (some ((o + size + len) % uintSize), { data with data := some bytes, size := size })
      else .ok (some ((o + len) % uintSize), data)

/-- What follows a marker; `o` is behind it. -/
def loadSection (marker : UInt8) (o : Nat) (data : JPEGData Exif) :
    Except Stuck (Option Nat × JPEGData Exif) :=
  let size := d.1.length
  if marker = SOI ∨ marker = EOI then .ok (some o, data)
  else if uintSub size o < 2 then .ok (some size, data)
  else
    (Block.byteAt d.1 o).bind fun hi => (Block.byteAt d.1 (o + 1)).bind fun lo =>
      let len := sectionLength hi lo
      if size < len then .ok (some size, data)
      else if uintSub size ((o + 2) % uintSize) < len then .ok (some size, data)
      else loadContent lib alloc d round marker ((o + 2) % uintSize) len data

/-- One round of the loop, at offset `round`. -/
def loadRound (data : JPEGData Exif) : Except Stuck (Option Nat × JPEGData Exif) :=
  let left := uintSub d.1.length round
  (scanMarker d.1 round (min 7 left) 0).bind fun i =>
    if left ≤ i then .ok (none, data)
    else
      (Block.byteAt d.1 (round + i)).bind fun marker =>
        if isMarker marker then
          let data := data.appendSection (alloc .section round)
          if data.sections = [] then .ok (none, data)
          else loadSection lib alloc d round marker ((round + i + 1) % uintSize)
            (data.modifyLast fun s => { s with marker := marker })
        else .ok (none, data)

end

end G361FPlatform.Jpeg
