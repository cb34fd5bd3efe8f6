import G361FPlatform.Jpeg.Data

namespace G361FPlatform.Jpeg

open Library

/-- `ed`: the buffer libexif handed out last. -/
inductive SavedExif
  | null
  | live (bytes : List UInt8)
  | freed
  deriving DecidableEq

/-- The variables of the two save functions; `d` is `none` for NULL. -/
structure SaveState where
  d : Option Block
  ds : Nat
  ed : SavedExif
  eds : Nat

/-- How a save function ends early: it does what C does not define, or returns. -/
inductive Exit
  | stuck (why : Stuck)
  | ret (s : SaveState)

abbrev Saving := Except Exit SaveState

/-- A call of `CLEANUP_REALLOC` in front of a write. -/
abbrev Reserve := Nat → SaveState → Saving

/-- `CLEANUP_REALLOC (*d, n)`; `ok n` tells if `realloc` succeeds. -/
def cleanupRealloc (ok : Nat → Bool) : Reserve := fun n s =>
  if ok n then .ok { s with d := some ((s.d.getD []).resize n) } else .error (.ret { s with d := none })

/-- The zero copy routine has the calls commented out. -/
def noRealloc : Reserve := fun _ s => .ok s

namespace SaveState

/-- Bytes written to `*d` from index `i` on. -/
def write (i : Nat) (bs : List UInt8) (s : SaveState) : Saving :=
  match s.d with
  | none => .error (.stuck .fault)
  | some d => ((d.store i bs).map fun d => { s with d := some d }).mapError .stuck

/-- `(*d)[*ds + 0] = a; (*d)[*ds + 1] = b; *ds += 2;` -/
def put (a b : UInt8) (s : SaveState) : Saving :=
  (s.write s.ds [a]).bind fun s => (s.write ((s.ds + 1) % uintSize) [b]).map fun s =>
    { s with ds := (s.ds + 2) % uintSize }

/-- `memcpy (*d + *ds, src, n); *ds += n;` where `src` has the given bytes. -/
def copy (src : List UInt8) (n : Nat) (s : SaveState) : Saving :=
  ((Block.slice src 0 n).mapError .stuck).bind fun bs => (s.write s.ds bs).map fun s =>
    { s with ds := (s.ds + n) % uintSize }

/-- The two bytes of `n + 2`, which is an `unsigned int`. -/
def putLength (n : Nat) (s : SaveState) : Saving :=
  s.put (UInt8.ofNat ((n + 2) % uintSize / 256)) (UInt8.ofNat ((n + 2) % uintSize))

/-- `free (ed)` -/
def freeExif (s : SaveState) : Saving :=
  match s.ed with
  | .freed => .error (.stuck .fault)
  | _ => .ok { s with ed := .freed }

end SaveState

/-- What lies behind `content.generic.data`, as far as it is bytes. -/
def Pointer.bytes : Pointer Exif → List UInt8
  | .buffer bytes => bytes
  | _ => []

section

variable (lib : ExifLib Exif) (reserve : Reserve)

/-- `exif_data_save_data (app1, &ed, &eds)`, which leaves `ed` alone where there is no data. -/
def exifDataSaveData (app1 : Pointer Exif) (s : SaveState) : Saving :=
  match app1 with
  | .null => .ok { s with eds := 0 }
  | .exif data =>
    match lib.save data with
    | none => .ok { s with ed := .null, eds := 0 }
    | some bytes => .ok { s with ed := .live bytes, eds := bytes.length % uintSize }
  | .buffer _ => .error (.stuck .fault)

def saveApp1 (app1 : Pointer Exif) (s : SaveState) : Saving :=
  (exifDataSaveData lib app1 s).bind fun s =>
    match s.ed with
    | .null => .ok s
    | .freed => .error (.stuck .fault)
    | .live bytes =>
      (reserve ((s.ds + 2) % uintSize) s).bind fun s => (s.putLength s.eds).bind fun s =>
        (reserve ((s.ds + s.eds) % uintSize) s).bind fun s => (s.copy bytes s.eds).bind fun s => s.freeExif

def saveGeneric (data : JPEGData Exif) (sec : JPEGSection Exif) (s : SaveState) : Saving :=
  (reserve ((s.ds + sec.size + 2) % uintSize) s).bind fun s => (s.putLength sec.size).bind fun s =>
    (s.copy sec.content.bytes sec.size).bind fun s =>
      if sec.marker = SOS then
        (reserve ((s.ds + data.size) % uintSize) s).bind fun s => s.copy (data.data.getD []) data.size
      else .ok s

def saveSection (data : JPEGData Exif) (sec : JPEGSection Exif) (s : SaveState) : Saving :=
  (reserve ((s.ds + 2) % uintSize) s).bind fun s => (s.put 0xff sec.marker).bind fun s =>
    if sec.marker = SOI ∨ sec.marker = EOI then .ok s
    else if sec.marker = APP1 then saveApp1 lib reserve sec.content s
    else saveGeneric reserve data sec s

end

/-- `for (*ds = i = 0; i < data->count; i++)` -/
def saveLoop (lib : ExifLib Exif) (reserve : Nat → Reserve) (data : JPEGData Exif) :
    Nat → List (JPEGSection Exif) → SaveState → Saving
  | _, [], s => .ok s
  | i, sec :: rest, s =>
    (saveSection lib (reserve i) data sec s).bind (saveLoop lib reserve data (i + 1) rest)

/-- What a save function leaves in `*d` and `*ds`. -/
def saved : Saving → Except Stuck (Option Block × Nat)
  | .ok s => .ok (s.d, s.ds)
  | .error (.ret s) => .ok (s.d, s.ds)
  | .error (.stuck why) => .error why

/-- `alloc i n` tells if a `realloc` to `n` bytes in round `i` succeeds. -/
def jpegDataSaveData (lib : ExifLib Exif) (alloc : Nat → Nat → Bool) (data : JPEGData Exif)
    (d : Option Block) : Except Stuck (Option Block × Nat) :=
  saved (saveLoop lib (fun i => cleanupRealloc (alloc i)) data 0 data.sections ⟨d, 0, .null, 0⟩)

def jpegDataSaveDataNoCopy (lib : ExifLib Exif) (data : JPEGData Exif) (d : Block) :
    Except Stuck (Option Block × Nat) :=
  saved (saveLoop lib (fun _ => noRealloc) data 0 data.sections ⟨some d, 0, .null, 0⟩)

end G361FPlatform.Jpeg
