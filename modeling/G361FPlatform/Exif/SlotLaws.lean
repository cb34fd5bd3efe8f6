import Mathlib.Data.List.Perm.Basic
import Mathlib.Data.List.Forall2
import G361FPlatform.Exif.AlikeLaws
import G361FPlatform.Exif.LoadLaws
import G361FPlatform.Exif.SerialLaws

namespace G361FPlatform.Exif

open Library

/-! What the loader makes of the pieces that the serialiser puts together. -/

theorem exifGetShort_setShort (order : ExifByteOrder) {value : Nat} (h : value < 2 ^ 16) :
    exifGetShort order (exifSetShort order value) = value := by
  cases order <;>
    simp only [exifGetShort, exifSetShort, List.getD_cons_zero, List.getD_cons_succ, UInt8.toNat_ofNat'] <;> omega

theorem exifGetLong_setLong (order : ExifByteOrder) {value : Nat} (h : value < 2 ^ 32) :
    exifGetLong order (exifSetLong order value) = value := by
  cases order <;>
    simp only [exifGetLong, exifGetShort, exifSetLong, exifSetShort, List.cons_append, List.nil_append,
      List.drop_succ_cons, List.drop_zero, List.getD_cons_zero, List.getD_cons_succ, UInt8.toNat_ofNat'] <;> omega

section

variable {T x y : Bytes} {o : Nat} {order : ExifByteOrder} {value : Nat}

theorem prefix_drop_append (h : x ++ y <+: T.drop o) : x <+: T.drop o ∧ y <+: T.drop (o + x.length) := by
  obtain ⟨rest, hrest⟩ := h
  rw [List.append_assoc] at hrest
  refine ⟨⟨y ++ rest, hrest⟩, rest, ?_⟩
  rw [← List.drop_drop, ← hrest, List.drop_left]

theorem add_length_le_of_stands (h : x <+: T.drop o) (hx : 0 < x.length) : o + x.length ≤ T.length := by
  have hle := h.length_le
  rw [List.length_drop] at hle
  omega

theorem slice_of_stands {n : Nat} (h : x <+: T.drop o) (hlen : x.length = n) (hn : 0 < n) :
    Block.slice T o n = .ok x := by
  subst hlen
  rw [Block.slice_eq (add_length_le_of_stands h hn)]
  exact congrArg Except.ok (List.prefix_iff_eq_take.mp h).symm

theorem getShort_of_stands (h : exifSetShort order value <+: T.drop o) (hvalue : value < 2 ^ 16) :
    getShort order T o = .ok value := by
  rw [getShort, slice_of_stands h (length_exifSetShort order value) (by decide), map_ok,
    exifGetShort_setShort order hvalue]

theorem getLong_of_stands (h : exifSetLong order value <+: T.drop o) (hvalue : value < 2 ^ 32) :
    getLong order T o = .ok value := by
  rw [getLong, slice_of_stands h (length_exifSetLong order value) (by decide), map_ok, exifGetLong_setLong order hvalue]

end

inductive Part
  | entry (e : ExifEntry)
  | special (tag value : Nat)

def Part.tag : Part → Nat
  | .entry e => e.tag.toNat
  | .special tag _ => tag

def Reads (order : ExifByteOrder) (T slot : Bytes) : Part → Prop
  | .entry e => slot.length = 12 ∧ ∀ pos, slot <+: T.drop pos →
      getShort order T pos = .ok e.tag.toNat ∧ getShort order T (pos + 2) = .ok e.format ∧ ∀ data : LoadData,
        data.order = order → ∃ o,
          exifDataLoadDataEntry allSucceed data T T.length pos = .ok (some (e, { data.tick with offsetMnote := o }))
  | .special tag value => slot = specialSlot order tag value ∧ tag < 2 ^ 16 ∧ value < 2 ^ 32

theorem Reads.length {order : ExifByteOrder} {T slot : Bytes} {part : Part} (h : Reads order T slot part) :
    slot.length = 12 := by
  cases part with
  | entry e => exact h.1
  | special tag value => rw [h.1, length_specialSlot]

theorem dataSize_of_whole {e : ExifEntry} (h : e.Whole) : e.dataSize = e.size := by
  rw [ExifEntry.dataSize, h.size, Nat.mod_eq_of_lt h.lt]

theorem components_le_of_whole {e : ExifEntry} (h : e.Whole) : e.components ≤ e.size := by
  have hpos := h.pos
  rw [← h.size] at hpos ⊢
  exact Nat.le_mul_of_pos_left _ (Nat.pos_of_mul_pos_right hpos)

theorem copied_of_whole {e : ExifEntry} {bytes : Bytes} (h : e.Whole) (hcopied : copied e.data e.size = some bytes) :
    e.data = some bytes ∧ bytes.length = e.size := by
  obtain ⟨block, hdata, hlen⟩ := h.data
  rw [hdata, copied, if_pos hlen.ge, ← hlen, List.take_length] at hcopied
  cases hcopied
  exact ⟨hdata, hlen⟩

theorem getShorts_of_head {order : ExifByteOrder} {T rest : Bytes} {e : ExifEntry} {pos : Nat} (hwhole : e.Whole)
    (h : exifSetShort order e.tag.toNat ++ (exifSetShort order e.format ++ rest) <+: T.drop pos) :
    getShort order T pos = .ok e.tag.toNat ∧ getShort order T (pos + 2) = .ok e.format := by
  obtain ⟨htag, hrest⟩ := prefix_drop_append h
  rw [length_exifSetShort] at hrest
  exact ⟨getShort_of_stands htag e.tag.toNat_lt, getShort_of_stands (prefix_drop_append hrest).1 hwhole.format⟩

section

variable {T : Bytes} {order : ExifByteOrder} (hT : T.length < 2 ^ 32)
include hT

theorem load_of_head {e : ExifEntry} {bytes : Bytes} {pos doff : Nat} (hwhole : e.Whole) (hdata : e.data = some bytes)
    (hlen : bytes.length = e.size)
    (hhead : exifSetShort order e.tag.toNat ++ (exifSetShort order e.format ++ exifSetLong order e.components) <+:
      T.drop pos)
    (hdoff : (if 4 < e.size then getLong order T (pos + 8) else .ok (pos + 8)) = .ok doff)
    (hbytes : bytes <+: T.drop doff) {data : LoadData} (horder : data.order = order) :
    ∃ o, exifDataLoadDataEntry allSucceed data T T.length pos =
      .ok (some (e, { data.tick with offsetMnote := o })) := by
  have hshort := length_exifSetShort order
  obtain ⟨htag, hformat⟩ := getShorts_of_head hwhole hhead
  have hcomponents := (prefix_drop_append (prefix_drop_append hhead).2).2
  rw [hshort, hshort, Nat.add_assoc] at hcomponents
  have hpos := hwhole.pos
  have hle := components_le_of_whole hwhole
  have hfits := add_length_le_of_stands hbytes (by omega)
  have hin : outside doff e.size T.length = false :=
    (outside_eq_false (by omega) hwhole.lt hT).mpr (by omega)
  have hs : exifFormatGetSize e.format * e.components % 2 ^ 32 = e.size := dataSize_of_whole hwhole
  refine ⟨if e.tag.toNat = EXIF_TAG_MAKER_NOTE then doff else data.offsetMnote, ?_⟩
  rw [exifDataLoadDataEntry, horder, htag, bind_ok, hformat, bind_ok,
    getLong_of_stands hcomponents (Nat.lt_of_le_of_lt hle hwhole.lt), bind_ok]
  dsimp only
  rw [hs, if_neg (by omega), hdoff, bind_ok, hin, slice_of_stands hbytes hlen hpos, UInt16.ofNat_toNat]
  cases e
  cases hdata
  simp only [Bool.false_eq_true, if_false, allSucceed, if_true, map_ok]
  split <;> rfl

theorem reads_entryOut {data : ExifData} {e : ExifEntry} {n : Nat} {r : Filled ExifEntry UInt8}
    (hr : entryOut data e n = some r) (hwhole : r.value.Whole) (htail : r.tail <+: T.drop (n - 6)) :
    Reads data.order T r.slot (.entry r.value) := by
  have hshort := length_exifSetShort data.order
  have hlong := length_exifSetLong data.order
  have htag := updateMakerNote_tag data n e
  have hformat := updateMakerNote_format data n e
  have hvalue := entryOut_value hr
  rw [hvalue] at hwhole
  unfold entryOut at hr
  dsimp only at hr
  rw [dataSize_of_whole hwhole, ← htag, ← hformat] at hr
  generalize data.updateMakerNote n e = e' at hwhole hr hvalue
  have hhead : (exifSetShort data.order e'.tag.toNat ++
      (exifSetShort data.order e'.format ++ exifSetLong data.order e'.components)).length = 8 := by
    simp only [List.length_append, hshort, hlong]
  split at hr
  next hbig =>
    split at hr
    · obtain ⟨bytes, hcopied, rfl⟩ := Option.map_eq_some_iff.mp hr
      obtain ⟨hdata, hlen⟩ := copied_of_whole hwhole hcopied
      have hbytes := (prefix_drop_append htail).1
      refine ⟨by rw [List.length_append, hhead, hlong], fun pos hpos => ?_⟩
      obtain ⟨hfirst, hoffset⟩ := prefix_drop_append hpos
      rw [hhead] at hoffset
      have hfits := add_length_le_of_stands hbytes (by omega)
      obtain ⟨htag, hformat⟩ := getShorts_of_head hwhole hfirst
      refine ⟨htag, hformat, fun a horder => ?_⟩
      refine load_of_head hT hwhole hdata hlen hfirst ?_ hbytes horder
      rw [if_pos hbig, getLong_of_stands hoffset (by omega)]
    · cases hr
  next hsmall =>
    obtain ⟨bytes, hcopied, rfl⟩ := Option.map_eq_some_iff.mp hr
    obtain ⟨hdata, hlen⟩ := copied_of_whole hwhole hcopied
    refine ⟨?_, fun pos hpos => ?_⟩
    · rw [List.length_append, hhead, List.length_append, hlen, List.length_replicate]
      omega
    · obtain ⟨hfirst, hinline⟩ := prefix_drop_append hpos
      rw [hhead] at hinline
      obtain ⟨htag, hformat⟩ := getShorts_of_head hwhole hfirst
      refine ⟨htag, hformat, fun a horder => ?_⟩
      exact load_of_head hT hwhole hdata hlen hfirst (if_neg hsmall) (prefix_drop_append hinline).1 horder

theorem reads_entriesOut {data : ExifData} {es : List ExifEntry} {n : Nat} {r : Filled (List ExifEntry) UInt8}
    (hr : entriesOut data es n = some r) (hwhole : ∀ e ∈ r.value, e.Whole) (hn : 6 ≤ n)
    (htail : r.tail <+: T.drop (n - 6)) :
    ∃ slots : List Bytes, r.slot = slots.flatten ∧
      List.Forall₂ (Reads data.order T) slots (r.value.map .entry) := by
  induction es generalizing n r with
  | nil =>
    cases hr
    exact ⟨[], rfl, .nil⟩
  | cons e es ih =>
    obtain ⟨r₁, hr₁, hr⟩ := Option.bind_eq_some_iff.mp hr
    obtain ⟨r₂, hr₂, rfl⟩ := Option.map_eq_some_iff.mp hr
    obtain ⟨hfirst, hrest⟩ := prefix_drop_append htail
    rw [show n - 6 + r₁.tail.length = n + r₁.tail.length - 6 by omega] at hrest
    obtain ⟨slots, hslots, hreads⟩ := ih hr₂ (fun e he => hwhole e (List.mem_cons_of_mem _ he)) (by omega) hrest
    refine ⟨r₁.slot :: slots, ?_, ?_⟩
    · rw [List.flatten_cons, ← hslots]
      rfl
    · exact .cons (reads_entryOut hT hr₁ (hwhole _ List.mem_cons_self) hfirst) hreads

end

theorem length_of_reads {order : ExifByteOrder} {T : Bytes} {slots : List Bytes} {parts : List Part}
    (h : List.Forall₂ (Reads order T) slots parts) : ∀ slot ∈ slots, slot.length = 12 := by
  induction h with
  | nil => exact fun _ hmem => by cases hmem
  | cons hreads _ ih => exact List.forall_mem_cons.mpr ⟨hreads.length, ih⟩

theorem length_flatten_of_reads {order : ExifByteOrder} {T : Bytes} {slots : List Bytes} {parts : List Part}
    (h : List.Forall₂ (Reads order T) slots parts) : slots.flatten.length = 12 * parts.length := by
  induction h with
  | nil => rfl
  | cons hreads _ ih =>
    rw [List.flatten_cons, List.length_append, hreads.length, ih, List.length_cons]
    omega

theorem slots_of_flatten {slots : List Bytes} (h : ∀ slot ∈ slots, slot.length = 12) :
    (List.range slots.length).map (fun k => (slots.flatten.drop (12 * k)).take 12) = slots := by
  induction slots with
  | nil => rfl
  | cons slot slots ih =>
    obtain ⟨hslot, hslots⟩ := List.forall_mem_cons.mp h
    rw [List.length_cons, List.range_succ_eq_map, List.map_cons, List.map_map, List.flatten_cons, Nat.mul_zero,
      List.drop_zero, List.take_left' hslot]
    apply congrArg (List.cons slot)
    refine Eq.trans (List.map_congr_left fun k _ => ?_) (ih hslots)
    rw [Function.comp_apply, Nat.mul_succ, Nat.add_comm, ← List.drop_drop, List.drop_left' hslot]

theorem reads_sorted (libc : LibC) (order : ExifByteOrder) {T : Bytes} {slots : List Bytes} {parts : List Part}
    (h : List.Forall₂ (Reads order T) slots parts) :
    ∃ slots' parts', sorted libc order parts.length slots.flatten = slots'.flatten ∧ parts'.Perm parts ∧
      List.Forall₂ (Reads order T) slots' parts' := by
  have hperm := libc.perm (cmpFunc order) slots
  obtain ⟨parts', hreads, hparts⟩ := List.perm_comp_forall₂ hperm h
  refine ⟨libc.qsort (cmpFunc order) slots, parts', ?_, hparts, hreads⟩
  rw [sorted, ← h.length_eq, slots_of_flatten (length_of_reads h)]

end G361FPlatform.Exif
