import G361FPlatform.Exif.SlotLaws

namespace G361FPlatform.Exif

open Library

def under : ExifIfd → List ExifIfd
  | .ifd0 => [.ifd0, .exif, .interoperability, .gps]
  | .exif => [.exif, .interoperability]
  | i => [i]

def child (i : ExifIfd) (tag : Nat) : Option ExifIfd :=
  match i with
  | .ifd0 =>
    if tag = EXIF_TAG_EXIF_IFD_POINTER then some .exif
    else if tag = EXIF_TAG_GPS_INFO_IFD_POINTER then some .gps else none
  | .exif => if tag = EXIF_TAG_INTEROPERABILITY_IFD_POINTER then some .interoperability else none
  | _ => none

namespace Part

def entries : Part → List ExifEntry
  | .entry e => [e]
  | .special _ _ => []

def below (i : ExifIfd) : Part → List ExifIfd
  | .entry _ => []
  | .special tag _ => ((child i tag).map under).getD []

end Part

theorem child_cases {i j : ExifIfd} {tag : Nat} (h : child i tag = some j) :
    i = .ifd0 ∧ tag = EXIF_TAG_EXIF_IFD_POINTER ∧ j = .exif ∨
      i = .ifd0 ∧ tag = EXIF_TAG_GPS_INFO_IFD_POINTER ∧ j = .gps ∨
      i = .exif ∧ tag = EXIF_TAG_INTEROPERABILITY_IFD_POINTER ∧ j = .interoperability := by
  cases i with
  | ifd0 =>
    rw [child] at h
    split at h
    next htag => exact .inl ⟨rfl, htag, (Option.some.inj h).symm⟩
    · split at h
      next htag => exact .inr (.inl ⟨rfl, htag, (Option.some.inj h).symm⟩)
      · cases h
  | exif =>
    rw [child] at h
    split at h
    next htag => exact .inr (.inr ⟨rfl, htag, (Option.some.inj h).symm⟩)
    · cases h
  | ifd1 => cases h
  | gps => cases h
  | interoperability => cases h

theorem notMem_below (i : ExifIfd) (p : Part) : i ∉ p.below i := by
  cases p with
  | entry e => exact List.not_mem_nil
  | special tag value =>
    change i ∉ ((child i tag).map under).getD []
    cases h : child i tag with
    | none => exact List.not_mem_nil
    | some j => rcases child_cases h with ⟨rfl, -, rfl⟩ | ⟨rfl, -, rfl⟩ | ⟨rfl, -, rfl⟩ <;> decide

/-- From `a` to `b`, a directory and those under it have become those of the target.  Only IFD 1 has a
thumbnail. -/
structure Restored (target : ExifData) (i : ExifIfd) (a b : LoadData) : Prop where
  same : Same a b
  within : ∀ k ∈ under i, (b.ifd k).Perm (target.ifd k)
  outside : ∀ k ∉ under i, b.ifd k = a.ifd k
  thumbnail : b.data = (if i = .ifd1 ∧ target.needsThumbnail then target.data else a.data) ∧
    b.size = if i = .ifd1 ∧ target.needsThumbnail then target.size else a.size

section

variable (order : ExifByteOrder) (ignore : Bool) (target : ExifData)

def Restores (load : ExifIfd → Nat → LoadData → Except Stuck LoadData) (i : ExifIfd) (o : Nat) : Prop :=
  ∀ a, a.order = order → a.ignoreUnknownTags = ignore → (∀ k ∈ under i, a.ifd k = []) →
    Yields (load i o a) (Restored target i a)

variable (lib : LoadLib) (load : ExifIfd → Nat → LoadData → Except Stuck LoadData) (i : ExifIfd) (o : Nat)
  (block : Bytes)

/-- A part of the target's directory `i`: an entry that is not left out, a pointer to what is restored, or where the
thumbnail is and how long. -/
def Placed : Part → Prop
  | .entry e => e.Whole ∧ isSpecialTag e.tag.toNat = false ∧ (ignore = true → lib.nameInIfd e.tag.toNat i = true)
  | .special tag value =>
    (∃ j, child i tag = some j ∧ Restores order ignore target load j value) ∨
      i = .ifd1 ∧ (tag = EXIF_TAG_JPEG_INTERCHANGE_FORMAT ∧ value = o ∨
        tag = EXIF_TAG_JPEG_INTERCHANGE_FORMAT_LENGTH ∧ value = block.length)

structure Shown (a : LoadData) (l : Loading) : Prop where
  offset : l.thumbnailOffset = 0 ∨ l.thumbnailOffset = o
  length : l.thumbnailLength = 0 ∨ l.thumbnailLength = block.length
  both : l.thumbnailOffset ≠ 0 → l.thumbnailLength ≠ 0 → l.data.data = some block ∧ l.data.size = block.length
  missing : l.thumbnailOffset = 0 ∨ l.thumbnailLength = 0 → l.data.data = a.data ∧ l.data.size = a.size

structure Done (a : LoadData) (ps : List Part) (l l' : Loading) : Prop where
  same : Same l.data l'.data
  own : l'.data.ifd i = l.data.ifd i ++ ps.flatMap Part.entries
  below : ∀ k ∈ ps.flatMap (Part.below i), (l'.data.ifd k).Perm (target.ifd k)
  other : ∀ k, k ≠ i → k ∉ ps.flatMap (Part.below i) → l'.data.ifd k = l.data.ifd k
  shown : Shown o block a l'
  offset : l'.thumbnailOffset = if EXIF_TAG_JPEG_INTERCHANGE_FORMAT ∈ ps.map Part.tag then o else l.thumbnailOffset
  length : l'.thumbnailLength =
    if EXIF_TAG_JPEG_INTERCHANGE_FORMAT_LENGTH ∈ ps.map Part.tag then block.length else l.thumbnailLength

end

section

variable {order : ExifByteOrder} {ignore : Bool} {target : ExifData} {lib : LoadLib}
  {load : ExifIfd → Nat → LoadData → Except Stuck LoadData} {i : ExifIfd} {o : Nat} {block T : Bytes}
  {a : LoadData} {l l' l'' : Loading} {p : Part} {ps : List Part} {pos : Nat} {slot : Bytes}

theorem below_of_child {j : ExifIfd} {tag : Nat} (value : Nat) (h : child i tag = some j) :
    (Part.special tag value).below i = under j := by
  rw [Part.below, h]
  rfl

theorem Done.nil (h : Shown o block a l) : Done target i o block a [] l l :=
  ⟨.refl _, (List.append_nil _).symm, (fun _ hk => by cases hk), fun _ _ _ => rfl, h, rfl, rfl⟩

theorem seen_cons (p : Part) (ps : List Part) (tag v w : Nat) :
    (if tag ∈ ps.map Part.tag then v else if tag ∈ [p].map Part.tag then v else w) =
      if tag ∈ (p :: ps).map Part.tag then v else w := by
  by_cases hps : tag ∈ ps.map Part.tag
  · exact (if_pos hps).trans (if_pos (List.mem_cons_of_mem p.tag hps)).symm
  · rw [if_neg hps]
    refine if_congr ?_ rfl rfl
    exact List.mem_singleton.trans (Iff.symm (by simp only [List.map_cons, List.mem_cons, hps, or_false]))

theorem Done.cons (h : Done target i o block a [p] l l') (k : Done target i o block a ps l' l'')
    (hnodup : ((p :: ps).flatMap (Part.below i)).Nodup) : Done target i o block a (p :: ps) l l'' := by
  rw [List.flatMap_cons, List.nodup_append] at hnodup
  have hfirst : [p].flatMap (Part.below i) = p.below i := List.append_nil _
  refine ⟨h.same.trans k.same, ?_, fun j hj => ?_, fun j hij hj => ?_, k.shown, ?_, ?_⟩
  · rw [k.own, h.own, List.flatMap_singleton, List.append_assoc, List.flatMap_cons]
  · rcases List.mem_append.mp hj with hj | hj
    · have hne : j ≠ i := fun heq => notMem_below i p (heq ▸ hj)
      rw [k.other j hne fun hps => hnodup.2.2 j hj j hps rfl]
      exact h.below j (hfirst ▸ hj)
    · exact k.below j hj
  · rw [List.flatMap_cons, List.mem_append, not_or] at hj
    rw [k.other j hij hj.2, h.other j hij (hfirst ▸ hj.1)]
  · rw [k.offset, h.offset, seen_cons]
  · rw [k.length, h.length, seen_cons]

theorem format_pos {e : ExifEntry} (h : e.Whole) : e.format ≠ 0 := by
  intro hzero
  have hsize := h.size
  have hpos := h.pos
  rw [hzero, show exifFormatGetSize 0 = 0 from rfl, Nat.zero_mul] at hsize
  omega

theorem tag_ne_of_not_special {tag special : Nat} (h : isSpecialTag tag = false)
    (hspecial : isSpecialTag special = true) :
    special ≠ tag := by
  rintro rfl
  rw [h] at hspecial
  cases hspecial

theorem exifContentAddEntry_new {c : ExifContent} {e : ExifEntry} (h : e.tag ∉ c.map (·.tag)) :
    exifContentAddEntry true c e = c ++ [e] := by
  have hfind : exifContentGetEntry c e.tag.toNat = none := by
    refine List.find?_eq_none.mpr fun x hx htag => h ?_
    rw [decide_eq_true_eq] at htag
    exact UInt16.toNat_inj.mp htag ▸ List.mem_map_of_mem hx
  rw [exifContentAddEntry, hfind]
  rfl

theorem loadEntry_done {e : ExifEntry} (hreads : Reads order T slot (.entry e)) (hslot : slot <+: T.drop pos)
    (hspecial : isSpecialTag e.tag.toNat = false) (horder : l.data.order = order) (hshown : Shown o block a l)
    (hnew : e.tag ∉ (l.data.ifd i).map (·.tag)) :
    Yields (loadEntry allSucceed T T.length i pos l) (Done target i o block a [.entry e] l) := by
  obtain ⟨offset, hload⟩ := (hreads.2 pos hslot).2.2 l.data.tick horder
  have hadd := exifContentAddEntry_new hnew
  rw [loadEntry, if_neg (by simp [allSucceed]), hload, map_ok]
  refine Yields.ok ⟨⟨rfl, rfl, rfl, rfl, rfl⟩, ?_, (fun _ hk => by cases hk), fun k hk _ => ?_, ?_, ?_, ?_⟩
  · exact (addEntry_ifd allSucceed _ i i e).trans ((if_pos rfl).trans hadd)
  · exact (addEntry_ifd allSucceed _ i k e).trans (if_neg hk)
  · exact ⟨hshown.offset, hshown.length, hshown.both, hshown.missing⟩
  · exact (if_neg fun h => tag_ne_of_not_special hspecial rfl (List.mem_singleton.mp h)).symm
  · exact (if_neg fun h => tag_ne_of_not_special hspecial rfl (List.mem_singleton.mp h)).symm

theorem loadPointer_done {j : ExifIfd} {tag value : Nat} (hchild : child i tag = some j)
    (hload : Restores order ignore target load j value) (horder : l.data.order = order)
    (hignore : l.data.ignoreUnknownTags = ignore) (hshown : Shown o block a l)
    (hempty : ∀ k ∈ under j, l.data.ifd k = []) :
    Yields (loadPointer load i j value l) (Done target i o block a [.special tag value] l) := by
  have hji : j ≠ i := by
    rintro rfl
    rcases child_cases hchild with ⟨h, -, h'⟩ | ⟨h, -, h'⟩ | ⟨h, -, h'⟩ <;> rw [h] at h' <;> cases h'
  have hself : j ∈ under j := by cases j <;> decide
  have hnot := below_of_child value hchild ▸ notMem_below i (.special tag value)
  have hthumb : j ≠ .ifd1 := by
    rcases child_cases hchild with ⟨-, -, rfl⟩ | ⟨-, -, rfl⟩ | ⟨-, -, rfl⟩ <;> decide
  have hbelow : [Part.special tag value].flatMap (Part.below i) = under j :=
    (List.append_nil _).trans (below_of_child value hchild)
  have htags : EXIF_TAG_JPEG_INTERCHANGE_FORMAT ≠ tag ∧ EXIF_TAG_JPEG_INTERCHANGE_FORMAT_LENGTH ≠ tag := by
    rcases child_cases hchild with ⟨-, rfl, -⟩ | ⟨-, rfl, -⟩ | ⟨-, rfl, -⟩ <;> decide
  rw [loadPointer, if_neg (by simp [hji, hempty j hself])]
  apply Yields.map
  refine (hload l.data horder hignore hempty).imp fun b hb => ?_
  have hdata : b.data = l.data.data := hb.thumbnail.1.trans (if_neg (by simp [hthumb]))
  have hsize : b.size = l.data.size := hb.thumbnail.2.trans (if_neg (by simp [hthumb]))
  refine ⟨hb.same, ?_, fun k hk => hb.within k (hbelow ▸ hk), fun k _ hk => hb.outside k (hbelow ▸ hk), ?_, ?_, ?_⟩
  · exact (hb.outside i hnot).trans (List.append_nil _).symm
  · refine ⟨hshown.offset, hshown.length, fun ho hl => ?_, fun h => ?_⟩
    · exact ⟨hdata.trans (hshown.both ho hl).1, hsize.trans (hshown.both ho hl).2⟩
    · exact ⟨hdata.trans (hshown.missing h).1, hsize.trans (hshown.missing h).2⟩
  · exact (if_neg fun h => htags.1 (List.mem_singleton.mp h)).symm
  · exact (if_neg fun h => htags.2 (List.mem_singleton.mp h)).symm

theorem loadThumbnail_shown (hT : T.length < 2 ^ 32) (hblock : block <+: T.drop o)
    (hshown : Shown o block a l) (l₁ : Loading) (hdata : l₁.data = l.data)
    (ho : l₁.thumbnailOffset = 0 ∨ l₁.thumbnailOffset = o)
    (hl : l₁.thumbnailLength = 0 ∨ l₁.thumbnailLength = block.length)
    (hgrown : l₁.thumbnailOffset = 0 ∨ l₁.thumbnailLength = 0 → l.thumbnailOffset = 0 ∨ l.thumbnailLength = 0) :
    Yields (loadThumbnail allSucceed T T.length l₁) fun l' => Shown o block a l' ∧ Same l.data l'.data ∧
      l'.data.ifd = l.data.ifd ∧ l'.thumbnailOffset = l₁.thumbnailOffset ∧
      l'.thumbnailLength = l₁.thumbnailLength := by
  unfold loadThumbnail
  split
  next hboth =>
    have heq : l₁.thumbnailOffset = o := ho.resolve_left hboth.1
    have hlen : l₁.thumbnailLength = block.length := hl.resolve_left hboth.2
    have hpos : 0 < block.length := by omega
    have hfits := add_length_le_of_stands hblock hpos
    have hin : outside o block.length T.length = false :=
      (outside_eq_false (by omega) (by omega) hT).mpr hfits
    rw [heq, hlen, exifDataLoadDataThumbnail, hin, if_neg (by simp; omega),
      if_pos (show allSucceed .data l₁.data.allocs = true from rfl), slice_of_stands hblock rfl hpos, map_ok, map_ok,
      LoadData.tick, hdata]
    refine Yields.ok ⟨⟨.inr rfl, .inr rfl, fun _ _ => ⟨rfl, rfl⟩, fun h => ?_⟩,
      ⟨rfl, rfl, rfl, rfl, rfl⟩, rfl, rfl, rfl⟩
    exact (h.elim (heq ▸ hboth.1) (hlen ▸ hboth.2)).elim
  next hboth =>
    have hmissing : l₁.thumbnailOffset = 0 ∨ l₁.thumbnailLength = 0 := by omega
    refine Yields.ok ⟨⟨ho, hl, fun h h' => absurd ⟨h, h'⟩ hboth, fun _ => ?_⟩, hdata ▸ .refl _, by rw [hdata], rfl, rfl⟩
    rw [hdata]
    exact hshown.missing (hgrown hmissing)

theorem loadSpecial_offset_done (hT : T.length < 2 ^ 32) (hblock : block <+: T.drop o) (hshown : Shown o block a l) :
    Yields (loadSpecial allSucceed T T.length load i EXIF_TAG_JPEG_INTERCHANGE_FORMAT o l)
      (Done target i o block a [.special EXIF_TAG_JPEG_INTERCHANGE_FORMAT o] l) := by
  have hbelow : [Part.special EXIF_TAG_JPEG_INTERCHANGE_FORMAT o].flatMap (Part.below i) = [] := by
    cases i <;> rfl
  refine (loadThumbnail_shown hT hblock hshown { l with thumbnailOffset := o } rfl (.inr rfl) hshown.length
    fun h => ?_).imp fun l' hl' => ?_
  · exact h.imp (fun h => hshown.offset.elim id fun heq => heq.trans h) id
  · obtain ⟨hshown, hsame, hifd, ho, hl⟩ := hl'
    refine ⟨hsame, ?_, fun k hk => ?_, fun k _ _ => congrFun hifd k, hshown, ho, hl⟩
    · exact (congrFun hifd i).trans (List.append_nil _).symm
    · rw [hbelow] at hk
      cases hk

theorem loadSpecial_length_done (hT : T.length < 2 ^ 32) (hblock : block <+: T.drop o) (hshown : Shown o block a l) :
    Yields (loadSpecial allSucceed T T.length load i EXIF_TAG_JPEG_INTERCHANGE_FORMAT_LENGTH block.length l)
      (Done target i o block a [.special EXIF_TAG_JPEG_INTERCHANGE_FORMAT_LENGTH block.length] l) := by
  have hbelow : [Part.special EXIF_TAG_JPEG_INTERCHANGE_FORMAT_LENGTH block.length].flatMap (Part.below i) = [] := by
    cases i <;> rfl
  refine (loadThumbnail_shown hT hblock hshown { l with thumbnailLength := block.length } rfl hshown.offset
    (.inr rfl) fun h => ?_).imp fun l' hl' => ?_
  · exact h.imp id fun h => hshown.length.elim id fun heq => heq.trans h
  · obtain ⟨hshown, hsame, hifd, ho, hl⟩ := hl'
    refine ⟨hsame, ?_, fun k hk => ?_, fun k _ _ => congrFun hifd k, hshown, ho, hl⟩
    · exact (congrFun hifd i).trans (List.append_nil _).symm
    · rw [hbelow] at hk
      cases hk

theorem loadSlot_done (hT : T.length < 2 ^ 32) (hblock : i = .ifd1 → block <+: T.drop o)
    (hreads : Reads order T slot p) (hslot : slot <+: T.drop pos)
    (hplaced : Placed order ignore target lib load i o block p) (horder : l.data.order = order)
    (hignore : l.data.ignoreUnknownTags = ignore) (hshown : Shown o block a l)
    (hnew : p.tag ∉ (l.data.ifd i).map (·.tag.toNat)) (hempty : ∀ k ∈ p.below i, l.data.ifd k = []) :
    Yields (loadSlot lib allSucceed T T.length load i pos l) (Done target i o block a [p] l) := by
  cases p with
  | entry e =>
    obtain ⟨hwhole, hspecial, hname⟩ := hplaced
    obtain ⟨htag, hformat, -⟩ := hreads.2 pos hslot
    have hnew : e.tag ∉ (l.data.ifd i).map (·.tag) := by
      intro hmem
      obtain ⟨x, hx, htag⟩ := List.mem_map.mp hmem
      exact hnew (List.mem_map.mpr ⟨x, hx, congrArg UInt16.toNat htag⟩)
    have hentry : Yields (loadEntry allSucceed T T.length i pos l) (Done target i o block a [.entry e] l) :=
      loadEntry_done hreads hslot hspecial horder hshown hnew
    rw [loadSlot, horder, htag, bind_ok, if_neg (by rw [hspecial]; exact Bool.false_ne_true)]
    split
    · exact hentry
    next hknown =>
      have hfits := add_length_le_of_stands hslot (by rw [hreads.1]; decide)
      rw [hreads.1] at hfits
      rw [Block.slice_eq (by omega), bind_ok, hignore, if_neg]
      · exact hentry
      · rintro (hzero | hignored)
        · have hnull : (T.drop (pos + 2)).take 2 = [0, 0] := by
            have hdrop := congrArg (List.drop 2) hzero
            rwa [List.drop_take, List.drop_drop] at hdrop
          rw [getShort, Block.slice_eq (by omega), hnull, map_ok] at hformat
          have hformat := Except.ok.inj hformat
          exact format_pos hwhole (hformat.symm.trans (by cases order <;> rfl))
        · exact hknown (hname hignored)
  | special tag value =>
    obtain ⟨rfl, htag, hvalue⟩ := hreads
    have hshort := length_exifSetShort order
    obtain ⟨hfirst, hrest⟩ := prefix_drop_append hslot
    have hlong := (prefix_drop_append (prefix_drop_append hrest).2).2
    rw [hshort, length_exifSetLong, hshort] at hlong
    have hspecial : isSpecialTag tag = true := by
      rcases hplaced with ⟨j, hj, -⟩ | ⟨-, ⟨rfl, -⟩ | ⟨rfl, -⟩⟩
      · rcases child_cases hj with ⟨-, rfl, -⟩ | ⟨-, rfl, -⟩ | ⟨-, rfl, -⟩ <;> rfl
      · rfl
      · rfl
    rw [loadSlot, horder, getShort_of_stands hfirst htag, bind_ok, if_pos hspecial,
      getLong_of_stands hlong hvalue, bind_ok]
    rcases hplaced with ⟨j, hj, hload⟩ | ⟨rfl, ⟨rfl, rfl⟩ | ⟨rfl, rfl⟩⟩
    · have hpointer : Yields (loadPointer load i j value l) (Done target i o block a [.special tag value] l) :=
        loadPointer_done hj hload horder hignore hshown (below_of_child value hj ▸ hempty)
      rcases child_cases hj with ⟨-, rfl, rfl⟩ | ⟨-, rfl, rfl⟩ | ⟨-, rfl, rfl⟩ <;> exact hpointer
    · exact loadSpecial_offset_done hT (hblock rfl) hshown
    · exact loadSpecial_length_done hT (hblock rfl) hshown

theorem loadSlots_done (hT : T.length < 2 ^ 32) (hblock : i = .ifd1 → block <+: T.drop o) {slots : List Bytes}
    (hreads : List.Forall₂ (Reads order T) slots ps) (hslots : slots.flatten <+: T.drop pos)
    (hplaced : ∀ p ∈ ps, Placed order ignore target lib load i o block p) (horder : l.data.order = order)
    (hignore : l.data.ignoreUnknownTags = ignore) (hshown : Shown o block a l)
    (htags : ((l.data.ifd i).map (·.tag.toNat) ++ ps.map Part.tag).Nodup)
    (hnodup : (ps.flatMap (Part.below i)).Nodup) (hempty : ∀ k ∈ ps.flatMap (Part.below i), l.data.ifd k = []) :
    Yields (loadSlots lib allSucceed T T.length load i ps.length pos l) (Done target i o block a ps l) := by
  induction hreads generalizing pos l with
  | nil => exact Yields.ok (Done.nil hshown)
  | @cons slot p slots ps hread hreads ih =>
    obtain ⟨hp, hps⟩ := List.forall_mem_cons.mp hplaced
    obtain ⟨hslot, hrest⟩ := prefix_drop_append hslots
    rw [hread.length] at hrest
    have hnew : p.tag ∉ (l.data.ifd i).map (·.tag.toNat) :=
      fun hmem => (List.nodup_append.mp htags).2.2 _ hmem _ List.mem_cons_self rfl
    apply (loadSlot_done hT hblock hread hslot hp horder hignore hshown hnew
      fun k hk => hempty k (List.mem_append_left _ hk)).bind
    intro l₁ h
    have htags₁ : ((l₁.data.ifd i).map (·.tag.toNat) ++ ps.map Part.tag).Nodup := by
      rw [h.own, List.flatMap_singleton, List.map_append, List.append_assoc]
      refine htags.sublist ?_
      apply List.Sublist.append_left
      cases p with
      | entry e => exact List.Sublist.refl _
      | special tag value => exact List.sublist_cons_self _ _
    have hcons := List.nodup_append.mp hnodup
    have hempty₁ : ∀ k ∈ ps.flatMap (Part.below i), l₁.data.ifd k = [] := by
      intro k hk
      have hne : k ≠ i := by
        rintro rfl
        obtain ⟨q, -, hq⟩ := List.mem_flatMap.mp hk
        exact notMem_below k q hq
      have hnot : k ∉ [p].flatMap (Part.below i) := by
        intro hmem
        rw [List.flatMap_singleton] at hmem
        exact hcons.2.2 k hmem k hk rfl
      exact (h.other k hne hnot).trans (hempty k (List.mem_append_right _ hk))
    refine (ih hrest hps (h.same.order.trans horder) (h.same.ignoreUnknownTags.trans hignore) h.shown htags₁
      hcons.2.1 hempty₁).imp fun l₂ k => ?_
    exact h.cons k hnodup

end

theorem below_subset {i k : ExifIfd} {p : Part} (h : k ∈ p.below i) : k ∈ under i := by
  cases p with
  | entry e => cases h
  | special tag value =>
    cases hchild : child i tag with
    | none =>
      rw [Part.below, hchild] at h
      cases h
    | some j =>
      rw [below_of_child value hchild] at h
      rcases child_cases hchild with ⟨rfl, -, rfl⟩ | ⟨rfl, -, rfl⟩ | ⟨rfl, -, rfl⟩ <;> revert k <;> decide

structure Lists (target : ExifData) (i : ExifIfd) (o : Nat) (block : Bytes) (ps : List Part) : Prop where
  entries : (ps.flatMap Part.entries).Perm (target.ifd i)
  tags : (ps.map Part.tag).Nodup
  below : (ps.flatMap (Part.below i)).Nodup
  rest : ∀ k ∈ under i, k ≠ i → k ∉ ps.flatMap (Part.below i) → target.ifd k = []
  thumbnail : if i = .ifd1 ∧ target.needsThumbnail then
      EXIF_TAG_JPEG_INTERCHANGE_FORMAT ∈ ps.map Part.tag ∧ EXIF_TAG_JPEG_INTERCHANGE_FORMAT_LENGTH ∈ ps.map Part.tag ∧
        o ≠ 0 ∧ target.data = some block ∧ target.size = block.length
    else EXIF_TAG_JPEG_INTERCHANGE_FORMAT ∉ ps.map Part.tag

theorem Lists.perm {target : ExifData} {i : ExifIfd} {o : Nat} {block : Bytes} {ps qs : List Part}
    (h : Lists target i o block ps) (hperm : qs.Perm ps) : Lists target i o block qs := by
  have htags := hperm.map Part.tag
  have hbelow := hperm.flatMap_right (Part.below i)
  refine ⟨(hperm.flatMap_right Part.entries).trans h.entries, htags.nodup_iff.mpr h.tags, hbelow.nodup_iff.mpr h.below,
    fun k hk hne hnot => h.rest k hk hne fun hmem => hnot (hbelow.mem_iff.mpr hmem), ?_⟩
  simp only [htags.mem_iff]
  exact h.thumbnail

theorem content_restores {order : ExifByteOrder} {ignore : Bool} {target : ExifData} {lib : LoadLib} {i : ExifIfd}
    {o v depth : Nat} {block T : Bytes} {slots : List Bytes} {ps : List Part} (hT : T.length < 2 ^ 16)
    (hblock : i = .ifd1 → block <+: T.drop o) (hlists : Lists target i o block ps)
    (hreads : List.Forall₂ (Reads order T) slots ps)
    (hplaced : ∀ p ∈ ps,
      Placed order ignore target lib (exifDataLoadDataContent lib allSucceed T T.length depth) i o block p)
    (hfirst : exifSetShort order ps.length ++ slots.flatten <+: T.drop v) :
    Restores order ignore target (exifDataLoadDataContent lib allSucceed T T.length (depth + 1)) i v := by
  intro a horder hignore hempty
  have hshort := length_exifSetShort order ps.length
  obtain ⟨hcount, hslots⟩ := prefix_drop_append hfirst
  rw [hshort] at hslots
  have hflat := length_flatten_of_reads hreads
  have hfits := add_length_le_of_stands hfirst (by rw [List.length_append, hshort]; omega)
  rw [List.length_append, hshort, hflat] at hfits
  have hin : outside v 2 T.length = false :=
    (outside_eq_false (by omega) (by decide) (by omega)).mpr (by omega)
  have hself : i ∈ under i := by cases i <;> decide
  have hown : (LoadData.toExifData a).ifd i = [] := hempty i hself
  have hshown : Shown o block a ⟨a, 0, 0⟩ := ⟨.inl rfl, .inl rfl, fun h => absurd rfl h, fun _ => ⟨rfl, rfl⟩⟩
  have hbelow : ∀ k ∈ ps.flatMap (Part.below i), k ∈ under i := by
    intro k hk
    obtain ⟨p, -, hp⟩ := List.mem_flatMap.mp hk
    exact below_subset hp
  rw [exifDataLoadDataContent, exifDataLoadDataContentWith, hin, if_neg Bool.false_ne_true, horder,
    getShort_of_stands hcount (by omega), bind_ok]
  dsimp only
  rw [if_neg (by omega)]
  apply Yields.map
  refine (loadSlots_done (by omega) hblock hreads hslots hplaced horder hignore hshown
    (by rw [hown]; exact hlists.tags) hlists.below fun k hk => hempty k (hbelow k hk)).imp fun l h => ?_
  have hperm := hlists.entries
  refine ⟨h.same, fun k hk => ?_, fun k hk => ?_, ?_⟩
  · by_cases hki : k = i
    · subst hki
      rw [h.own, hown, List.nil_append]
      exact hperm
    by_cases hmem : k ∈ ps.flatMap (Part.below i)
    · exact h.below k hmem
    · rw [h.other k hki hmem, hlists.rest k hk hki hmem]
      exact List.Perm.of_eq (hempty k hk)
  · exact h.other k (fun heq => hk (heq ▸ hself)) fun hmem => hk (hbelow k hmem)
  · have hthumbnail := hlists.thumbnail
    by_cases hneeds : i = .ifd1 ∧ target.needsThumbnail = true
    · rw [if_pos hneeds] at hthumbnail ⊢
      obtain ⟨hoffset, hlength, ho, hdata, hsize⟩ := hthumbnail
      have hpos : target.size ≠ 0 := of_decide_eq_true hneeds.2
      have hboth := h.shown.both (by rw [h.offset, if_pos hoffset]; exact ho)
        (by rw [h.length, if_pos hlength]; omega)
      rw [if_pos hneeds, hdata, hsize]
      exact hboth
    · rw [if_neg hneeds] at hthumbnail ⊢
      rw [if_neg hneeds]
      exact h.shown.missing (.inl (by rw [h.offset, if_neg hthumbnail]))

end G361FPlatform.Exif
