import G361FPlatform.Exif.RestoreLaws
import G361FPlatform.Exif.ThumbnailLaws

namespace G361FPlatform.Exif

open Library

structure GoodIfd (lib : LoadLib) (ignore : Bool) (i : ExifIfd) (entries : ExifContent) : Prop where
  entry : ∀ e ∈ entries, e.Whole ∧ isSpecialTag e.tag.toNat = false ∧
    (ignore = true → lib.nameInIfd e.tag.toNat i = true)
  nodup : (entries.map (·.tag.toNat)).Nodup

def ExifData.GoodThumbnail (data : ExifData) : Prop := (data.data.map List.length).getD 0 = data.size

theorem ExifData.Whole.good {lib : LoadLib} {ignore : Bool} {data : ExifData} (h : data.Whole lib ignore)
    (i : ExifIfd) : GoodIfd lib ignore i (data.ifd i) := by
  refine ⟨fun e he => ⟨h.entry i e he, h.tag i e he⟩, ?_⟩
  have hnodup := (h.nodup i).map (f := UInt16.toNat) fun _ _ => UInt16.toNat_inj.mp
  rwa [List.map_map] at hnodup

def Kept (lib : LoadLib) (ignore : Bool) (T : Bytes) (load : ExifIfd → Nat → LoadData → Except Stuck LoadData)
    (sub : ExifIfd → ExifData → Nat → Option (ExifData × Bytes)) : Prop :=
  ∀ j data n q, j ≠ .ifd0 → sub j data n = some q →
    q.1.order = data.order ∧ (∀ k ∉ under j, q.1.ifd k = data.ifd k) ∧
      (6 < n → q.2 <+: T.drop (n - 6) → (∀ k ∈ under j, GoodIfd lib ignore k (q.1.ifd k)) →
        (j = .ifd1 → q.1.GoodThumbnail) →
        n - 6 < 2 ^ 32 ∧ Restores data.order ignore q.1 load j (n - 6))

theorem Restores.congr {order : ExifByteOrder} {ignore : Bool} {target target' : ExifData}
    {load : ExifIfd → Nat → LoadData → Except Stuck LoadData} {j : ExifIfd} {o : Nat}
    (h : Restores order ignore target load j o) (hj : j ≠ .ifd1) (heq : ∀ k ∈ under j, target'.ifd k = target.ifd k) :
    Restores order ignore target' load j o := by
  intro a horder hignore hempty
  refine (h a horder hignore hempty).imp fun b hb => ⟨hb.same, fun k hk => ?_, hb.outside, ?_⟩
  · rw [heq k hk]
    exact hb.within k hk
  · have hthumbnail := hb.thumbnail
    rw [if_neg fun h => hj h.1, if_neg fun h => hj h.1] at hthumbnail ⊢
    exact hthumbnail

section

variable {lib : LoadLib} {ignore : Bool} {T : Bytes} {load : ExifIfd → Nat → LoadData → Except Stuck LoadData}
  {sub : ExifIfd → ExifData → Nat → Option (ExifData × Bytes)} {i : ExifIfd} {o : Nat} {block : Bytes}

structure Specials (order : ExifByteOrder) (T slot : Bytes) (i : ExifIfd) (ps : List Part) (tags : List Nat)
    (below : List ExifIfd) : Prop where
  slots : ∃ slots : List Bytes, slot = slots.flatten ∧ List.Forall₂ (Reads order T) slots ps
  entries : ps.flatMap Part.entries = []
  tags : ps.map Part.tag = tags
  below : ps.flatMap (Part.below i) = below

theorem Specials.append {order : ExifByteOrder} {x y : Bytes} {ps qs : List Part} {tags tags' : List Nat}
    {below below' : List ExifIfd} (h : Specials order T x i ps tags below)
    (k : Specials order T y i qs tags' below') :
    Specials order T (x ++ y) i (ps ++ qs) (tags ++ tags') (below ++ below') := by
  obtain ⟨xs, rfl, hxs⟩ := h.slots
  obtain ⟨ys, rfl, hys⟩ := k.slots
  refine ⟨⟨xs ++ ys, List.flatten_append.symm, List.rel_append hxs hys⟩, ?_, ?_, ?_⟩
  · rw [List.flatMap_append, h.entries, k.entries, List.append_nil]
  · rw [List.map_append, h.tags, k.tags]
  · rw [List.flatMap_append, h.below, k.below]

theorem specials_nil (order : ExifByteOrder) (T : Bytes) (i : ExifIfd) : Specials order T [] i [] [] [] :=
  ⟨⟨[], rfl, .nil⟩, rfl, rfl, rfl⟩

theorem pointerOut_specials (i : ExifIfd) (o : Nat) (block : Bytes)
    (hsub : Kept lib ignore T load sub) {needed : Bool} {tag : Nat} {j : ExifIfd}
    {data : ExifData} {n : Nat} {q : Filled ExifData UInt8} (hq : pointerOut sub needed tag j data n = some q)
    (hchild : child i tag = some j) (htag : tag < 2 ^ 16) :
    q.value.order = data.order ∧ (∀ k ∉ under j, q.value.ifd k = data.ifd k) ∧
      (needed = false → q.value = data) ∧
      (6 < n → q.tail <+: T.drop (n - 6) → ∀ target : ExifData, (∀ k ∈ under j, target.ifd k = q.value.ifd k) →
        (∀ k ∈ under j, GoodIfd lib ignore k (target.ifd k)) →
          ∃ ps, Specials data.order T q.slot i ps (if needed then [tag] else []) (if needed then under j else []) ∧
            ∀ p ∈ ps, Placed data.order ignore target lib load i o block p) := by
  have hj : j ≠ .ifd0 ∧ j ≠ .ifd1 := by
    rcases child_cases hchild with ⟨-, -, rfl⟩ | ⟨-, -, rfl⟩ | ⟨-, -, rfl⟩ <;> decide
  unfold pointerOut at hq
  split at hq
  next hneeded =>
    obtain ⟨s, hs, rfl⟩ := Option.map_eq_some_iff.mp hq
    obtain ⟨horder, hframe, hload⟩ := hsub j data n s hj.1 hs
    refine ⟨horder, hframe, fun h => absurd hneeded (by rw [h]; exact Bool.false_ne_true),
      fun hn htail target htarget hgood => ?_⟩
    obtain ⟨hlt, hrestores⟩ := hload hn htail (fun k hk => htarget k hk ▸ hgood k hk) fun h => absurd h hj.2
    refine ⟨[.special tag (n - 6)], ⟨⟨[_], (List.append_nil _).symm, .cons ⟨rfl, htag, hlt⟩ .nil⟩, rfl, ?_, ?_⟩, ?_⟩
    · rw [if_pos hneeded]
      rfl
    · rw [if_pos hneeded]
      exact (List.append_nil _).trans (below_of_child _ hchild)
    · intro p hp
      rw [List.mem_singleton.mp hp]
      exact .inl ⟨j, hchild, hrestores.congr hj.2 htarget⟩
  next hneeded =>
    cases hq
    refine ⟨rfl, fun _ _ => rfl, fun _ => rfl, fun _ _ _ _ _ => ⟨[], ?_, by simp⟩⟩
    rw [if_neg hneeded, if_neg hneeded]
    exact specials_nil data.order T i

structure SpecialLists (target : ExifData) (i : ExifIfd) (o : Nat) (block : Bytes) (tags : List Nat)
    (below : List ExifIfd) : Prop where
  distinct : tags.Nodup
  special : ∀ tag ∈ tags, isSpecialTag tag = true
  disjoint : below.Nodup
  rest : ∀ k ∈ under i, k ≠ i → k ∉ below → target.ifd k = []
  thumbnail : if i = .ifd1 ∧ target.needsThumbnail then
      EXIF_TAG_JPEG_INTERCHANGE_FORMAT ∈ tags ∧ EXIF_TAG_JPEG_INTERCHANGE_FORMAT_LENGTH ∈ tags ∧
        o ≠ 0 ∧ target.data = some block ∧ target.size = block.length
    else EXIF_TAG_JPEG_INTERCHANGE_FORMAT ∉ tags

theorem specialLists_ifd0 {target : ExifData} {exif gps : Bool}
    (hexif : exif = false → target.ifd .exif = [] ∧ target.ifd .interoperability = [])
    (hgps : gps = false → target.ifd .gps = []) :
    SpecialLists target .ifd0 o block
      ((if exif then [EXIF_TAG_EXIF_IFD_POINTER] else []) ++ (if gps then [EXIF_TAG_GPS_INFO_IFD_POINTER] else []))
      ((if exif then under .exif else []) ++ (if gps then under .gps else [])) := by
  have hrest : ∀ k ∈ under .ifd0, k ≠ .ifd0 → k = .exif ∨ k = .interoperability ∨ k = .gps := by
    intro k
    revert k
    decide
  refine ⟨?_, ?_, ?_, fun k hk hne hnot => ?_, ?_⟩
  · cases exif <;> cases gps <;> decide
  · cases exif <;> cases gps <;> decide
  · cases exif <;> cases gps <;> decide
  · rcases hrest k hk hne with rfl | rfl | rfl
    · exact (hexif (by cases exif <;> cases gps <;> revert hnot <;> decide)).1
    · exact (hexif (by cases exif <;> cases gps <;> revert hnot <;> decide)).2
    · exact hgps (by cases exif <;> cases gps <;> revert hnot <;> decide)
  · rw [if_neg fun h => by cases h.1]
    cases exif <;> cases gps <;> decide

theorem specialLists_exif {target : ExifData} {interoperability : Bool}
    (h : interoperability = false → target.ifd .interoperability = []) :
    SpecialLists target .exif o block (if interoperability then [EXIF_TAG_INTEROPERABILITY_IFD_POINTER] else [])
      (if interoperability then under .interoperability else []) := by
  refine ⟨?_, ?_, ?_, fun k hk hne hnot => ?_, ?_⟩
  · cases interoperability <;> decide
  · cases interoperability <;> decide
  · cases interoperability <;> decide
  · obtain rfl : k = .interoperability := by
      revert hk hne
      cases k <;> decide
    exact h (by cases interoperability <;> revert hnot <;> decide)
  · rw [if_neg fun h => by cases h.1]
    cases interoperability <;> decide

def Served (lib : LoadLib) (ignore : Bool) (T : Bytes) (load : ExifIfd → Nat → LoadData → Except Stuck LoadData)
    (i : ExifIfd) (data : ExifData) (n : Nat) (q : Filled ExifData UInt8) : Prop :=
  (∀ k, k ∉ under i ∨ k = i → q.value.ifd k = data.ifd k) ∧
    (6 < n → q.tail <+: T.drop (n - 6) → (∀ k ∈ under i, GoodIfd lib ignore k (q.value.ifd k)) →
      (i = .ifd1 → q.value.GoodThumbnail) →
        ∃ o block ps tags below, Specials data.order T q.slot i ps tags below ∧
          (∀ p ∈ ps, Placed data.order ignore q.value lib load i o block p) ∧
          (i = .ifd1 → block <+: T.drop o) ∧ SpecialLists q.value i o block tags below)

theorem served_leaf {data : ExifData} {n : Nat} (hi : i ≠ .ifd1) (hunder : under i = [i]) :
    Served lib ignore T load i data n ⟨data, [], []⟩ := by
  refine ⟨fun _ _ => rfl, fun _ _ _ _ => ⟨0, [], [], [], [], specials_nil data.order T i, by simp, ?_, ?_⟩⟩
  · exact fun h => absurd h hi
  · refine ⟨.nil, by simp, .nil, fun k hk hne => ?_, ?_⟩
    · rw [hunder, List.mem_singleton] at hk
      exact absurd hk hne
    · rw [if_neg fun h => hi h.1]
      exact List.not_mem_nil

theorem served_exif (hsub : Kept lib ignore T load sub) {data : ExifData} {n : Nat} {q : Filled ExifData UInt8}
    (hq : specialOut sub .exif data n = some q) : Served lib ignore T load .exif data n q := by
  obtain ⟨-, hframe, hskip, hload⟩ := pointerOut_specials .exif 0 [] hsub hq rfl (by decide)
  refine ⟨fun k hk => hframe k ?_, fun hn htail hgood _ => ?_⟩
  · revert hk
    cases k <;> decide
  · have hunder : ∀ k ∈ under .interoperability, k ∈ under .exif := by decide
    obtain ⟨ps, hps, hplaced⟩ := hload hn htail q.value (fun _ _ => rfl) fun k hk => hgood k (hunder k hk)
    refine ⟨0, [], ps, _, _, hps, hplaced, (fun h => by cases h), ?_⟩
    refine specialLists_exif fun hneeds => ?_
    rw [hskip hneeds]
    exact Decidable.not_not.mp (of_decide_eq_false hneeds)

theorem served_ifd0 (hsub : Kept lib ignore T load sub) {data : ExifData} {n : Nat} {q : Filled ExifData UInt8}
    (hq : specialOut sub .ifd0 data n = some q) : Served lib ignore T load .ifd0 data n q := by
  obtain ⟨r, hr, hq⟩ := Option.bind_eq_some_iff.mp hq
  obtain ⟨s, hs, rfl⟩ := Option.map_eq_some_iff.mp hq
  obtain ⟨horder, hframe, hskip, hload⟩ := pointerOut_specials .ifd0 0 [] hsub hr rfl (by decide)
  obtain ⟨-, hframe', hskip', hload'⟩ := pointerOut_specials .ifd0 0 [] hsub hs rfl (by decide)
  have hexif : ∀ k ∈ under .exif, k ∈ under .ifd0 ∧ k ∉ under .gps := by decide
  have hgps : ∀ k ∈ under .gps, k ∈ under .ifd0 := by decide
  refine ⟨fun k hk => ?_, fun hn htail hgood _ => ?_⟩
  · have hk' : k ∉ under .exif ∧ k ∉ under .gps := by
      revert hk
      cases k <;> decide
    exact (hframe' k hk'.2).trans (hframe k hk'.1)
  · obtain ⟨hfirst, hrest⟩ := prefix_drop_append htail
    rw [show n - 6 + r.tail.length = n + r.tail.length - 6 by omega] at hrest
    obtain ⟨ps, hps, hplaced⟩ := hload hn hfirst s.value (fun k hk => hframe' k (hexif k hk).2)
      fun k hk => hgood k (hexif k hk).1
    obtain ⟨ps', hps', hplaced'⟩ := hload' (by omega) hrest s.value (fun _ _ => rfl) fun k hk => hgood k (hgps k hk)
    rw [horder] at hps' hplaced'
    refine ⟨0, [], ps ++ ps', _, _, hps.append hps', fun p hp => ?_, (fun h => by cases h), ?_⟩
    · exact (List.mem_append.mp hp).elim (hplaced p) (hplaced' p)
    · refine specialLists_ifd0 (fun hneeds => ?_) fun hneeds => ?_
      · have hnone := not_or.mp (of_decide_eq_false hneeds)
        change s.value.ifd .exif = [] ∧ s.value.ifd .interoperability = []
        rw [hframe' .exif (by decide), hframe' .interoperability (by decide), hskip hneeds]
        exact ⟨Decidable.not_not.mp hnone.1, Decidable.not_not.mp hnone.2⟩
      · change s.value.ifd .gps = []
        rw [hskip' hneeds]
        exact Decidable.not_not.mp (of_decide_eq_false hneeds)

theorem served_ifd1 (hT : T.length < 2 ^ 16) {data : ExifData} {n : Nat} {q : Filled ExifData UInt8}
    (hq : specialOut sub .ifd1 data n = some q) : Served lib ignore T load .ifd1 data n q := by
  have hframe : q.value = data := thumbnailOut_updates hq
  refine ⟨fun k _ => by rw [hframe], fun hn htail _ hgood => ?_⟩
  have hq : thumbnailOut data n = some q := hq
  unfold thumbnailOut at hq
  split at hq
  next hneeds =>
    split at hq
    · obtain ⟨bytes, hcopied, rfl⟩ := Option.map_eq_some_iff.mp hq
      obtain ⟨block, hblock, hcopied⟩ := Option.bind_eq_some_iff.mp hcopied
      have hlen : block.length = data.size := by
        have hgood := hgood rfl
        rwa [ExifData.GoodThumbnail, hblock] at hgood
      rw [copied, if_pos hlen.ge, ← hlen, List.take_length] at hcopied
      obtain rfl : block = bytes := Option.some.inj hcopied
      have hpos : 0 < block.length := by
        have hsize : data.size ≠ 0 := of_decide_eq_true hneeds
        omega
      have hfits := add_length_le_of_stands htail hpos
      refine ⟨n - 6, block, [.special EXIF_TAG_JPEG_INTERCHANGE_FORMAT (n - 6),
        .special EXIF_TAG_JPEG_INTERCHANGE_FORMAT_LENGTH block.length],
        [EXIF_TAG_JPEG_INTERCHANGE_FORMAT, EXIF_TAG_JPEG_INTERCHANGE_FORMAT_LENGTH], [],
        ⟨⟨[_, _], ?_, .cons ⟨rfl, by decide, by omega⟩ (.cons ⟨rfl, by decide, by omega⟩ .nil)⟩, rfl, rfl, rfl⟩,
        fun p hp => ?_, fun _ => htail, by decide, by decide, .nil, ?_, ?_⟩
      · rw [hlen]
        simp only [List.flatten_cons, List.flatten_nil, List.append_nil]
      · rcases List.mem_cons.mp hp with rfl | hp
        · exact .inr ⟨rfl, .inl ⟨rfl, rfl⟩⟩
        · rw [List.mem_singleton.mp hp]
          exact .inr ⟨rfl, .inr ⟨rfl, rfl⟩⟩
      · exact fun k hk hne => absurd (List.mem_singleton.mp hk) hne
      · rw [if_pos ⟨rfl, hneeds⟩]
        exact ⟨by decide, by decide, by omega, hblock, hlen.symm⟩
    · cases hq
  next hneeds =>
    cases hq
    refine ⟨0, [], [], [], [], specials_nil .., by simp, fun _ => List.nil_prefix, .nil, by simp, .nil, ?_, ?_⟩
    · exact fun k hk hne => absurd (List.mem_singleton.mp hk) hne
    · rw [if_neg fun h => hneeds h.2]
      exact List.not_mem_nil

theorem specialOut_served (hsub : Kept lib ignore T load sub) (hT : T.length < 2 ^ 16) {data : ExifData} {n : Nat}
    {q : Filled ExifData UInt8} (hq : specialOut sub i data n = some q) : Served lib ignore T load i data n q := by
  cases i with
  | ifd0 => exact served_ifd0 hsub hq
  | exif => exact served_exif hsub hq
  | ifd1 => exact served_ifd1 hT hq
  | gps =>
    cases hq
    exact served_leaf (by decide) rfl
  | interoperability =>
    cases hq
    exact served_leaf (by decide) rfl

end

theorem lists_of_specials {lib : LoadLib} {ignore : Bool} {target : ExifData} {order : ExifByteOrder} {T slot : Bytes}
    {i : ExifIfd} {o : Nat} {block : Bytes} {ps : List Part} {tags : List Nat} {below : List ExifIfd}
    (hgood : GoodIfd lib ignore i (target.ifd i)) (h : Specials order T slot i ps tags below)
    (hlists : SpecialLists target i o block tags below) :
    Lists target i o block ((target.ifd i).map .entry ++ ps) := by
  have hentries : ((target.ifd i).map Part.entry).flatMap Part.entries = target.ifd i := by
    rw [List.flatMap_map]
    exact List.flatMap_singleton' _
  have hbelow : ((target.ifd i).map Part.entry).flatMap (Part.below i) = [] := by
    rw [List.flatMap_map]
    exact List.flatMap_eq_nil_iff.mpr fun _ _ => rfl
  have htags : ((target.ifd i).map Part.entry ++ ps).map Part.tag = (target.ifd i).map (·.tag.toNat) ++ tags := by
    rw [List.map_append, h.tags, List.map_map]
    rfl
  have hplain : ∀ tag ∈ (target.ifd i).map (·.tag.toNat), isSpecialTag tag = false := by
    intro tag htag
    obtain ⟨e, he, rfl⟩ := List.mem_map.mp htag
    exact (hgood.entry e he).2.1
  refine ⟨?_, ?_, ?_, fun k hk hne hnot => ?_, ?_⟩
  · rw [List.flatMap_append, hentries, h.entries, List.append_nil]
  · rw [htags]
    refine List.nodup_append.mpr ⟨hgood.nodup, hlists.distinct, fun tag htag tag' htag' heq => ?_⟩
    have hspecial := hlists.special tag' htag'
    rw [← heq, hplain tag htag] at hspecial
    cases hspecial
  · rw [List.flatMap_append, hbelow, h.below]
    exact hlists.disjoint
  · rw [List.flatMap_append, hbelow, h.below] at hnot
    exact hlists.rest k hk hne hnot
  · have hthumbnail := hlists.thumbnail
    rw [htags]
    split
    next hneeds =>
      rw [if_pos hneeds] at hthumbnail
      exact ⟨List.mem_append_right _ hthumbnail.1, List.mem_append_right _ hthumbnail.2.1, hthumbnail.2.2⟩
    next hneeds =>
      rw [if_neg hneeds] at hthumbnail
      rintro hmem
      refine (List.mem_append.mp hmem).elim (fun htag => ?_) hthumbnail
      cases hplain _ htag

section

variable {lib : LoadLib} {ignore : Bool} {T : Bytes} (hT : T.length < 2 ^ 16) (libc : LibC)
include hT

/-- A directory that was serialised, and all that belongs to it, is loaded as what the serialiser left. -/
theorem directoryOut_restores {depth left : Nat} {i : ExifIfd} {data : ExifData} {n v : Nat} {r : Filled ExifData UInt8}
    (hsub : Kept lib ignore T (exifDataLoadDataContent lib allSucceed T T.length left) (serial libc depth))
    (hr : directoryOut (serial libc depth) i data n = some r) :
    (∀ k ∉ under i, r.value.ifd k = data.ifd k) ∧
      (6 < n → r.tail <+: T.drop (n - 6) → (∀ k ∈ under i, GoodIfd lib ignore k (r.value.ifd k)) →
        (i = .ifd1 → r.value.GoodThumbnail) →
          exifSetShort data.order (data.entryCount i) ++
            sorted libc data.order (data.entryCount i) r.slot <+: T.drop v →
            Restores data.order ignore r.value (exifDataLoadDataContent lib allSucceed T T.length (left + 1)) i v) := by
  have hlength := length_directoryOut libc hr
  obtain ⟨r₁, hr₁, hr⟩ := Option.bind_eq_some_iff.mp hr
  obtain ⟨q, hq, rfl⟩ := Option.map_eq_some_iff.mp hr
  obtain ⟨hframe, hload⟩ := specialOut_served hsub hT hq
  have hself : i ∈ under i := by cases i <;> decide
  have hown : q.value.ifd i = r₁.value := (hframe i (.inr rfl)).trans (Function.update_self ..)
  refine ⟨fun k hk => (hframe k (.inl hk)).trans (Function.update_of_ne ?_ ..), ?_⟩
  · rintro rfl
    exact hk hself
  intro hn htail hgood hthumbnail hfirst
  obtain ⟨hentries, hspecials⟩ := prefix_drop_append htail
  rw [show n - 6 + r₁.tail.length = n + r₁.tail.length - 6 by omega] at hspecials
  obtain ⟨o, block, ps, tags, below, hps, hplaced, hblock, hlists⟩ := hload (by omega) hspecials hgood hthumbnail
  obtain ⟨xs, hxs, hreads⟩ := reads_entriesOut (by omega) hr₁
    (fun e he => ((hgood i hself).entry e (hown ▸ he)).1) (by omega) hentries
  obtain ⟨ys, hys, hreads'⟩ := hps.slots
  have hall := List.rel_append hreads hreads'
  rw [← hown] at hall
  have hslot : r₁.slot ++ q.slot = (xs ++ ys).flatten := by rw [hxs, hys, List.flatten_append]
  have hcount : ((q.value.ifd i).map Part.entry ++ ps).length = data.entryCount i := by
    have hflat := length_flatten_of_reads hall
    rw [← hslot] at hflat
    exact Nat.eq_of_mul_eq_mul_left (by decide) (hflat.symm.trans hlength)
  obtain ⟨slots, parts, hsorted, hperm, hparts⟩ := reads_sorted libc data.order hall
  rw [hcount, ← hslot] at hsorted
  change exifSetShort data.order (data.entryCount i) ++ sorted libc data.order (data.entryCount i)
    (r₁.slot ++ q.slot) <+: _
    at hfirst
  rw [hsorted, ← hcount, ← hperm.length_eq] at hfirst
  refine content_restores hT hblock ((lists_of_specials (hgood i hself) hps hlists).perm hperm) hparts ?_ hfirst
  intro p hp
  rcases List.mem_append.mp (hperm.mem_iff.mp hp) with hp | hp
  · obtain ⟨e, he, rfl⟩ := List.mem_map.mp hp
    exact (hgood i hself).entry e he
  · exact hplaced p hp

theorem serial_kept (depth left : Nat) (hle : depth ≤ left) :
    Kept lib ignore T (exifDataLoadDataContent lib allSucceed T T.length left) (serial libc depth) := by
  induction depth generalizing left with
  | zero =>
    intro j data n q _ h
    cases h
  | succ depth ih =>
    obtain ⟨left, rfl⟩ : ∃ k, left = k + 1 := ⟨left - 1, by omega⟩
    intro j data n q hj h
    obtain ⟨-, s, hs, ⟨heq, -⟩ | ⟨-, rfl⟩⟩ := contentOut_cases
      (show contentOut libc (serial libc depth) j data n = _ from h)
    · exact absurd heq hj
    have horder : s.value.order = data.order := (directoryOut_updates (serial_steady libc True depth) hs).order
    obtain ⟨hframe, hload⟩ := directoryOut_restores hT libc (v := n - 6) (ih left (by omega)) hs
    refine ⟨horder, hframe, fun hn hbytes hgood hthumbnail => ?_⟩
    have hfits := add_length_le_of_stands hbytes (by simp only [List.length_append, length_exifSetShort]; omega)
    rw [horder] at hbytes
    obtain ⟨hfirst, hrest⟩ := prefix_drop_append hbytes
    have htail := (prefix_drop_append hrest).2
    have hslot := length_directoryOut libc hs
    rw [List.length_append, length_exifSetShort, length_sorted libc data.order hslot, hslot, length_exifSetLong,
      show n - 6 + (2 + 12 * data.entryCount j) + 4 = n + (2 + data.entryCount j * 12 + 4) - 6 by omega] at htail
    exact ⟨by omega, hload (by omega) htail hgood hthumbnail hfirst⟩

end

structure LoadData.Fresh (a : LoadData) : Prop where
  ifd : ∀ i, a.ifd i = []
  data : a.data = none
  size : a.size = 0

/-- An ExifData with what another has, its entries in any order. -/
structure Reloaded (saved : ExifData) (a b : LoadData) : Prop where
  same : Same { a with order := saved.order } b
  ifd : ∀ i, (b.ifd i).Perm (saved.ifd i)
  size : b.size = saved.size
  data : saved.size ≠ 0 → b.data = saved.data

def byteOrderMarks : ExifByteOrder → Bytes
  | .intel => [0x49, 0x49]
  | .motorola => [0x4d, 0x4d]

theorem exifHeader_eq (order : ExifByteOrder) : exifHeader order =
    EXIF_HEADER ++ (byteOrderMarks order ++ (exifSetShort order 0x002a ++ exifSetLong order 8)) := by
  cases order <;> rfl

section

variable {lib : LoadLib} {d : Bytes} {order : ExifByteOrder}

theorem exifDataLoadData_of_header {a : LoadData} (hd : exifHeader order <+: d) (hlen : d.length ≤ 0xfffe) :
    exifDataLoadData lib allSucceed a d = loadTiff lib allSucceed d d.length { a with order := order } := by
  have hhead := hd.length_le
  rw [length_exifHeader] at hhead
  have hdrop : exifHeader order <+: d.drop 0 := hd
  rw [exifHeader_eq] at hdrop
  obtain ⟨hname, hrest⟩ := prefix_drop_append hdrop
  have hmarks := (prefix_drop_append hrest).1
  have hname := slice_of_stands hname (show EXIF_HEADER.length = 6 from rfl) (by decide)
  have hmarks := slice_of_stands hmarks (show (byteOrderMarks order).length = 2 by cases order <;> rfl) (by decide)
  have hmarks : Block.slice d 6 2 = .ok (byteOrderMarks order) := hmarks
  rw [exifDataLoadData, if_neg (by omega), show Block.slice d 0 6 = _ from hname, bind_ok, if_pos rfl, loadHeader,
    if_neg (by omega), show Block.slice d 0 6 = _ from hname, bind_ok, if_neg (by simp; omega), hmarks, bind_ok,
    Nat.min_eq_left hlen]
  cases order
  · exact (if_neg (by decide)).trans (if_pos rfl)
  · exact if_pos rfl

theorem loadTiff_of_header {a : LoadData} (hd : exifHeader order <+: d) (horder : a.order = order)
    (hlen : 16 ≤ d.length) :
    loadTiff lib allSucceed d d.length a =
      (exifDataLoadDataContent lib allSucceed (d.drop 6) (d.length - 6) 31 .ifd0 8 a).bind fun data =>
        (getShort data.order d 14).bind fun n =>
          if d.length < (16 + 12 * n + 4) % 2 ^ 32 then .ok data
          else
            (getLong data.order d (16 + 12 * n)).bind fun offset =>
              (loadIfd1 lib allSucceed d d.length offset data).map (finishLoad lib d) := by
  have hdrop : exifHeader order <+: d.drop 0 := hd
  rw [exifHeader_eq] at hdrop
  have hmarks : (byteOrderMarks order).length = 2 := by cases order <;> rfl
  have hrest := (prefix_drop_append (prefix_drop_append hdrop).2).2
  rw [hmarks, show 0 + EXIF_HEADER.length + 2 = 8 from rfl] at hrest
  obtain ⟨hfixed, hoffset⟩ := prefix_drop_append hrest
  rw [length_exifSetShort] at hoffset
  rw [loadTiff, horder, getShort_of_stands hfixed (by decide), bind_ok, if_neg (by decide),
    getLong_of_stands hoffset (by decide), bind_ok, if_neg (by omega)]

end

theorem two_le_of_content {libc : LibC} {sub : ExifIfd → ExifData → Nat → Option (ExifData × Bytes)} {i : ExifIfd}
    {data : ExifData} {n : Nat} {q : ExifData × Bytes} (h : contentOut libc sub i data n = some q) :
    2 ≤ q.2.length := by
  obtain ⟨-, s, -, ⟨-, -, r, -, rfl⟩ | ⟨-, rfl⟩⟩ := contentOut_cases h <;>
    simp only [List.length_append, length_exifSetShort] <;> omega

/-- How the bytes of a serialised ExifData lie: IFD 0, where IFD 1 starts, what belongs to IFD 0, and IFD 1, if there is
one. -/
structure Laid (libc : LibC) (data saved : ExifData) (d : Bytes) (s : Filled ExifData UInt8) (next : Nat) : Prop where
  out : directoryOut (serial libc 2) .ifd0 data (20 + 12 * data.entryCount .ifd0) = some s
  order : s.value.order = data.order
  slots : exifSetShort data.order (data.entryCount .ifd0) ++
    sorted libc data.order (data.entryCount .ifd0) s.slot <+: d.drop 14
  start : exifSetLong data.order next <+: d.drop (16 + 12 * data.entryCount .ifd0)
  tail : s.tail <+: d.drop (20 + 12 * data.entryCount .ifd0)
  ifd1 : (∃ rest, serial libc 2 .ifd1 s.value (next + 6) = some (saved, rest) ∧ 0 < next ∧ rest <+: d.drop (next + 6)) ∨
    next = 0 ∧ saved = s.value ∧ s.value.needsIfd1 = false

theorem serial_laid {libc : LibC} {data : ExifData} {q : ExifData × Bytes} {d : Bytes}
    (hq : serial libc 3 .ifd0 data 14 = some q) (hd : q.2 <+: d.drop 14) : ∃ s next, Laid libc data q.1 d s next := by
  obtain ⟨-, s, hs, hend⟩ := contentOut_cases (show contentOut libc (serial libc 2) .ifd0 data 14 = _ from hq)
  have horder : s.value.order = data.order := (directoryOut_updates (serial_steady libc True 2) hs).order
  rw [show 14 + (2 + data.entryCount .ifd0 * 12 + 4) = 20 + 12 * data.entryCount .ifd0 by omega] at hs hend
  have hslot := length_directoryOut libc hs
  rw [horder] at hend
  obtain ⟨next, rest, hbytes, hifd1⟩ : ∃ next rest,
      q.2 = exifSetShort data.order (data.entryCount .ifd0) ++ sorted libc data.order (data.entryCount .ifd0) s.slot ++
        (exifSetLong data.order next ++ (s.tail ++ rest)) ∧
      (serial libc 2 .ifd1 s.value (next + 6) = some (q.1, rest) ∧
          next + 6 = 20 + 12 * data.entryCount .ifd0 + s.tail.length ∨
        next = 0 ∧ q.1 = s.value ∧ s.value.needsIfd1 = false) := by
    rcases hend with ⟨-, -, r, hr, rfl⟩ | ⟨hnone, rfl⟩
    · refine ⟨_, r.2, rfl, .inl ⟨?_, by omega⟩⟩
      rw [Nat.sub_add_cancel (by omega)]
      exact hr
    · refine ⟨0, [], by rw [List.append_nil], .inr ⟨rfl, rfl, ?_⟩⟩
      exact Bool.not_eq_true _ ▸ fun h => hnone ⟨rfl, h⟩
  rw [hbytes] at hd
  obtain ⟨hfirst, hd⟩ := prefix_drop_append hd
  rw [List.length_append, length_exifSetShort, length_sorted libc data.order hslot, hslot,
    show 14 + (2 + 12 * data.entryCount .ifd0) = 16 + 12 * data.entryCount .ifd0 by omega] at hd
  obtain ⟨hstart, hd⟩ := prefix_drop_append hd
  rw [length_exifSetLong, show 16 + 12 * data.entryCount .ifd0 + 4 = 20 + 12 * data.entryCount .ifd0 by omega] at hd
  obtain ⟨htail, hrest⟩ := prefix_drop_append hd
  refine ⟨s, next, hs, horder, hfirst, hstart, htail, hifd1.imp_left fun ⟨hr, hnext⟩ => ⟨rest, hr, by omega, ?_⟩⟩
  rwa [hnext]

theorem kept_of_length (lib : LoadLib) (ignore : Bool) (libc : LibC) {d : Bytes} (hd : d.length ≤ 0xfffe) (left : Nat)
    (hleft : 2 ≤ left) : Kept lib ignore (d.drop 6)
      (exifDataLoadDataContent lib allSucceed (d.drop 6) (d.length - 6) left) (serial libc 2) := by
  have hT : (d.drop 6).length = d.length - 6 := List.length_drop
  exact hT ▸ serial_kept (by omega) libc 2 left hleft

section

variable {libc : LibC} {data saved : ExifData} {d : Bytes} {s : Filled ExifData UInt8} {next : Nat} {lib : LoadLib}
  {a b : LoadData} (h : Laid libc data saved d s next) (hd : d.length ≤ 0xfffe)
  (hwhole : saved.Whole lib a.ignoreUnknownTags)
include h hd hwhole

omit hwhole in
theorem Laid.kept : ∀ k ∈ under .ifd0, saved.ifd k = s.value.ifd k := by
  intro k hk
  rcases h.ifd1 with ⟨rest, hr, -⟩ | ⟨-, heq, -⟩
  · let lib : LoadLib := ⟨fun _ _ => false, fun _ _ => none, fun md _ _ _ => md, id⟩
    have hkept := kept_of_length lib false libc hd 2 (by decide)
    refine (hkept .ifd1 s.value (next + 6) (saved, rest) (by decide) hr).2.1 k ?_
    revert hk
    cases k <;> decide
  · rw [heq]

theorem Laid.loadIfd0 (ha : a.Fresh) (horder : a.order = data.order) :
    Yields (exifDataLoadDataContent lib allSucceed (d.drop 6) (d.length - 6) 31 .ifd0 8 a) (Restored s.value .ifd0 a) := by
  have hT : (d.drop 6).length = d.length - 6 := List.length_drop
  have hkept := kept_of_length lib a.ignoreUnknownTags libc hd 30 (by decide)
  rw [← hT] at hkept ⊢
  obtain ⟨-, hload⟩ := directoryOut_restores (v := 8) (by omega) libc hkept h.out
  refine hload (by omega) ?_ (fun k hk => h.kept hd k hk ▸ hwhole.good k) (fun h => by cases h) ?_ a horder rfl
    fun k _ => ha.ifd k
  · rw [List.drop_drop, show 6 + (20 + 12 * data.entryCount .ifd0 - 6) = 20 + 12 * data.entryCount .ifd0 by omega]
    exact h.tail
  · rw [List.drop_drop]
    exact h.slots

theorem Laid.loadIfd1 (ha : a.Fresh) (hb : Restored s.value .ifd0 { a with order := data.order } b)
    (hsaved : saved.order = data.order) :
    Yields (loadIfd1 lib allSucceed d d.length next b) (Reloaded saved a) := by
  have hT : (d.drop 6).length = d.length - 6 := List.length_drop
  have hempty : b.ifd .ifd1 = [] := (hb.outside .ifd1 (by decide)).trans (ha.ifd .ifd1)
  have hnone := hb.thumbnail
  have hnot : ¬(ExifIfd.ifd0 = .ifd1 ∧ s.value.needsThumbnail = true) := fun h => by cases h.1
  rw [if_neg hnot, if_neg hnot] at hnone
  have hsize : b.size = 0 := hnone.2.trans ha.size
  have hsame : Same { a with order := saved.order } b := hsaved ▸ hb.same
  have hifd : ∀ i, i ≠ .ifd1 → (b.ifd i).Perm (saved.ifd i) := by
    intro i hi
    have hunder : i ∈ under .ifd0 := by
      revert hi
      cases i <;> decide
    rw [h.kept hd i hunder]
    exact hb.within i hunder
  rcases h.ifd1 with ⟨rest, hr, hpos, hrest⟩ | ⟨rfl, heq, hneeds⟩
  · have hshort : 2 ≤ rest.length :=
      two_le_of_content (show contentOut libc (serial libc 1) .ifd1 s.value (next + 6) = some (_, rest) from hr)
    have hfits := add_length_le_of_stands hrest (by omega)
    have hkept := kept_of_length lib a.ignoreUnknownTags libc hd 31 (by decide)
    obtain ⟨-, -, hload⟩ := hkept .ifd1 s.value (next + 6) (saved, rest) (by decide) hr
    obtain ⟨-, hrestores⟩ := hload (by omega)
      (by rw [List.drop_drop, Nat.add_sub_cancel, Nat.add_comm 6]; exact hrest)
      (fun k hk => List.mem_singleton.mp hk ▸ hwhole.good .ifd1) fun _ => hwhole.thumbnail
    rw [Exif.loadIfd1, if_neg (by omega)]
    refine (hrestores b (hb.same.order.trans h.order.symm) hb.same.ignoreUnknownTags
      fun k hk => List.mem_singleton.mp hk ▸ hempty).imp fun c hc =>
        ⟨hsame.trans hc.same, fun i => ?_, ?_, fun hne => ?_⟩
    · by_cases hi : i = .ifd1
      · exact hi ▸ hc.within .ifd1 List.mem_cons_self
      · rw [hc.outside i fun h => hi (List.mem_singleton.mp h)]
        exact hifd i hi
    · rw [hc.thumbnail.2]
      split
      · rfl
      next hneeds =>
        rw [hsize]
        exact (Decidable.not_not.mp fun hne => hneeds ⟨rfl, decide_eq_true hne⟩).symm
    · rw [hc.thumbnail.1, if_pos ⟨rfl, decide_eq_true hne⟩]
  · have hnone := not_or.mp (of_decide_eq_false hneeds)
    rw [Exif.loadIfd1, if_pos (.inl rfl)]
    refine Yields.ok ⟨hsame, fun i => ?_, ?_, fun hne => ?_⟩
    · by_cases hi : i = .ifd1
      · rw [hi, hempty, heq, Decidable.not_not.mp hnone.1]
      · exact hifd i hi
    · rw [hsize, heq, Decidable.not_not.mp hnone.2]
    · exact absurd (heq ▸ Decidable.not_not.mp hnone.2) hne

end

theorem saved_of_unchanged {libc : LibC} {fresh : Nat → UInt8} {data saved : ExifData} {d : Bytes}
    (h : exifDataSaveData libc fresh data = some (saved, d))
    (hnote : data.dontChangeMakerNote = true ∨ data.md = none) :
    saved = data := by
  rw [exifDataSaveData_eq] at h
  obtain ⟨q, hq, heq⟩ := Option.map_eq_some_iff.mp h
  obtain ⟨rfl, -⟩ := Prod.mk.inj heq
  have halike := (serial_steady libc True 3).updates hq
  have hanew : data.anew = fun e _ => e := by
    funext e n
    rw [ExifData.anew, ExifData.updateMakerNote]
    rcases hnote with hoption | hmd
    · exact if_neg fun h => by rw [hoption] at h; cases h.1
    · rw [hmd]
      exact ite_self e
  have hifd : q.1.ifd = data.ifd := by
    funext i
    have hmap := congrArg (List.map fun f : Nat → ExifEntry => f 0) (halike.ifd i fun _ => trivial)
    rw [hanew, List.map_map, List.map_map] at hmap
    simpa [Function.comp_def] using hmap
  obtain ⟨hdata, hsize⟩ := halike.thumbnail trivial
  have horder := halike.order
  have hmd := halike.md
  have hkeep := halike.option
  generalize q.1 = saved at hifd hdata hsize horder hmd hkeep
  cases saved
  cases data
  simp_all

/-- What is saved and fits an APP1 section starts with a header, and behind it all is there to be loaded. -/
theorem exifDataSaveData_loadTiff (libc : LibC) (fresh : Nat → UInt8) (lib : LoadLib) {data saved : ExifData}
    {d : Bytes} (h : exifDataSaveData libc fresh data = some (saved, d)) (hd : d.length ≤ 0xfffe) {a : LoadData}
    (ha : a.Fresh) (hwhole : saved.Whole lib a.ignoreUnknownTags) :
    exifHeader data.order <+: d ∧
      ∃ b, loadTiff lib allSucceed d d.length { a with order := data.order } = .ok (finishLoad lib d b) ∧
        Reloaded saved a b := by
  rw [exifDataSaveData_eq] at h
  obtain ⟨q, hq, heq⟩ := Option.map_eq_some_iff.mp h
  obtain ⟨rfl, hbytes⟩ := Prod.mk.inj heq
  have hsaved := ((serial_steady libc True 3).updates hq).order
  have hdrop : d.drop 14 = q.2 := by rw [← hbytes, List.drop_left' (length_exifHeader data.order)]
  obtain ⟨s, next, hlaid⟩ := serial_laid hq (hdrop.symm ▸ List.prefix_rfl : q.2 <+: d.drop 14)
  obtain ⟨b, hb, hrestored⟩ := hlaid.loadIfd0 (a := { a with order := data.order }) hd hwhole
    ⟨ha.ifd, ha.data, ha.size⟩ rfl
  obtain ⟨c, hc, hreloaded⟩ := hlaid.loadIfd1 hd hwhole ha hrestored hsaved
  have hstart := add_length_le_of_stands hlaid.start (by rw [length_exifSetLong]; decide)
  rw [length_exifSetLong] at hstart
  have hborder : b.order = data.order := hrestored.same.order
  have hcount := getShort_of_stands (prefix_drop_append hlaid.slots).1 (by omega)
  have hnext : getLong data.order d (16 + 12 * data.entryCount .ifd0) = .ok next := by
    refine getLong_of_stands hlaid.start ?_
    rcases hlaid.ifd1 with ⟨rest, hr, -, hrest⟩ | ⟨rfl, -⟩
    · have hshort : 2 ≤ rest.length :=
        two_le_of_content (show contentOut libc (serial libc 1) .ifd1 s.value (next + 6) = some (_, rest) from hr)
      have hfits := add_length_le_of_stands hrest (by omega)
      omega
    · decide
  refine ⟨⟨q.2, hbytes⟩, c, ?_, hreloaded⟩
  rw [loadTiff_of_header ⟨q.2, hbytes⟩ rfl (by omega), hb, bind_ok, hborder, hcount, bind_ok, if_neg (by omega), hnext,
    bind_ok, hc, map_ok]

/-- Whatever is saved and fits an APP1 section is loaded again: every directory has its entries, in some order, and
the thumbnail is there. -/
theorem exifDataSaveData_load (libc : LibC) (fresh : Nat → UInt8) (lib : LoadLib) {data saved : ExifData} {d : Bytes}
    (h : exifDataSaveData libc fresh data = some (saved, d)) (hd : d.length ≤ 0xfffe) {a : LoadData}
    (ha : a.Fresh) (hwhole : saved.Whole lib a.ignoreUnknownTags) :
    ∃ b, exifDataLoadData lib allSucceed a d = .ok (finishLoad lib d b) ∧ Reloaded saved a b := by
  obtain ⟨hheader, b, hb, hreloaded⟩ := exifDataSaveData_loadTiff libc fresh lib h hd ha hwhole
  exact ⟨b, (exifDataLoadData_of_header hheader hd).trans hb, hreloaded⟩

def namesAll : LoadLib := ⟨fun _ _ => true, fun _ _ => none, fun md _ _ _ => md, id⟩

def plainData : LoadData := { exifDataNew with followSpecification := false, dontChangeMakerNote := true }

theorem fresh_plainData : plainData.Fresh := ⟨fun _ => rfl, rfl, rfl⟩

theorem whole_thumbnailData : ExifData.Whole namesAll true thumbnailData := by
  have hentry : ∀ i, ∀ e ∈ thumbnailData.ifd i, e.Whole ∧ isSpecialTag e.tag.toNat = false := by
    intro i e he
    cases i with
    | ifd0 =>
      rw [List.mem_singleton.mp he]
      exact ⟨⟨by decide, by decide, by decide, rfl, _, rfl, rfl⟩, rfl⟩
    | ifd1 =>
      rw [List.mem_singleton.mp he]
      exact ⟨⟨by decide, by decide, by decide, rfl, _, rfl, rfl⟩, rfl⟩
    | exif => cases he
    | gps => cases he
    | interoperability => cases he
  exact ⟨fun i e he => (hentry i e he).1, fun i e he => ⟨(hentry i e he).2, fun _ => rfl⟩,
    fun i => by cases i <;> decide, rfl⟩

theorem exists_save_thumbnailData : ∃ d,
    exifDataSaveData insertionSort (fun _ => 0) thumbnailData = some (thumbnailData, d) ∧ d.length = 77 := by
  have hlen : (exifDataSaveData insertionSort (fun _ => 0) thumbnailData).map (·.2.length) = some 77 := by
    decide +kernel
  obtain ⟨⟨saved, d⟩, h, hd⟩ := Option.map_eq_some_iff.mp hlen
  obtain rfl := saved_of_unchanged h (.inr rfl)
  exact ⟨d, h, hd⟩

theorem exifDataSaveData_load_thumbnail : ∃ saved d b,
    exifDataSaveData insertionSort (fun _ => 0) thumbnailData = some (saved, d) ∧
      exifDataLoadData namesAll allSucceed plainData d = .ok (finishLoad namesAll d b) ∧ Reloaded saved plainData b := by
  obtain ⟨d, h, hd⟩ := exists_save_thumbnailData
  obtain ⟨b, hb⟩ := exifDataSaveData_load insertionSort (fun _ => 0) namesAll h
    (by omega) fresh_plainData whole_thumbnailData
  exact ⟨thumbnailData, d, b, h, hb⟩

theorem interpretMakerNote_eq (lib : LoadLib) (d : Bytes) (data : LoadData) :
    ∃ md, interpretMakerNote lib d data = { data with md := md } := by
  unfold interpretMakerNote
  split
  · exact ⟨data.md, rfl⟩
  · exact ⟨_, rfl⟩

theorem LoadData.Fresh.whole {a : LoadData} (h : a.Fresh) (lib : LoadLib) (order : ExifByteOrder) :
    ExifData.Whole lib a.ignoreUnknownTags { a.toExifData with order := order } := by
  refine ⟨fun i e he => ?_, fun i e he => ?_, fun i => ?_, ?_⟩
  · rw [h.ifd i] at he
    cases he
  · rw [h.ifd i] at he
    cases he
  · rw [h.ifd i]
    exact .nil
  · rw [h.data, h.size]
    rfl

/-- Whatever the bytes are, loading them reads none outside and comes to an end, if there is memory for the entries
themselves.  What bytes it adds stand in them, and what is loaded into nothing is well formed if there is memory for
all. -/
theorem exifDataLoadData_yields (lib : LoadLib) {alloc : LoadAllocs} (hnew : ∀ n, alloc .entry n = true)
    (data : LoadData) (d : Bytes) : ∃ b c order,
    exifDataLoadData lib alloc data d = .ok b ∧ Loads lib alloc d { data with order := order } c ∧
      (alloc.Succeed → data.Fresh → c.Whole lib data.ignoreUnknownTags) ∧
      (b = c ∨ ∃ d', d' <:+: d ∧ b = finishLoad lib d' c) := by
  obtain ⟨b, hb, c, ⟨order, hloads⟩, hfinish⟩ := exifDataLoadData_finished lib hnew data d
  refine ⟨b, c, order, hb, hloads, fun halloc hfresh => ?_, hfinish⟩
  have hwhole := hloads.whole halloc (hfresh.whole lib order)
  rwa [hloads.same.ignoreUnknownTags] at hwhole

def widthBytes : Bytes :=
  [0x45, 0x78, 0x69, 0x66, 0, 0, 0x4d, 0x4d, 0, 0x2a, 0, 0, 0, 8, 0, 1, 1, 0, 0, 3, 0, 0, 0, 1, 0, 7, 0, 0, 0, 0, 0, 0]

/-- There is memory for the entry, and none for its bytes or in its directory. -/
theorem exifDataLoadData_yields_width : ∃ b c order,
    exifDataLoadData namesAll (fun site _ => site = .entry) plainData widthBytes = .ok b ∧
      Loads namesAll (fun site _ => site = .entry) widthBytes { plainData with order := order } c ∧
      (LoadAllocs.Succeed (fun site _ => site = .entry) → plainData.Fresh →
        c.Whole namesAll plainData.ignoreUnknownTags) ∧
      (b = c ∨ ∃ d', d' <:+: widthBytes ∧ b = finishLoad namesAll d' c) :=
  exifDataLoadData_yields namesAll (fun _ => rfl) plainData widthBytes

/-- Loading, saving and loading again: what was loaded first is loaded again, in some order, where the specification
is not followed and no maker note made anew. -/
theorem exifDataLoadData_save_load (libc : LibC) (fresh : Nat → UInt8) (lib : LoadLib) {a b : LoadData} {d₀ d : Bytes}
    {saved : ExifData} (ha : a.Fresh) (hfollow : a.followSpecification = false)
    (hload : exifDataLoadData lib allSucceed a d₀ = .ok b) (hnote : b.dontChangeMakerNote = true ∨ b.md = none)
    (hsave : exifDataSaveData libc fresh b.toExifData = some (saved, d))
    (hd : d.length ≤ 0xfffe) :
    ∃ c, exifDataLoadData lib allSucceed a d = .ok (finishLoad lib d c) ∧ Reloaded b.toExifData a c := by
  obtain ⟨b', hb', c, ⟨order, hloads⟩, hfinish⟩ := exifDataLoadData_finished lib (succeed_allSucceed .entry) a d₀
  obtain rfl : b = b' := Except.ok.inj (hload.symm.trans hb')
  have hwhole := hloads.whole succeed_allSucceed (ha.whole lib order)
  rw [hloads.same.ignoreUnknownTags] at hwhole
  have hb : ∃ md, b = { c with md := md } := by
    rcases hfinish with rfl | ⟨d', -, rfl⟩
    · exact ⟨b.md, rfl⟩
    · obtain ⟨md, hmd⟩ := interpretMakerNote_eq lib d' c
      refine ⟨md, ?_⟩
      rw [finishLoad, hmd]
      exact if_neg fun h => Bool.false_ne_true ((hloads.same.followSpecification.trans hfollow).symm.trans h)
  obtain ⟨md, rfl⟩ := hb
  obtain rfl := saved_of_unchanged hsave hnote
  obtain ⟨hheader, c', hc', hreloaded⟩ := exifDataSaveData_loadTiff libc fresh lib hsave hd ha
    ⟨hwhole.entry, hwhole.tag, hwhole.nodup, hwhole.thumbnail⟩
  exact ⟨c', (exifDataLoadData_of_header hheader hd).trans hc', hreloaded⟩

theorem exifDataLoadData_save_load_width : ∃ b saved d c,
    exifDataLoadData namesAll allSucceed plainData widthBytes = .ok b ∧
      exifDataSaveData insertionSort (fun _ => 0) b.toExifData = some (saved, d) ∧
        exifDataLoadData namesAll allSucceed plainData d = .ok (finishLoad namesAll d c) ∧ Reloaded b.toExifData plainData c := by
  obtain ⟨b, hb, -⟩ := exifDataLoadData_finished namesAll (succeed_allSucceed .entry) plainData widthBytes
  have hlen : (exifDataLoadData namesAll allSucceed plainData widthBytes).toOption.bind (fun b =>
      (exifDataSaveData insertionSort (fun _ => 0) b.toExifData).map fun r => (r.2.length, b.md.isNone)) =
        some (32, true) := by decide +kernel
  rw [hb] at hlen
  obtain ⟨⟨saved, d⟩, hsave, hr⟩ := Option.map_eq_some_iff.mp hlen
  obtain ⟨hd, hmd⟩ := Prod.mk.inj hr
  obtain ⟨c, hc⟩ := exifDataLoadData_save_load insertionSort (fun _ => 0) namesAll fresh_plainData rfl hb
    (.inr (Option.isNone_iff_eq_none.mp hmd)) hsave (by change d.length = 32 at hd; omega)
  exact ⟨b, saved, d, c, hb, hsave, hc⟩

end G361FPlatform.Exif
