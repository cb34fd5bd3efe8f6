import G361FPlatform.Exif.Load
import G361FPlatform.Library.Sound

namespace G361FPlatform.Exif

open Library

/-- An entry with as many bytes as its format and its components say. -/
structure ExifEntry.Whole (e : ExifEntry) : Prop where
  format : e.format < 2 ^ 16
  pos : 0 < e.size
  lt : e.size < 2 ^ 32
  size : exifFormatGetSize e.format * e.components = e.size
  data : ∃ block, e.data = some block ∧ block.length = e.size

/-- Every entry is whole, none is a pointer, and no directory has two of one tag.  Where unknown tags are ignored,
there are none. -/
structure ExifData.Whole (lib : LoadLib) (ignoreUnknownTags : Bool) (data : ExifData) : Prop where
  entry : ∀ i, ∀ e ∈ data.ifd i, e.Whole
  tag : ∀ i, ∀ e ∈ data.ifd i, isSpecialTag e.tag.toNat = false ∧
    (ignoreUnknownTags = true → lib.nameInIfd e.tag.toNat i = true)
  nodup : ∀ i, ((data.ifd i).map (·.tag)).Nodup
  thumbnail : (data.data.map List.length).getD 0 = data.size

structure Same (a b : LoadData) : Prop where
  order : b.order = a.order
  ignoreUnknownTags : b.ignoreUnknownTags = a.ignoreUnknownTags
  followSpecification : b.followSpecification = a.followSpecification
  md : b.md = a.md
  dontChangeMakerNote : b.dontChangeMakerNote = a.dontChangeMakerNote

theorem Same.refl (a : LoadData) : Same a a := ⟨rfl, rfl, rfl, rfl, rfl⟩

theorem Same.trans {a b c : LoadData} (h : Same a b) (k : Same b c) : Same a c :=
  ⟨k.order.trans h.order, k.ignoreUnknownTags.trans h.ignoreUnknownTags,
    k.followSpecification.trans h.followSpecification, k.md.trans h.md,
    k.dontChangeMakerNote.trans h.dontChangeMakerNote⟩

/-- A loaded entry: what bytes it has stand in `d`, and it is whole if there was memory for them. -/
structure ExifEntry.LoadedFrom (alloc : LoadAllocs) (d : Bytes) (e : ExifEntry) : Prop where
  block : ∀ block, e.data = some block → block <:+: d
  whole : alloc.Succeed → e.Whole

/-- What loading from `d` may do to an ExifData: directories grow by entries whose bytes stand in `d`, and the
thumbnail may become another that stands in `d`, or be lost. -/
structure Loads (lib : LoadLib) (alloc : LoadAllocs) (d : Bytes) (a b : LoadData) : Prop where
  same : Same a b
  ifd : ∀ i, ∃ more, b.ifd i = a.ifd i ++ more ∧ ∀ e ∈ more, e.LoadedFrom alloc d
  thumbnail : b.data = a.data ∨ b.data = none ∨ ∃ block, b.data = some block ∧ block <:+: d
  whole : alloc.Succeed → a.Whole lib a.ignoreUnknownTags → b.Whole lib b.ignoreUnknownTags

namespace Loads

variable {lib : LoadLib} {alloc : LoadAllocs} {d : Bytes} {a b c : LoadData}

theorem refl (lib : LoadLib) (alloc : LoadAllocs) (d : Bytes) (a : LoadData) : Loads lib alloc d a a :=
  ⟨⟨rfl, rfl, rfl, rfl, rfl⟩, fun _ => ⟨[], (List.append_nil _).symm, by simp⟩, .inl rfl, fun _ h => h⟩

theorem trans (h : Loads lib alloc d a b) (k : Loads lib alloc d b c) : Loads lib alloc d a c := by
  refine ⟨h.same.trans k.same, fun i => ?_, ?_, fun halloc => k.whole halloc ∘ h.whole halloc⟩
  · obtain ⟨xs, hb, hxs⟩ := h.ifd i
    obtain ⟨ys, hc, hys⟩ := k.ifd i
    refine ⟨xs ++ ys, by rw [hc, hb, List.append_assoc], fun e he => ?_⟩
    exact (List.mem_append.mp he).elim (hxs e) (hys e)
  · rcases k.thumbnail with heq | hblock
    · rw [heq]
      exact h.thumbnail
    · exact .inr hblock

theorem mono {d' : Bytes} (h : Loads lib alloc d a b) (hd : d <:+: d') : Loads lib alloc d' a b := by
  refine ⟨h.same, fun i => ?_, ?_, h.whole⟩
  · obtain ⟨more, hb, hmore⟩ := h.ifd i
    exact ⟨more, hb, fun e he => ⟨fun block hdata => ((hmore e he).block block hdata).trans hd, (hmore e he).whole⟩⟩
  · exact h.thumbnail.imp_right fun h => h.imp_right fun ⟨block, hdata, hblock⟩ => ⟨block, hdata, hblock.trans hd⟩

theorem tick (lib : LoadLib) (alloc : LoadAllocs) (d : Bytes) (a : LoadData) : Loads lib alloc d a a.tick :=
  ⟨⟨rfl, rfl, rfl, rfl, rfl⟩, fun _ => ⟨[], (List.append_nil _).symm, by simp⟩, .inl rfl, fun _ h => h⟩

end Loads

theorem exifFormatGetSize_le (format : Nat) : exifFormatGetSize format ≤ 8 := by
  unfold exifFormatGetSize
  split <;> decide

theorem outside_eq_false {o s size : Nat} (ho : o < 2 ^ 32) (hs : s < 2 ^ 32) (hsize : size < 2 ^ 32) :
    outside o s size = false ↔ o + s ≤ size := by
  unfold outside
  simp only [decide_eq_false_iff_not]
  omega

theorem exifGetShort_lt (order : ExifByteOrder) (buf : Bytes) : exifGetShort order buf < 2 ^ 16 := by
  have h0 := (buf.getD 0 0).toNat_lt
  have h1 := (buf.getD 1 0).toNat_lt
  cases order <;> unfold exifGetShort <;> dsimp only <;> omega

theorem exifGetLong_lt (order : ExifByteOrder) (buf : Bytes) : exifGetLong order buf < 2 ^ 32 := by
  have h0 := exifGetShort_lt order buf
  have h2 := exifGetShort_lt order (buf.drop 2)
  cases order <;> unfold exifGetLong <;> dsimp only <;> omega

section

variable {d : Bytes} {o n : Nat} (order : ExifByteOrder)

theorem slice_yields (h : o + n ≤ d.length) :
    Yields (Block.slice d o n) fun block => block.length = n ∧ block <:+: d := by
  rw [Block.slice_eq h]
  refine Yields.ok ⟨by rw [List.length_take, List.length_drop]; omega, ?_⟩
  exact (List.take_prefix _ _).isInfix.trans (List.drop_suffix _ _).isInfix

theorem getShort_yields (h : o + 2 ≤ d.length) : Yields (getShort order d o) (· < 2 ^ 16) :=
  ((slice_yields h).imp fun block _ => exifGetShort_lt order block).map

theorem getLong_yields (h : o + 4 ≤ d.length) : Yields (getLong order d o) (· < 2 ^ 32) :=
  ((slice_yields h).imp fun block _ => exifGetLong_lt order block).map

end

theorem size_exact (format components : Nat) {size : Nat} (hsize : size < 2 ^ 16)
    (hle : components ≤ exifFormatGetSize format * components % 2 ^ 32)
    (hfits : exifFormatGetSize format * components % 2 ^ 32 ≤ size) :
    exifFormatGetSize format * components % 2 ^ 32 = exifFormatGetSize format * components := by
  have hmul := Nat.mul_le_mul (exifFormatGetSize_le format) (hle.trans hfits)
  exact Nat.mod_eq_of_lt (by omega)

section

variable {alloc : LoadAllocs} {d : Bytes} {ds : Nat} (hds : ds ≤ d.length) (hcap : ds < 2 ^ 16)
include hds hcap

/-- What comes of an entry: its bytes stand in the buffer, and it is whole if there is memory for them; all else but
where the maker note is stays as it was. -/
theorem exifDataLoadDataEntry_yields (data : LoadData) {pos : Nat} (hpos : pos + 12 ≤ ds) :
    Yields (exifDataLoadDataEntry alloc data d ds pos) fun r => ∀ e data', r = some (e, data') →
      e.LoadedFrom alloc d ∧ getShort data.order d pos = .ok e.tag.toNat ∧
        ∃ o, data' = { data.tick with offsetMnote := o } := by
  have htag := @Block.slice_eq d pos 2 (by omega)
  have hshort : getShort data.order d pos = .ok (exifGetShort data.order ((d.drop pos).take 2)) := by
    rw [getShort, htag]
    rfl
  rw [exifDataLoadDataEntry, hshort]
  apply Yields.bind (getShort_yields data.order (by omega))
  intro format hformat
  apply Yields.bind (getLong_yields data.order (by omega))
  intro components hcomponents
  dsimp only
  split
  · exact Yields.ok (fun _ _ heq => by cases heq)
  next hs =>
    have hmod := Nat.mod_lt (exifFormatGetSize format * components) (Nat.two_pow_pos 32)
    have hpositive : 0 < exifFormatGetSize format * components % 2 ^ 32 := by omega
    apply Yields.bind (P := fun doff => doff < 2 ^ 32)
    · split
      · exact getLong_yields data.order (by omega)
      · exact Yields.ok (by omega)
    intro doff hdoff
    split
    · exact Yields.ok (fun _ _ heq => by cases heq)
    next hin =>
      rw [Bool.not_eq_true, outside_eq_false hdoff hmod (by omega)] at hin
      have hexact := size_exact format components hcap (by omega) (by omega)
      have hnumber : exifGetShort data.order ((d.drop pos).take 2) =
          (UInt16.ofNat (exifGetShort data.order ((d.drop pos).take 2))).toNat :=
        (UInt16.toNat_ofNat_of_lt' (exifGetShort_lt _ _)).symm
      have hfound : ∃ o, (if exifGetShort data.order ((d.drop pos).take 2) = EXIF_TAG_MAKER_NOTE then
          { data.tick with offsetMnote := doff } else data.tick) = { data.tick with offsetMnote := o } := by
        split
        · exact ⟨_, rfl⟩
        · exact ⟨data.offsetMnote, rfl⟩
      by_cases hmemory : alloc .data data.allocs = true
      · rw [if_pos hmemory]
        apply Yields.map
        refine (slice_yields (by omega)).imp fun block hblock e data' heq => ?_
        cases heq
        refine ⟨⟨?_, fun _ => ⟨hformat, hpositive, hmod, hexact.symm, block, rfl, hblock.1⟩⟩, congrArg _ hnumber, hfound⟩
        rintro _ ⟨⟩
        exact hblock.2
      · rw [if_neg hmemory]
        refine Yields.ok fun e data' heq => ?_
        cases heq
        exact ⟨⟨fun _ hdata => (by cases hdata), fun halloc => absurd (halloc _ _) hmemory⟩, congrArg _ hnumber, hfound⟩

theorem exifDataLoadDataThumbnail_yields (lib : LoadLib) (data : LoadData) {o s : Nat} (ho : o < 2 ^ 32)
    (hs : s < 2 ^ 32) : Yields (exifDataLoadDataThumbnail alloc data d ds o s) (Loads lib alloc d data) := by
  unfold exifDataLoadDataThumbnail
  split
  · exact Yields.ok (Loads.refl lib alloc d data)
  next hin =>
    rw [not_or, Bool.not_eq_true, outside_eq_false ho hs (by omega)] at hin
    split
    · apply Yields.map
      refine (slice_yields (by omega)).imp fun block hblock => ?_
      refine ⟨⟨rfl, rfl, rfl, rfl, rfl⟩, fun _ => ⟨[], (List.append_nil _).symm, by simp⟩,
        .inr (.inr ⟨block, rfl, hblock.2⟩), fun _ h => ?_⟩
      exact ⟨h.entry, h.tag, h.nodup, hblock.1⟩
    · exact Yields.ok ⟨⟨rfl, rfl, rfl, rfl, rfl⟩, fun _ => ⟨[], (List.append_nil _).symm, by simp⟩, .inr (.inl rfl),
        fun _ h => ⟨h.entry, h.tag, h.nodup, rfl⟩⟩

end

theorem addEntry_ifd (alloc : LoadAllocs) (data : LoadData) (i j : ExifIfd) (e : ExifEntry) :
    (data.addEntry alloc i e).ifd j =
      if j = i then exifContentAddEntry (alloc .slot data.allocs) (data.ifd i) e else data.ifd j :=
  Function.update_apply ..

theorem exifContentAddEntry_cases (ok : Bool) (c : ExifContent) (e : ExifEntry) :
    exifContentAddEntry ok c e = c ∨ exifContentAddEntry ok c e = c ++ [e] ∧ e.tag ∉ c.map (·.tag) := by
  unfold exifContentAddEntry exifContentGetEntry
  split
  · exact .inl rfl
  next hfind =>
    split
    · refine .inr ⟨rfl, fun hmem => ?_⟩
      obtain ⟨x, hx, htag⟩ := List.mem_map.mp hmem
      have hne := List.find?_eq_none.mp hfind x hx
      simp only [decide_eq_true_eq] at hne
      exact hne (congrArg UInt16.toNat htag)
    · exact .inl rfl

theorem loads_addEntry {lib : LoadLib} {alloc : LoadAllocs} {d : Bytes} {data : LoadData} {ifd : ExifIfd}
    {e : ExifEntry} (he : e.LoadedFrom alloc d)
    (htag : isSpecialTag e.tag.toNat = false ∧
      (data.ignoreUnknownTags = true → lib.nameInIfd e.tag.toNat ifd = true)) :
    Loads lib alloc d data (data.addEntry alloc ifd e) := by
  have hcases := exifContentAddEntry_cases (alloc .slot data.allocs) (data.ifd ifd) e
  have hmem : ∀ j, ∀ x ∈ (data.addEntry alloc ifd e).ifd j, x ∈ data.ifd j ∨ j = ifd ∧ x = e := by
    intro j x hx
    rw [addEntry_ifd] at hx
    split at hx
    next hj =>
      subst hj
      rcases hcases with heq | ⟨heq, -⟩
      · exact .inl (heq ▸ hx)
      · exact (List.mem_append.mp (heq ▸ hx)).imp_right fun hx => ⟨rfl, List.mem_singleton.mp hx⟩
    · exact .inl hx
  refine ⟨⟨rfl, rfl, rfl, rfl, rfl⟩, fun j => ?_, .inl rfl, fun halloc h =>
    ⟨fun j x hx => ?_, fun j x hx => ?_, fun j => ?_, h.thumbnail⟩⟩
  · rw [addEntry_ifd]
    split
    next hj =>
      subst hj
      rcases hcases with heq | ⟨heq, -⟩
      · exact ⟨[], by rw [heq, List.append_nil], by simp⟩
      · exact ⟨[e], heq, by simpa using he⟩
    · exact ⟨[], (List.append_nil _).symm, by simp⟩
  · rcases hmem j x hx with hx | ⟨-, rfl⟩
    · exact h.entry j x hx
    · exact he.whole halloc
  · rcases hmem j x hx with hx | ⟨rfl, rfl⟩
    · exact h.tag j x hx
    · exact htag
  · rw [addEntry_ifd]
    split
    next hj =>
      subst hj
      rcases hcases with heq | ⟨heq, hnot⟩
      · rw [heq]
        exact h.nodup j
      · rw [heq, List.map_append]
        exact List.nodup_append.mpr ⟨h.nodup j, by simp, by simpa using hnot⟩
    · exact h.nodup j

theorem loads_offsetMnote (lib : LoadLib) (alloc : LoadAllocs) (d : Bytes) (data : LoadData) (o : Nat) :
    Loads lib alloc d data { data with offsetMnote := o } :=
  ⟨⟨rfl, rfl, rfl, rfl, rfl⟩, fun _ => ⟨[], (List.append_nil _).symm, by simp⟩, .inl rfl,
    fun _ h => ⟨h.entry, h.tag, h.nodup, h.thumbnail⟩⟩

/-- The state of the loop in a directory, which `a` was loaded into. -/
structure Grown (lib : LoadLib) (alloc : LoadAllocs) (d : Bytes) (a : LoadData) (l : Loading) : Prop where
  loads : Loads lib alloc d a l.data
  thumbnailOffset : l.thumbnailOffset < 2 ^ 32
  thumbnailLength : l.thumbnailLength < 2 ^ 32

section

variable {lib : LoadLib} {alloc : LoadAllocs} {d : Bytes} {ds : Nat} (hds : ds ≤ d.length) (hcap : ds < 2 ^ 16)
  (hnew : ∀ n, alloc .entry n = true) {a : LoadData} {l : Loading} {ifd : ExifIfd} {pos tag : Nat}
include hds hcap hnew

theorem loadEntry_yields (hl : Grown lib alloc d a l) (hpos : pos + 12 ≤ ds)
    (hget : getShort l.data.order d pos = .ok tag) (hspecial : isSpecialTag tag = false)
    (hname : l.data.ignoreUnknownTags = true → lib.nameInIfd tag ifd = true) :
    Yields (loadEntry alloc d ds ifd pos l) (Grown lib alloc d a) := by
  rw [loadEntry, if_neg (by rw [hnew]; decide)]
  apply Yields.map
  refine (exifDataLoadDataEntry_yields hds hcap l.data.tick hpos).imp fun r hr => ?_
  have htick := hl.loads.trans (Loads.tick lib alloc d l.data)
  cases r with
  | none => exact ⟨htick, hl.thumbnailOffset, hl.thumbnailLength⟩
  | some r =>
    obtain ⟨e, data⟩ := r
    obtain ⟨he, htag, o, rfl⟩ := hr e data rfl
    obtain rfl : tag = e.tag.toNat := Except.ok.inj (hget.symm.trans htag)
    have hfound := (Loads.tick lib alloc d l.data.tick).trans (loads_offsetMnote lib alloc d _ o)
    exact ⟨(htick.trans hfound).trans (loads_addEntry he ⟨hspecial, hname⟩), hl.thumbnailOffset, hl.thumbnailLength⟩

omit hnew in
theorem loadThumbnail_yields (hl : Grown lib alloc d a l) : Yields (loadThumbnail alloc d ds l) (Grown lib alloc d a) := by
  unfold loadThumbnail
  split
  · apply Yields.map
    refine (exifDataLoadDataThumbnail_yields hds hcap lib l.data hl.thumbnailOffset hl.thumbnailLength).imp
      fun data h => ?_
    exact ⟨hl.loads.trans h, hl.thumbnailOffset, hl.thumbnailLength⟩
  · exact Yields.ok hl

variable {load : ExifIfd → Nat → LoadData → Except Stuck LoadData}
  (hload : ∀ i o data, o < 2 ^ 32 → Yields (load i o data) (Loads lib alloc d data))
include hload

omit hds hcap hnew in
theorem loadPointer_yields (hl : Grown lib alloc d a l) {i : ExifIfd} {o : Nat} (ho : o < 2 ^ 32) :
    Yields (loadPointer load ifd i o l) (Grown lib alloc d a) := by
  unfold loadPointer
  split
  · exact Yields.ok hl
  · apply Yields.map
    exact (hload i o l.data ho).imp fun data h =>
      ⟨hl.loads.trans h, hl.thumbnailOffset, hl.thumbnailLength⟩

omit hnew in
theorem loadSpecial_yields (hl : Grown lib alloc d a l) {o : Nat} (ho : o < 2 ^ 32) :
    Yields (loadSpecial alloc d ds load ifd tag o l) (Grown lib alloc d a) := by
  unfold loadSpecial
  split
  · exact loadPointer_yields hload hl ho
  split
  · exact loadPointer_yields hload hl ho
  split
  · exact loadPointer_yields hload hl ho
  split
  · exact loadThumbnail_yields hds hcap ⟨hl.loads, ho, hl.thumbnailLength⟩
  · exact loadThumbnail_yields hds hcap ⟨hl.loads, hl.thumbnailOffset, ho⟩

theorem loadSlot_yields (hl : Grown lib alloc d a l) (hpos : pos + 12 ≤ ds) :
    Yields (loadSlot lib alloc d ds load ifd pos l) (Grown lib alloc d a) := by
  obtain ⟨tag, hget, -⟩ := getShort_yields (d := d) l.data.order (o := pos) (by omega)
  rw [loadSlot, hget, bind_ok]
  split
  · exact (getLong_yields l.data.order (by omega)).bind fun o ho => loadSpecial_yields hds hcap hload hl ho
  next hspecial =>
    rw [Bool.not_eq_true] at hspecial
    split
    next hname => exact loadEntry_yields hds hcap hnew hl hpos hget hspecial fun _ => hname
    · apply (slice_yields (by omega : pos + 4 ≤ d.length)).bind
      intro start _
      split
      · exact Yields.ok hl
      next hknown =>
        exact loadEntry_yields hds hcap hnew hl hpos hget hspecial fun h => absurd (.inr h) hknown

theorem loadSlots_yields {n : Nat} (hl : Grown lib alloc d a l) (hpos : pos + 12 * n ≤ ds) :
    Yields (loadSlots lib alloc d ds load ifd n pos l) (Grown lib alloc d a) := by
  induction n generalizing pos l with
  | zero => exact Yields.ok hl
  | succ n ih =>
    apply (loadSlot_yields hds hcap hnew hload hl (by omega)).bind
    intro l hl
    exact ih hl (by omega)

theorem exifDataLoadDataContentWith_yields (data : LoadData) {offset : Nat} (hoffset : offset < 2 ^ 32) :
    Yields (exifDataLoadDataContentWith lib alloc d ds load ifd offset data) (Loads lib alloc d data) := by
  unfold exifDataLoadDataContentWith
  split
  · exact Yields.ok (Loads.refl lib alloc d data)
  next hin =>
    rw [Bool.not_eq_true, outside_eq_false hoffset (by decide) (by omega)] at hin
    apply (getShort_yields data.order (by omega)).bind
    intro n hn
    apply Yields.map
    refine (loadSlots_yields hds hcap hnew hload ⟨Loads.refl lib alloc d data, Nat.two_pow_pos 32, Nat.two_pow_pos 32⟩ ?_).imp
      fun _ h => h.loads
    split <;> omega

end

section

variable (lib : LoadLib) {alloc : LoadAllocs} {d : Bytes} {ds : Nat}

theorem exifDataLoadDataContent_yields (hnew : ∀ n, alloc .entry n = true) (hds : ds ≤ d.length) (hcap : ds < 2 ^ 16) (depth : Nat) (ifd : ExifIfd)
    (offset : Nat) (data : LoadData) (hoffset : offset < 2 ^ 32) :
    Yields (exifDataLoadDataContent lib alloc d ds depth ifd offset data) (Loads lib alloc d data) := by
  induction depth generalizing ifd offset data with
  | zero => exact Yields.ok (Loads.refl lib alloc d data)
  | succ depth ih => exact exifDataLoadDataContentWith_yields hds hcap hnew ih data hoffset

def Finished (lib : LoadLib) (alloc : LoadAllocs) (d : Bytes) (a b : LoadData) : Prop :=
  ∃ c, (∃ order, Loads lib alloc d { a with order := order } c) ∧ (b = c ∨ ∃ d', d' <:+: d ∧ b = finishLoad lib d' c)

theorem Finished.of_loads {a b : LoadData} (order : ExifByteOrder) (h : Loads lib alloc d { a with order := order } b) :
    Finished lib alloc d a b :=
  ⟨b, ⟨order, h⟩, .inl rfl⟩

theorem Finished.mono {a b : LoadData} {d' : Bytes} (h : Finished lib alloc d a b) (hd : d <:+: d') :
    Finished lib alloc d' a b := by
  obtain ⟨c, ⟨order, hc⟩, hb⟩ := h
  exact ⟨c, ⟨order, hc.mono hd⟩, hb.imp_right fun ⟨d₀, hd₀, hb⟩ => ⟨d₀, hd₀.trans hd, hb⟩⟩

theorem loadTiff_yields (hnew : ∀ n, alloc .entry n = true) (hd : 14 ≤ ds) (hds : ds ≤ d.length) (hcap : ds < 2 ^ 16) (data : LoadData)
    (order : ExifByteOrder) :
    Yields (loadTiff lib alloc d ds { data with order := order }) (Finished lib alloc d data) := by
  have hdrop : d.drop 6 <:+: d := (List.drop_suffix 6 d).isInfix
  have hlen : ds - 6 ≤ (d.drop 6).length := by
    rw [List.length_drop]
    omega
  have hrefl : Finished lib alloc d data { data with order := order } := .of_loads lib order (Loads.refl lib alloc d _)
  unfold loadTiff
  apply (getShort_yields _ (by omega)).bind
  intro fixed _
  split
  · exact Yields.ok hrefl
  apply (getLong_yields _ (by omega)).bind
  intro offset hoffset
  split
  · exact Yields.ok hrefl
  next hin =>
    apply (exifDataLoadDataContent_yields lib hnew hlen (by omega) 31 .ifd0 offset _ hoffset).bind
    intro b hb
    have hb := hb.mono hdrop
    apply (getShort_yields _ (by omega)).bind
    intro n hn
    split
    · exact Yields.ok (.of_loads lib order hb)
    apply (getLong_yields _ (by omega)).bind
    intro next hnext
    apply Yields.map
    unfold loadIfd1
    split
    · exact Yields.ok ⟨b, ⟨order, hb⟩, .inr ⟨d, List.infix_rfl, rfl⟩⟩
    · refine (exifDataLoadDataContent_yields lib hnew hlen (by omega) 31 .ifd1 next b hnext).imp fun c hc => ?_
      exact ⟨c, ⟨order, hb.trans (hc.mono hdrop)⟩, .inr ⟨d, List.infix_rfl, rfl⟩⟩

theorem loadHeader_yields (hnew : ∀ n, alloc .entry n = true) (data : LoadData) : Yields (loadHeader lib alloc d data) (Finished lib alloc d data) := by
  have hrefl : Finished lib alloc d data data := .of_loads lib data.order (Loads.refl lib alloc d data)
  unfold loadHeader
  split
  · exact Yields.ok hrefl
  apply (slice_yields (o := 0) (by omega)).bind
  intro name _
  split
  · exact Yields.ok hrefl
  next hlong =>
    apply (slice_yields (o := 6) (by omega)).bind
    intro marks _
    split
    · exact loadTiff_yields lib hnew (by omega) (by omega) (by omega) data .intel
    split
    · exact loadTiff_yields lib hnew (by omega) (by omega) (by omega) data .motorola
    · exact Yields.ok hrefl

theorem byteAt_yields {bs : Bytes} {i : Nat} (h : i < bs.length) : Yields (Block.byteAt bs i) fun _ => True := by
  rw [Block.byteAt_eq h]
  exact Yields.ok trivial

theorem searchMarker_yields (d : Bytes) : Yields (searchMarker d) fun r => ∀ rest, r = some rest → rest <:+: d := by
  have hnone : ∀ d : Bytes, ∀ rest, (none : Option Bytes) = some rest → rest <:+: d :=
    fun _ _ heq => by cases heq
  have htail : ∀ {d : Bytes} {b : UInt8} {rest : Bytes}, d.dropWhile (· = 0xff) = b :: rest → rest <:+: d := by
    intro d b rest hrest
    exact (List.suffix_cons b rest).isInfix.trans (hrest ▸ (List.dropWhile_suffix _).isInfix)
  fun_induction searchMarker d with
  | case1 d => exact Yields.ok (hnone d)
  | case2 d => exact Yields.ok (hnone d)
  | case3 d hshort rest hrest ih =>
    exact ih.imp fun r hr rest' heq => (hr rest' heq).trans (htail hrest)
  | case4 d hshort b rest hrest hsoi happ0 ih =>
    apply (byteAt_yields (by omega)).bind
    intro hi _
    apply (byteAt_yields (by omega)).bind
    intro lo _
    dsimp only
    split
    · exact Yields.ok (hnone d)
    next hle =>
      refine (ih hi lo hle).imp fun r hr rest' heq => (hr rest' heq).trans ?_
      exact (List.drop_suffix _ _).isInfix.trans (htail hrest)
  | case5 d => exact Yields.ok (hnone d)
  | case6 d hshort rest hlong hrest =>
    apply Yields.map
    refine (slice_yields (o := 0) (by omega)).imp fun _ _ rest' heq => ?_
    cases heq
    exact (List.drop_suffix 2 rest).isInfix.trans (htail hrest)
  | case7 d => exact Yields.ok (hnone d)

theorem exifDataLoadData_finished (hnew : ∀ n, alloc .entry n = true) (data : LoadData) (d : Bytes) :
    Yields (exifDataLoadData lib alloc data d) (Finished lib alloc d data) := by
  have hrefl : Finished lib alloc d data data := .of_loads lib data.order (Loads.refl lib alloc d data)
  unfold exifDataLoadData
  split
  · exact Yields.ok hrefl
  apply (slice_yields (o := 0) (by omega)).bind
  intro name _
  split
  · exact loadHeader_yields lib hnew data
  · apply (searchMarker_yields d).bind
    rintro (_ | rest) hrest
    · exact Yields.ok hrefl
    · exact (loadHeader_yields lib hnew data).imp fun b hb => hb.mono lib (hrest rest rfl)

end

end G361FPlatform.Exif
