import G361FPlatform.Exif.Serial

namespace G361FPlatform.Exif

open Library

def ExifData.anew (data : ExifData) (e : ExifEntry) (n : Nat) : ExifEntry := data.updateMakerNote n e

structure Alike (p : Prop) (a b : ExifData) : Prop where
  order : b.order = a.order
  md : b.md = a.md
  option : b.dontChangeMakerNote = a.dontChangeMakerNote
  ifd : ∀ i, (i = .ifd1 → p) → (b.ifd i).map a.anew = (a.ifd i).map a.anew
  thumbnail : p → b.data = a.data ∧ b.size = a.size

section Entries

variable {data : ExifData} {e e' : ExifEntry} {n : Nat}

theorem updateMakerNote_tag (data : ExifData) (n : Nat) (e : ExifEntry) :
    (data.updateMakerNote n e).tag = e.tag := by
  unfold ExifData.updateMakerNote
  split
  · split <;> rfl
  · rfl

theorem updateMakerNote_format (data : ExifData) (n : Nat) (e : ExifEntry) :
    (data.updateMakerNote n e).format = e.format := by
  unfold ExifData.updateMakerNote
  split
  · split <;> rfl
  · rfl

theorem anew_update (data : ExifData) (n : Nat) (e : ExifEntry) :
    data.anew (data.updateMakerNote n e) = data.anew e := by
  funext m
  unfold ExifData.anew ExifData.updateMakerNote
  by_cases hnote : data.dontChangeMakerNote = false ∧ e.tag.toNat = EXIF_TAG_MAKER_NOTE
  · rw [if_pos hnote, if_pos hnote]
    cases data.md with
    | none => exact if_pos hnote
    | some md => exact if_pos hnote
  · rw [if_neg hnote]

theorem entryOut_value {r : Filled ExifEntry UInt8} (h : entryOut data e n = some r) :
    r.value = data.updateMakerNote n e := by
  unfold entryOut at h
  dsimp only at h
  split at h
  · split at h
    · obtain ⟨bytes, _, rfl⟩ := Option.map_eq_some_iff.mp h
      rfl
    · cases h
  · obtain ⟨bytes, _, rfl⟩ := Option.map_eq_some_iff.mp h
    rfl

theorem entriesOut_anew {es : List ExifEntry} {r : Filled (List ExifEntry) UInt8}
    (h : entriesOut data es n = some r) : r.value.map data.anew = es.map data.anew := by
  induction es generalizing n r with
  | nil =>
    cases h
    rfl
  | cons e es ih =>
    obtain ⟨first, hfirst, h⟩ := Option.bind_eq_some_iff.mp h
    obtain ⟨rest, hrest, rfl⟩ := Option.map_eq_some_iff.mp h
    change data.anew first.value :: rest.value.map data.anew = data.anew e :: es.map data.anew
    rw [entryOut_value hfirst, anew_update, ih hrest]

end Entries

namespace Alike

variable {p q : Prop} {a b c : ExifData}

theorem updateMakerNote (h : Alike p a b) : b.updateMakerNote = a.updateMakerNote := by
  funext ds e
  unfold ExifData.updateMakerNote
  rw [h.md, h.option]

theorem anew (h : Alike p a b) : b.anew = a.anew := by
  funext e n
  unfold ExifData.anew
  rw [h.updateMakerNote]

theorem refl (p : Prop) (a : ExifData) : Alike p a a :=
  ⟨rfl, rfl, rfl, fun _ _ => rfl, fun _ => ⟨rfl, rfl⟩⟩

theorem trans (h : Alike p a b) (k : Alike p b c) : Alike p a c := by
  refine ⟨k.order.trans h.order, k.md.trans h.md, k.option.trans h.option, fun i hi => ?_, fun hp => ?_⟩
  · have hbc := k.ifd i hi
    rw [h.anew] at hbc
    exact hbc.trans (h.ifd i hi)
  · exact ⟨(k.thumbnail hp).1.trans (h.thumbnail hp).1, (k.thumbnail hp).2.trans (h.thumbnail hp).2⟩

theorem mono (hqp : q → p) (h : Alike p a b) : Alike q a b :=
  ⟨h.order, h.md, h.option, fun i hi => h.ifd i fun heq => hqp (hi heq), fun hq => h.thumbnail (hqp hq)⟩

theorem length (h : Alike p a b) {i : ExifIfd} (hi : i = .ifd1 → p) :
    (b.ifd i).length = (a.ifd i).length := by
  have hlength := congrArg List.length (h.ifd i hi)
  rwa [List.length_map, List.length_map] at hlength

theorem nil_iff (h : Alike p a b) {i : ExifIfd} (hi : i = .ifd1 → p) :
    b.ifd i = [] ↔ a.ifd i = [] := by
  rw [← List.length_eq_zero_iff, ← List.length_eq_zero_iff, h.length hi]

theorem needsExif (h : Alike p a b) : b.needsExif = a.needsExif := by
  unfold ExifData.needsExif
  exact decide_eq_decide.mpr (or_congr (not_congr (h.nil_iff fun heq => nomatch heq))
    (not_congr (h.nil_iff fun heq => nomatch heq)))

theorem needsGps (h : Alike p a b) : b.needsGps = a.needsGps := by
  unfold ExifData.needsGps
  exact decide_eq_decide.mpr (not_congr (h.nil_iff fun heq => nomatch heq))

theorem needsInteroperability (h : Alike p a b) :
    b.needsInteroperability = a.needsInteroperability := by
  unfold ExifData.needsInteroperability
  exact decide_eq_decide.mpr (not_congr (h.nil_iff fun heq => nomatch heq))

theorem needsThumbnail (h : Alike p a b) (hp : p) : b.needsThumbnail = a.needsThumbnail := by
  unfold ExifData.needsThumbnail
  rw [(h.thumbnail hp).2]

theorem needsIfd1 (h : Alike p a b) (hp : p) : b.needsIfd1 = a.needsIfd1 := by
  unfold ExifData.needsIfd1
  rw [(h.thumbnail hp).2]
  exact decide_eq_decide.mpr (or_congr (not_congr (h.nil_iff fun _ => hp)) Iff.rfl)

theorem specialCount (h : Alike p a b) {i : ExifIfd} (hi : i = .ifd1 → p) :
    b.specialCount i = a.specialCount i := by
  cases i with
  | ifd0 => rw [ExifData.specialCount, h.needsExif, h.needsGps]; rfl
  | ifd1 => rw [ExifData.specialCount, h.needsThumbnail (hi rfl)]; rfl
  | exif => rw [ExifData.specialCount, h.needsInteroperability]; rfl
  | gps => rfl
  | interoperability => rfl

theorem entryCount (h : Alike p a b) {i : ExifIfd} (hi : i = .ifd1 → p) :
    b.entryCount i = a.entryCount i := by
  rw [ExifData.entryCount, h.length hi, h.specialCount hi, ExifData.entryCount]

theorem setIfd (h : Alike p a b) (i : ExifIfd) (es : ExifContent) :
    Alike p (a.setIfd i es) (b.setIfd i es) := by
  refine ⟨h.order, h.md, h.option, fun j hj => ?_, h.thumbnail⟩
  by_cases hij : j = i
  · subst hij
    simp only [ExifData.setIfd, Function.update_self]
  · simp only [ExifData.setIfd, Function.update_of_ne hij]
    exact h.ifd j hj

theorem of_setIfd (p : Prop) {i : ExifIfd} {es : ExifContent} (h : es.map a.anew = (a.ifd i).map a.anew) :
    Alike p a (a.setIfd i es) := by
  refine ⟨rfl, rfl, rfl, fun j _ => ?_, fun _ => ⟨rfl, rfl⟩⟩
  by_cases hij : j = i
  · subst hij
    simp only [ExifData.setIfd, Function.update_self]
    exact h
  · simp only [ExifData.setIfd, Function.update_of_ne hij]

theorem entryOut (h : Alike p a b) {e e' : ExifEntry} (he : a.anew e' = a.anew e) (n : Nat) :
    entryOut b e' n = entryOut a e n := by
  have hanew : a.updateMakerNote n e' = a.updateMakerNote n e := congrFun he n
  have htag : e'.tag = e.tag := by
    rw [← updateMakerNote_tag a n e', hanew, updateMakerNote_tag]
  have hformat : e'.format = e.format := by
    rw [← updateMakerNote_format a n e', hanew, updateMakerNote_format]
  simp only [Exif.entryOut, h.updateMakerNote, hanew, htag, hformat, h.order]

theorem entriesOut (h : Alike p a b) {es es' : List ExifEntry} (hes : es'.map a.anew = es.map a.anew) (n : Nat) :
    entriesOut b es' n = entriesOut a es n := by
  induction es generalizing es' n with
  | nil =>
    rw [List.map_eq_nil_iff.mp hes]
    rfl
  | cons e es ih =>
    cases es' with
    | nil => cases hes
    | cons e' es' =>
      obtain ⟨he, hrest⟩ := List.cons.inj hes
      unfold Exif.entriesOut
      rw [h.entryOut he n]
      apply congrArg (Option.bind _)
      funext r
      rw [ih hrest]

end Alike

section Pieces

variable {p : Prop} {a b : ExifData} {n : Nat}

def Matches (p : Prop) (x y : Option (Filled ExifData UInt8)) : Prop :=
  ∀ r, x = some r → ∃ data, y = some ⟨data, r.slot, r.tail⟩ ∧ Alike p r.value data

theorem Matches.and {x y : Option (Filled ExifData UInt8)} (h : Matches p x y)
    {f : ExifData → Nat → Option (Filled ExifData UInt8)}
    (hf : ∀ a b n, Alike p a b → Matches p (f a n) (f b n)) :
    Matches p (x.bind fun r => (f r.value (n + r.tail.length)).map r.and)
      (y.bind fun r => (f r.value (n + r.tail.length)).map r.and) := by
  intro s hs
  obtain ⟨r, hr, hs⟩ := Option.bind_eq_some_iff.mp hs
  obtain ⟨q, hq, rfl⟩ := Option.map_eq_some_iff.mp hs
  obtain ⟨data, hy, hdata⟩ := h r hr
  obtain ⟨data', hq', hdata'⟩ := hf r.value data _ hdata q hq
  refine ⟨data', ?_, hdata'⟩
  rw [hy, Option.bind_some, hq']
  rfl

variable (sub : ExifIfd → ExifData → Nat → Option (ExifData × Bytes))

structure Steady (p : Prop) : Prop where
  updates : ∀ {i a n r}, sub i a n = some r → Alike True a r.1
  congr : ∀ {i a b n r}, (i = .ifd1 → p) → (i = .ifd0 → p) → Alike p a b → sub i a n = some r →
    ∃ data, sub i b n = some (data, r.2) ∧ Alike p r.1 data

variable {sub}

theorem pointerOut_updates (hsub : Steady sub p) {needed : Bool} {tag : Nat} {i : ExifIfd}
    {r : Filled ExifData UInt8} (h : pointerOut sub needed tag i a n = some r) :
    Alike True a r.value := by
  unfold pointerOut at h
  split at h
  · obtain ⟨q, hq, rfl⟩ := Option.map_eq_some_iff.mp h
    exact hsub.updates hq
  · cases h
    exact Alike.refl True a

theorem pointerOut_congr (hsub : Steady sub p) (hab : Alike p a b) (needed : Bool) (tag : Nat) {i : ExifIfd}
    (hi : i ≠ .ifd1 ∧ i ≠ .ifd0) :
    Matches p (pointerOut sub needed tag i a n) (pointerOut sub needed tag i b n) := by
  intro r h
  unfold pointerOut at h ⊢
  split at h
  next hneeded =>
    obtain ⟨q, hq, rfl⟩ := Option.map_eq_some_iff.mp h
    obtain ⟨data, hb, hdata⟩ := hsub.congr (fun heq => absurd heq hi.1) (fun heq => absurd heq hi.2) hab hq
    refine ⟨data, ?_, hdata⟩
    rw [if_pos hneeded, hb, hab.order]
    rfl
  next hneeded =>
    cases h
    exact ⟨b, if_neg hneeded, hab⟩

theorem thumbnailOut_updates {r : Filled ExifData UInt8} (h : thumbnailOut a n = some r) :
    r.value = a := by
  unfold thumbnailOut at h
  split at h
  · split at h
    · obtain ⟨bytes, _, rfl⟩ := Option.map_eq_some_iff.mp h
      rfl
    · cases h
  · cases h
    rfl

theorem thumbnailOut_congr (hab : Alike p a b) (hp : p) :
    Matches p (thumbnailOut a n) (thumbnailOut b n) := by
  intro r h
  refine ⟨b, ?_, thumbnailOut_updates h ▸ hab⟩
  obtain ⟨hdata, hsize⟩ := hab.thumbnail hp
  unfold thumbnailOut at h ⊢
  rw [hab.needsThumbnail hp, hab.order, hdata, hsize]
  split at h
  next hneeds =>
    rw [if_pos hneeds]
    split at h
    next hroom =>
      obtain ⟨bytes, hbytes, rfl⟩ := Option.map_eq_some_iff.mp h
      rw [if_pos hroom, hbytes]
      rfl
    · cases h
  next hneeds =>
    cases h
    exact if_neg hneeds

theorem specialOut_updates (hsub : Steady sub p) {i : ExifIfd} {r : Filled ExifData UInt8}
    (h : specialOut sub i a n = some r) : Alike True a r.value := by
  cases i with
  | ifd0 =>
    obtain ⟨s, hs, h⟩ := Option.bind_eq_some_iff.mp h
    obtain ⟨q, hq, rfl⟩ := Option.map_eq_some_iff.mp h
    exact (pointerOut_updates hsub hs).trans (show Alike True s.value q.value from pointerOut_updates hsub hq)
  | ifd1 => exact thumbnailOut_updates h ▸ Alike.refl True a
  | exif => exact pointerOut_updates hsub h
  | gps => cases h; exact Alike.refl True a
  | interoperability => cases h; exact Alike.refl True a

theorem specialOut_congr (hsub : Steady sub p) (hab : Alike p a b) {i : ExifIfd} (hi : i = .ifd1 → p) :
    Matches p (specialOut sub i a n) (specialOut sub i b n) := by
  cases i with
  | ifd0 =>
    unfold specialOut
    rw [hab.needsExif]
    apply Matches.and (f := fun data m => pointerOut sub data.needsGps EXIF_TAG_GPS_INFO_IFD_POINTER .gps data m)
      (pointerOut_congr hsub hab _ _ (by decide))
    intro c d m hcd
    rw [hcd.needsGps]
    exact pointerOut_congr hsub hcd _ _ (by decide)
  | ifd1 => exact thumbnailOut_congr hab (hi rfl)
  | exif =>
    unfold specialOut
    rw [hab.needsInteroperability]
    exact pointerOut_congr hsub hab _ _ (by decide)
  | gps =>
    intro r h
    cases h
    exact ⟨b, rfl, hab⟩
  | interoperability =>
    intro r h
    cases h
    exact ⟨b, rfl, hab⟩

theorem directoryOut_updates (hsub : Steady sub p) {i : ExifIfd} {r : Filled ExifData UInt8}
    (h : directoryOut sub i a n = some r) : Alike True a r.value := by
  obtain ⟨s, hs, h⟩ := Option.bind_eq_some_iff.mp h
  obtain ⟨q, hq, rfl⟩ := Option.map_eq_some_iff.mp h
  exact (Alike.of_setIfd True (entriesOut_anew hs)).trans
    (show Alike True (a.setIfd i s.value) q.value from specialOut_updates hsub hq)

theorem directoryOut_congr (hsub : Steady sub p) (hab : Alike p a b) {i : ExifIfd} (hi : i = .ifd1 → p) :
    Matches p (directoryOut sub i a n) (directoryOut sub i b n) := by
  intro r h
  obtain ⟨s, hs, h⟩ := Option.bind_eq_some_iff.mp h
  obtain ⟨q, hq, rfl⟩ := Option.map_eq_some_iff.mp h
  obtain ⟨data, hdata, halike⟩ := specialOut_congr hsub (hab.setIfd i s.value) hi q hq
  refine ⟨data, ?_, halike⟩
  rw [directoryOut, hab.entriesOut (hab.ifd i hi), hs, Option.bind_some, hdata]
  rfl

/-- A directory that was serialised: it ends with zeros, or with the offset of IFD 1, which is behind
all that belongs to it. -/
theorem contentOut_cases {libc : LibC} {i : ExifIfd} {r : ExifData × Bytes}
    (h : contentOut libc sub i a n = some r) :
    n + (2 + a.entryCount i * 12 + 4) < 2 ^ 32 ∧
      ∃ s, directoryOut sub i a (n + (2 + a.entryCount i * 12 + 4)) = some s ∧
        (i = .ifd0 ∧ s.value.needsIfd1 = true ∧
            (∃ q, sub .ifd1 s.value (n + (2 + a.entryCount i * 12 + 4) + s.tail.length) = some q ∧
              r = (q.1, exifSetShort a.order (a.entryCount i) ++
                sorted libc s.value.order (a.entryCount i) s.slot ++ (exifSetLong s.value.order
                  (n + (2 + a.entryCount i * 12 + 4) + s.tail.length - 6) ++ (s.tail ++ q.2)))) ∨
          ¬(i = .ifd0 ∧ s.value.needsIfd1 = true) ∧
            r = (s.value, exifSetShort a.order (a.entryCount i) ++
              sorted libc s.value.order (a.entryCount i) s.slot ++
                (exifSetLong s.value.order 0 ++ s.tail))) := by
  unfold contentOut at h
  dsimp only at h
  split at h
  next hroom =>
    obtain ⟨s, hs, h⟩ := Option.bind_eq_some_iff.mp h
    refine ⟨hroom, s, hs, ?_⟩
    split at h
    next hnext =>
      obtain ⟨q, hq, rfl⟩ := Option.map_eq_some_iff.mp h
      exact .inl ⟨hnext.1, hnext.2, q, hq, rfl⟩
    next hnext =>
      cases h
      exact .inr ⟨hnext, rfl⟩
  · cases h

theorem contentOut_steady (libc : LibC) (hsub : Steady sub p) : Steady (contentOut libc sub) p := by
  constructor
  · intro i a n r h
    obtain ⟨-, s, hs, ⟨-, -, q, hq, rfl⟩ | ⟨-, rfl⟩⟩ := contentOut_cases h
    · have hnext : Alike True s.value q.1 := hsub.updates hq
      exact (directoryOut_updates hsub hs).trans hnext
    · exact directoryOut_updates hsub hs
  · intro i a b n r hi hroot hab h
    obtain ⟨hroom, s, hs, hend⟩ := contentOut_cases h
    obtain ⟨data, hdata, halike⟩ := directoryOut_congr hsub hab hi s hs
    unfold contentOut
    dsimp only
    rw [hab.entryCount hi, hab.order, if_pos hroom, hdata, Option.bind_some]
    dsimp only
    rw [halike.order]
    rcases hend with ⟨heq, hneeds, q, hq, rfl⟩ | ⟨hnext, rfl⟩
    · have hp : p := hroot heq
      obtain ⟨data', hdata', halike'⟩ := hsub.congr (fun _ => hp) (fun _ => hp) halike hq
      rw [if_pos ⟨heq, by rw [halike.needsIfd1 hp]; exact hneeds⟩, hdata']
      exact ⟨data', rfl, halike'⟩
    · have hstop : ¬(i = .ifd0 ∧ data.needsIfd1 = true) := by
        rintro ⟨heq, hneeds⟩
        exact hnext ⟨heq, halike.needsIfd1 (hroot heq) ▸ hneeds⟩
      rw [if_neg hstop]
      exact ⟨data, rfl, halike⟩

theorem serial_steady (libc : LibC) (p : Prop) (depth : Nat) : Steady (serial libc depth) p := by
  induction depth with
  | zero => exact ⟨(fun h => nomatch h), fun _ _ _ h => nomatch h⟩
  | succ depth ih => exact contentOut_steady libc ih

end Pieces

end G361FPlatform.Exif
