import G361FPlatform.Jpeg.NoCopyLaws
import G361FPlatform.Jpeg.Load

namespace G361FPlatform.Jpeg

open Library

def SavedExif.Held (ed : SavedExif) : Prop := ∃ bytes, ed = .live bytes

/-- An APP1 section is saved from its own buffer: behind the call of libexif `ed` is NULL or what
was serialised from this section, and no way out of the section keeps the buffer. -/
structure OwnBuffer (lib : ExifLib Exif) (reserve : Reserve) (sec : JPEGSection Exif) (s : SaveState) :
    Prop where
  own : ∃ s', exifDataSaveData lib sec.content s = .ok s' ∧ (s'.ed = .null ∨
    ∃ app1 bytes, sec.content = .exif app1 ∧ lib.save app1 = some bytes ∧ s'.ed = .live bytes)
  freed : ∀ s', saveApp1 lib reserve sec.content s = .ok s' ∨
    saveApp1 lib reserve sec.content s = .error (.ret s') → ¬s'.ed.Held

/-- The save loop writes the marker of section `k`, and is then in state `s`. -/
def Reaches (lib : ExifLib Exif) (reserve : Nat → Reserve) (data : JPEGData Exif) (d : Option Block) (k : Nat)
    (sec : JPEGSection Exif) (s : SaveState) : Prop :=
  data.sections[k]? = some sec ∧ ∃ s₀ s₁,
    saveLoop lib reserve data 0 (data.sections.take k) ⟨d, 0, .null, 0⟩ = .ok s₀ ∧
      reserve k ((s₀.ds + 2) % uintSize) s₀ = .ok s₁ ∧ s₁.put 0xff sec.marker = .ok s

/-- Every APP1 section the loop gets to is saved from its own buffer. -/
def OwnBuffers (lib : ExifLib Exif) (reserve : Nat → Reserve) (data : JPEGData Exif) (d : Option Block) :
    Prop :=
  ∀ k sec s, Reaches lib reserve data d k sec s → sec.marker = APP1 → OwnBuffer lib (reserve k) sec s

def edBefore (lib : ExifLib Exif) (sections : List (JPEGSection Exif)) : SavedExif :=
  sections.foldl (fun ed sec => edAfter lib sec ed) .null

/-- What an APP1 section needs, where `*ds` is behind its marker: an ExifData, or none while `ed` is
NULL; and no `realloc` may fail while there is a buffer. -/
structure Clean (lib : ExifLib Exif) (alloc : Nat → Bool) (sec : JPEGSection Exif) (ed : SavedExif) (ds : Nat) :
    Prop where
  content : (∃ app1, sec.content = .exif app1) ∨ sec.content = .null ∧ ed = .null
  realloc : ∀ app1 bytes, sec.content = .exif app1 → lib.save app1 = some bytes →
    alloc ((ds + 2) % uintSize) = true ∧
      (ds + 2 < uintSize → alloc ((ds + 2 + bytes.length % uintSize) % uintSize) = true)

section

variable {lib : ExifLib Exif} {reserve : Reserve} {data : JPEGData Exif} {sec : JPEGSection Exif}
  {s s' : SaveState} {app1 : Pointer Exif}

theorem not_held_null : ¬SavedExif.null.Held := by
  rintro ⟨bytes, h⟩
  cases h

theorem not_held_freed : ¬SavedExif.freed.Held := by
  rintro ⟨bytes, h⟩
  cases h

theorem saveApp1_ed (h : saveApp1 lib reserve app1 s = .ok s') :
    ∃ s₀, exifDataSaveData lib app1 s = .ok s₀ ∧
      (s₀.ed = .null ∧ s' = s₀ ∨ s₀.ed.Held ∧ s'.ed = .freed) := by
  obtain ⟨s₀, h₀, hend⟩ := saveApp1_cases h
  refine ⟨s₀, h₀, hend.imp_right ?_⟩
  rintro ⟨bytes, _, _, _, _, hlive, -, -, -, -, rfl⟩
  exact ⟨⟨bytes, hlive⟩, rfl⟩

theorem not_held_of_saveApp1 (h : saveApp1 lib reserve app1 s = .ok s') : ¬s'.ed.Held := by
  obtain ⟨s₀, -, ⟨hnull, rfl⟩ | ⟨-, hfreed⟩⟩ := saveApp1_ed h
  · rw [hnull]
    exact not_held_null
  · rw [hfreed]
    exact not_held_freed

theorem own_iff :
    (∃ s', exifDataSaveData lib sec.content s = .ok s' ∧ (s'.ed = .null ∨
        ∃ app1 bytes, sec.content = .exif app1 ∧ lib.save app1 = some bytes ∧ s'.ed = .live bytes)) ↔
      (∃ app1, sec.content = .exif app1) ∨ sec.content = .null ∧ s.ed = .null := by
  cases hcontent : sec.content with
  | null =>
    refine ⟨?_, ?_⟩
    · rintro ⟨s', h, hnull | ⟨app1, bytes, heq, -⟩⟩
      · cases h
        exact .inr ⟨rfl, hnull⟩
      · cases heq
    · rintro (⟨app1, heq⟩ | ⟨-, hnull⟩)
      · cases heq
      · exact ⟨_, rfl, .inl hnull⟩
  | buffer bytes =>
    refine ⟨?_, ?_⟩
    · rintro ⟨s', h, -⟩
      cases h
    · rintro (⟨app1, heq⟩ | ⟨heq, -⟩) <;> cases heq
  | exif app1 =>
    refine ⟨fun _ => .inl ⟨app1, rfl⟩, fun _ => ?_⟩
    rw [exifDataSaveData]
    cases hsave : lib.save app1 with
    | none => exact ⟨_, rfl, .inl rfl⟩
    | some bytes => exact ⟨_, rfl, .inr ⟨app1, bytes, rfl, hsave, rfl⟩⟩

theorem not_ownBuffer_freed (hcontent : sec.content = .null) (hed : s.ed = .freed) :
    ¬OwnBuffer lib reserve sec s := by
  intro h
  rcases own_iff.mp h.own with ⟨app1, heq⟩ | ⟨-, hnull⟩
  · rw [hcontent] at heq
    cases heq
  · rw [hed] at hnull
    cases hnull

theorem saveApp1_unserialised (hsave : ∀ app1 bytes, sec.content = .exif app1 → lib.save app1 ≠ some bytes)
    (hheld : ¬s.ed.Held) : NoReturn (saveApp1 lib reserve sec.content s) := by
  intro s' h
  unfold saveApp1 exifDataSaveData at h
  cases hcontent : sec.content with
  | null =>
    rw [hcontent] at h
    dsimp only [bind_ok, Except.bind] at h
    split at h
    · cases h
    · cases h
    next bytes hlive => exact hheld ⟨bytes, hlive⟩
  | buffer bytes =>
    rw [hcontent] at h
    cases h
  | exif app1 =>
    rw [hcontent] at h
    cases hnone : lib.save app1 with
    | none =>
      simp only [hnone] at h
      cases h
    | some bytes => exact hsave app1 bytes hcontent hnone

theorem exists_put {a b : UInt8} (hroom : s.ds + 2 ≤ allocated s) (hsmall : s.ds + 2 < uintSize) :
    ∃ s', s.put a b = .ok s' ∧ s'.ds = s.ds + 2 ∧ Keeps s s' := by
  have hwrite : ∀ (s : SaveState) (i : Nat) (bs : List UInt8), 0 < bs.length → i + bs.length ≤ allocated s →
      ∃ s', s.write i bs = .ok s' := by
    intro s i bs hbs hin
    unfold allocated at hin
    rw [SaveState.write]
    cases hd : s.d with
    | none =>
      rw [hd, Option.getD_none, List.length_nil] at hin
      omega
    | some d =>
      rw [hd, Option.getD_some] at hin
      obtain ⟨d', hstore, -⟩ := Block.exists_store hin
      simp only [hstore]
      exact ⟨_, rfl⟩
  obtain ⟨s₁, h₁⟩ := hwrite s s.ds [a] Nat.one_pos (by rw [List.length_singleton]; omega)
  obtain ⟨-, hlen₁, hds₁, hkeep₁⟩ := write_inv h₁
  obtain ⟨s₂, h₂⟩ := hwrite s₁ ((s₁.ds + 1) % uintSize) [b] Nat.one_pos
    (by rw [List.length_singleton, hlen₁, hds₁, Nat.mod_eq_of_lt (by omega)]; omega)
  obtain ⟨-, -, hds₂, hkeep₂⟩ := write_inv h₂
  refine ⟨{ s₂ with ds := (s₂.ds + 2) % uintSize }, ?_, ?_,
    hkeep₂.1.trans hkeep₁.1, hkeep₂.2.trans hkeep₁.2⟩
  · rw [SaveState.put, h₁, bind_ok, h₂, map_ok]
  · change (s₂.ds + 2) % uintSize = s.ds + 2
    rw [hds₂, hds₁, Nat.mod_eq_of_lt hsmall]

section

variable {alloc : Nat → Bool} {app1 : Exif} {bytes : List UInt8}

theorem saveApp1_grow (s : SaveState) (hsave : lib.save app1 = some bytes)
    (hfirst : alloc ((s.ds + 2) % uintSize) = true) :
    ∃ s₁, saveApp1 lib (cleanupRealloc alloc) (.exif app1) s =
        ((s₁.putLength s₁.eds).bind fun s => (cleanupRealloc alloc ((s.ds + s.eds) % uintSize) s).bind fun s =>
          (s.copy bytes s.eds).bind fun s => s.freeExif) ∧
      allocated s₁ = (s.ds + 2) % uintSize ∧ s₁.ds = s.ds ∧ s₁.eds = bytes.length % uintSize ∧
        s₁.ed = .live bytes := by
  refine ⟨{ s with
    d := some ((s.d.getD []).resize ((s.ds + 2) % uintSize)),
    ed := .live bytes,
    eds := bytes.length % uintSize }, ?_, Block.length_resize _ _, rfl, rfl, rfl⟩
  simp only [saveApp1, exifDataSaveData, hsave, bind_ok, cleanupRealloc, if_pos hfirst]

theorem saveApp1_put (hsave : lib.save app1 = some bytes) (hfirst : alloc ((s.ds + 2) % uintSize) = true)
    (hsmall : s.ds + 2 < uintSize) :
    ∃ s₂, saveApp1 lib (cleanupRealloc alloc) (.exif app1) s =
        ((cleanupRealloc alloc ((s.ds + 2 + bytes.length % uintSize) % uintSize) s₂).bind fun s =>
          (s.copy bytes s.eds).bind fun s => s.freeExif) ∧ s₂.ed = .live bytes := by
  obtain ⟨s₁, heq, hlen, hds, heds, hed⟩ := saveApp1_grow s hsave hfirst
  rw [Nat.mod_eq_of_lt hsmall, ← hds] at hlen
  rw [← hds] at hsmall
  obtain ⟨s₂, hput, hds₂, hed₂, heds₂⟩ := exists_put (Nat.le_of_eq hlen.symm) hsmall
  refine ⟨s₂, ?_, hed₂.trans hed⟩
  rw [heq, SaveState.putLength, hput, bind_ok, hds₂, hds, heds₂, heds]

theorem noReturn_saveApp1_wraps (hsave : lib.save app1 = some bytes)
    (hfirst : alloc ((s.ds + 2) % uintSize) = true) (hlarge : ¬s.ds + 2 < uintSize) :
    NoReturn (saveApp1 lib (cleanupRealloc alloc) (.exif app1) s) := by
  obtain ⟨s₁, heq, hlen, hds, -⟩ := saveApp1_grow s hsave hfirst
  have hlt := mod_uintSize_lt (s.ds + 2)
  rw [heq]
  cases hput : s₁.putLength s₁.eds with
  | error e =>
    intro s' heq
    cases heq
    exact noReturn_put _ _ _ _ hput
  | ok s₂ =>
    have := (put_inv (by rw [hlen]; exact hlt) hput).1
    omega

theorem freed_iff (hsave : lib.save app1 = some bytes) :
    (∀ s', saveApp1 lib (cleanupRealloc alloc) (.exif app1) s = .ok s' ∨
        saveApp1 lib (cleanupRealloc alloc) (.exif app1) s = .error (.ret s') → ¬s'.ed.Held) ↔
      alloc ((s.ds + 2) % uintSize) = true ∧
        (s.ds + 2 < uintSize → alloc ((s.ds + 2 + bytes.length % uintSize) % uintSize) = true) := by
  have hkept : NoReturn (saveApp1 lib (cleanupRealloc alloc) (.exif app1) s) →
      ∀ s', saveApp1 lib (cleanupRealloc alloc) (.exif app1) s = .ok s' ∨
        saveApp1 lib (cleanupRealloc alloc) (.exif app1) s = .error (.ret s') → ¬s'.ed.Held :=
    fun hno s' h => h.elim not_held_of_saveApp1 fun h => absurd h (hno s')
  by_cases hfirst : alloc ((s.ds + 2) % uintSize) = true
  · by_cases hsmall : s.ds + 2 < uintSize
    · obtain ⟨s₂, heq, hed⟩ := saveApp1_put hsave hfirst hsmall
      by_cases hsecond : alloc ((s.ds + 2 + bytes.length % uintSize) % uintSize) = true
      · refine ⟨fun _ => ⟨hfirst, fun _ => hsecond⟩, fun _ => hkept ?_⟩
        rw [heq, cleanupRealloc, if_pos hsecond]
        exact (noReturn_ok _).bind fun s => (noReturn_copy _ _ _).bind noReturn_freeExif
      · refine ⟨fun h => absurd ⟨bytes, hed⟩ (h { s₂ with d := none } (.inr ?_)),
          fun h => absurd (h.2 hsmall) hsecond⟩
        rw [heq, cleanupRealloc, if_neg hsecond]
        rfl
    · exact ⟨fun _ => ⟨hfirst, fun h => absurd h hsmall⟩,
        fun _ => hkept (noReturn_saveApp1_wraps hsave hfirst hsmall)⟩
  · refine ⟨fun h => absurd ⟨bytes, rfl⟩ (h { s with
      d := none,
      ed := .live bytes,
      eds := bytes.length % uintSize } (.inr ?_)), fun h => absurd h.1 hfirst⟩
    simp only [saveApp1, exifDataSaveData, hsave, bind_ok, cleanupRealloc, if_neg hfirst]
    rfl

end

theorem ownBuffer_iff (alloc : Nat → Bool) (hheld : ¬s.ed.Held) :
    OwnBuffer lib (cleanupRealloc alloc) sec s ↔ Clean lib alloc sec s.ed s.ds := by
  refine ⟨fun h => ⟨own_iff.mp h.own, fun app1 bytes hcontent hsave => ?_⟩,
    fun h => ⟨own_iff.mpr h.content, fun s' hend => ?_⟩⟩
  · have hfreed := h.freed
    rw [hcontent] at hfreed
    exact (freed_iff hsave).mp hfreed
  · by_cases hsave : ∃ app1 bytes, sec.content = .exif app1 ∧ lib.save app1 = some bytes
    · obtain ⟨app1, bytes, hcontent, hsave⟩ := hsave
      have hrealloc := h.realloc app1 bytes hcontent hsave
      rw [hcontent] at hend
      exact (freed_iff hsave).mpr hrealloc s' hend
    · refine hend.elim not_held_of_saveApp1 fun hret => absurd hret (saveApp1_unserialised ?_ hheld s')
      exact fun app1 bytes hcontent hbytes => hsave ⟨app1, bytes, hcontent, hbytes⟩

theorem ownBuffer_noRealloc_iff :
    OwnBuffer lib noRealloc sec s ↔ Clean lib (fun _ => true) sec s.ed s.ds :=
  ⟨fun h => ⟨own_iff.mp h.own, fun _ _ _ _ => ⟨rfl, fun _ => rfl⟩⟩,
    fun h => ⟨own_iff.mpr h.content, fun s' hend => hend.elim not_held_of_saveApp1
      fun hret => absurd hret (noReturn_saveApp1 (fun _ s => noReturn_ok s) _ s')⟩⟩

def KeepsExif (reserve : Reserve) : Prop := ∀ n s s', reserve n s = .ok s' → s'.ed = s.ed

theorem keepsExif_cleanupRealloc (ok : Nat → Bool) : KeepsExif (cleanupRealloc ok) := by
  intro n s s' h
  unfold cleanupRealloc at h
  split at h
  · cases h
    rfl
  · cases h

theorem keepsExif_noRealloc : KeepsExif noRealloc := by
  intro n s s' h
  cases h
  rfl

theorem put_ed {a b : UInt8} (h : s.put a b = .ok s') : s'.ed = s.ed := by
  obtain ⟨s₁, h₁, h⟩ := bind_eq_ok h
  obtain ⟨s₂, h₂, rfl⟩ := map_eq_ok h
  exact (write_inv h₂).2.2.2.1.trans (write_inv h₁).2.2.2.1

theorem copy_ed {src : List UInt8} {n : Nat} (h : s.copy src n = .ok s') : s'.ed = s.ed := by
  obtain ⟨bs, -, h⟩ := bind_eq_ok h
  obtain ⟨s₁, h₁, rfl⟩ := map_eq_ok h
  exact (write_inv h₁).2.2.2.1

theorem saveGeneric_ed (hreserve : KeepsExif reserve) (h : saveGeneric reserve data sec s = .ok s') :
    s'.ed = s.ed := by
  obtain ⟨s₁, s₂, s₃, h₁, h₂, h₃, hend⟩ := saveGeneric_cases h
  have hed : s₃.ed = s.ed := (copy_ed h₃).trans ((put_ed h₂).trans (hreserve _ _ _ h₁))
  rcases hend with ⟨-, s₄, h₄, h₅⟩ | ⟨-, rfl⟩
  · exact (copy_ed h₅).trans ((hreserve _ _ _ h₄).trans hed)
  · exact hed

theorem saveSection_ed (hreserve : KeepsExif reserve) (hheld : ¬s.ed.Held)
    (h : saveSection lib reserve data sec s = .ok s') :
    s'.ed = edAfter lib sec s.ed ∧ ¬s'.ed.Held := by
  obtain ⟨s₁, s₂, h₁, h₂, hend⟩ := saveSection_cases h
  have hed : s₂.ed = s.ed := (put_ed h₂).trans (hreserve _ _ _ h₁)
  unfold edAfter
  rcases hend with ⟨hplain, rfl⟩ | ⟨-, ⟨happ, h₃⟩ | ⟨happ, h₃⟩⟩
  · have happ : sec.marker ≠ APP1 := by
      rintro happ
      rw [happ] at hplain
      exact absurd hplain (by decide)
    rw [if_neg happ, hed]
    exact ⟨rfl, hheld⟩
  · refine ⟨?_, not_held_of_saveApp1 h₃⟩
    rw [if_pos happ]
    obtain ⟨s₀, h₀, hend⟩ := saveApp1_ed h₃
    cases hcontent : sec.content with
    | null =>
      rw [hcontent] at h₀
      cases h₀
      rcases hend with ⟨-, rfl⟩ | ⟨hlive, -⟩
      · exact hed
      · exact absurd (hed ▸ hlive) hheld
    | buffer bytes =>
      rw [hcontent] at h₀
      cases h₀
    | exif app1 =>
      rw [hcontent, exifDataSaveData] at h₀
      cases hsave : lib.save app1 with
      | none =>
        rw [hsave] at h₀
        cases h₀
        rcases hend with ⟨-, rfl⟩ | ⟨hlive, -⟩
        · simp [hsave]
        · exact absurd hlive not_held_null
      | some bytes =>
        rw [hsave] at h₀
        cases h₀
        rcases hend with ⟨hnull, -⟩ | ⟨-, hfreed⟩
        · cases hnull
        · simpa [hsave] using hfreed
  · have hkeep := (saveGeneric_ed hreserve h₃).trans hed
    rw [if_neg happ, hkeep]
    exact ⟨rfl, hheld⟩

theorem saveLoop_ed {reserve : Nat → Reserve} (hreserve : ∀ i, KeepsExif (reserve i))
    {sections : List (JPEGSection Exif)} (i : Nat) (hheld : ¬s.ed.Held)
    (h : saveLoop lib reserve data i sections s = .ok s') :
    s'.ed = sections.foldl (fun ed sec => edAfter lib sec ed) s.ed ∧ ¬s'.ed.Held := by
  induction sections generalizing i s with
  | nil =>
    cases h
    exact ⟨rfl, hheld⟩
  | cons sec sections ih =>
    obtain ⟨s₁, h₁, h⟩ := bind_eq_ok h
    obtain ⟨hed₁, hheld₁⟩ := saveSection_ed (hreserve i) hheld h₁
    rw [List.foldl_cons, ← hed₁]
    exact ih (i + 1) hheld₁ h

theorem Reaches.ed_eq {reserve : Nat → Reserve} {d : Option Block} {k : Nat}
    (hreserve : ∀ i, KeepsExif (reserve i)) (h : Reaches lib reserve data d k sec s) :
    s.ed = edBefore lib (data.sections.take k) ∧ ¬s.ed.Held := by
  obtain ⟨-, s₀, s₁, hloop, hgrow, hput⟩ := h
  have hed : s.ed = s₀.ed := (put_ed hput).trans (hreserve k _ _ _ hgrow)
  rw [hed]
  exact saveLoop_ed hreserve 0 not_held_null hloop

end

/-- The two save functions save every APP1 section from its own buffer exactly where all the APP1
sections they get to are clean. -/
theorem ownBuffers_iff (lib : ExifLib Exif) (data : JPEGData Exif) :
    (∀ (alloc : Nat → Nat → Bool) (d : Option Block),
      OwnBuffers lib (fun i => cleanupRealloc (alloc i)) data d ↔
        ∀ k sec s, Reaches lib (fun i => cleanupRealloc (alloc i)) data d k sec s → sec.marker = APP1 →
          Clean lib (alloc k) sec (edBefore lib (data.sections.take k)) s.ds) ∧
      ∀ d : Block, OwnBuffers lib (fun _ => noRealloc) data (some d) ↔
        ∀ k sec s, Reaches lib (fun _ => noRealloc) data (some d) k sec s → sec.marker = APP1 →
          Clean lib (fun _ => true) sec (edBefore lib (data.sections.take k)) s.ds := by
  refine ⟨fun alloc d => ?_, fun d => ?_⟩
  · refine forall₃_congr fun k sec s => forall_congr' fun hreach => ?_
    obtain ⟨hed, hheld⟩ := hreach.ed_eq fun i => keepsExif_cleanupRealloc (alloc i)
    rw [← hed, ownBuffer_iff (alloc k) hheld]
  · refine forall₃_congr fun k sec s => forall_congr' fun hreach => ?_
    rw [← (hreach.ed_eq fun _ => keepsExif_noRealloc).1, ownBuffer_noRealloc_iff]

def cutApp1 : Input := ⟨[0xff, SOI, 0xff, APP1, 0, 3, 65, 0xff, APP1], by decide⟩

def cutSections : JPEGData (List UInt8) :=
  ⟨[⟨SOI, .null, 0⟩, ⟨APP1, .exif [65], 0⟩, ⟨APP1, .null, 0⟩], none, 0⟩

/-- The buffer of the first APP1 section is used for the second one, where it is freed again. -/
theorem not_ownBuffers_cutApp1 :
    jpegDataLoadData headerExif (fun _ _ => true) cutApp1 jpegDataNew = .ok cutSections ∧
      ¬OwnBuffers headerExif (fun _ => cleanupRealloc fun _ => true) cutSections none ∧
      ¬OwnBuffers headerExif (fun _ => noRealloc) cutSections (some (List.replicate 16 none)) := by
  refine ⟨by decide +kernel, fun h => ?_, fun h => ?_⟩
  · have hown := h 2 _ _ ⟨rfl, _, _, rfl, rfl, rfl⟩ rfl
    exact not_ownBuffer_freed rfl rfl hown
  · have hown := h 2 _ _ ⟨rfl, _, _, rfl, rfl, rfl⟩ rfl
    exact not_ownBuffer_freed rfl rfl hown

end G361FPlatform.Jpeg
