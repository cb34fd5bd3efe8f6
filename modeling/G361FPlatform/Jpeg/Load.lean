import G361FPlatform.Jpeg.RoundLaws
import G361FPlatform.Library.Forward

namespace G361FPlatform.Jpeg

open Library

section

variable (lib : ExifLib Exif) (alloc : Allocs) (d : Input)

/-- `for (o = 0; o < size;)` -/
def loadLoop : Forward (JPEGData Exif) where
  bound := d.1.length
  round := loadRound lib alloc d
  advances := loadRound_lt

def jpegDataLoadData (data : JPEGData Exif) : Except Stuck (JPEGData Exif) :=
  (loadLoop lib alloc d).run 0 data

theorem round_loadLoop : (loadLoop lib alloc d).round = loadRound lib alloc d := rfl

end

variable {lib : ExifLib Exif} {alloc : Allocs} {d : Input} {data : JPEGData Exif}

/-- The range that starts in front of the input. -/
def Underruns (alloc : Allocs) (d : Input) (data : JPEGData Exif) : Prop :=
  LeadingApp1 d.1 ∧ (alloc .section 0 = true ∨ data.sections ≠ [])

/-- The loop ends, without a byte outside the input, unless its first section is an APP1 section
with nothing in front of the marker. -/
theorem loadData_eq (h : ¬Underruns alloc d data) :
    ∃ data', jpegDataLoadData lib alloc d data = .ok data' ∧
      ((∀ o, alloc .section o = true) → data.Sized → data'.Sized) := by
  refine Forward.run_inv (l := loadLoop lib alloc d)
    (I := fun o data' => (o = 0 → data' = data) ∧
      ((∀ o, alloc .section o = true) → data.Sized → data'.Sized)) ?_ ?_ ⟨fun _ => rfl, fun _ hs => hs⟩
  · rintro o data' ho ⟨hfirst, hsized⟩
    rcases loadRound_cases ho with
      ⟨next, data'', heq, hcont⟩ | ⟨-, rfl, happ, hsections⟩
    · have hnext := fun hgrow hs => hcont.sized ⟨hsized hgrow hs, hgrow o⟩
      refine ⟨next, data'', heq, fun _ => hnext, fun o' h => ⟨fun hzero => ?_, hnext⟩⟩
      have := (hcont.bounds o' h).1
      omega
    · rw [hfirst rfl] at hsections
      exact absurd ⟨happ, hsections⟩ h
  · exact fun _ _ _ hI => hI.2

theorem loadData_fault (h : Underruns alloc d data) :
    jpegDataLoadData lib alloc d data = .error .fault := by
  have hround : loadRound lib alloc d 0 data = .error .fault := loadRound_fault h.1 h.2
  rw [← round_loadLoop] at hround
  refine Forward.run_error ?_ hround
  obtain ⟨rest, hd⟩ := List.head?_eq_some_iff.mp h.1.1
  change 0 < d.1.length
  rw [hd]
  exact Nat.succ_pos _

/-- Loading stays in its input whatever the allocations do, but for that one section; and the
recorded sizes are right where the section list can grow. -/
theorem loadData_contained (lib : ExifLib Exif) (alloc : Allocs) (d : Input) {data : JPEGData Exif}
    (hdata : data.Sized) :
    ((∃ data', jpegDataLoadData lib alloc d data = .ok data') ↔ ¬Underruns alloc d data) ∧
      ((∀ o, alloc .section o = true) →
        ((∃ data', jpegDataLoadData lib alloc d data = .ok data' ∧ data'.Sized) ↔ ¬LeadingApp1 d.1)) := by
  have hfault : Underruns alloc d data → ∀ data', jpegDataLoadData lib alloc d data ≠ .ok data' := by
    intro h data' heq
    rw [loadData_fault h] at heq
    cases heq
  refine ⟨⟨?_, fun h => ?_⟩, fun hgrow => ⟨?_, fun h => ?_⟩⟩
  · rintro ⟨data', heq⟩ h
    exact hfault h data' heq
  · obtain ⟨data', heq, -⟩ := loadData_eq h
    exact ⟨data', heq⟩
  · rintro ⟨data', heq, -⟩ h
    exact hfault ⟨h, .inl (hgrow 0)⟩ data' heq
  · obtain ⟨data', heq, hsized⟩ := loadData_eq (mt And.left h)
    exact ⟨data', heq, hsized hgrow hdata⟩

theorem sized_jpegDataNew : (jpegDataNew : JPEGData Exif).Sized := fun _ h => nomatch h

/-- A library for input without an APP1 section. -/
def noExif : ExifLib Unit := ⟨fun _ => (), fun _ => none⟩

/-- SOI, a comment, and an image that was cut off. -/
def shortImage : Input := ⟨[0xff, 0xd8, 0xff, 0xfe, 0, 3, 65, 0xff, 0xda, 0, 2, 1, 2, 3], by decide⟩

theorem loadData_contained_shortImage :
    ((∃ data', jpegDataLoadData noExif (fun _ _ => true) shortImage jpegDataNew = .ok data') ↔
        ¬Underruns (fun _ _ => true) shortImage (jpegDataNew : JPEGData Unit)) ∧
      ((∀ o, (fun _ _ => true : Allocs) .section o = true) →
        ((∃ data', jpegDataLoadData noExif (fun _ _ => true) shortImage jpegDataNew = .ok data' ∧
          data'.Sized) ↔ ¬LeadingApp1 shortImage.1)) :=
  loadData_contained noExif _ shortImage sized_jpegDataNew

/-- An APP1 marker in the first byte, and an empty section. -/
theorem not_loadData_contained : ¬∃ data',
    jpegDataLoadData noExif (fun _ _ => true) ⟨[0xe1, 0, 2], by decide⟩ jpegDataNew = .ok data' ∧
      data'.Sized := by
  rintro ⟨data', heq, -⟩
  rw [loadData_fault ⟨⟨rfl, 0, 2, [], rfl, by decide, by decide⟩, .inl rfl⟩] at heq
  cases heq

end G361FPlatform.Jpeg
