import Mathlib.Data.List.Basic
import G361FPlatform.Jpeg.Data

namespace G361FPlatform.Jpeg

open Library

/-- An `ExifData *` in the union. -/
def Pointer.ofExif : Option Exif → Pointer Exif
  | none => .null
  | some data => .exif data

/-- `exif_data_unref (section->content.app1)` -/
def exifDataUnref : Pointer Exif → Except Stuck Unit
  | .buffer _ => .error .fault
  | _ => .ok ()

namespace JPEGData

/-- `jpeg_data_get_section`: the index of the section, or `none` for NULL. -/
def getSection (data : JPEGData Exif) (marker : UInt8) : Option Nat :=
  data.sections.findIdx? fun s => s.marker == marker

/-- `memmove (&sections[2], &sections[1], sizeof (JPEGSection) * (count - 2))` -/
def shift (data : JPEGData Exif) : JPEGData Exif :=
  { data with sections := data.sections.take 2 ++ (data.sections.drop 1).take (data.sections.length - 2) }

/-- `section->marker = JPEG_MARKER_APP1; section->content.app1 = exif_data;` -/
def setApp1 (i : Nat) (exifData : Option Exif) (data : JPEGData Exif) : JPEGData Exif :=
  { data with sections := data.sections.modify i fun s =>
      { s with marker := APP1, content := .ofExif exifData } }

end JPEGData

/-- `ok` tells if the allocation in `jpeg_data_append_section` succeeds. -/
def jpegDataSetExifData (ok : Bool) (exifData : Option Exif) (data : JPEGData Exif) :
    Except Stuck (JPEGData Exif) :=
  match data.getSection APP1 with
  | none =>
    let data := data.appendSection ok
    if data.sections.length < 2 then .ok data else .ok (data.shift.setApp1 1 exifData)
  | some i =>
    (exifDataUnref ((data.sections[i]?.map JPEGSection.content).getD .null)).map fun _ => data.setApp1 i exifData

/-- Either the first APP1 section holds the ExifData and the others are as they were, or nothing
has changed. -/
def AllOrNothing (exifData : Option Exif) (before after : List (JPEGSection Exif)) : Prop :=
  (∃ pre sec post, after = pre ++ sec :: post ∧ (∀ s ∈ pre, s.marker ≠ APP1) ∧ sec.marker = APP1 ∧
    sec.content = .ofExif exifData ∧
      (before = pre ++ post ∨ ∃ old, old.marker = APP1 ∧ before = pre ++ old :: post)) ∨
  after = before

/-- What the insertion needs: the APP1 section that is replaced holds no bytes; where there is none,
a new one goes behind the first section, or cannot even be tried. -/
def Placeable (ok : Bool) (data : JPEGData Exif) : Prop :=
  match data.sections.find? fun s => s.marker == APP1 with
  | some sec => ∀ bytes, sec.content ≠ .buffer bytes
  | none => if ok then data.sections ≠ [] else data.sections.length < 2

section

variable {data : JPEGData Exif} {ok : Bool}

theorem modify_middle (pre post : List α) (a : α) (f : α → α) :
    (pre ++ a :: post).modify pre.length f = pre ++ f a :: post := by
  induction pre with
  | nil => rfl
  | cons b pre ih =>
    simp only [List.cons_append, List.length_cons, List.modify_succ_cons, ih]

theorem ne_app1_of_find? (h : data.sections.find? (fun s => s.marker == APP1) = none) :
    ∀ s ∈ data.sections, s.marker ≠ APP1 :=
  fun s hs happ => List.find?_eq_none.mp h s hs (beq_iff_eq.mpr happ)

theorem setExifData_none (exifData : Option Exif)
    (h : data.sections.find? (fun s => s.marker == APP1) = none) :
    jpegDataSetExifData ok exifData data =
      if (data.appendSection ok).sections.length < 2 then .ok (data.appendSection ok)
      else .ok ((data.appendSection ok).shift.setApp1 1 exifData) := by
  have hget : data.getSection APP1 = none := by
    rw [JPEGData.getSection, List.findIdx?_eq_none_iff]
    exact fun s hs => beq_false_of_ne (ne_app1_of_find? h s hs)
  rw [jpegDataSetExifData, hget]

theorem setExifData_some (exifData : Option Exif) {sec : JPEGSection Exif}
    (h : data.sections.find? (fun s => s.marker == APP1) = some sec) :
    ∃ pre post, data.sections = pre ++ sec :: post ∧ (∀ s ∈ pre, s.marker ≠ APP1) ∧ sec.marker = APP1 ∧
      jpegDataSetExifData ok exifData data = (exifDataUnref sec.content).map fun _ =>
        { data with sections := pre ++ { sec with marker := APP1, content := .ofExif exifData } :: post } := by
  obtain ⟨happ, pre, post, hsections, hpre⟩ := List.find?_eq_some_iff_append.mp h
  have hnot : ∀ s ∈ pre, s.marker ≠ APP1 := fun s hs heq => by
    have := hpre s hs
    rw [heq] at this
    cases this
  have hget : data.getSection APP1 = some pre.length := by
    rw [JPEGData.getSection, hsections, List.findIdx?_append,
      List.findIdx?_eq_none_iff.mpr fun s hs => beq_false_of_ne (hnot s hs), List.findIdx?_cons, if_pos happ]
    simp
  refine ⟨pre, post, hsections, hnot, beq_iff_eq.mp happ, ?_⟩
  rw [jpegDataSetExifData, hget]
  simp only [JPEGData.setApp1, hsections, List.getElem?_append_right (Nat.le_refl _), Nat.sub_self,
    List.getElem?_cons_zero, Option.map_some, Option.getD_some, modify_middle]

theorem setExifData_some_iff (exifData : Option Exif) {sec : JPEGSection Exif}
    (h : data.sections.find? (fun s => s.marker == APP1) = some sec) :
    (∃ data', jpegDataSetExifData ok exifData data = .ok data' ∧
      AllOrNothing exifData data.sections data'.sections) ↔ ∀ bytes, sec.content ≠ .buffer bytes := by
  obtain ⟨pre, post, hsections, hpre, happ, heq⟩ := @setExifData_some _ data ok exifData sec h
  rw [heq]
  refine ⟨?_, fun hcontent => ?_⟩
  · rintro ⟨data', hok, -⟩ bytes hcontent
    rw [hcontent] at hok
    cases hok
  · have hunref : exifDataUnref sec.content = .ok () := by
      cases hc : sec.content with
      | null => rfl
      | exif data => rfl
      | buffer bytes => exact absurd hc (hcontent bytes)
    rw [hunref, map_ok]
    exact ⟨_, rfl, .inl ⟨pre, _, post, rfl, hpre, rfl, rfl, .inr ⟨sec, happ, hsections⟩⟩⟩

theorem not_allOrNothing {exifData : Option Exif} {before after : List (JPEGSection Exif)}
    (hbefore : ∀ s ∈ before, s.marker ≠ APP1) (hne : after ≠ before) (hlen : after.length ≤ before.length) :
    ¬AllOrNothing exifData before after := by
  rintro (⟨pre, sec, post, rfl, -, -, -, rfl | ⟨old, hold, rfl⟩⟩ | heq)
  · simp only [List.length_append, List.length_cons] at hlen
    omega
  · exact hbefore old (List.mem_append_right _ List.mem_cons_self) hold
  · exact hne heq

theorem sections_insert (exifData : Option Exif) {first second : JPEGSection Exif}
    {rest init : List (JPEGSection Exif)} {last : JPEGSection Exif}
    (h : data.sections = first :: second :: rest) (hlast : second :: rest = init ++ [last]) :
    (data.shift.setApp1 1 exifData).sections =
      first :: { second with marker := APP1, content := .ofExif exifData } :: init := by
  have hlen : rest.length = init.length := by
    have := congrArg List.length hlast
    rw [List.length_append, List.length_cons, List.length_singleton] at this
    omega
  have hinit : (second :: rest).take rest.length = init := by
    rw [hlen, hlast, List.take_left]
  rw [JPEGData.setApp1, JPEGData.shift, h]
  change ([first, second] ++ (second :: rest).take rest.length).modify 1 _ = _
  rw [hinit]
  rfl

theorem setExifData_none_iff (exifData : Option Exif)
    (h : data.sections.find? (fun s => s.marker == APP1) = none) :
    (∃ data', jpegDataSetExifData ok exifData data = .ok data' ∧
      AllOrNothing exifData data.sections data'.sections) ↔
        if ok then data.sections ≠ [] else data.sections.length < 2 := by
  have hnot := ne_app1_of_find? h
  rw [setExifData_none exifData h]
  cases ok with
  | false =>
    rw [if_neg Bool.false_ne_true, JPEGData.appendSection, if_neg Bool.false_ne_true]
    split
    next hshort => exact ⟨fun _ => hshort, fun _ => ⟨data, rfl, .inr rfl⟩⟩
    next hlong =>
      refine ⟨?_, fun hshort => absurd hshort hlong⟩
      rintro ⟨data', hok, hall⟩
      cases hok
      match hdata : data.sections with
      | [] => rw [hdata] at hlong; exact absurd Nat.two_pos hlong
      | [first] => rw [hdata] at hlong; exact absurd Nat.one_lt_two hlong
      | first :: second :: rest =>
        -- the last section is lost
        obtain ⟨init, last, hlast⟩ :=
          (List.eq_nil_or_concat' (second :: rest)).resolve_left (List.cons_ne_nil second rest)
        rw [sections_insert exifData hdata hlast] at hall
        refine absurd hall (not_allOrNothing hnot (fun heq => ?_) ?_)
        · rw [hdata, List.cons_inj_right] at heq
          refine hnot second ?_ (congrArg JPEGSection.marker (List.cons.inj heq).1).symm
          rw [hdata]
          exact List.mem_cons_of_mem _ List.mem_cons_self
        · rw [hdata, hlast, List.length_cons, List.length_cons, List.length_cons, List.length_append]
          exact Nat.le_refl _
  | true =>
    rw [if_pos rfl, JPEGData.appendSection, if_pos rfl]
    match hdata : data.sections with
    | [] =>
      refine ⟨?_, fun hne => absurd rfl hne⟩
      rintro ⟨data', hok, hall⟩
      -- one section of zeroes is left
      change Except.ok { data with sections := [(⟨0, .null, 0⟩ : JPEGSection Exif)] } = .ok data' at hok
      cases hok
      rcases hall with ⟨pre, sec, post, hafter, -, happ, -⟩ | heq
      · have hzero : sec ∈ pre ++ sec :: post := List.mem_append_right _ List.mem_cons_self
        rw [← hafter] at hzero
        rw [List.mem_singleton.mp hzero] at happ
        exact absurd happ (show (0 : UInt8) ≠ APP1 by decide)
      · cases heq
    | first :: tail =>
      refine ⟨fun _ => List.cons_ne_nil _ _, fun _ => ?_⟩
      obtain ⟨second, rest, hsecond⟩ : ∃ second rest,
          tail ++ [(⟨0, .null, 0⟩ : JPEGSection Exif)] = second :: rest :=
        List.exists_cons_of_ne_nil (by simp)
      have hlong : ¬(first :: tail ++ [(⟨0, .null, 0⟩ : JPEGSection Exif)]).length < 2 := by
        rw [List.length_append, List.length_cons, List.length_singleton]
        omega
      rw [if_neg hlong]
      refine ⟨_, rfl, .inl ⟨[first], { second with marker := APP1, content := .ofExif exifData }, tail, ?_,
        fun s hs => ?_, rfl, rfl, .inl rfl⟩⟩
      · exact sections_insert exifData (congrArg (first :: ·) hsecond) hsecond.symm
      · rw [List.mem_singleton.mp hs]
        exact hnot first (hdata ▸ List.mem_cons_self)

end

/-- Setting the ExifData is all or nothing exactly where it can be placed. -/
theorem setExifData_allOrNothing (ok : Bool) (exifData : Option Exif) (data : JPEGData Exif) :
    (∃ data', jpegDataSetExifData ok exifData data = .ok data' ∧
      AllOrNothing exifData data.sections data'.sections) ↔ Placeable ok data := by
  unfold Placeable
  split
  next sec h => exact setExifData_some_iff exifData h
  next h => exact setExifData_none_iff exifData h

/-- SOI, a comment and EOI; the list cannot grow. -/
def threeSections : JPEGData Unit :=
  ⟨[⟨SOI, .null, 0⟩, ⟨COM, .buffer [65], 1⟩, ⟨EOI, .null, 0⟩], none, 0⟩

/-- EOI is lost and the comment overwritten. -/
theorem not_setExifData_allOrNothing :
    jpegDataSetExifData false (some ()) threeSections =
        .ok { threeSections with
          sections := [⟨SOI, .null, 0⟩, ⟨APP1, .exif (), 1⟩, ⟨COM, .buffer [65], 1⟩] } ∧
      ¬∃ data', jpegDataSetExifData false (some ()) threeSections = .ok data' ∧
        AllOrNothing (some ()) threeSections.sections data'.sections := by
  refine ⟨by decide, ?_⟩
  rintro ⟨data', heq, hall⟩
  cases heq
  exact not_allOrNothing (by decide) (by decide) (by decide) hall

end G361FPlatform.Jpeg
