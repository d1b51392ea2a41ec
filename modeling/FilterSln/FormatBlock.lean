import FilterSln.SourceType
import FilterSln.Transform
import FilterSln.Lib.Peek
/-!
# Reading the format block

The three functions that read through the format pointer of a type proposed by a
neighbour, as the machine runs them: the pointer is followed whatever `cbFormat`
says. On the block alone they are the functions of the model, which stop at its
end (`checked_CheckInputType` and the others).

The last field that any of them reads ends at offset 64. `CheckMediaType` looks
for a null pointer first, `CheckInputType` does not, and none looks at `cbFormat`
(`format_reads_inside_iff`).
-/

namespace FilterSln

open HRESULT Lib

/-! ## The readers -/

def peekWORD (off : Nat) : Peek BYTE WORD := do
  let b0 ← Peek.get off
  let b1 ← Peek.get (off + 1)
  pure (b1.toBitVec ++ b0.toBitVec)

def peekLONG (off : Nat) : Peek BYTE LONG := do
  let lo ← peekWORD off
  let hi ← peekWORD (off + 2)
  pure (Int32.ofBitVec (hi ++ lo))

@[simp] theorem checked_peekWORD (p : List BYTE) (off : Nat) : (peekWORD off).checked p = readWORD p off := by
  simp [peekWORD, readWORD, Option.bind_eq_bind]

@[simp] theorem checked_peekLONG (p : List BYTE) (off : Nat) : (peekLONG off).checked p = readLONG p off := by
  simp [peekLONG, readLONG, Option.bind_eq_bind]

namespace VIDEOINFOHEADER

def peekWidth : Peek BYTE LONG := peekLONG 52
def peekHeight : Peek BYTE LONG := peekLONG 56
def peekBitCount : Peek BYTE WORD := peekWORD 62

@[simp] theorem checked_peekWidth (p : List BYTE) : peekWidth.checked p = biWidth p := checked_peekLONG p 52
@[simp] theorem checked_peekHeight (p : List BYTE) : peekHeight.checked p = biHeight p := checked_peekLONG p 56
@[simp] theorem checked_peekBitCount (p : List BYTE) : peekBitCount.checked p = biBitCount p := checked_peekWORD p 62

theorem biBitCount_isSome {p : List BYTE} : (biBitCount p).isSome = true ↔ 64 ≤ p.length := readWORD_isSome

/-- A block that long has all three fields. -/
theorem fields_of_length {p : List BYTE} (hlen : 64 ≤ p.length) :
    ∃ w h n, biWidth p = some w ∧ biHeight p = some h ∧ biBitCount p = some n := by
  obtain ⟨w, hw⟩ := Option.isSome_iff_exists.1 (readLONG_isSome.2 (show 52 + 4 ≤ p.length by omega))
  obtain ⟨h, hh⟩ := Option.isSome_iff_exists.1 (readLONG_isSome.2 (show 56 + 4 ≤ p.length by omega))
  obtain ⟨n, hn⟩ := Option.isSome_iff_exists.1 (biBitCount_isSome.2 hlen)
  exact ⟨w, h, n, hw, hh, hn⟩

end VIDEOINFOHEADER

open VIDEOINFOHEADER

/-- `CFlipFilter::CheckInputType` through the pointer. -/
def CFlipFilter.peekCheckInputType (mtIn : CMediaType) : Peek BYTE HRESULT :=
  if mtIn.majortype ≠ .MEDIATYPE_Video ∨ mtIn.subtype ≠ .MEDIASUBTYPE_RGB24 ∨
      mtIn.formattype ≠ .FORMAT_VideoInfo then
    pure VFW_E_TYPE_NOT_ACCEPTED
  else do
    let biBitCount ← peekBitCount
    if biBitCount ≠ 24 then pure VFW_E_TYPE_NOT_ACCEPTED else pure S_OK

/-- `CMyOutputPin::CheckMediaType` through the pointer, which is null for a type
without a format block. -/
def CMyOutputPin.peekCheckMediaType (pin : CMyOutputPin) (pMediaType : CMediaType) : Peek BYTE HRESULT :=
  if pMediaType.majortype ≠ .MEDIATYPE_Video ∨ !pMediaType.IsFixedSize then pure E_INVALIDARG
  else if pMediaType.subtype ≠ .MEDIASUBTYPE_RGB32 then pure E_INVALIDARG
  else if pMediaType.formattype ≠ .FORMAT_VideoInfo then pure E_INVALIDARG
  else if pMediaType.pbFormat = [] then pure E_INVALIDARG
  else do
    let biBitCount ← peekBitCount
    if biBitCount ≠ 32 then pure E_INVALIDARG
    else
      let biWidth ← peekWidth
      if biWidth ≠ pin.m_nWidth then pure E_INVALIDARG
      else
        let biHeight ← peekHeight
        if biHeight ≠ pin.m_nHeight then pure E_INVALIDARG else pure S_OK

/-- What `CFlipFilter::Transform` reads in the copy of the type. The loop reads
`biHeight` again in every round and finds the same. -/
def CFlipFilter.peekPictureCopies : Peek BYTE (List CopyCall) := do
  let biWidth ← peekWidth
  let biBitCount ← peekBitCount
  let biHeight ← peekHeight
  let nWidth := Int32.ofBitVec (WIDTHBYTES (biWidth * Int32.ofBitVec (biBitCount.setWidth 32)))
  pure (rowCopies nWidth biHeight)

/-! ## On the block alone they are the functions of the model -/

variable {pin : CMyOutputPin} {mt : CMediaType}

theorem checked_CheckInputType (mt : CMediaType) :
    (CFlipFilter.peekCheckInputType mt).checked mt.pbFormat = CFlipFilter.CheckInputType mt := by
  unfold CFlipFilter.peekCheckInputType CFlipFilter.CheckInputType
  split
  · rfl
  · rw [Peek.checked_bind, checked_peekBitCount]
    refine Option.bind_congr fun n _ => ?_
    split <;> rfl

theorem checked_CheckMediaType (pin : CMyOutputPin) (mt : CMediaType) :
    (pin.peekCheckMediaType mt).checked mt.pbFormat = pin.CheckMediaType mt := by
  unfold CMyOutputPin.peekCheckMediaType CMyOutputPin.CheckMediaType
  by_cases hg : mt.majortype ≠ .MEDIATYPE_Video ∨ (!mt.IsFixedSize) = true
  · rw [if_pos hg, if_pos hg, Peek.checked_pure]
  rw [if_neg hg, if_neg hg]
  by_cases h2 : mt.subtype ≠ .MEDIASUBTYPE_RGB32
  · rw [if_pos h2, if_pos h2, Peek.checked_pure]
  rw [if_neg h2, if_neg h2]
  by_cases h3 : mt.formattype ≠ .FORMAT_VideoInfo
  · rw [if_pos h3, if_pos h3, Peek.checked_pure]
  rw [if_neg h3, if_neg h3]
  by_cases h4 : mt.pbFormat = []
  · rw [if_pos h4, if_pos h4, Peek.checked_pure]
  rw [if_neg h4, if_neg h4, Peek.checked_bind, checked_peekBitCount]
  refine Option.bind_congr fun n _ => ?_
  split
  · rfl
  · rw [Peek.checked_bind, checked_peekWidth]
    refine Option.bind_congr fun w _ => ?_
    split
    · rfl
    · rw [Peek.checked_bind, checked_peekHeight]
      refine Option.bind_congr fun h _ => ?_
      split <;> rfl

theorem checked_pictureCopies (p : List BYTE) : CFlipFilter.peekPictureCopies.checked p = pictureCopies p := by
  simp [CFlipFilter.peekPictureCopies, pictureCopies, Option.bind_eq_bind]

/-! ## When the block is long enough -/

/-- A video type of this subtype with a `VIDEOINFOHEADER`. -/
def CMediaType.IsVideo (mt : CMediaType) (subtype : GUID) : Prop :=
  mt.majortype = .MEDIATYPE_Video ∧ mt.subtype = subtype ∧ mt.formattype = .FORMAT_VideoInfo

theorem CheckInputType_isSome :
    (CFlipFilter.CheckInputType mt).isSome = true ↔ (mt.IsVideo .MEDIASUBTYPE_RGB24 → 64 ≤ mt.cbFormat) := by
  unfold CFlipFilter.CheckInputType CMediaType.IsVideo CMediaType.cbFormat
  rw [← biBitCount_isSome]
  split
  · rename_i hg
    simp only [Option.isSome_some, true_iff]
    rintro ⟨h1, h2, h3⟩
    simp [h1, h2, h3] at hg
  · rename_i hg
    simp only [not_or, not_not] at hg
    cases hn : biBitCount mt.pbFormat with
    | none => simp [hg]
    | some n =>
      have hret : (if n ≠ 24 then some VFW_E_TYPE_NOT_ACCEPTED else some S_OK).isSome = true := by
        split <;> rfl
      simpa using hret

theorem CheckInputType_accepts (hvideo : mt.IsVideo .MEDIASUBTYPE_RGB24) (h24 : biBitCount mt.pbFormat = some 24) :
    CFlipFilter.CheckInputType mt = some S_OK := by
  obtain ⟨h1, h2, h3⟩ := hvideo
  simp [CFlipFilter.CheckInputType, h1, h2, h3, h24]

/-- The type has passed the tests before the first read. -/
def Headed (mt : CMediaType) : Prop :=
  mt.IsVideo .MEDIASUBTYPE_RGB32 ∧ mt.IsFixedSize = true ∧ mt.pbFormat ≠ []

theorem CheckMediaType_headed (h : Headed mt) :
    (pin.CheckMediaType mt).isSome = true ↔ 64 ≤ mt.cbFormat := by
  obtain ⟨⟨h1, h2, h3⟩, hfixed, hne⟩ := h
  have hg : ¬ (mt.majortype ≠ .MEDIATYPE_Video ∨ (!mt.IsFixedSize) = true) := by
    rw [h1, hfixed]
    decide
  unfold CMyOutputPin.CheckMediaType
  rw [if_neg hg, if_neg (not_not.2 h2), if_neg (not_not.2 h3), if_neg hne]
  constructor
  · intro h
    by_contra hlt
    have hnone : biBitCount mt.pbFormat = none := by
      rw [← Option.not_isSome_iff_eq_none, biBitCount_isSome]
      exact hlt
    rw [hnone] at h
    exact Bool.false_ne_true h
  · intro h
    obtain ⟨w, h, n, hw, hh, hn⟩ := fields_of_length h
    simp only [hw, hh, hn, Option.bind_eq_bind, Option.bind_some]
    repeat' split
    all_goals rfl

/-- A type that does not reach the first read is refused. -/
theorem CheckMediaType_not_headed (h : ¬ Headed mt) : pin.CheckMediaType mt = some E_INVALIDARG := by
  unfold CMyOutputPin.CheckMediaType
  by_cases hg : mt.majortype ≠ .MEDIATYPE_Video ∨ (!mt.IsFixedSize) = true
  · rw [if_pos hg]
  rw [if_neg hg]
  by_cases h2 : mt.subtype ≠ .MEDIASUBTYPE_RGB32
  · rw [if_pos h2]
  rw [if_neg h2]
  by_cases h3 : mt.formattype ≠ .FORMAT_VideoInfo
  · rw [if_pos h3]
  rw [if_neg h3]
  by_cases h4 : mt.pbFormat = []
  · rw [if_pos h4]
  obtain ⟨h1, hfixed⟩ := not_or.1 hg
  rw [Bool.not_eq_true, Bool.not_eq_false'] at hfixed
  exact absurd ⟨⟨not_not.1 h1, not_not.1 h2, not_not.1 h3⟩, hfixed, h4⟩ h

theorem CheckMediaType_isSome :
    (pin.CheckMediaType mt).isSome = true ↔
      (mt.IsVideo .MEDIASUBTYPE_RGB32 → mt.IsFixedSize = true → mt.cbFormat = 0 ∨ 64 ≤ mt.cbFormat) := by
  have hnil : mt.pbFormat = [] ↔ mt.cbFormat = 0 := List.length_eq_zero_iff.symm
  by_cases hg : Headed mt
  · rw [CheckMediaType_headed hg]
    exact ⟨fun h _ _ => .inr h, fun h => (h hg.1 hg.2.1).resolve_left fun h0 => hg.2.2 (hnil.2 h0)⟩
  · rw [CheckMediaType_not_headed hg]
    refine ⟨fun _ hvideo hfixed => .inl ?_, fun _ => rfl⟩
    by_contra h0
    exact hg ⟨hvideo, hfixed, fun hempty => h0 (hnil.1 hempty)⟩

theorem pictureCopies_isSome {p : List BYTE} : (pictureCopies p).isSome = true ↔ 64 ≤ p.length := by
  constructor
  · intro h
    obtain ⟨calls, h⟩ := Option.isSome_iff_exists.1 h
    simp only [pictureCopies, Option.bind_eq_bind, Option.bind_eq_some_iff] at h
    obtain ⟨w, -, n, hn, -⟩ := h
    exact biBitCount_isSome.1 (Option.isSome_iff_exists.2 ⟨n, hn⟩)
  · intro h
    obtain ⟨w, h, n, hw, hh, hn⟩ := fields_of_length h
    simp [pictureCopies, hw, hh, hn]

/-! ## The reads stay inside the block -/

/-- The three functions read only offsets of the format block, `Transform` those
of its copy, for a type that passed the check. -/
structure FormatReadsInside (CoTaskMemAlloc : Bool) (pin : CMyOutputPin) (mt : CMediaType) : Prop where
  flip : (CFlipFilter.peekCheckInputType mt).ReadsInside mt.pbFormat
  source : (pin.peekCheckMediaType mt).ReadsInside mt.pbFormat
  transform : ∀ mem, Peek.Extends mem mt.pbFormat → ((CFlipFilter.peekCheckInputType mt).run mem).1 = S_OK →
    CFlipFilter.peekPictureCopies.ReadsInside (CMediaType.Set CoTaskMemAlloc mt).1.pbFormat

/-- The copy of a type has a header to read exactly when there was memory for it
and the type has one. -/
theorem Set_header {CoTaskMemAlloc : Bool} :
    64 ≤ (CMediaType.Set CoTaskMemAlloc mt).1.pbFormat.length ↔ CoTaskMemAlloc = true ∧ 64 ≤ mt.cbFormat := by
  cases CoTaskMemAlloc with
  | true => simp [Set_true, CMediaType.cbFormat]
  | false =>
    by_cases h0 : mt.cbFormat ≠ 0
    · simp [CMediaType.Set, CMediaType.CopyMediaType, h0, FAILED, SUCCEEDED]
    · have hlen : mt.pbFormat.length = 0 := by simpa [CMediaType.cbFormat] using h0
      simp [CMediaType.Set, CMediaType.CopyMediaType, h0, hlen]

theorem format_reads_inside_iff (CoTaskMemAlloc : Bool) (pin : CMyOutputPin) (mt : CMediaType) :
    FormatReadsInside CoTaskMemAlloc pin mt ↔
      (mt.IsVideo .MEDIASUBTYPE_RGB24 → 64 ≤ mt.cbFormat) ∧
      (mt.IsVideo .MEDIASUBTYPE_RGB32 → mt.IsFixedSize = true → mt.cbFormat = 0 ∨ 64 ≤ mt.cbFormat) ∧
      (mt.IsVideo .MEDIASUBTYPE_RGB24 → biBitCount mt.pbFormat = some 24 → CoTaskMemAlloc = true) := by
  have hflip : (CFlipFilter.peekCheckInputType mt).ReadsInside mt.pbFormat ↔
      (mt.IsVideo .MEDIASUBTYPE_RGB24 → 64 ≤ mt.cbFormat) := by
    rw [Peek.readsInside_iff, checked_CheckInputType, CheckInputType_isSome]
  have hsource : (pin.peekCheckMediaType mt).ReadsInside mt.pbFormat ↔
      (mt.IsVideo .MEDIASUBTYPE_RGB32 → mt.IsFixedSize = true → mt.cbFormat = 0 ∨ 64 ≤ mt.cbFormat) := by
    rw [Peek.readsInside_iff, checked_CheckMediaType, CheckMediaType_isSome]
  have htransform : CFlipFilter.peekPictureCopies.ReadsInside (CMediaType.Set CoTaskMemAlloc mt).1.pbFormat ↔
      CoTaskMemAlloc = true ∧ 64 ≤ mt.cbFormat := by
    rw [Peek.readsInside_iff, checked_pictureCopies, pictureCopies_isSome, Set_header]
  constructor
  · intro h
    refine ⟨hflip.1 h.flip, hsource.1 h.source, fun hvideo h24 => ?_⟩
    have haccept : (CFlipFilter.peekCheckInputType mt).checked mt.pbFormat = some S_OK := by
      rw [checked_CheckInputType]
      exact CheckInputType_accepts hvideo h24
    obtain ⟨mem, hmem⟩ := Peek.Extends.exists mt.pbFormat
    exact (htransform.1 (h.transform mem hmem (Peek.run_of_checked hmem haccept))).1
  · rintro ⟨h1, h2, h3⟩
    refine ⟨hflip.2 h1, hsource.2 h2, fun mem hmem hok => htransform.2 ?_⟩
    -- Inside the block the machine's result is the model's.
    obtain ⟨hr, hchecked⟩ := Option.isSome_iff_exists.1 (Peek.readsInside_iff.1 (hflip.2 h1))
    rw [Peek.run_of_checked hmem hchecked] at hok
    rw [hok, checked_CheckInputType] at hchecked
    obtain ⟨hmajor, hsub, hformat, h24⟩ := CFlipFilter.CheckInputType_ok hchecked
    exact ⟨h3 ⟨hmajor, hsub, hformat⟩ h24, h1 ⟨hmajor, hsub, hformat⟩⟩

/-- A picture type without a format block. -/
def nullFormat : CMediaType where
  majortype := .MEDIATYPE_Video
  subtype := .MEDIASUBTYPE_RGB24
  bFixedSizeSamples := true
  bTemporalCompression := false
  lSampleSize := 1
  formattype := .FORMAT_VideoInfo
  pbFormat := []

/-- `CheckInputType` reads offset 62 behind a null pointer, whatever lies there. -/
theorem null_format_dereferenced :
    nullFormat.cbFormat = 0 ∧ (∀ mem, 62 ∈ ((CFlipFilter.peekCheckInputType nullFormat).run mem).2) ∧
      ¬ FormatReadsInside true CMyOutputPin.equalFiles.1 nullFormat := by
  have hread : ∀ mem, 62 ∈ ((CFlipFilter.peekCheckInputType nullFormat).run mem).2 := fun mem => List.mem_cons_self
  refine ⟨rfl, hread, fun h => ?_⟩
  exact absurd (h.flip (fun _ => 0) (fun i b hb => by simp [nullFormat] at hb) 62 (hread _)) (by decide)

end FilterSln
