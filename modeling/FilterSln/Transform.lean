import FilterSln.Control
import FilterSln.Memory
import FilterSln.Lib.Rows
import FilterSln.Lib.Words
/-!
# `Transform` of the two filters

`CFlipFilter::Transform` copies the picture row by row in opposite order,
`CMyFilter::Transform` copies the buffer and appends the output buffer to a dump
file. Both then copy times, flags and the data length of the sample, in the same
words (`copyMetadata`). A result `none` is a read outside the format block or a
copy that leaves one of the two buffers, which never overlap.
-/

namespace FilterSln

open HRESULT Lib

variable {α : Type}

/-! ## Times, flags and length -/

/-- A flag set from the answer of the input sample, which must be yes or no. -/
def copyFlag (answer : HRESULT) (set : Bool → CMediaSample) : Option CMediaSample :=
  if answer = S_OK then some (set true)
  else if answer = S_FALSE then some (set false)
  else none

def copyTimes (pIn : IMediaSample) (pOut : CMediaSample) : CMediaSample :=
  let pOut := match pIn.GetTime with
    | (.S_OK, some (TimeStart, TimeEnd)) => pOut.SetTime TimeStart TimeEnd
    | _ => pOut
  match pIn.GetMediaTime with
  | (.S_OK, some (MediaStart, MediaEnd)) => pOut.SetMediaTime MediaStart MediaEnd
  | _ => pOut

/-- The part of `Transform` after the picture. The result of
`SetActualDataLength` is dropped. -/
def copyMetadata (pIn : IMediaSample) (pOut : CMediaSample) : CMediaSample × HRESULT :=
  let pOut := copyTimes pIn pOut
  match copyFlag pIn.IsSyncPoint pOut.SetSyncPoint with
  | none => (pOut, E_UNEXPECTED)
  | some pOut =>
    match copyFlag pIn.IsPreroll pOut.SetPreroll with
    | none => (pOut, E_UNEXPECTED)
    | some pOut =>
      match copyFlag pIn.IsDiscontinuity pOut.SetDiscontinuity with
      | none => (pOut, E_UNEXPECTED)
      | some pOut => ((pOut.SetActualDataLength pIn.GetActualDataLength).1, NOERROR)

/-! ## The flip filter -/

/-- `WIDTHBYTES(bits)`. -/
def WIDTHBYTES (bits : LONG) : DWORD := ((bits + 31).toBitVec &&& ~~~31#32) / 8#32

/-- The copies of the row loop. -/
def rowCopies (nWidth biHeight : LONG) : List CopyCall :=
  (List.range biHeight.toInt.toNat).map fun i =>
    { dest := (nWidth * Int32.ofNat i).toInt
      src := (nWidth * (biHeight - Int32.ofNat i - 1)).toInt
      len := nWidth.toInt.toNat }

/-- The row loop for a format block. -/
def pictureCopies (pvi : List BYTE) : Option (List CopyCall) := do
  let biWidth ← VIDEOINFOHEADER.biWidth pvi
  let biBitCount ← VIDEOINFOHEADER.biBitCount pvi
  let biHeight ← VIDEOINFOHEADER.biHeight pvi
  let nWidth := Int32.ofBitVec (WIDTHBYTES (biWidth * Int32.ofBitVec (biBitCount.setWidth 32)))
  some (rowCopies nWidth biHeight)

/-- `CoTaskMemAlloc` is whether the copy of the current media type gets its
format block. -/
def CFlipFilter.Transform (CoTaskMemAlloc : Bool) (f : CTransformFilter α) (pIn : IMediaSample)
    (pOut : CMediaSample) : Option (CMediaSample × HRESULT) := do
  let pMediaType1 := (CMediaType.Set CoTaskMemAlloc f.m_pInput.m_mt).1
  let calls ← pictureCopies pMediaType1.pbFormat
  let m_pBuffer ← pOut.m_pBuffer.copyFrom pIn.GetPointer calls
  some (copyMetadata pIn { pOut with m_pBuffer })

/-! ## The dump filter -/

/-- Whether opening the dump file, moving to its end and writing to it succeed. -/
structure FileEnv where
  CreateFile : Bool
  SetFilePointer : Bool
  WriteFile : Bool

/-- The file after one dump of `data`. A failed seek leaves the position at the
start of the file. -/
def appendToFile (env : FileEnv) (file data : List BYTE) : List BYTE :=
  if env.CreateFile ∧ env.WriteFile then
    splice file (if env.SetFilePointer then file.length else 0) data
  else file

/-- The one copy of the picture. -/
def bufferCopy (pIn : IMediaSample) : CopyCall :=
  let lSourceSize := pIn.GetSize
  ⟨0, 0, lSourceSize.toInt.toNat⟩

def CMyFilter.Transform (env : FileEnv) (pIn : IMediaSample) (pOut : CMediaSample) (file : List BYTE) :
    Option (CMediaSample × HRESULT × List BYTE) := do
  let m_pBuffer ← pOut.m_pBuffer.copyFrom pIn.GetPointer [bufferCopy pIn]
  let (pOut, hr) := copyMetadata pIn { pOut with m_pBuffer }
  if hr ≠ NOERROR then some (pOut, hr, file)
  else
    let data := pOut.m_pBuffer.bytes.take pOut.m_cbBuffer.toInt.toNat
    some (pOut, NOERROR, appendToFile env file data)

/-! ## The virtual call -/

/-- What the system answers during one `Transform`. -/
structure TransformEnv where
  CoTaskMemAlloc : Bool
  file : FileEnv

def Filter.Transform (c : Filter) (env : TransformEnv) (f : CTransformFilter α) (pIn : IMediaSample)
    (pOut : CMediaSample) (file : List BYTE) : Option (CMediaSample × HRESULT × List BYTE) :=
  match c with
  | CFlipFilter => (CFlipFilter.Transform env.CoTaskMemAlloc f pIn pOut).map fun (pOut, hr) => (pOut, hr, file)
  | CMyFilter => CMyFilter.Transform env.file pIn pOut file

/-! ## What the copy of the metadata does -/

/-- A sample that differs from `s` in nothing but times, flags and length. -/
structure SameBuffer (s t : CMediaSample) : Prop where
  m_pBuffer : t.m_pBuffer = s.m_pBuffer
  m_cRef : t.m_cRef = s.m_cRef
  m_dwStreamId : t.m_dwStreamId = s.m_dwStreamId

theorem SameBuffer.refl (s : CMediaSample) : SameBuffer s s := ⟨rfl, rfl, rfl⟩

theorem SameBuffer.trans {s t u : CMediaSample} (h : SameBuffer s t) (h' : SameBuffer t u) : SameBuffer s u :=
  ⟨h'.m_pBuffer.trans h.m_pBuffer, h'.m_cRef.trans h.m_cRef, h'.m_dwStreamId.trans h.m_dwStreamId⟩

theorem copyTimes_buffer (pIn : IMediaSample) (pOut : CMediaSample) : SameBuffer pOut (copyTimes pIn pOut) := by
  unfold copyTimes
  dsimp only
  split <;> split <;> exact ⟨rfl, rfl, rfl⟩

theorem copyFlag_buffer {answer : HRESULT} {s t : CMediaSample} {a : SampleFlag}
    (h : copyFlag answer (fun b => s.assignFlag a b) = some t) : SameBuffer s t := by
  unfold copyFlag at h
  split at h
  · cases h; exact ⟨rfl, rfl, rfl⟩
  · split at h <;> cases h
    exact ⟨rfl, rfl, rfl⟩

theorem SetActualDataLength_buffer (s : CMediaSample) (l : LONG) : SameBuffer s (s.SetActualDataLength l).1 := by
  unfold CMediaSample.SetActualDataLength
  split <;> exact ⟨rfl, rfl, rfl⟩

theorem copyMetadata_buffer (pIn : IMediaSample) (pOut : CMediaSample) :
    SameBuffer pOut (copyMetadata pIn pOut).1 := by
  have h0 := copyTimes_buffer pIn pOut
  unfold copyMetadata
  dsimp only
  split
  · exact h0
  · rename_i s1 h1
    have h1 := h0.trans (copyFlag_buffer h1)
    split
    · exact h1
    · rename_i s2 h2
      have h2 := h1.trans (copyFlag_buffer h2)
      split
      · exact h2
      · rename_i s3 h3
        exact (h2.trans (copyFlag_buffer h3)).trans (SetActualDataLength_buffer s3 _)

theorem copyFlag_yesNo (b : Bool) (set : Bool → CMediaSample) : copyFlag (yesNo b) set = some (set b) := by
  cases b <;> rfl

theorem copyFlag_eq_some {answer : HRESULT} {set : Bool → CMediaSample} {s : CMediaSample}
    (h : copyFlag answer set = some s) : ∃ b, answer = yesNo b ∧ s = set b := by
  unfold copyFlag at h
  split at h
  · rename_i hyes
    cases h
    exact ⟨true, hyes, rfl⟩
  · split at h
    · rename_i hno
      cases h
      exact ⟨false, hno, rfl⟩
    · cases h

/-- The answers about the three flags that `Transform` copies are yes or no. -/
def IMediaSample.Answers (pSample : IMediaSample) : Prop :=
  ∃ sync preroll discontinuity, pSample.IsSyncPoint = yesNo sync ∧ pSample.IsPreroll = yesNo preroll ∧
    pSample.IsDiscontinuity = yesNo discontinuity

/-- The output sample after the copy of the metadata, from the answers about the flags. -/
def withMetadata (pIn : IMediaSample) (pOut : CMediaSample) (sync preroll discontinuity : Bool) : CMediaSample :=
  (((((copyTimes pIn pOut).SetSyncPoint sync).SetPreroll preroll).SetDiscontinuity discontinuity).SetActualDataLength
    pIn.GetActualDataLength).1

theorem copyMetadata_answered {pIn : IMediaSample} {pOut : CMediaSample} {sync preroll discontinuity : Bool}
    (h1 : pIn.IsSyncPoint = yesNo sync) (h2 : pIn.IsPreroll = yesNo preroll)
    (h3 : pIn.IsDiscontinuity = yesNo discontinuity) :
    copyMetadata pIn pOut = (withMetadata pIn pOut sync preroll discontinuity, NOERROR) := by
  unfold copyMetadata
  simp only [h1, h2, h3, copyFlag_yesNo]
  rfl

/-- The copy succeeds exactly when the answers about the flags are yes or no. -/
theorem copyMetadata_ok {pIn : IMediaSample} {pOut : CMediaSample} :
    (copyMetadata pIn pOut).2 = NOERROR ↔ pIn.Answers := by
  constructor
  · intro h
    unfold copyMetadata at h
    dsimp only at h
    split at h
    · cases h
    · rename_i s1 h1
      obtain ⟨sync, h1, -⟩ := copyFlag_eq_some h1
      split at h
      · cases h
      · rename_i s2 h2
        obtain ⟨preroll, h2, -⟩ := copyFlag_eq_some h2
        split at h
        · cases h
        · rename_i s3 h3
          obtain ⟨discontinuity, h3, -⟩ := copyFlag_eq_some h3
          exact ⟨sync, preroll, discontinuity, h1, h2, h3⟩
  · rintro ⟨sync, preroll, discontinuity, h1, h2, h3⟩
    rw [copyMetadata_answered h1 h2 h3]

/-- The data length is copied, unless the output buffer cannot hold it. -/
theorem copyMetadata_length {pIn : IMediaSample} {pOut pOut' : CMediaSample}
    (h : copyMetadata pIn pOut = (pOut', NOERROR)) :
    pOut'.m_lActual =
      if pIn.GetActualDataLength > pOut.m_cbBuffer ∨ pIn.GetActualDataLength < 0 then pOut.m_lActual
      else pIn.GetActualDataLength := by
  obtain ⟨sync, preroll, discontinuity, h1, h2, h3⟩ := copyMetadata_ok.1 (congrArg Prod.snd h)
  rw [copyMetadata_answered h1 h2 h3] at h
  cases h
  have hbuf := (copyTimes_buffer pIn pOut).m_pBuffer
  have hlen : (copyTimes pIn pOut).m_lActual = pOut.m_lActual := by
    unfold copyTimes
    dsimp only
    split <;> split <;> rfl
  have hsize : ((((copyTimes pIn pOut).SetSyncPoint sync).SetPreroll preroll).SetDiscontinuity
      discontinuity).m_cbBuffer = pOut.m_cbBuffer := by
    rw [CMediaSample.m_cbBuffer, CMediaSample.m_cbBuffer, ← hbuf]
    rfl
  unfold withMetadata CMediaSample.SetActualDataLength
  rw [hsize]
  split
  · exact hlen
  · rfl

/-- With memory for the format block, the copy of a type is the type. -/
theorem Set_true (mt : CMediaType) : (CMediaType.Set true mt).1 = mt := by
  by_cases h0 : mt.cbFormat ≠ 0 <;> simp [CMediaType.Set, CMediaType.CopyMediaType, h0]

/-- The copied type has the format block of the current type, or none. -/
theorem pictureCopies_Set {b : Bool} {mt : CMediaType} {calls : List CopyCall}
    (h : pictureCopies (CMediaType.Set b mt).1.pbFormat = some calls) :
    pictureCopies mt.pbFormat = some calls := by
  by_cases h0 : mt.cbFormat ≠ 0
  · cases b
    · simp [CMediaType.Set, CMediaType.CopyMediaType, h0, FAILED, SUCCEEDED] at h
      cases h
    · rwa [Set_true] at h
  · simpa [CMediaType.Set, CMediaType.CopyMediaType, h0] using h

/-- What a `Transform` of the flip filter that returns has done. -/
theorem CFlipFilter.Transform_ok {b : Bool} {f : CTransformFilter α} {pIn : IMediaSample}
    {pOut pOut' : CMediaSample} {hr : HRESULT} (h : CFlipFilter.Transform b f pIn pOut = some (pOut', hr)) :
    ∃ (calls : List CopyCall) (m_pBuffer : Block), pictureCopies f.m_pInput.m_mt.pbFormat = some calls ∧
      runCopies pIn.GetPointer.bytes pOut.m_pBuffer.bytes calls = some m_pBuffer.bytes ∧
      m_pBuffer.size = pOut.m_cbBuffer ∧ copyMetadata pIn { pOut with m_pBuffer } = (pOut', hr) := by
  simp only [CFlipFilter.Transform, Option.bind_eq_bind, Option.bind_eq_some_iff] at h
  obtain ⟨calls, hcalls, m_pBuffer, hcopy, h⟩ := h
  obtain ⟨hrun, -, hsize⟩ := Block.copyFrom_eq_some hcopy
  exact ⟨calls, m_pBuffer, pictureCopies_Set hcalls, hrun, hsize, Option.some_inj.1 h⟩

/-- The flip filter's `Transform` returns when its copies stay inside the buffers. -/
theorem CFlipFilter.Transform_returns {f : CTransformFilter α} {pIn : IMediaSample} {pOut : CMediaSample}
    {calls : List CopyCall} {bytes : List BYTE} (hcalls : pictureCopies f.m_pInput.m_mt.pbFormat = some calls)
    (hrun : runCopies pIn.GetPointer.bytes pOut.m_pBuffer.bytes calls = some bytes) :
    ∃ m_pBuffer : Block, m_pBuffer.bytes = bytes ∧
      CFlipFilter.Transform true f pIn pOut = some (copyMetadata pIn { pOut with m_pBuffer }) := by
  obtain ⟨m_pBuffer, hcopy, hbytes⟩ := Block.copyFrom_of_run hrun
  refine ⟨m_pBuffer, hbytes, ?_⟩
  simp only [CFlipFilter.Transform, Set_true, hcalls, hcopy, Option.bind_eq_bind, Option.bind_some]

/-- What a `Transform` of the dump filter that returns has done. -/
theorem CMyFilter.Transform_ok {env : FileEnv} {pIn : IMediaSample} {pOut pOut' : CMediaSample} {hr : HRESULT}
    {file file' : List BYTE} (h : CMyFilter.Transform env pIn pOut file = some (pOut', hr, file')) :
    ∃ m_pBuffer : Block, runCopies pIn.GetPointer.bytes pOut.m_pBuffer.bytes [bufferCopy pIn] = some m_pBuffer.bytes ∧
      m_pBuffer.size = pOut.m_cbBuffer ∧ copyMetadata pIn { pOut with m_pBuffer } = (pOut', hr) ∧
      file' = if hr = NOERROR then appendToFile env file pOut'.m_pBuffer.bytes else file := by
  simp only [CMyFilter.Transform, Option.bind_eq_bind, Option.bind_eq_some_iff] at h
  obtain ⟨m_pBuffer, hcopy, h⟩ := h
  obtain ⟨hrun, -, hsize⟩ := Block.copyFrom_eq_some hcopy
  refine ⟨m_pBuffer, hrun, hsize, ?_⟩
  rcases hmeta : copyMetadata pIn { pOut with m_pBuffer } with ⟨s, hr'⟩
  simp only [hmeta] at h
  split at h
  · rename_i hne
    cases h
    exact ⟨rfl, by rw [if_neg hne]⟩
  · rename_i hok
    rw [ne_eq, not_not] at hok
    cases h
    refine ⟨by rw [hok], ?_⟩
    rw [if_pos rfl, CMediaSample.m_cbBuffer, Block.size_toInt, Int.toNat_natCast, List.take_length]

theorem CMyFilter.Transform_returns {pIn : IMediaSample} {pOut : CMediaSample} {bytes : List BYTE} (env : FileEnv)
    (file : List BYTE) (hrun : runCopies pIn.GetPointer.bytes pOut.m_pBuffer.bytes [bufferCopy pIn] = some bytes) :
    ∃ r, CMyFilter.Transform env pIn pOut file = some r ∧ r.1.m_pBuffer.bytes = bytes := by
  obtain ⟨m_pBuffer, hcopy, hbytes⟩ := Block.copyFrom_of_run hrun
  have hbuf := (copyMetadata_buffer pIn { pOut with m_pBuffer }).m_pBuffer
  simp only [CMyFilter.Transform, hcopy, Option.bind_eq_bind, Option.bind_some]
  rcases hmeta : copyMetadata pIn { pOut with m_pBuffer } with ⟨s, hr⟩
  rw [hmeta] at hbuf
  dsimp only at hbuf ⊢
  split
  · exact ⟨_, rfl, by rw [hbuf, hbytes]⟩
  · exact ⟨_, rfl, by rw [hbuf, hbytes]⟩

/-! ## What any `Transform` does -/

/-- `Transform` looks at nothing of the filter but its input type. -/
theorem Filter.Transform_congr {α β : Type} (c : Filter) {f : CTransformFilter α} {g : CTransformFilter β}
    (h : f.m_pInput.m_mt = g.m_pInput.m_mt) (env : TransformEnv) :
    c.Transform env f = c.Transform env g := by
  funext pIn pOut file
  cases c with
  | CFlipFilter => simp only [Filter.Transform, CFlipFilter.Transform, h]
  | CMyFilter => rfl

/-- The file changes only when `Transform` succeeds. -/
theorem Filter.Transform_file {α : Type} {c : Filter} {env : TransformEnv} {f : CTransformFilter α} {pIn : IMediaSample}
    {pOut pOut' : CMediaSample} {hr : HRESULT} {file file' : List BYTE}
    (h : c.Transform env f pIn pOut file = some (pOut', hr, file')) (hne : hr ≠ NOERROR) : file' = file := by
  cases c with
  | CFlipFilter =>
    simp only [Filter.Transform, Option.map_eq_some_iff] at h
    obtain ⟨⟨s, hr'⟩, -, h⟩ := h
    cases h
    rfl
  | CMyFilter =>
    obtain ⟨-, -, -, -, hfile⟩ := CMyFilter.Transform_ok h
    rw [hfile, if_neg hne]

theorem Filter.Transform_result {α : Type} {c : Filter} {env : TransformEnv} {f : CTransformFilter α} {pIn : IMediaSample}
    {pOut pOut' : CMediaSample} {hr : HRESULT} {file file' : List BYTE}
    (h : c.Transform env f pIn pOut file = some (pOut', hr, file')) :
    ∃ m_pBuffer : Block, copyMetadata pIn { pOut with m_pBuffer } = (pOut', hr) ∧ m_pBuffer.size = pOut.m_cbBuffer := by
  cases c with
  | CFlipFilter =>
    simp only [Filter.Transform, Option.map_eq_some_iff] at h
    obtain ⟨⟨s, hr'⟩, h, heq⟩ := h
    cases heq
    obtain ⟨-, m_pBuffer, -, -, hsize, hmeta⟩ := CFlipFilter.Transform_ok h
    exact ⟨m_pBuffer, hmeta, hsize⟩
  | CMyFilter =>
    obtain ⟨m_pBuffer, -, hsize, hmeta, -⟩ := CMyFilter.Transform_ok h
    exact ⟨m_pBuffer, hmeta, hsize⟩

end FilterSln
