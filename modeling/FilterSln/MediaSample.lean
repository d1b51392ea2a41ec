import FilterSln.MediaType
import FilterSln.Lib.Flags
/-!
# Media samples

`CMediaSample` of `amfilter.cpp`: a buffer with a flag word, times and an
optional media type. `IMediaSample` is what a filter learns from a sample it
receives, whoever implements it; `CMediaSample.view` gives the answers of a
`CMediaSample`.
-/

namespace FilterSln

open HRESULT Lib.Flags

/-! ## Flags -/

inductive SampleFlag where
  | SyncPoint | Preroll | Discontinuity | TypeChanged | TimeValid | MediaTimeValid
  | TimeDiscontinuity | StopValid
  deriving DecidableEq

/-- `Sample_SyncPoint = 0x01` to `Sample_StopValid = 0x100`; the `AM_SAMPLE_`
flags of a property record have the same bits. -/
def SampleFlag.bit : SampleFlag → Nat
  | .SyncPoint => 0
  | .Preroll => 1
  | .Discontinuity => 2
  | .TypeChanged => 3
  | .TimeValid => 4
  | .MediaTimeValid => 5
  | .TimeDiscontinuity => 6
  | .StopValid => 8

instance : Lib.FlagNames SampleFlag 32 where
  bit := SampleFlag.bit
  bit_lt a := by cases a <;> decide
  bit_inj a b h := by cases a <;> cases b <;> first | rfl | cases h

def Sample_ValidFlags : DWORD := 0x1FF#32

/-- A flag word without bits outside `Sample_ValidFlags`. -/
structure SampleFlags where
  bits : DWORD
  valid : bits &&& ~~~Sample_ValidFlags = 0#32

namespace SampleFlags

def none : SampleFlags := ⟨0#32, by decide⟩

theorem mask_valid (a : SampleFlag) : mask a &&& ~~~Sample_ValidFlags = 0#32 := by
  cases a <;> decide

theorem or_valid {x y : DWORD} (hx : x &&& ~~~Sample_ValidFlags = 0#32)
    (hy : y &&& ~~~Sample_ValidFlags = 0#32) : (x ||| y) &&& ~~~Sample_ValidFlags = 0#32 := by
  rw [BitVec.and_comm, BitVec.and_or_distrib_left, BitVec.and_comm _ x, BitVec.and_comm _ y, hx, hy]
  rfl

theorem and_valid {x : DWORD} (y : DWORD) (hx : x &&& ~~~Sample_ValidFlags = 0#32) :
    (x &&& y) &&& ~~~Sample_ValidFlags = 0#32 := by
  rw [BitVec.and_assoc, BitVec.and_comm y, ← BitVec.and_assoc, hx, BitVec.zero_and]

def set (f : SampleFlags) (a : SampleFlag) : SampleFlags :=
  ⟨f.bits ||| mask a, or_valid f.valid (mask_valid a)⟩

def clear (f : SampleFlags) (a : SampleFlag) : SampleFlags :=
  ⟨f.bits &&& ~~~mask a, and_valid _ f.valid⟩

def has (f : SampleFlags) (a : SampleFlag) : Bool := Lib.Flags.has f.bits a

@[simp] theorem has_none (a : SampleFlag) : none.has a = false := has_zero a

@[simp] theorem has_set (f : SampleFlags) (a b : SampleFlag) : (f.set b).has a = (f.has a || decide (a = b)) := by
  simp [has, set]

@[simp] theorem has_clear (f : SampleFlags) (a b : SampleFlag) : (f.clear b).has a = (f.has a && !decide (a = b)) := by
  simp [has, clear]

end SampleFlags

/-! ## The property record of `IMediaSample2` -/

structure AM_SAMPLE2_PROPERTIES where
  cbData : DWORD
  dwTypeSpecificFlags : DWORD
  dwSampleFlags : DWORD
  lActual : LONG
  tStart : REFERENCE_TIME
  tStop : REFERENCE_TIME
  dwStreamId : DWORD
  pMediaType : Option CMediaType
  pbBuffer : Nat
  cbBuffer : LONG

namespace AM_SAMPLE2_PROPERTIES

inductive Field where
  | cbData | dwTypeSpecificFlags | dwSampleFlags | lActual | tStart | tStop | dwStreamId
  | pMediaType | pbBuffer | cbBuffer

/-- `FIELD_OFFSET`, with the alignment and the pointers of Win32. -/
def Field.offset : Field → Nat
  | cbData => 0
  | dwTypeSpecificFlags => 4
  | dwSampleFlags => 8
  | lActual => 12
  | tStart => 16
  | tStop => 24
  | dwStreamId => 32
  | pMediaType => 36
  | pbBuffer => 40
  | cbBuffer => 44

def Field.size : Field → Nat
  | tStart | tStop => 8
  | _ => 4

def sizeof : Nat := 48

/-- `CONTAINS_FIELD`: the first `offset` bytes of a record hold the field. -/
def contains (f : Field) (offset : Nat) : Bool := f.offset + f.size ≤ offset

/-- The first `cb` bytes of `new` copied over `old`. -/
def overlay (cb : Nat) (new old : AM_SAMPLE2_PROPERTIES) : AM_SAMPLE2_PROPERTIES where
  cbData := if contains .cbData cb then new.cbData else old.cbData
  dwTypeSpecificFlags :=
    if contains .dwTypeSpecificFlags cb then new.dwTypeSpecificFlags else old.dwTypeSpecificFlags
  dwSampleFlags := if contains .dwSampleFlags cb then new.dwSampleFlags else old.dwSampleFlags
  lActual := if contains .lActual cb then new.lActual else old.lActual
  tStart := if contains .tStart cb then new.tStart else old.tStart
  tStop := if contains .tStop cb then new.tStop else old.tStop
  dwStreamId := if contains .dwStreamId cb then new.dwStreamId else old.dwStreamId
  pMediaType := if contains .pMediaType cb then new.pMediaType else old.pMediaType
  pbBuffer := if contains .pbBuffer cb then new.pbBuffer else old.pbBuffer
  cbBuffer := if contains .cbBuffer cb then new.cbBuffer else old.cbBuffer

/-- The record after `ZeroMemory`. -/
def zero : AM_SAMPLE2_PROPERTIES := ⟨0, 0, 0, 0, 0, 0, 0, .none, 0, 0⟩

end AM_SAMPLE2_PROPERTIES

/-! ## What a receiver learns from a sample -/

def AM_STREAM_MEDIA : DWORD := 0

/-- The answers of a sample. A time is `none` where the call does not store it;
`IMediaSample2` is `none` where the sample has no such interface, else what its
`GetProperties` returns. -/
structure IMediaSample where
  GetPointer : Block
  GetActualDataLength : LONG
  GetTime : HRESULT × Option (REFERENCE_TIME × REFERENCE_TIME)
  GetMediaTime : HRESULT × Option (LONGLONG × LONGLONG)
  IsSyncPoint : HRESULT
  IsPreroll : HRESULT
  IsDiscontinuity : HRESULT
  GetMediaType : HRESULT × Option CMediaType
  IMediaSample2 : Option (HRESULT × AM_SAMPLE2_PROPERTIES)

def IMediaSample.GetSize (s : IMediaSample) : LONG := s.GetPointer.size

/-- A sample full of data, without times, type or `IMediaSample2`. -/
def plainSample (b : Block) : IMediaSample where
  GetPointer := b
  GetActualDataLength := b.size
  GetTime := (VFW_E_SAMPLE_TIME_NOT_SET, none)
  GetMediaTime := (VFW_E_MEDIA_TIME_NOT_SET, none)
  IsSyncPoint := S_OK
  IsPreroll := S_FALSE
  IsDiscontinuity := S_FALSE
  GetMediaType := (S_FALSE, none)
  IMediaSample2 := none

/-- Two samples answer the five metadata calls alike, results and values. -/
structure IMediaSample.SameMetadata (a b : IMediaSample) : Prop where
  time : a.GetTime = b.GetTime
  mediaTime : a.GetMediaTime = b.GetMediaTime
  syncPoint : a.IsSyncPoint = b.IsSyncPoint
  preroll : a.IsPreroll = b.IsPreroll
  discontinuity : a.IsDiscontinuity = b.IsDiscontinuity

theorem IMediaSample.SameMetadata.refl (a : IMediaSample) : a.SameMetadata a :=
  ⟨rfl, rfl, rfl, rfl, rfl⟩

theorem IMediaSample.SameMetadata.symm {a b : IMediaSample} (h : a.SameMetadata b) : b.SameMetadata a :=
  ⟨h.time.symm, h.mediaTime.symm, h.syncPoint.symm, h.preroll.symm, h.discontinuity.symm⟩

theorem IMediaSample.SameMetadata.trans {a b c : IMediaSample} (h : a.SameMetadata b)
    (h' : b.SameMetadata c) : a.SameMetadata c :=
  ⟨h.time.trans h'.time, h.mediaTime.trans h'.mediaTime, h.syncPoint.trans h'.syncPoint,
    h.preroll.trans h'.preroll, h.discontinuity.trans h'.discontinuity⟩

/-! ## `CMediaSample` -/

/-- A yes or no as the result of a call. -/
def yesNo (b : Bool) : HRESULT := if b then S_OK else S_FALSE

structure CMediaSample where
  m_dwFlags : SampleFlags
  m_dwTypeSpecificFlags : DWORD
  m_pBuffer : Block
  m_lActual : LONG
  m_Start : REFERENCE_TIME
  m_End : REFERENCE_TIME
  m_MediaStart : LONGLONG
  m_MediaEnd : LONG
  m_pMediaType : Option CMediaType
  m_dwStreamId : DWORD
  m_cRef : Nat

/-- The time fields, which the constructor leaves as it finds them. -/
structure RawTimes where
  m_Start : REFERENCE_TIME
  m_End : REFERENCE_TIME
  m_MediaStart : LONGLONG
  m_MediaEnd : LONG

namespace CMediaSample

/-- The constructor, for a buffer of `length ≥ 0` bytes. -/
def new (raw : RawTimes) (pBuffer : Block) : CMediaSample where
  m_dwFlags := .none
  m_dwTypeSpecificFlags := 0
  m_pBuffer := pBuffer
  m_lActual := pBuffer.size
  m_Start := raw.m_Start
  m_End := raw.m_End
  m_MediaStart := raw.m_MediaStart
  m_MediaEnd := raw.m_MediaEnd
  m_pMediaType := none
  m_dwStreamId := AM_STREAM_MEDIA
  m_cRef := 0

def m_cbBuffer (s : CMediaSample) : LONG := s.m_pBuffer.size

def GetTime (s : CMediaSample) : HRESULT × Option (REFERENCE_TIME × REFERENCE_TIME) :=
  if !s.m_dwFlags.has .StopValid then
    if !s.m_dwFlags.has .TimeValid then (VFW_E_SAMPLE_TIME_NOT_SET, none)
    else (VFW_S_NO_STOP_TIME, some (s.m_Start, s.m_Start + 1))
  else (NOERROR, some (s.m_Start, s.m_End))

/-- `SetTime(&start, &stop)`. -/
def SetTime (s : CMediaSample) (timeStart timeEnd : REFERENCE_TIME) : CMediaSample :=
  { s with
    m_Start := timeStart
    m_End := timeEnd
    m_dwFlags := (s.m_dwFlags.set .TimeValid).set .StopValid }

def GetMediaTime (s : CMediaSample) : HRESULT × Option (LONGLONG × LONGLONG) :=
  if !s.m_dwFlags.has .MediaTimeValid then (VFW_E_MEDIA_TIME_NOT_SET, none)
  else (NOERROR, some (s.m_MediaStart, s.m_MediaStart + s.m_MediaEnd.toInt64))

/-- `SetMediaTime(&start, &end)`: the end is kept as a `LONG` difference. -/
def SetMediaTime (s : CMediaSample) (timeStart timeEnd : LONGLONG) : CMediaSample :=
  { s with
    m_MediaStart := timeStart
    m_MediaEnd := (timeEnd - timeStart).toInt32
    m_dwFlags := s.m_dwFlags.set .MediaTimeValid }

def assignFlag (s : CMediaSample) (a : SampleFlag) (b : Bool) : CMediaSample :=
  { s with m_dwFlags := if b then s.m_dwFlags.set a else s.m_dwFlags.clear a }

def queryFlag (s : CMediaSample) (a : SampleFlag) : HRESULT :=
  yesNo (s.m_dwFlags.has a)

def IsSyncPoint (s : CMediaSample) : HRESULT := s.queryFlag .SyncPoint
def SetSyncPoint (s : CMediaSample) (b : Bool) : CMediaSample := s.assignFlag .SyncPoint b
def IsPreroll (s : CMediaSample) : HRESULT := s.queryFlag .Preroll
def SetPreroll (s : CMediaSample) (b : Bool) : CMediaSample := s.assignFlag .Preroll b
def IsDiscontinuity (s : CMediaSample) : HRESULT := s.queryFlag .Discontinuity
def SetDiscontinuity (s : CMediaSample) (b : Bool) : CMediaSample := s.assignFlag .Discontinuity b

def GetActualDataLength (s : CMediaSample) : LONG := s.m_lActual

/-- What a sample declares to be its data. -/
def data (s : CMediaSample) : List BYTE := s.m_pBuffer.bytes.take s.GetActualDataLength.toInt.toNat

def SetActualDataLength (s : CMediaSample) (lActual : LONG) : CMediaSample × HRESULT :=
  if lActual > s.m_cbBuffer ∨ lActual < 0 then (s, VFW_E_BUFFER_OVERFLOW)
  else ({ s with m_lActual := lActual }, NOERROR)

/-- `GetMediaType`; `CreateMediaType` says whether the copy can be made. -/
def GetMediaType (CreateMediaType : Bool) (s : CMediaSample) : HRESULT × Option CMediaType :=
  if !s.m_dwFlags.has .TypeChanged then (S_FALSE, none)
  else if CreateMediaType then (NOERROR, s.m_pMediaType) else (E_OUTOFMEMORY, none)

/-- `SetMediaType(NULL)`. -/
def ResetMediaType (s : CMediaSample) : CMediaSample :=
  { s with m_pMediaType := none, m_dwFlags := s.m_dwFlags.clear .TypeChanged }

/-- What final `Release` does before the sample goes back to its allocator. -/
def Reset (s : CMediaSample) : CMediaSample :=
  let s := if s.m_dwFlags.has .TypeChanged then s.ResetMediaType else s
  { s with
    m_dwFlags := .none
    m_dwTypeSpecificFlags := 0
    m_dwStreamId := AM_STREAM_MEDIA }

/-- No reference on the sample, no flag in it, and it is of the media stream. -/
def Clean (s : CMediaSample) : Prop := s.m_dwFlags = .none ∧ s.m_cRef = 0 ∧ s.m_dwStreamId = AM_STREAM_MEDIA

end CMediaSample

/-- A sample as it lies on the free list of its allocator. -/
abbrev FreeSample := { s : CMediaSample // s.Clean }

/-- After a `Release`: others hold the sample still, or it goes back to its
allocator. -/
inductive Released where
  | held (s : CMediaSample)
  | final (s : FreeSample)

namespace CMediaSample

def AddRef (s : CMediaSample) : CMediaSample := { s with m_cRef := s.m_cRef + 1 }

def Release (s : CMediaSample) : Released :=
  let lRef := s.m_cRef - 1
  if lRef = 0 then .final ⟨{ s with m_cRef := 0 }.Reset, by unfold Reset ResetMediaType; split <;> exact ⟨rfl, rfl, rfl⟩⟩
  else .held { s with m_cRef := lRef }

/-- Whoever keeps a sample or gives it up, its buffer and the length of its data
stay as they are. -/
theorem Release_spec (s : CMediaSample) :
    (∃ t, s.Release = .held t ∧ t.m_pBuffer = s.m_pBuffer ∧ t.m_lActual = s.m_lActual) ∨
    (∃ f, s.Release = .final f ∧ f.1.m_pBuffer = s.m_pBuffer ∧ f.1.m_lActual = s.m_lActual) := by
  unfold Release
  dsimp only
  split
  · refine .inr ⟨_, rfl, ?_⟩
    unfold Reset ResetMediaType
    dsimp only
    split <;> exact ⟨rfl, rfl⟩
  · exact .inl ⟨_, rfl, rfl, rfl⟩

theorem Release_cases (s : CMediaSample) :
    (∃ t, s.Release = .held t ∧ t.m_pBuffer = s.m_pBuffer) ∨
    (∃ f, s.Release = .final f ∧ f.1.m_pBuffer = s.m_pBuffer) := by
  rcases s.Release_spec with ⟨t, ht, hb, -⟩ | ⟨f, hf, hb, -⟩
  · exact .inl ⟨t, ht, hb⟩
  · exact .inr ⟨f, hf, hb⟩

open AM_SAMPLE2_PROPERTIES in
/-- `GetProperties` into a record that holds `pbProperties` before. -/
def GetProperties (s : CMediaSample) (cbProperties : DWORD) (pbProperties : AM_SAMPLE2_PROPERTIES) :
    AM_SAMPLE2_PROPERTIES :=
  if cbProperties ≠ 0 then
    let cbData := min cbProperties.toNat AM_SAMPLE2_PROPERTIES.sizeof
    let Props : AM_SAMPLE2_PROPERTIES :=
      { cbData := BitVec.ofNat 32 cbData
        dwSampleFlags := s.m_dwFlags.bits &&& ~~~mask SampleFlag.MediaTimeValid
        dwTypeSpecificFlags := s.m_dwTypeSpecificFlags
        pbBuffer := s.m_pBuffer.addr
        cbBuffer := s.m_cbBuffer
        lActual := s.m_lActual
        tStart := s.m_Start
        tStop := s.m_End
        dwStreamId := s.m_dwStreamId
        pMediaType := if s.m_dwFlags.has .TypeChanged then s.m_pMediaType else none }
    overlay cbData Props pbProperties
  else pbProperties

open AM_SAMPLE2_PROPERTIES in
/-- The checks of `SetProperties` on the first `cb` bytes of `pProps`. -/
def checkProps (CreateMediaType : Bool) (s : CMediaSample) (cb : Nat) (pProps : AM_SAMPLE2_PROPERTIES) : HRESULT :=
  let typeGiven := contains .pMediaType cb && has pProps.dwSampleFlags SampleFlag.TypeChanged
  if cb > AM_SAMPLE2_PROPERTIES.sizeof ∨ pProps.cbData.toNat > AM_SAMPLE2_PROPERTIES.sizeof then E_INVALIDARG
  else if contains .dwSampleFlags cb ∧
      pProps.dwSampleFlags &&& (~~~Sample_ValidFlags ||| mask SampleFlag.MediaTimeValid) ≠ 0#32 then
    E_INVALIDARG
  else if contains .dwSampleFlags cb ∧ has pProps.dwSampleFlags SampleFlag.TimeValid ∧
      !s.m_dwFlags.has .TimeValid ∧ !contains .tStop cb then
    E_INVALIDARG
  else if contains .pbBuffer cb ∧ pProps.pbBuffer ≠ 0 ∧ pProps.pbBuffer ≠ s.m_pBuffer.addr then E_INVALIDARG
  else if contains .cbBuffer cb ∧ pProps.cbBuffer ≠ 0 ∧ pProps.cbBuffer ≠ s.m_cbBuffer then E_INVALIDARG
  else if contains .cbBuffer cb ∧ contains .lActual cb ∧ pProps.cbBuffer < pProps.lActual then E_INVALIDARG
  else if typeGiven ∧ pProps.pMediaType = none then E_POINTER
  else if typeGiven ∧ !CreateMediaType then E_OUTOFMEMORY
  else S_OK

open AM_SAMPLE2_PROPERTIES in
theorem checkProps_flags {b : Bool} {s : CMediaSample} {cb : Nat} {pProps : AM_SAMPLE2_PROPERTIES}
    (h : s.checkProps b cb pProps = S_OK) (hc : contains .dwSampleFlags cb = true) :
    pProps.dwSampleFlags &&& (~~~Sample_ValidFlags ||| mask SampleFlag.MediaTimeValid) = 0#32 := by
  unfold checkProps at h
  by_contra hbad
  split at h
  · cases h
  · rw [if_pos ⟨hc, hbad⟩] at h
    cases h

/-- The flag word `SetProperties` stores, once the checks have passed. -/
def newFlags (s : CMediaSample) (dwSampleFlags : DWORD)
    (h : dwSampleFlags &&& (~~~Sample_ValidFlags ||| mask SampleFlag.MediaTimeValid) = 0#32) : SampleFlags :=
  ⟨dwSampleFlags ||| (s.m_dwFlags.bits &&& mask SampleFlag.MediaTimeValid), by
    refine SampleFlags.or_valid ?_ (SampleFlags.and_valid _ s.m_dwFlags.valid)
    rw [BitVec.and_or_distrib_left] at h
    exact (BitVec.or_eq_zero_iff.1 h).1⟩

open AM_SAMPLE2_PROPERTIES in
/-- The assignments of `SetProperties`, in a sample whose flags are `m_dwFlags`. -/
def storeProps (s : CMediaSample) (cb : Nat) (pProps : AM_SAMPLE2_PROPERTIES) (m_dwFlags : SampleFlags) : CMediaSample :=
  let s := { s with
    m_dwFlags
    m_dwTypeSpecificFlags :=
      if contains .dwTypeSpecificFlags cb then pProps.dwTypeSpecificFlags else s.m_dwTypeSpecificFlags
    m_lActual := if contains .lActual cb then pProps.lActual else s.m_lActual
    m_Start := if contains .tStart cb then pProps.tStart else s.m_Start
    m_End := if contains .tStop cb then pProps.tStop else s.m_End
    m_pMediaType :=
      if contains .pMediaType cb && has pProps.dwSampleFlags SampleFlag.TypeChanged then pProps.pMediaType
      else s.m_pMediaType
    m_dwStreamId := if contains .dwStreamId cb then pProps.dwStreamId else s.m_dwStreamId }
  -- Fix up the type changed flag to reflect the current state.
  s.assignFlag .TypeChanged s.m_pMediaType.isSome

open AM_SAMPLE2_PROPERTIES in
/-- `SetProperties` of the first `cbProperties` bytes of `pProps`: all checks
first, then the assignments. -/
def SetProperties (CreateMediaType : Bool) (s : CMediaSample) (cbProperties : DWORD)
    (pProps : AM_SAMPLE2_PROPERTIES) : CMediaSample × HRESULT :=
  if !contains .cbData cbProperties.toNat then (s, S_OK)
  else
    -- Don't use more data than is actually there.
    let cb := if pProps.cbData < cbProperties then pProps.cbData.toNat else cbProperties.toNat
    if h : s.checkProps CreateMediaType cb pProps = S_OK then
      (s.storeProps cb pProps
        (if hc : contains .dwSampleFlags cb then s.newFlags pProps.dwSampleFlags (checkProps_flags h hc)
          else s.m_dwFlags), S_OK)
    else (s, s.checkProps CreateMediaType cb pProps)

/-- The sample as its receiver sees it. -/
def view (s : CMediaSample) : IMediaSample where
  GetPointer := s.m_pBuffer
  GetActualDataLength := s.GetActualDataLength
  GetTime := s.GetTime
  GetMediaTime := s.GetMediaTime
  IsSyncPoint := s.IsSyncPoint
  IsPreroll := s.IsPreroll
  IsDiscontinuity := s.IsDiscontinuity
  GetMediaType := s.GetMediaType true
  IMediaSample2 := some (S_OK, s.GetProperties 48 .zero)

/-! ## Flags after an assignment -/

@[simp] theorem has_assignFlag (s : CMediaSample) (a b : SampleFlag) (v : Bool) :
    (s.assignFlag b v).m_dwFlags.has a = if a = b then v else s.m_dwFlags.has a := by
  unfold assignFlag
  cases v <;> by_cases h : a = b <;> simp [h]

theorem has_newFlags {s : CMediaSample} {w : DWORD}
    (h : w &&& (~~~Sample_ValidFlags ||| mask SampleFlag.MediaTimeValid) = 0#32) (a : SampleFlag) :
    (s.newFlags w h).has a = (has w a || (s.m_dwFlags.has a && decide (a = .MediaTimeValid))) := by
  simp [newFlags, SampleFlags.has]

@[simp] theorem GetTime_assignFlag (s : CMediaSample) {a : SampleFlag} (v : Bool)
    (h1 : SampleFlag.StopValid ≠ a) (h2 : SampleFlag.TimeValid ≠ a) : (s.assignFlag a v).GetTime = s.GetTime := by
  simp only [GetTime, has_assignFlag, if_neg h1, if_neg h2]
  rfl

@[simp] theorem GetTime_SetTime (s : CMediaSample) (timeStart timeEnd : REFERENCE_TIME) :
    (s.SetTime timeStart timeEnd).GetTime = (NOERROR, some (timeStart, timeEnd)) := by
  simp [GetTime, SetTime]

@[simp] theorem GetMediaTime_assignFlag (s : CMediaSample) {a : SampleFlag} (v : Bool)
    (h : SampleFlag.MediaTimeValid ≠ a) : (s.assignFlag a v).GetMediaTime = s.GetMediaTime := by
  simp only [GetMediaTime, has_assignFlag, if_neg h]
  rfl

theorem queryFlag_eq (s : CMediaSample) (a : SampleFlag) : s.queryFlag a = yesNo (s.m_dwFlags.has a) := rfl

@[simp] theorem queryFlag_assignFlag (s : CMediaSample) (a b : SampleFlag) (v : Bool) :
    (s.assignFlag b v).queryFlag a = if a = b then yesNo v else s.queryFlag a := by
  simp only [queryFlag_eq, has_assignFlag]
  split <;> rfl

/-- The data length is not part of what the five calls answer. -/
theorem view_SetActualDataLength (s : CMediaSample) (l : LONG) :
    (s.SetActualDataLength l).1.view.SameMetadata s.view := by
  unfold SetActualDataLength
  split <;> exact ⟨rfl, rfl, rfl, rfl, rfl⟩

end CMediaSample

end FilterSln
