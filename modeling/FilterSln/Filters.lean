import FilterSln.Pins
/-!
# The negotiation of the two filters

What `CFlipFilter` and `CMyFilter` add to `CTransformFilter` before any sample
flows: the types they accept, the type they offer and the buffers they ask for.
Both decide everything but the input type in the same words, so those functions
are written once. `Filter` names the class of a filter; its functions are the
virtual calls of the base class.

A result `none` is a read outside the format block.
-/

namespace FilterSln

open HRESULT

variable {α Env : Type}

/-- The classes derived from `CTransformFilter`. -/
inductive Filter where
  | CFlipFilter | CMyFilter
  deriving DecidableEq, Repr

/-! ## Accepted types -/

def CFlipFilter.CheckInputType (mtIn : CMediaType) : Option HRESULT :=
  if mtIn.majortype ≠ .MEDIATYPE_Video ∨ mtIn.subtype ≠ .MEDIASUBTYPE_RGB24 ∨
      mtIn.formattype ≠ .FORMAT_VideoInfo then
    some VFW_E_TYPE_NOT_ACCEPTED
  else do
    let biBitCount ← VIDEOINFOHEADER.biBitCount mtIn.pbFormat
    if biBitCount ≠ 24 then some VFW_E_TYPE_NOT_ACCEPTED else some S_OK

def CMyFilter.CheckInputType (mtIn : CMediaType) : Option HRESULT :=
  if mtIn.majortype = .MEDIATYPE_Video ∧ mtIn.subtype = .MEDIASUBTYPE_YUY2 ∧
      mtIn.formattype = .FORMAT_VideoInfo then
    some S_OK
  else some VFW_E_TYPE_NOT_ACCEPTED

/-! ## The functions the two filters share -/

/-- `CheckTransform`: the same type on both sides. -/
def sameType (mtIn mtOut : CMediaType) : HRESULT := if mtIn.eq mtOut then NOERROR else E_FAIL

/-- `GetMediaType`: the one type is that of the input pin. The copy may lack its
format block. -/
def inputType (f : CTransformFilter α) (CoTaskMemAlloc : Bool) (iPosition : Int) :
    HRESULT × Option CMediaType :=
  if !f.m_pInput.m_Connected then (E_UNEXPECTED, none)
  else if iPosition < 0 then (E_INVALIDARG, none)
  else if iPosition > 0 then (VFW_S_NO_MORE_ITEMS, none)
  else (NOERROR, some (CMediaType.Set CoTaskMemAlloc f.m_pInput.m_mt).1)

/-- `DecideBufferSize`: one buffer of the input type's sample size. A null
allocator is `none`. -/
def requestBuffer [IMemAllocator α Env] (f : CTransformFilter α) (pAllocator : Option α)
    (pprop : ALLOCATOR_PROPERTIES) : Option α × ALLOCATOR_PROPERTIES × HRESULT :=
  if !f.m_pInput.m_Connected then (pAllocator, pprop, E_UNEXPECTED)
  else
    match pAllocator with
    | none => (none, pprop, E_POINTER)
    | some a =>
      let pprop := { pprop with
        cBuffers := 1
        cbBuffer := Int32.ofBitVec f.m_pInput.m_mt.GetSampleSize }
      let (a, hr, Actual) := IMemAllocator.SetProperties a pprop
      if hr.FAILED then (some a, pprop, hr)
      else if pprop.cBuffers > Actual.cBuffers ∨ pprop.cbBuffer > Actual.cbBuffer then
        (some a, pprop, E_FAIL)
      else (some a, pprop, NOERROR)

def CFlipFilter.CheckTransform := sameType
def CMyFilter.CheckTransform := sameType
def CFlipFilter.GetMediaType := @inputType α
def CMyFilter.GetMediaType := @inputType α
def CFlipFilter.DecideBufferSize [IMemAllocator α Env] := @requestBuffer α Env _
def CMyFilter.DecideBufferSize [IMemAllocator α Env] := @requestBuffer α Env _

/-! ## The virtual calls -/

namespace Filter

def CheckInputType : Filter → CMediaType → Option HRESULT
  | CFlipFilter => CFlipFilter.CheckInputType
  | CMyFilter => CMyFilter.CheckInputType

def CheckTransform : Filter → CMediaType → CMediaType → HRESULT
  | CFlipFilter => CFlipFilter.CheckTransform
  | CMyFilter => CMyFilter.CheckTransform

def GetMediaType : Filter → CTransformFilter α → Bool → Int → HRESULT × Option CMediaType
  | CFlipFilter => CFlipFilter.GetMediaType
  | CMyFilter => CMyFilter.GetMediaType

def DecideBufferSize [IMemAllocator α Env] : Filter → CTransformFilter α → Option α → ALLOCATOR_PROPERTIES →
    Option α × ALLOCATOR_PROPERTIES × HRESULT
  | CFlipFilter => CFlipFilter.DecideBufferSize
  | CMyFilter => CMyFilter.DecideBufferSize

theorem CheckTransform_eq (c : Filter) : c.CheckTransform = sameType := by
  cases c <;> rfl

theorem GetMediaType_eq (c : Filter) : @GetMediaType α c = inputType := by
  cases c <;> rfl

theorem DecideBufferSize_eq [IMemAllocator α Env] (c : Filter) : @DecideBufferSize α Env _ c = requestBuffer := by
  cases c <;> rfl

end Filter

/-! ## What the functions guarantee -/

theorem sameType_ok {mtIn mtOut : CMediaType} : sameType mtIn mtOut = NOERROR ↔ mtIn.eq mtOut = true := by
  unfold sameType
  split
  · simp_all
  · simp_all

/-- A type the flip filter accepts has its format block read up to the bit count. -/
theorem CFlipFilter.CheckInputType_ok {mtIn : CMediaType} (h : CFlipFilter.CheckInputType mtIn = some S_OK) :
    mtIn.majortype = .MEDIATYPE_Video ∧ mtIn.subtype = .MEDIASUBTYPE_RGB24 ∧
      mtIn.formattype = .FORMAT_VideoInfo ∧ VIDEOINFOHEADER.biBitCount mtIn.pbFormat = some 24 := by
  unfold CFlipFilter.CheckInputType at h
  split at h
  · cases h
  · rename_i hg
    simp only [not_or, not_not] at hg
    simp only [Option.bind_eq_bind, Option.bind_eq_some_iff] at h
    obtain ⟨n, hn, h⟩ := h
    split at h
    · cases h
    · rename_i h24
      simp only [not_not] at h24
      exact ⟨hg.1, hg.2.1, hg.2.2, h24 ▸ hn⟩

/-- `DecideBufferSize` succeeds only with buffers of the size the input type
asks for. -/
theorem requestBuffer_ok [IMemAllocator α Env] {f : CTransformFilter α} {pa pa' : Option α}
    {pprop pprop' : ALLOCATOR_PROPERTIES} {hr : HRESULT} (h : requestBuffer f pa pprop = (pa', pprop', hr))
    (hr0 : hr.SUCCEEDED = true) :
    ∃ a a' Actual hrs, pa = some a ∧ pa' = some a' ∧ f.m_pInput.m_Connected = true ∧
      pprop' = { pprop with cBuffers := 1, cbBuffer := Int32.ofBitVec f.m_pInput.m_mt.GetSampleSize } ∧
      IMemAllocator.SetProperties a pprop' = (a', hrs, Actual) ∧ hrs.SUCCEEDED = true ∧
      pprop'.cBuffers ≤ Actual.cBuffers ∧ pprop'.cbBuffer ≤ Actual.cbBuffer := by
  unfold requestBuffer at h
  split at h
  · cases h; cases hr0
  · rename_i hc
    split at h
    · cases h; cases hr0
    · rename_i a
      dsimp only at h
      split at h
      · rename_i hf
        cases h
        simp [FAILED, hr0] at hf
      · rename_i hf
        split at h
        · cases h; cases hr0
        · rename_i hle
          cases h
          obtain ⟨hcount, hsize⟩ := not_or.1 hle
          exact ⟨a, _, _, _, rfl, rfl, by simpa using hc, rfl, rfl, SUCCEEDED_of_not_FAILED hf,
            Int32.not_lt.1 hcount, Int32.not_lt.1 hsize⟩

end FilterSln
