import FilterSln.Transform
/-!
# Samples passing through a filter

`CTransformInputPin::Receive` and `CTransformFilter::Receive`: check the sample,
take an output sample from the pool, transform, pass on, release. `Stream` is a
filter together with the output samples that others hold, the dump file and the
samples passed on so far; its machine has all the calls of the control machine
besides, so a run may stop, flush and reconnect the filter between two frames.

What one call of `Receive` can do is `Receive_cases`; what an event does to the
file and to the samples passed on is `step_cases`. The theorems about frames are
inductions over runs that use nothing else about the machine.
-/

namespace FilterSln

open HRESULT Lib Lib.Flags CTransformFilter

/-! ## The output sample -/

def AM_GBF_PREVFRAMESKIPPED : DWORD := 1
def AM_GBF_NOTASYNCPOINT : DWORD := 2

def FIELD_OFFSET (f : AM_SAMPLE2_PROPERTIES.Field) : DWORD := BitVec.ofNat 32 f.offset

/-- The record for the output sample, on a stack that holds `OutProps` before. It
ends in front of its stream id, and so of its media type. -/
def outputProps (pProps OutProps : AM_SAMPLE2_PROPERTIES) (pOutSample : CMediaSample) : AM_SAMPLE2_PROPERTIES :=
  let OutProps := pOutSample.GetProperties (FIELD_OFFSET .tStart) OutProps
  { OutProps with
    dwTypeSpecificFlags := pProps.dwTypeSpecificFlags
    dwSampleFlags :=
      (OutProps.dwSampleFlags &&& mask SampleFlag.TypeChanged) |||
      (pProps.dwSampleFlags &&& ~~~mask SampleFlag.TypeChanged)
    tStart := pProps.tStart
    tStop := pProps.tStop
    cbData := FIELD_OFFSET .dwStreamId }

/-- The properties `pProps` of the input sample written into the output sample. -/
def copyProps (pProps OutProps : AM_SAMPLE2_PROPERTIES) (pOutSample : CMediaSample) : CMediaSample :=
  (pOutSample.SetProperties true (FIELD_OFFSET .dwStreamId) (outputProps pProps OutProps pOutSample)).1

section CopyProps

open AM_SAMPLE2_PROPERTIES

variable {pProps OutProps : AM_SAMPLE2_PROPERTIES} {s : CMediaSample}

/-- The checks leave the sample alone, or the first 32 bytes of the record are stored. -/
theorem copyProps_cases (pProps OutProps : AM_SAMPLE2_PROPERTIES) (s : CMediaSample) :
    copyProps pProps OutProps s = s ∨
      ∃ flags, copyProps pProps OutProps s = s.storeProps 32 (outputProps pProps OutProps s) flags := by
  have hlen : (if (outputProps pProps OutProps s).cbData < FIELD_OFFSET .dwStreamId
      then (outputProps pProps OutProps s).cbData.toNat else (FIELD_OFFSET .dwStreamId).toNat) = 32 := rfl
  unfold copyProps CMediaSample.SetProperties
  rw [if_neg (by decide)]
  simp only [hlen]
  split
  · exact .inr ⟨_, rfl⟩
  · exact .inl rfl

/-- Whatever the properties are, the sample keeps its buffer, its stream and its
data length. -/
theorem copyProps_buffer (pProps OutProps : AM_SAMPLE2_PROPERTIES) (s : CMediaSample) :
    SameBuffer s (copyProps pProps OutProps s) ∧ (copyProps pProps OutProps s).m_lActual = s.m_lActual := by
  rcases copyProps_cases pProps OutProps s with h | ⟨flags, h⟩
  · rw [h]; exact ⟨SameBuffer.refl s, rfl⟩
  · rw [h]; exact ⟨⟨rfl, rfl, rfl⟩, rfl⟩

theorem has_outputProps (hclean : s.m_dwFlags = .none) (a : SampleFlag) :
    has (outputProps pProps OutProps s).dwSampleFlags a = (has pProps.dwSampleFlags a && !decide (a = .TypeChanged)) := by
  have hout : (s.GetProperties (FIELD_OFFSET .tStart) OutProps).dwSampleFlags =
      s.m_dwFlags.bits &&& ~~~mask SampleFlag.MediaTimeValid := rfl
  have hzero : s.m_dwFlags.bits = 0#32 := by rw [hclean]; rfl
  unfold outputProps
  simp [hout, hzero]

/-- In a new output sample the flags that `SetProperties` refuses are those of the
input sample. -/
theorem refused_outputProps (hclean : s.m_dwFlags = .none) :
    (outputProps pProps OutProps s).dwSampleFlags &&& (~~~Sample_ValidFlags ||| mask SampleFlag.MediaTimeValid) =
      pProps.dwSampleFlags &&& (~~~Sample_ValidFlags ||| mask SampleFlag.MediaTimeValid) := by
  have hzero : s.m_dwFlags.bits = 0#32 := by rw [hclean]; rfl
  have hout : (outputProps pProps OutProps s).dwSampleFlags =
      (s.m_dwFlags.bits &&& ~~~mask SampleFlag.MediaTimeValid &&& mask SampleFlag.TypeChanged) |||
        pProps.dwSampleFlags &&& ~~~mask SampleFlag.TypeChanged := rfl
  have hother : ~~~mask SampleFlag.TypeChanged &&& (~~~Sample_ValidFlags ||| mask SampleFlag.MediaTimeValid) =
      ~~~Sample_ValidFlags ||| mask SampleFlag.MediaTimeValid := by decide
  rw [hout, hzero, BitVec.zero_and, BitVec.zero_and, BitVec.zero_or, BitVec.and_assoc, hother]

/-- A new output sample takes over times and flags of a sample whose flags are
valid; the media times are not part of the properties. -/
theorem copyProps_ok (hclean : s.m_dwFlags = .none)
    (hf : pProps.dwSampleFlags &&& (~~~Sample_ValidFlags ||| mask SampleFlag.MediaTimeValid) = 0#32) :
    (copyProps pProps OutProps s).m_Start = pProps.tStart ∧ (copyProps pProps OutProps s).m_End = pProps.tStop ∧
      ∀ a, a ≠ .TypeChanged → (copyProps pProps OutProps s).m_dwFlags.has a = has pProps.dwSampleFlags a := by
  have hout : (outputProps pProps OutProps s).dwSampleFlags &&&
      (~~~Sample_ValidFlags ||| mask SampleFlag.MediaTimeValid) = 0#32 := (refused_outputProps hclean).trans hf
  have hlen : (if (outputProps pProps OutProps s).cbData < FIELD_OFFSET .dwStreamId
      then (outputProps pProps OutProps s).cbData.toNat else (FIELD_OFFSET .dwStreamId).toNat) = 32 := rfl
  have hcheck : s.checkProps true 32 (outputProps pProps OutProps s) = S_OK := by
    have hdata : (outputProps pProps OutProps s).cbData.toNat = 32 := rfl
    simp [CMediaSample.checkProps, hdata, hout, contains, Field.offset, Field.size, sizeof]
  have heq : copyProps pProps OutProps s =
      s.storeProps 32 (outputProps pProps OutProps s) (s.newFlags _ hout) := by
    unfold copyProps CMediaSample.SetProperties
    rw [if_neg (by decide)]
    simp only [hlen, hcheck, dif_pos]
    rfl
  rw [heq]
  refine ⟨rfl, rfl, fun a ha => ?_⟩
  rw [CMediaSample.storeProps, CMediaSample.has_assignFlag, if_neg ha, CMediaSample.has_newFlags, hclean,
    has_outputProps hclean]
  simp [ha]

/-- Properties with any other flag are not taken over at all. -/
theorem copyProps_refused (hclean : s.m_dwFlags = .none)
    (hf : pProps.dwSampleFlags &&& (~~~Sample_ValidFlags ||| mask SampleFlag.MediaTimeValid) ≠ 0#32) :
    copyProps pProps OutProps s = s := by
  have hout := (@refused_outputProps pProps OutProps s hclean).trans_ne hf
  have hlen : (if (outputProps pProps OutProps s).cbData < FIELD_OFFSET .dwStreamId
      then (outputProps pProps OutProps s).cbData.toNat else (FIELD_OFFSET .dwStreamId).toNat) = 32 := rfl
  have hcheck : s.checkProps true 32 (outputProps pProps OutProps s) = E_INVALIDARG := by
    have hdata : (outputProps pProps OutProps s).cbData.toNat = 32 := rfl
    simp [CMediaSample.checkProps, hdata, hout, contains, Field.offset, Field.size, sizeof]
  unfold copyProps CMediaSample.SetProperties
  rw [if_neg (by decide)]
  simp only [hlen, hcheck, reduceCtorEq, dif_neg, not_false_eq_true]

end CopyProps

/-- The allocator of the output pin replaced. -/
def CTransformFilter.putAllocator (f : CTransformFilter CMemAllocator) (a : CMemAllocator) :
    CTransformFilter CMemAllocator :=
  { f with m_pOutput := { f.m_pOutput with m_pAllocator := some a } }

/-- `none` while there is no free sample, or without an allocator. The samples of
a `CMemAllocator` have `IMediaSample2`. -/
def CTransformFilter.InitializeOutputSample (OutProps : AM_SAMPLE2_PROPERTIES) (f : CTransformFilter CMemAllocator) :
    Option (CTransformFilter CMemAllocator × Except HRESULT CMediaSample) := do
  let pProps := f.m_pInput.m_SampleProps
  let dwFlags := if f.m_bSampleSkipped then AM_GBF_PREVFRAMESKIPPED else 0
  let dwFlags := if !has pProps.dwSampleFlags SampleFlag.SyncPoint then dwFlags ||| AM_GBF_NOTASYNCPOINT else dwFlags
  let a ← f.m_pOutput.m_pAllocator
  let (a, r) ← a.GetBuffer dwFlags
  let f := f.putAllocator a
  match r with
  | .error hr => some (f, .error hr)
  | .ok pOutSample =>
    let m_bSampleSkipped := f.m_bSampleSkipped && !has pProps.dwSampleFlags SampleFlag.Discontinuity
    some ({ f with m_bSampleSkipped }, .ok (copyProps pProps OutProps pOutSample))

/-! ## `Receive` -/

/-- A filter with samples passing through it. -/
structure Stream where
  filter : CTransformFilter CMemAllocator
  /-- The output samples that others hold. -/
  held : List CMediaSample
  file : List BYTE
  /-- The output samples passed on so far, each with the input sample it was made from. -/
  delivered : List (IMediaSample × CMediaSample)

/-- What the system answers in one `Receive`, and what lies on the stack. -/
structure ReceiveEnv where
  OutProps : AM_SAMPLE2_PROPERTIES
  transform : TransformEnv

namespace Stream

/-- The filter releases an output sample. -/
def release (s : Stream) (pOutSample : CMediaSample) : Stream :=
  match pOutSample.Release with
  | .held t => { s with held := t :: s.held }
  | .final t =>
    match s.filter.m_pOutput.m_pAllocator with
    | none => s
    | some a => { s with filter := s.filter.putAllocator (a.ReleaseBuffer t) }

def setSkipped (s : Stream) (m_bSampleSkipped : Bool) : Stream := { s with filter := { s.filter with m_bSampleSkipped } }

variable {D : Type}

/-- `CTransformFilter::Receive`. `deliver` is the `Receive` of the connected pin,
in a state `D` of the filters downstream: its result, and what it does to the
sample it is given. -/
def transformSample (c : Filter) (env : ReceiveEnv) (deliver : D → IMediaSample → Option (D × HRESULT × Use))
    (s : Stream) (d : D) (pSample : IMediaSample) : Option (Stream × D × HRESULT) :=
  if s.filter.m_pInput.m_SampleProps.dwStreamId ≠ AM_STREAM_MEDIA then do
    let (d, hr, _) ← deliver d pSample
    some (s, d, hr)
  else do
    let (filter, r) ← s.filter.InitializeOutputSample env.OutProps
    let s := { s with filter }
    match r with
    | .error hr => some (s, d, hr)
    | .ok pOutSample =>
      let (pOutSample, hr, file) ← c.Transform env.transform s.filter pSample pOutSample s.file
      let s := { s with file }
      if hr.FAILED then some (s.release pOutSample, d, hr)
      else if hr = NOERROR then
        let (d, hr, use) ← deliver d pOutSample.view
        let s := { s with delivered := s.delivered ++ [(pSample, pOutSample)] }
        some ((s.setSkipped false).release (use.apply pOutSample), d, hr)
      else if hr = S_FALSE then some ((s.release pOutSample).setSkipped true, d, NOERROR)
      else some (s.release pOutSample, d, hr)

/-- `CTransformInputPin::Receive`. -/
def Receive (c : Filter) (env : ReceiveEnv) (deliver : D → IMediaSample → Option (D × HRESULT × Use))
    (s : Stream) (d : D) (pSample : IMediaSample) : Option (Stream × D × HRESULT) := do
  let (filter, hr) ← s.filter.checkSample c pSample
  let s := { s with filter }
  if hr = S_OK then s.transformSample c env deliver d pSample else some (s, d, hr)

/-! ## The machine -/

/-- What can happen to a filter: a call of the control machine, a sample from
upstream with the reaction of the filters downstream, and what the holders of
the output samples do. -/
inductive Event (P : Type) where
  | call (op : Op CMemAllocator AllocEnv P)
  | Receive (pSample : IMediaSample) (env : ReceiveEnv) (hr : HRESULT) (use : Use)
  | use (i : Nat) (u : Use)
  | Release (i : Nat)

variable {P : Type} [IPin P CMemAllocator]

/-- A call that brings a sample, which is an event of its own. -/
def isReceive : Op CMemAllocator AllocEnv P → Bool
  | .Receive _ => true
  | _ => false

/-- Samples of an allocator that the output pin has given up no longer come back. -/
def step (c : Filter) (s : Stream) : Event P → Option Stream
  | .call op =>
    if isReceive op then none
    else do
      let filter ← s.filter.step c op
      some { s with filter, held := if filter.m_pOutput.m_Connected then s.held else [] }
  | .Receive pSample env hr use =>
    (s.Receive c env (fun _ _ => some ((), hr, use)) () pSample).map Prod.fst
  | .use i u => do
    let t ← s.held[i]?
    some { s with held := s.held.set i (u.apply t) }
  | .Release i => do
    let t ← s.held[i]?
    some ({ s with held := s.held.eraseIdx i }.release t)

/-! ## What a call of `Receive` can do -/

/-- The sample that `GetBuffer` would hand out. -/
def nextFree (s : Stream) : Option FreeSample := do
  let a ← s.filter.m_pOutput.m_pAllocator
  if a.m_bCommitted then a.m_lFree.head? else none

/-- The properties of the sample, as the input pin reads them. -/
def props (s : Stream) (pSample : IMediaSample) : AM_SAMPLE2_PROPERTIES :=
  (readProps pSample s.filter.m_pInput.m_SampleProps).2

/-- The sample passes the check, is of the media stream, finds a free output
sample and answers about its flags. -/
def Delivers (c : Filter) (s : Stream) (pSample : IMediaSample) : Prop :=
  (∃ f, s.filter.checkSample c pSample = some (f, S_OK)) ∧ (s.props pSample).dwStreamId = AM_STREAM_MEDIA ∧
    s.nextFree.isSome ∧ pSample.Answers

theorem InitializeOutputSample_ok {f f' : CTransformFilter CMemAllocator} {OutProps : AM_SAMPLE2_PROPERTIES}
    {pOut : CMediaSample} (h : f.InitializeOutputSample OutProps = some (f', .ok pOut)) :
    ∃ (a : CMemAllocator) (free : FreeSample) (rest : List FreeSample), f.m_pOutput.m_pAllocator = some a ∧
      a.m_bCommitted = true ∧ a.m_lFree = free :: rest ∧
      pOut = copyProps f.m_pInput.m_SampleProps OutProps free.1.AddRef ∧ SameTypes f f' := by
  simp only [InitializeOutputSample, Option.bind_eq_bind, Option.bind_eq_some_iff] at h
  obtain ⟨a, ha, ⟨a', r⟩, hget, h⟩ := h
  cases r with
  | error hr => cases h
  | ok s =>
    obtain ⟨free, rest, hc, hfree, rfl, -⟩ := CMemAllocator.GetBuffer_ok hget
    cases h
    exact ⟨a, free, rest, ha, hc, hfree, rfl, ⟨rfl, rfl, rfl, rfl⟩⟩

theorem InitializeOutputSample_error {f f' : CTransformFilter CMemAllocator} {OutProps : AM_SAMPLE2_PROPERTIES}
    {hr : HRESULT} (h : f.InitializeOutputSample OutProps = some (f', .error hr)) :
    SameTypes f f' ∧ ∀ a, f.m_pOutput.m_pAllocator = some a → a.m_bCommitted = false ∨ a.m_lFree = [] := by
  simp only [InitializeOutputSample, Option.bind_eq_bind, Option.bind_eq_some_iff] at h
  obtain ⟨a, ha, ⟨a', r⟩, hget, h⟩ := h
  cases r with
  | ok s => cases h
  | error hr' =>
    cases h
    refine ⟨⟨rfl, rfl, rfl, rfl⟩, fun b hb => ?_⟩
    rw [ha] at hb
    cases hb
    exact (CMemAllocator.GetBuffer_error hget).2

theorem sameTypes_release {f : CTransformFilter CMemAllocator} {s : Stream} (h : SameTypes f s.filter)
    (pOut : CMediaSample) : SameTypes f (s.release pOut).filter := by
  unfold release
  split
  · exact h
  · split
    · exact h
    · exact h.trans ⟨rfl, rfl, rfl, rfl⟩

theorem sameTypes_setSkipped {f : CTransformFilter CMemAllocator} {s : Stream} (h : SameTypes f s.filter)
    (b : Bool) : SameTypes f (s.setSkipped b).filter := h.trans ⟨rfl, rfl, rfl, rfl⟩

@[simp] theorem release_file (s : Stream) (pOut : CMediaSample) : (s.release pOut).file = s.file := by
  unfold release
  split
  · rfl
  · split <;> rfl

@[simp] theorem release_delivered (s : Stream) (pOut : CMediaSample) : (s.release pOut).delivered = s.delivered := by
  unfold release
  split
  · rfl
  · split <;> rfl

/-- Nothing was passed on: no connection, type, file or history has changed. -/
structure Unchanged (s s' : Stream) : Prop where
  types : SameTypes s.filter s'.filter
  file : s'.file = s.file
  delivered : s'.delivered = s.delivered

/-- An output sample was made from `pSample` and passed on. -/
structure Delivered (c : Filter) (env : ReceiveEnv) (s s' : Stream) (pSample : IMediaSample) (pOut : CMediaSample) : Prop where
  types : SameTypes s.filter s'.filter
  delivers : s.Delivers c pSample
  made : ∀ free, s.nextFree = some free → c.Transform env.transform s.filter pSample
    (copyProps (s.props pSample) env.OutProps free.1.AddRef) s.file = some (pOut, NOERROR, s'.file)
  delivered : s'.delivered = s.delivered ++ [(pSample, pOut)]

variable {D : Type} {c : Filter} {env : ReceiveEnv} {deliver : D → IMediaSample → Option (D × HRESULT × Use)}
  {s s' : Stream} {d d' : D} {pSample : IMediaSample} {hr : HRESULT}

/-- What `Receive` can do: pass nothing on, pass the sample itself on, or pass on
an output sample that was made from it. -/
def Outcome (c : Filter) (env : ReceiveEnv) (deliver : D → IMediaSample → Option (D × HRESULT × Use)) (s : Stream) (d : D)
    (pSample : IMediaSample) (s' : Stream) (d' : D) (hr : HRESULT) : Prop :=
  (Unchanged s s' ∧ d' = d ∧ ¬ s.Delivers c pSample) ∨
  (Unchanged s s' ∧ (s.props pSample).dwStreamId ≠ AM_STREAM_MEDIA ∧ ∃ use, deliver d pSample = some (d', hr, use)) ∨
  ∃ pOut use, Delivered c env s s' pSample pOut ∧ deliver d pOut.view = some (d', hr, use)

/-- From the output sample on: deliver it when `Transform` has succeeded, and release it. -/
theorem transformSample_made {f f' : CTransformFilter CMemAllocator} {pOut0 : CMediaSample}
    (hcheck : s.filter.checkSample c pSample = some (f, S_OK))
    (hstream : (s.props pSample).dwStreamId = AM_STREAM_MEDIA)
    (hinit : f.InitializeOutputSample env.OutProps = some (f', .ok pOut0))
    (h : ({ s with filter := f } : Stream).transformSample c env deliver d pSample = some (s', d', hr)) :
    Outcome c env deliver s d pSample s' d' hr := by
  have hf := checkSample_ok hcheck
  have hprops : f.m_pInput.m_SampleProps = s.props pSample := by rw [hf]; rfl
  obtain ⟨a, free, rest, ha, hcommit, hfree, hout, hsame⟩ := InitializeOutputSample_ok hinit
  rw [hprops] at hout
  have hnext : s.nextFree = some free := by
    have halloc : s.filter.m_pOutput.m_pAllocator = some a := by rw [← ha, hf]
    simp [nextFree, halloc, hcommit, hfree]
  have htypes := (Quiet.checkSample hcheck).toSameTypes.trans hsame
  simp only [transformSample, hprops, hstream, ne_eq, not_true, if_false, hinit, Option.bind_eq_bind, Option.bind_some,
    Option.bind_eq_some_iff] at h
  obtain ⟨⟨pOut, hr2, file⟩, htrans, h⟩ := h
  rw [c.Transform_congr htypes.inputType, hout] at htrans
  obtain ⟨m_pBuffer, hmeta, -⟩ := Filter.Transform_result htrans
  -- `Transform` has copied by the time it asks for the metadata, so it succeeds
  -- exactly when the sample answers.
  have hanswer : hr2 = NOERROR ↔ pSample.Answers := by rw [← copyMetadata_ok, hmeta]
  have hundelivered : hr2 ≠ NOERROR → file = s.file ∧ ¬ s.Delivers c pSample :=
    fun hne => ⟨Filter.Transform_file htrans hne, fun hd => hne (hanswer.2 hd.2.2.2)⟩
  dsimp only at h
  split at h
  · rename_i hfail
    cases h
    obtain ⟨hfile, hno⟩ := hundelivered (by rintro rfl; cases hfail)
    exact .inl ⟨⟨sameTypes_release htypes _, by simp [hfile], by simp⟩, rfl, hno⟩
  · split at h
    · rename_i hok
      subst hok
      simp only [Option.bind_eq_some_iff] at h
      obtain ⟨⟨d1, hr1, use⟩, hdel, h⟩ := h
      cases h
      have hdelivers : s.Delivers c pSample := ⟨⟨f, hcheck⟩, hstream, by rw [hnext]; rfl, hanswer.1 rfl⟩
      refine .inr (.inr ⟨pOut, use, ⟨sameTypes_release (sameTypes_setSkipped htypes _) _, hdelivers, ?_, ?_⟩, hdel⟩)
      · intro free' hf'
        rw [hnext] at hf'
        cases hf'
        simpa [setSkipped] using htrans
      · simp [setSkipped]
    · rename_i hne
      obtain ⟨hfile, hno⟩ := hundelivered hne
      split at h <;> cases h
      · exact .inl ⟨⟨sameTypes_setSkipped (sameTypes_release htypes _) _, by simp [setSkipped, hfile],
          by simp [setSkipped]⟩, rfl, hno⟩
      · exact .inl ⟨⟨sameTypes_release htypes _, by simp [hfile], by simp⟩, rfl, hno⟩

theorem Receive_cases (h : s.Receive c env deliver d pSample = some (s', d', hr)) :
    Outcome c env deliver s d pSample s' d' hr := by
  simp only [Receive, Option.bind_eq_bind, Option.bind_eq_some_iff] at h
  obtain ⟨⟨f, hr1⟩, hcheck, h⟩ := h
  have hquiet := (Quiet.checkSample hcheck).toSameTypes
  dsimp only at h hquiet
  split at h
  -- The check leaves nothing but the properties, which say whose stream it is.
  · rename_i hok
    subst hok
    have hf := checkSample_ok hcheck
    have hprops : f.m_pInput.m_SampleProps = s.props pSample := by rw [hf]; rfl
    by_cases hstream : (s.props pSample).dwStreamId = AM_STREAM_MEDIA
    · have hcopy := h
      simp only [transformSample, hprops, hstream, ne_eq, not_true, if_false, Option.bind_eq_bind,
        Option.bind_eq_some_iff] at h
      obtain ⟨⟨f2, r⟩, hinit, h⟩ := h
      cases r with
      | ok pOut0 => exact transformSample_made hcheck hstream hinit hcopy
      | error hr2 =>
        obtain ⟨hsame, hnone⟩ := InitializeOutputSample_error hinit
        cases h
        refine .inl ⟨⟨hquiet.trans hsame, rfl, rfl⟩, rfl, fun hd => ?_⟩
        obtain ⟨free, hfree⟩ := Option.isSome_iff_exists.1 hd.2.2.1
        simp only [nextFree, Option.bind_eq_bind, Option.bind_eq_some_iff] at hfree
        obtain ⟨a, ha, hfree⟩ := hfree
        have halloc : f.m_pOutput.m_pAllocator = some a := by rw [hf]; exact ha
        rcases hnone a halloc with hc | hc <;> simp [hc] at hfree
    · simp only [transformSample, hprops, hstream, ne_eq, not_false_eq_true, if_true, Option.bind_eq_bind,
        Option.bind_eq_some_iff] at h
      obtain ⟨⟨d1, hr1, use⟩, hdel, h⟩ := h
      cases h
      exact .inr (.inl ⟨⟨hquiet, rfl, rfl⟩, hstream, use, hdel⟩)
  · rename_i hne
    cases h
    refine .inl ⟨⟨hquiet, rfl, rfl⟩, rfl, fun hd => ?_⟩
    obtain ⟨⟨f', hok⟩, -⟩ := hd
    rw [hcheck] at hok
    cases hok
    exact hne rfl

/-- What an event does to the file and to what has been delivered. -/
theorem step_cases {P : Type} [IPin P CMemAllocator] {e : Event P} (h : s.step c e = some s') :
    (s'.file = s.file ∧ s'.delivered = s.delivered ∧
      ∀ pSample env hr use, e = .Receive pSample env hr use → ¬ s.Delivers c pSample) ∨
    ∃ pSample env hr use pOut, e = .Receive pSample env hr use ∧ Delivered c env s s' pSample pOut := by
  cases e with
  | call op =>
    simp only [Stream.step] at h
    split at h
    · cases h
    · simp only [Option.bind_eq_bind, Option.bind_eq_some_iff] at h
      obtain ⟨f, -, h⟩ := h
      cases h
      exact .inl ⟨rfl, rfl, fun _ _ _ _ he => nomatch he⟩
  | Receive pSample env hr use =>
    simp only [Stream.step, Option.map_eq_some_iff] at h
    obtain ⟨⟨s1, d1, hr1⟩, h, rfl⟩ := h
    rcases Receive_cases h with ⟨hsame, -, hno⟩ | ⟨hsame, hstream, -⟩ | ⟨pOut, use', hdel, -⟩
    · exact .inl ⟨hsame.file, hsame.delivered, fun _ _ _ _ he => by cases he; exact hno⟩
    · exact .inl ⟨hsame.file, hsame.delivered, fun _ _ _ _ he => by cases he; exact fun hd => hstream hd.2.1⟩
    · exact .inr ⟨pSample, env, hr, use, pOut, rfl, hdel⟩
  | use i u =>
    simp only [Stream.step, Option.bind_eq_bind, Option.bind_eq_some_iff] at h
    obtain ⟨t, -, h⟩ := h
    cases h
    exact .inl ⟨rfl, rfl, fun _ _ _ _ he => nomatch he⟩
  | Release i =>
    simp only [Stream.step, Option.bind_eq_bind, Option.bind_eq_some_iff] at h
    obtain ⟨t, -, h⟩ := h
    cases h
    exact .inl ⟨by simp, by simp, fun _ _ _ _ he => nomatch he⟩

section Filter

variable {P : Type} [IPin P CMemAllocator]

/-- What an event does to the filter of a stream: a call of the control machine,
or nothing that shows in connections and types. -/
theorem step_filter {e : Event P} (h : Stream.step c s e = some s') :
    (∃ op : Op CMemAllocator AllocEnv P, s.filter.step c op = some s'.filter) ∨ SameTypes s.filter s'.filter := by
  cases e with
  | call op =>
    simp only [Stream.step] at h
    split at h
    · cases h
    · simp only [Option.bind_eq_bind, Option.bind_eq_some_iff] at h
      obtain ⟨f, hf, h⟩ := h
      cases h
      exact .inl ⟨op, hf⟩
  | Receive pSample env hr use =>
    simp only [Stream.step, Option.map_eq_some_iff] at h
    obtain ⟨⟨s1, d1, hr1⟩, h, rfl⟩ := h
    rcases Receive_cases h with ⟨hsame, -⟩ | ⟨hsame, -⟩ | ⟨pOut, use', hdel, -⟩
    · exact .inr hsame.types
    · exact .inr hsame.types
    · exact .inr hdel.types
  | use i u =>
    simp only [Stream.step, Option.bind_eq_bind, Option.bind_eq_some_iff] at h
    obtain ⟨t, -, h⟩ := h
    cases h
    exact .inr (SameTypes.refl _)
  | Release i =>
    simp only [Stream.step, Option.bind_eq_bind, Option.bind_eq_some_iff] at h
    obtain ⟨t, -, h⟩ := h
    cases h
    exact .inr (sameTypes_release (s := { s with held := s.held.eraseIdx i }) (SameTypes.refl _) t)

theorem negotiated_event {e : Event P} (hi : Negotiated c s.filter)
    (h : Stream.step c s e = some s') : Negotiated c s'.filter := by
  rcases step_filter h with ⟨op, hop⟩ | hsame
  · exact negotiated_step hi hop
  · exact hi.of_sameTypes hsame

/-- A pin that stays connected keeps its type. -/
theorem event_keeps_type {e : Event P} (dir : PIN_DIRECTION)
    (h : Stream.step c s e = some s') (hc : s.filter.IsConnected dir = true) (hc' : s'.filter.IsConnected dir = true) :
    s'.filter.CurrentMediaType dir = s.filter.CurrentMediaType dir := by
  rcases step_filter h with ⟨op, hop⟩ | hsame
  · exact step_keeps_type hop hc hc'
  · cases dir
    · exact hsame.inputType
    · exact hsame.outputType

/-- The stream of a sample does not depend on who reads its properties. -/
theorem props_stream (s t : Stream) (pSample : IMediaSample) :
    (s.props pSample).dwStreamId = (t.props pSample).dwStreamId := by
  unfold props readProps
  split <;> rfl

/-- An output sample is of the media stream, as every sample from the pool is. -/
theorem delivered_stream {pOut : CMediaSample} (h : Delivered c env s s' pSample pOut) : pOut.m_dwStreamId = AM_STREAM_MEDIA := by
  obtain ⟨free, hfree⟩ := Option.isSome_iff_exists.1 h.delivers.2.2.1
  obtain ⟨m_pBuffer, hmeta, -⟩ := Filter.Transform_result (h.made free hfree)
  have hcopy := (copyMetadata_buffer pSample
    { copyProps (s.props pSample) env.OutProps free.1.AddRef with m_pBuffer }).m_dwStreamId
  rw [hmeta] at hcopy
  exact hcopy.trans ((copyProps_buffer _ _ _).1.m_dwStreamId.trans free.2.2.2)

end Filter

/-! ## Values for scenarios -/

/-- A filter that nobody has called. -/
def new : Stream := ⟨.new, [], [], []⟩

/-- Nobody touches the sample. -/
def noUse : Use := ⟨id, fun _ => rfl, fun _ => rfl⟩

/-- Everything works. -/
def steady : ReceiveEnv := ⟨.zero, true, true, true, true⟩

end Stream

end FilterSln
