import FilterSln.Connect
/-!
# The filter as a state machine

States, flushing and the check that every sample passes first
(`CBaseInputPin::Receive`), for a transform filter of class `c`, and the machine
of all the calls a filter gets from the graph and from its two neighbours
(`Op`, `step`). The calls come one at a time: the filter lock serialises them.

`agree_step` is the invariant behind the picture geometry: whatever was
connected, refused or disconnected before, two connected pins have equal types.
-/

namespace FilterSln

open HRESULT Lib.Flags

variable {α Env P : Type} [IMemAllocator α Env] [IPin P α]

namespace CTransformFilter

/-! ## The allocator of the input pin -/

/-- `CBaseInputPin::GetAllocator`, which makes an allocator at the first call. -/
def GetAllocator (f : CTransformFilter α) (CreateMemoryAllocator : HRESULT × Option α) :
    CTransformFilter α × HRESULT × Option α :=
  match f.m_pInput.m_pAllocator with
  | some a => (f, NOERROR, some a)
  | none =>
    let (hr, pAllocator) := CreateMemoryAllocator
    if hr.FAILED then (f, hr, none)
    else ({ f with m_pInput := { f.m_pInput with m_pAllocator := pAllocator } }, NOERROR, pAllocator)

def NotifyAllocator (f : CTransformFilter α) (pAllocator : α) : CTransformFilter α × HRESULT :=
  ({ f with m_pInput := { f.m_pInput with m_pAllocator := some pAllocator } }, NOERROR)

/-! ## States -/

/-- `CBaseInputPin::Inactive`. -/
def inputInactive (f : CTransformFilter α) : CTransformFilter α × HRESULT :=
  let f := { f with m_pInput := { f.m_pInput with m_bRunTimeError := false } }
  match f.m_pInput.m_pAllocator with
  | none => (f, VFW_E_NO_ALLOCATOR)
  | some a =>
    let (a, hr) := IMemAllocator.Decommit a
    ({ f with m_pInput := { f.m_pInput with m_bFlushing := false, m_pAllocator := some a } }, hr)

/-- `CBaseOutputPin::Inactive`. -/
def outputInactive (f : CTransformFilter α) : CTransformFilter α × HRESULT :=
  match f.m_pOutput.m_pAllocator with
  | none => (f, VFW_E_NO_ALLOCATOR)
  | some a =>
    let (a, hr) := IMemAllocator.Decommit a
    ({ f with m_pOutput := { f.m_pOutput with m_pAllocator := some a } }, hr)

/-- `CBaseOutputPin::Active`. -/
def outputActive (f : CTransformFilter α) (env : Env) : CTransformFilter α × HRESULT :=
  match f.m_pOutput.m_pAllocator with
  | none => (f, VFW_E_NO_ALLOCATOR)
  | some a =>
    let (a, hr) := IMemAllocator.Commit a env
    ({ f with m_pOutput := { f.m_pOutput with m_pAllocator := some a } }, hr)

def Stop (f : CTransformFilter α) : CTransformFilter α × HRESULT :=
  if f.IsStopped then (f, NOERROR)
  else if !f.m_pInput.m_Connected ∨ !f.m_pOutput.m_Connected then
    ({ f with m_State := .State_Stopped }, NOERROR)
  else
    let (f, _) := f.inputInactive
    let (f, _) := f.outputInactive
    ({ f with m_State := .State_Stopped }, NOERROR)

def Pause (f : CTransformFilter α) (env : Env) : CTransformFilter α × HRESULT :=
  let (f, hr) :=
    if f.m_State = .State_Paused then (f, NOERROR)
    else if !f.m_pInput.m_Connected ∨ !f.m_pOutput.m_Connected then
      ({ f with m_State := .State_Paused }, NOERROR)
    else
      -- `CBaseFilter::Pause`: the input pin's `Active` does nothing.
      let (f, hr) := if f.IsStopped then f.outputActive env else (f, NOERROR)
      if hr.FAILED then (f, hr) else ({ f with m_State := .State_Paused }, S_OK)
  ({ f with m_bSampleSkipped := false }, hr)

def Run (f : CTransformFilter α) (env : Env) : CTransformFilter α × HRESULT :=
  let (f, hr) := if f.IsStopped then f.Pause env else (f, NOERROR)
  if hr.FAILED then (f, hr) else ({ f with m_State := .State_Running }, S_OK)

/-! ## Flushing -/

/-- `BeginFlush`; `DeliverBeginFlush` is what the connected pin answers. -/
def BeginFlush (f : CTransformFilter α) (DeliverBeginFlush : HRESULT) : CTransformFilter α × HRESULT :=
  if !f.m_pInput.m_Connected ∨ !f.m_pOutput.m_Connected then (f, VFW_E_NOT_CONNECTED)
  else ({ f with m_pInput := { f.m_pInput with m_bFlushing := true } }, DeliverBeginFlush)

def EndFlush (f : CTransformFilter α) (DeliverEndFlush : HRESULT) : CTransformFilter α × HRESULT :=
  if !f.m_pInput.m_Connected ∨ !f.m_pOutput.m_Connected then (f, VFW_E_NOT_CONNECTED)
  else if DeliverEndFlush.FAILED then (f, DeliverEndFlush)
  else ({ f with m_pInput := { f.m_pInput with m_bFlushing := false, m_bRunTimeError := false } }, S_OK)

/-! ## The check of a sample -/

/-- `CTransformInputPin::CheckStreaming`. -/
def CheckStreaming (f : CTransformFilter α) : HRESULT :=
  if !f.m_pOutput.m_Connected then VFW_E_NOT_CONNECTED
  else if f.m_pInput.m_bFlushing then S_FALSE
  else if f.IsStopped then VFW_E_WRONG_STATE
  else if f.m_pInput.m_bRunTimeError then VFW_E_RUNTIME_ERROR
  else S_OK

/-- The properties of a sample without `IMediaSample2`, over those of the last one. -/
def propsTheHardWay (pSample : IMediaSample) (m_SampleProps : AM_SAMPLE2_PROPERTIES) : AM_SAMPLE2_PROPERTIES :=
  let flag (b : Bool) (a : SampleFlag) : DWORD := if b then mask a else 0
  { cbData := 48
    dwTypeSpecificFlags := 0
    dwStreamId := AM_STREAM_MEDIA
    dwSampleFlags :=
      flag (pSample.IsDiscontinuity = S_OK) .Discontinuity ||| flag (pSample.IsPreroll = S_OK) .Preroll |||
      flag (pSample.IsSyncPoint = S_OK) .SyncPoint |||
      flag pSample.GetTime.1.SUCCEEDED .TimeValid ||| flag pSample.GetTime.1.SUCCEEDED .StopValid |||
      flag (pSample.GetMediaType.1 = S_OK) .TypeChanged
    tStart := (pSample.GetTime.2.map Prod.fst).getD m_SampleProps.tStart
    tStop := (pSample.GetTime.2.map Prod.snd).getD m_SampleProps.tStop
    pMediaType := pSample.GetMediaType.2
    pbBuffer := pSample.GetPointer.addr
    lActual := pSample.GetActualDataLength
    cbBuffer := pSample.GetSize }

/-- The properties of a sample, and whether reading them worked. -/
def readProps (pSample : IMediaSample) (m_SampleProps : AM_SAMPLE2_PROPERTIES) : HRESULT × AM_SAMPLE2_PROPERTIES :=
  match pSample.IMediaSample2 with
  | some answer => answer
  | none => (NOERROR, propsTheHardWay pSample m_SampleProps)

/-- `CBaseInputPin::Receive`. `none` when a type is announced but missing, or
its format block is too short for the check. -/
def checkSample (c : Filter) (f : CTransformFilter α) (pSample : IMediaSample) :
    Option (CTransformFilter α × HRESULT) :=
  let hr := f.CheckStreaming
  if hr ≠ S_OK then some (f, hr)
  else
    let (hr, m_SampleProps) := readProps pSample f.m_pInput.m_SampleProps
    let f := { f with m_pInput := { f.m_pInput with m_SampleProps } }
    if hr.FAILED then some (f, hr)
    else if !has m_SampleProps.dwSampleFlags SampleFlag.TypeChanged then some (f, NOERROR)
    else do
      let pMediaType ← m_SampleProps.pMediaType
      let hr ← f.CheckMediaType c .PINDIR_INPUT pMediaType
      if hr = NOERROR then some (f, NOERROR)
      else some ({ f with m_pInput := { f.m_pInput with m_bRunTimeError := true } }, VFW_E_INVALIDMEDIATYPE)

/-! ## The machine -/

/-- The calls a filter gets. `Commit` and `Decommit` are calls of the downstream
filter on the allocator it shares with the output pin. -/
inductive Op (α Env P : Type) where
  | Connect (dir : PIN_DIRECTION) (env : AgreeEnv α) (pReceivePin : P) (pmt : Option CMediaType)
  | ReceiveConnection (dir : PIN_DIRECTION) (env : ConnectEnv α) (pConnector : P) (pmt : CMediaType)
  | Disconnect (dir : PIN_DIRECTION)
  | GetAllocator (CreateMemoryAllocator : HRESULT × Option α)
  | NotifyAllocator (pAllocator : α)
  | Stop
  | Pause (env : Env)
  | Run (env : Env)
  | BeginFlush (DeliverBeginFlush : HRESULT)
  | EndFlush (DeliverEndFlush : HRESULT)
  | Receive (pSample : IMediaSample)
  | Commit (env : Env)
  | Decommit

def step (c : Filter) (f : CTransformFilter α) : Op α Env P → Option (CTransformFilter α)
  | .Connect dir env pReceivePin pmt => (f.Connect c env dir pReceivePin pmt).map Prod.fst
  | .ReceiveConnection dir env pConnector pmt => (f.ReceiveConnection c env dir pConnector pmt).map Prod.fst
  | .Disconnect dir => some (f.Disconnect dir).1
  | .GetAllocator a => some (f.GetAllocator a).1
  | .NotifyAllocator a => some (f.NotifyAllocator a).1
  | .Stop => some f.Stop.1
  | .Pause env => some (f.Pause env).1
  | .Run env => some (f.Run env).1
  | .BeginFlush hr => some (f.BeginFlush hr).1
  | .EndFlush hr => some (f.EndFlush hr).1
  -- The connections only see the check of the sample; the rest is `Stream.Receive`.
  | .Receive pSample => (f.checkSample c pSample).map Prod.fst
  | .Commit env => some (f.outputActive env).1
  | .Decommit => some f.outputInactive.1

/-! ## What a call can do -/

/-- Committing and decommitting keep `I`. -/
def Stable (I : α → Prop) : Prop :=
  (∀ a env, I a → I (IMemAllocator.Commit a env).1) ∧ ∀ a, I a → I (IMemAllocator.Decommit a).1

/-- The output pin holds an allocator with `I`. -/
def Allocated (I : α → Prop) (f : CTransformFilter α) : Prop :=
  ∃ a, f.m_pOutput.m_pAllocator = some a ∧ I a

/-- From `f` to `f'` no connection and no type has changed. -/
structure SameTypes (f f' : CTransformFilter α) : Prop where
  input : f'.m_pInput.m_Connected = f.m_pInput.m_Connected
  output : f'.m_pOutput.m_Connected = f.m_pOutput.m_Connected
  inputType : f'.m_pInput.m_mt = f.m_pInput.m_mt
  outputType : f'.m_pOutput.m_mt = f.m_pOutput.m_mt

theorem SameTypes.refl (f : CTransformFilter α) : SameTypes f f := ⟨rfl, rfl, rfl, rfl⟩

theorem SameTypes.trans {f f' f'' : CTransformFilter α} (h : SameTypes f f') (h' : SameTypes f' f'') :
    SameTypes f f'' :=
  ⟨h'.input.trans h.input, h'.output.trans h.output, h'.inputType.trans h.inputType, h'.outputType.trans h.outputType⟩

/-- Besides, the output pin's allocator has changed at most by commits and decommits. -/
structure Quiet (f f' : CTransformFilter α) : Prop extends SameTypes f f' where
  allocator : ∀ I : α → Prop, Stable I → Allocated I f → Allocated I f'

variable {c : Filter} {f f' : CTransformFilter α} {dir : PIN_DIRECTION}

namespace Quiet

theorem refl (f : CTransformFilter α) : Quiet f f := ⟨⟨rfl, rfl, rfl, rfl⟩, fun _ _ h => h⟩

theorem trans {g : CTransformFilter α} (h : Quiet f g) (h' : Quiet g f') : Quiet f f' :=
  ⟨h.toSameTypes.trans h'.toSameTypes, fun I hI ha => h'.allocator I hI (h.allocator I hI ha)⟩

theorem inputInactive (f : CTransformFilter α) : Quiet f f.inputInactive.1 := by
  unfold CTransformFilter.inputInactive
  dsimp only
  split <;> exact ⟨⟨rfl, rfl, rfl, rfl⟩, fun _ _ h => h⟩

/-- The allocator after a call of its own. -/
theorem setAllocator {f : CTransformFilter α} {a a' : α} (ha : f.m_pOutput.m_pAllocator = some a)
    (hcall : ∀ I : α → Prop, Stable I → I a → I a') :
    Quiet f { f with m_pOutput := { f.m_pOutput with m_pAllocator := some a' } } := by
  refine ⟨⟨rfl, rfl, rfl, rfl⟩, ?_⟩
  intro I hI h
  obtain ⟨b, hb, h⟩ := h
  rw [ha] at hb
  cases hb
  exact ⟨a', rfl, hcall I hI h⟩

theorem outputInactive (f : CTransformFilter α) : Quiet f f.outputInactive.1 := by
  unfold CTransformFilter.outputInactive
  split
  · exact refl f
  · rename_i a ha
    exact setAllocator ha fun I hI => hI.2 a

theorem outputActive (f : CTransformFilter α) (env : Env) : Quiet f (f.outputActive env).1 := by
  unfold CTransformFilter.outputActive
  split
  · exact refl f
  · rename_i a ha
    exact setAllocator ha fun I hI => hI.1 a env

/-- Fields that no connection depends on. -/
theorem setState (f : CTransformFilter α) (s : FILTER_STATE) (b : Bool) :
    Quiet f { f with m_State := s, m_bSampleSkipped := b } := ⟨⟨rfl, rfl, rfl, rfl⟩, fun _ _ h => h⟩

theorem Stop (f : CTransformFilter α) : Quiet f f.Stop.1 := by
  unfold CTransformFilter.Stop
  split
  · exact refl f
  · split
    · exact setState f _ _
    · exact ((inputInactive f).trans (outputInactive _)).trans (setState _ _ _)

theorem Pause (f : CTransformFilter α) (env : Env) : Quiet f (f.Pause env).1 := by
  unfold CTransformFilter.Pause
  dsimp only
  split
  · exact setState f _ _
  · split
    · exact setState f _ _
    · split
      · split
        · exact (outputActive f env).trans (setState _ _ _)
        · exact (outputActive f env).trans (setState _ _ _)
      · exact setState f _ _

theorem Run (f : CTransformFilter α) (env : Env) : Quiet f (f.Run env).1 := by
  unfold CTransformFilter.Run
  dsimp only
  split
  · split
    · exact Pause f env
    · exact (Pause f env).trans (setState _ _ _)
  · exact setState f _ _

theorem BreakConnect_failed (hf : (f.BreakConnect dir).2.FAILED = true) : Quiet f (f.BreakConnect dir).1 := by
  cases dir with
  | PINDIR_INPUT =>
    unfold CTransformFilter.BreakConnect
    dsimp only
    split
    · exact refl f
    · split <;> exact ⟨⟨rfl, rfl, rfl, rfl⟩, fun _ _ h => h⟩
  | PINDIR_OUTPUT =>
    unfold CTransformFilter.BreakConnect at hf ⊢
    dsimp only at hf ⊢
    split at hf
    · cases hf
    · rename_i a ha
      split at hf
      · rename_i hd
        rw [if_pos hd]
        exact setAllocator ha fun I hI => hI.2 a
      · cases hf

theorem checkSample {pSample : IMediaSample} {hr : HRESULT} (h : f.checkSample c pSample = some (f', hr)) :
    Quiet f f' := by
  unfold CTransformFilter.checkSample at h
  dsimp only at h
  split at h
  · cases h; exact refl f
  · split at h
    · cases h; exact ⟨⟨rfl, rfl, rfl, rfl⟩, fun _ _ h => h⟩
    · split at h
      · cases h; exact ⟨⟨rfl, rfl, rfl, rfl⟩, fun _ _ h => h⟩
      · simp only [Option.bind_eq_bind, Option.bind_eq_some_iff] at h
        obtain ⟨mt, -, hr', -, h⟩ := h
        split at h <;> cases h <;> exact ⟨⟨rfl, rfl, rfl, rfl⟩, fun _ _ h => h⟩

end Quiet

/-- A sample that passes the check leaves nothing but its properties. -/
theorem checkSample_ok {pSample : IMediaSample}
    (h : f.checkSample c pSample = some (f', S_OK)) :
    f' = { f with m_pInput := { f.m_pInput with
            m_SampleProps := (readProps pSample f.m_pInput.m_SampleProps).2 } } := by
  unfold checkSample at h
  dsimp only at h
  split at h
  · rename_i hne
    rw [Option.some_inj, Prod.mk.injEq] at h
    exact absurd h.2 hne
  · split at h
    · rename_i hf
      rw [Option.some_inj, Prod.mk.injEq] at h
      rw [h.2] at hf
      cases hf
    · split at h
      · cases h; rfl
      · simp only [Option.bind_eq_bind, Option.bind_eq_some_iff] at h
        obtain ⟨mt, -, hr, -, h⟩ := h
        split at h <;> cases h
        rfl

/-- The types a call may give to the pin `dir`. -/
def Op.offers (c : Filter) (f : CTransformFilter α) (dir : PIN_DIRECTION) : Op α Env P → List CMediaType
  | .Connect d env pReceivePin pmt => if d = dir then f.proposals c env dir pReceivePin pmt else []
  | .ReceiveConnection d _ _ pmt => if d = dir then [pmt] else []
  | _ => []

/-- What a call can do: leave the connections as they are, leave one pin
unconnected, or attach one pin of the stopped filter that was not connected. -/
theorem step_cases {op : Op α Env P} (h : f.step c op = some f') :
    Quiet f f' ∨ (∃ dir, Frame dir f f' ∧ f'.IsConnected dir = false) ∨
    (∃ dir, ∃ mt ∈ op.offers c f dir, Frame dir f f' ∧ (f.IsConnected dir = false ∧ f.IsStopped = true) ∧
      Attached c dir f f' mt) := by
  cases op with
  | Connect dir env p pmt =>
    simp only [step, Option.map_eq_some_iff] at h
    obtain ⟨⟨f1, p1, hr⟩, h, rfl⟩ := h
    obtain ⟨hframe, rfl | ⟨hc, ⟨mt, hmt, hatt⟩ | hdis⟩⟩ := Connect_cases h
    · exact .inl (Quiet.refl f1)
    · exact .inr (.inr ⟨dir, mt, by simpa [Op.offers] using hmt, hframe, hc, hatt⟩)
    · exact .inr (.inl ⟨dir, hframe, hdis⟩)
  | ReceiveConnection dir env p pmt =>
    simp only [step, Option.map_eq_some_iff] at h
    obtain ⟨⟨f1, p1, hr⟩, h, rfl⟩ := h
    obtain ⟨hframe, ⟨rfl, -⟩ | ⟨hc, ⟨-, hatt⟩ | ⟨-, hdis⟩⟩⟩ := ReceiveConnection_cases h
    · exact .inl (Quiet.refl f1)
    · exact .inr (.inr ⟨dir, pmt, by simp [Op.offers], hframe, hc, hatt⟩)
    · exact .inr (.inl ⟨dir, hframe, hdis⟩)
  | Disconnect dir =>
    cases h
    obtain ⟨hframe, heq | ⟨heq, hf⟩ | hdis⟩ := Disconnect_cases f dir
    · rw [heq]; exact .inl (Quiet.refl f)
    · rw [heq]; exact .inl (Quiet.BreakConnect_failed hf)
    · exact .inr (.inl ⟨dir, hframe, hdis⟩)
  | GetAllocator a =>
    cases h
    refine .inl ?_
    unfold GetAllocator
    split
    · exact Quiet.refl f
    · dsimp only
      split <;> exact ⟨⟨rfl, rfl, rfl, rfl⟩, fun _ _ h => h⟩
  | NotifyAllocator a => cases h; exact .inl ⟨⟨rfl, rfl, rfl, rfl⟩, fun _ _ h => h⟩
  | Stop => cases h; exact .inl (Quiet.Stop f)
  | Pause env => cases h; exact .inl (Quiet.Pause f env)
  | Run env => cases h; exact .inl (Quiet.Run f env)
  | BeginFlush hr =>
    cases h
    refine .inl ?_
    unfold BeginFlush
    split <;> exact ⟨⟨rfl, rfl, rfl, rfl⟩, fun _ _ h => h⟩
  | EndFlush hr =>
    cases h
    refine .inl ?_
    unfold EndFlush
    split
    · exact Quiet.refl f
    · split <;> exact ⟨⟨rfl, rfl, rfl, rfl⟩, fun _ _ h => h⟩
  | Receive pSample =>
    simp only [step, Option.map_eq_some_iff] at h
    obtain ⟨⟨f1, hr⟩, h, rfl⟩ := h
    exact .inl (Quiet.checkSample h)
  | Commit env => cases h; exact .inl (Quiet.outputActive f env)
  | Decommit => cases h; exact .inl (Quiet.outputInactive f)

/-! ## The types of two connected pins are equal -/

/-- When both pins are connected, their types are equal. -/
def Agree (f : CTransformFilter α) : Prop :=
  f.m_pInput.m_Connected = true → f.m_pOutput.m_Connected = true → f.m_pInput.m_mt.eq f.m_pOutput.m_mt = true

/-- A type that passed the input pin's check while the output pin is connected. -/
theorem CheckMediaType_input {mt : CMediaType} (h : f.CheckMediaType c .PINDIR_INPUT mt = some NOERROR) :
    c.CheckInputType mt = some S_OK ∧ (f.m_pOutput.m_Connected = true → mt.eq f.m_pOutput.m_mt = true) := by
  simp only [CheckMediaType, Option.bind_eq_bind, Option.bind_eq_some_iff] at h
  obtain ⟨hr, hin, h⟩ := h
  split at h
  · rename_i hne
    cases h
    exact absurd rfl hne
  · rename_i hok
    rw [ne_eq, not_not] at hok
    subst hok
    refine ⟨hin, fun hc => ?_⟩
    rw [if_pos hc, c.CheckTransform_eq, Option.some_inj] at h
    exact sameType_ok.1 h

theorem CheckMediaType_output {mt : CMediaType} (h : f.CheckMediaType c .PINDIR_OUTPUT mt = some NOERROR) :
    f.m_pInput.m_Connected = true ∧ f.m_pInput.m_mt.eq mt = true := by
  simp only [CheckMediaType] at h
  split at h
  · cases h
  · rename_i hc
    rw [c.CheckTransform_eq, Option.some_inj] at h
    exact ⟨by simpa using hc, sameType_ok.1 h⟩

theorem agree_attached {mt : CMediaType} (hframe : Frame dir f f') (hatt : Attached c dir f f' mt) : Agree f' := by
  intro hin hout
  -- Whichever pin came second was checked against the other.
  cases dir with
  | PINDIR_INPUT =>
    obtain ⟨-, heq⟩ := CheckMediaType_input hatt.checked
    have hmt : f'.m_pInput.m_mt = mt := hatt.mt
    rw [hframe.output rfl] at hout ⊢
    rw [hmt]
    exact heq hout
  | PINDIR_OUTPUT =>
    obtain ⟨-, heq⟩ := CheckMediaType_output hatt.checked
    have hmt : f'.m_pOutput.m_mt = mt := hatt.mt
    rw [hframe.input rfl, hmt]
    exact heq

theorem agree_step {op : Op α Env P} (hi : Agree f) (h : f.step c op = some f') : Agree f' := by
  rcases step_cases h with hq | ⟨dir, -, hdis⟩ | ⟨dir, mt, -, hframe, -, hatt⟩
  · intro hin hout
    rw [hq.inputType, hq.outputType]
    exact hi (hq.input ▸ hin) (hq.output ▸ hout)
  · intro hin hout
    cases dir
    · exact absurd hin (by simpa [CTransformFilter.IsConnected] using hdis)
    · exact absurd hout (by simpa [CTransformFilter.IsConnected] using hdis)
  · exact agree_attached hframe hatt

theorem agree_new : Agree (new : CTransformFilter α) := nofun

/-- What holds of the types of a filter at all times: they agree, and a connected
input pin has a type that the filter accepts. -/
structure Negotiated (c : Filter) (f : CTransformFilter α) : Prop where
  agree : Agree f
  accepted : f.m_pInput.m_Connected = true → c.CheckInputType f.m_pInput.m_mt = some S_OK

theorem Negotiated.of_sameTypes (hi : Negotiated c f) (h : SameTypes f f') : Negotiated c f' := by
  refine ⟨fun hin hout => ?_, fun hin => ?_⟩
  · rw [h.inputType, h.outputType]
    exact hi.agree (h.input ▸ hin) (h.output ▸ hout)
  · rw [h.inputType]
    exact hi.accepted (h.input ▸ hin)

theorem negotiated_step {op : Op α Env P} (hi : Negotiated c f) (h : f.step c op = some f') : Negotiated c f' := by
  refine ⟨agree_step hi.agree h, fun hin => ?_⟩
  rcases step_cases h with hq | ⟨dir, hframe, hdis⟩ | ⟨dir, mt, -, hframe, -, hatt⟩
  · rw [hq.inputType]
    exact hi.accepted (hq.input ▸ hin)
  · cases dir with
    | PINDIR_INPUT => exact absurd hin (by simpa [CTransformFilter.IsConnected] using hdis)
    | PINDIR_OUTPUT =>
      rw [hframe.input rfl] at hin ⊢
      exact hi.accepted hin
  · cases dir with
    | PINDIR_INPUT =>
      have hmt : f'.m_pInput.m_mt = mt := hatt.mt
      rw [hmt]
      exact (CheckMediaType_input hatt.checked).1
    | PINDIR_OUTPUT =>
      rw [hframe.input rfl] at hin ⊢
      exact hi.accepted hin

theorem negotiated_new : Negotiated c (new : CTransformFilter α) := ⟨agree_new, nofun⟩

/-- A pin that stays connected keeps its type. -/
theorem step_keeps_type {op : Op α Env P} (h : f.step c op = some f') (hc : f.IsConnected dir = true)
    (hc' : f'.IsConnected dir = true) : f'.CurrentMediaType dir = f.CurrentMediaType dir := by
  -- A call on the other pin leaves this one alone.
  have hother : ∀ d, d ≠ dir → Frame d f f' → f'.CurrentMediaType dir = f.CurrentMediaType dir := by
    intro d hd hframe
    cases d <;> cases dir
    · exact absurd rfl hd
    · simp only [CurrentMediaType, hframe.output rfl]
    · simp only [CurrentMediaType, hframe.input rfl]
    · exact absurd rfl hd
  rcases step_cases h with hq | ⟨d, hframe, hdis⟩ | ⟨d, mt, -, hframe, ⟨hno, -⟩, -⟩
  · cases dir
    · exact hq.inputType
    · exact hq.outputType
  · refine hother d (fun hd => ?_) hframe
    rw [hd, hc'] at hdis
    cases hdis
  · refine hother d (fun hd => ?_) hframe
    rw [hd, hc] at hno
    cases hno

/-- A state after any calls, each meeting `C`, on a new filter. -/
def Reaches (c : Filter) (C : CTransformFilter α → Op α Env P → Prop) (f : CTransformFilter α) : Prop :=
  ∃ es : List (Op α Env P), Lib.Runs (step c) C new es f

theorem agree_reachable {C : CTransformFilter α → Op α Env P → Prop} (h : Reaches c C f) : Agree f := by
  obtain ⟨es, h⟩ := h
  exact h.inv Agree agree_new fun _ _ _ hi _ hs => agree_step hi hs

end CTransformFilter

end FilterSln
