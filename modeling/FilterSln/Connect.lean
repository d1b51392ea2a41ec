import FilterSln.Filters
/-!
# Connecting and disconnecting the pins

The connection code of `CBasePin`, `CBaseInputPin`, `CBaseOutputPin` and the two
pin classes of `transfrm.cpp`, for either pin of a transform filter of class
`c` and a peer `P`. A virtual function of the pins is a function of the
direction. The `ConnectEnv` of an attempt says what the system answers in it.

What an attempt can do is stated once, in `AttemptConnection_cases` and
`ReceiveConnection_cases`: it leaves the pin unconnected, or it has put the pin's
`CheckMediaType` through with the type the pin now has. The other pin stays as it
is either way.
-/

namespace FilterSln

open HRESULT

variable {α Env P : Type} [IMemAllocator α Env] [IPin P α]

/-- The system's answers in one attempt: memory for the format block of `m_mt`,
and the new allocator of `CreateMemoryAllocator`. -/
structure ConnectEnv (α : Type) where
  CoTaskMemAlloc : Bool
  CreateMemoryAllocator : HRESULT × Option α

namespace CTransformFilter

/-! ## The virtual functions of the pins -/

/-- `CBasePin::CheckConnect`: the directions must differ. -/
def checkDirection (dir : PIN_DIRECTION) (pPin : P) : HRESULT :=
  if IPin.QueryDirection pPin = dir then VFW_E_INVALID_DIRECTION else NOERROR

def CheckConnect (f : CTransformFilter α) (dir : PIN_DIRECTION) (pPin : P) : CTransformFilter α × HRESULT :=
  match dir with
  | .PINDIR_INPUT => (f, checkDirection dir pPin)
  | .PINDIR_OUTPUT =>
    if !f.m_pInput.m_Connected then (f, E_UNEXPECTED)
    else
      let hr := checkDirection dir pPin
      if hr.FAILED then (f, hr)
      else
        let hr := IPin.QueryMemInputPin pPin
        ({ f with m_pOutput := { f.m_pOutput with m_pInputPin := hr.SUCCEEDED } },
          if hr.FAILED then hr else NOERROR)

/-- `CheckMediaType`; `none` when the filter reads outside the format block. -/
def CheckMediaType (c : Filter) (f : CTransformFilter α) (dir : PIN_DIRECTION) (pmt : CMediaType) :
    Option HRESULT :=
  match dir with
  | .PINDIR_INPUT => do
    let hr ← c.CheckInputType pmt
    if hr ≠ S_OK then some hr
    else if f.m_pOutput.m_Connected then some (c.CheckTransform pmt f.m_pOutput.m_mt)
    else some hr
  | .PINDIR_OUTPUT =>
    if !f.m_pInput.m_Connected then some E_INVALIDARG
    else some (c.CheckTransform f.m_pInput.m_mt pmt)

def SetMediaType (f : CTransformFilter α) (dir : PIN_DIRECTION) (CoTaskMemAlloc : Bool) (pmt : CMediaType) :
    CTransformFilter α × HRESULT :=
  let (mt, hr) := CMediaType.Set CoTaskMemAlloc pmt
  (f.putMediaType dir mt, if hr.FAILED then hr else NOERROR)

/-- One of the two tries of `DecideAllocator`: size the allocator and tell the
input pin about it. -/
def tryAllocator (c : Filter) (f : CTransformFilter α) (pPin : P) (hr : HRESULT) (pAlloc : Option α)
    (prop : ALLOCATOR_PROPERTIES) : P × Option α × ALLOCATOR_PROPERTIES × HRESULT :=
  if hr.FAILED then (pPin, pAlloc, prop, hr)
  else
    let (pAlloc, prop, hr) := c.DecideBufferSize f pAlloc prop
    if hr.FAILED then (pPin, pAlloc, prop, hr)
    else
      match pAlloc with
      | none => (pPin, pAlloc, prop, E_POINTER)
      | some a =>
        let (pPin, hr) := IPin.NotifyAllocator pPin a
        (pPin, some a, prop, hr)

/-- `CBaseOutputPin::DecideAllocator`: the allocator of the input pin, else one
of our own. Both tries share `prop`. -/
def DecideAllocator (c : Filter) (env : ConnectEnv α) (f : CTransformFilter α) (pPin : P) :
    P × Option α × HRESULT :=
  let prop : ALLOCATOR_PROPERTIES := IPin.GetAllocatorRequirements pPin
  let prop := if prop.cbAlign = 0 then { prop with cbAlign := 1 } else prop
  let (pPin, hr, pAlloc) := IPin.GetAllocator pPin
  let (pPin, pAlloc, prop, hr) := tryAllocator c f pPin hr pAlloc prop
  if hr.SUCCEEDED then (pPin, pAlloc, NOERROR)
  else
    let (hr, pAlloc) := env.CreateMemoryAllocator
    let (pPin, pAlloc, _, hr) := tryAllocator c f pPin hr pAlloc prop
    if hr.SUCCEEDED then (pPin, pAlloc, NOERROR) else (pPin, none, hr)

def CompleteConnect (c : Filter) (env : ConnectEnv α) (f : CTransformFilter α) (dir : PIN_DIRECTION)
    (pReceivePin : P) : CTransformFilter α × P × HRESULT :=
  match dir with
  | .PINDIR_INPUT => (f, pReceivePin, NOERROR)
  | .PINDIR_OUTPUT =>
    let (pReceivePin, m_pAllocator, hr) := DecideAllocator c env f pReceivePin
    ({ f with m_pOutput := { f.m_pOutput with m_pAllocator } }, pReceivePin, hr)

/-- `BreakConnect`: decommit and drop the allocator of the pin. When the
allocator fails, the pin keeps it. -/
def BreakConnect (f : CTransformFilter α) : PIN_DIRECTION → CTransformFilter α × HRESULT
  | .PINDIR_INPUT =>
    match f.m_pInput.m_pAllocator with
    | none => (f, S_OK)
    | some a =>
      let (a, hr) := IMemAllocator.Decommit a
      if hr.FAILED then ({ f with m_pInput := { f.m_pInput with m_pAllocator := some a } }, hr)
      else ({ f with m_pInput := { f.m_pInput with m_pAllocator := none } }, S_OK)
  | .PINDIR_OUTPUT =>
    match f.m_pOutput.m_pAllocator with
    | none => ({ f with m_pOutput := { f.m_pOutput with m_pInputPin := false } }, NOERROR)
    | some a =>
      let (a, hr) := IMemAllocator.Decommit a
      if hr.FAILED then ({ f with m_pOutput := { f.m_pOutput with m_pAllocator := some a } }, hr)
      else ({ f with m_pOutput := { f.m_pOutput with m_pAllocator := none, m_pInputPin := false } }, NOERROR)

/-! ## The connection functions of `CBasePin` -/

/-- The error for a type that `CheckMediaType` turned down. -/
def typeError (hr : HRESULT) : HRESULT :=
  if hr.SUCCEEDED ∨ hr = E_FAIL ∨ hr = E_INVALIDARG then VFW_E_TYPE_NOT_ACCEPTED else hr

/-- The part of `AttemptConnection` after `CheckConnect`, up to the clean-up:
the state, the peer, the result, and whether the connection stands. -/
def tryConnection (c : Filter) (env : ConnectEnv α) (f : CTransformFilter α) (dir : PIN_DIRECTION)
    (pReceivePin : P) (pmt : CMediaType) : Option (CTransformFilter α × P × HRESULT × Bool) := do
  let hr ← f.CheckMediaType c dir pmt
  if hr ≠ NOERROR then some (f, pReceivePin, typeError hr, false)
  else
    -- The pin looks connected while the other pin decides.
    let f := f.connect dir true
    let (f, hr) := f.SetMediaType dir env.CoTaskMemAlloc pmt
    if hr.FAILED then some (f, pReceivePin, hr, false)
    else
      let (pReceivePin, hr) ← IPin.ReceiveConnection pReceivePin pmt
      if hr.FAILED then some (f, pReceivePin, hr, false)
      else
        let (f, pReceivePin, hr) := f.CompleteConnect c env dir pReceivePin
        if hr.SUCCEEDED then some (f, pReceivePin, hr, true)
        else some (f, IPin.Disconnect pReceivePin, hr, false)

def AttemptConnection (c : Filter) (env : ConnectEnv α) (f : CTransformFilter α) (dir : PIN_DIRECTION)
    (pReceivePin : P) (pmt : CMediaType) : Option (CTransformFilter α × P × HRESULT) :=
  let (f, hr) := f.CheckConnect dir pReceivePin
  if hr.FAILED then some ((f.BreakConnect dir).1, pReceivePin, hr)
  else do
    let (f, pReceivePin, hr, done) ← f.tryConnection c env dir pReceivePin pmt
    if done then some (f, pReceivePin, hr)
    else some ((f.BreakConnect dir).1.connect dir false, pReceivePin, hr)

/-- The loop of `TryMediaTypes`. `hrFailure` is the error remembered so far. -/
def tryTypes (c : Filter) (dir : PIN_DIRECTION) (pmt : Option CMediaType) :
    List CMediaType → (Nat → ConnectEnv α) → CTransformFilter α → P → HRESULT →
      Option (CTransformFilter α × P × HRESULT)
  | [], _, f, pReceivePin, hrFailure =>
    some (f, pReceivePin, if hrFailure = S_OK then VFW_E_NO_ACCEPTABLE_TYPES else hrFailure)
  | mt :: types, env, f, pReceivePin, hrFailure =>
    if pmt.all mt.MatchesPartial then do
      let (f, pReceivePin, hr) ← f.AttemptConnection c (env 0) dir pReceivePin mt
      if hr = S_OK then some (f, pReceivePin, hr)
      else
        let hrFailure :=
          if hr.FAILED ∧ hrFailure.SUCCEEDED ∧ hr ≠ E_FAIL ∧ hr ≠ E_INVALIDARG ∧ hr ≠ VFW_E_TYPE_NOT_ACCEPTED then hr
          else hrFailure
        tryTypes c dir pmt types (fun n => env (n + 1)) f pReceivePin hrFailure
    else tryTypes c dir pmt types (fun n => env (n + 1)) f pReceivePin hrFailure

def TryMediaTypes (c : Filter) (env : Nat → ConnectEnv α) (f : CTransformFilter α) (dir : PIN_DIRECTION)
    (pReceivePin : P) (pmt : Option CMediaType) (pEnum : IEnumMediaTypes) :
    Option (CTransformFilter α × P × HRESULT) :=
  if pEnum.Reset.FAILED then some (f, pReceivePin, pEnum.Reset)
  else tryTypes c dir pmt pEnum.types env f pReceivePin S_OK

/-- The system's answers when a pin enumerates its own types: memory for the
enumerator, for the format block of the type and for the type itself. -/
structure EnumEnv where
  newEnumerator : Bool
  CoTaskMemAlloc : Bool
  newMediaType : Bool

/-- `EnumMediaTypes` of the pin itself. The input pin has no types of its own. -/
def EnumMediaTypes (c : Filter) (env : EnumEnv) (f : CTransformFilter α) (dir : PIN_DIRECTION) :
    Except HRESULT IEnumMediaTypes :=
  if !env.newEnumerator then .error E_OUTOFMEMORY
  else .ok ⟨NOERROR,
    match dir with
    | .PINDIR_INPUT => []
    | .PINDIR_OUTPUT =>
      if f.m_pInput.m_Connected ∧ env.newMediaType then (c.GetMediaType f env.CoTaskMemAlloc 0).2.toList else []⟩

/-- The system's answers in a `Connect`: for each attempt with the other pin's
types, for each with our own, and for our enumerator. -/
structure AgreeEnv (α : Type) where
  theirs : Nat → ConnectEnv α
  ours : Nat → ConnectEnv α
  enumerator : EnumEnv

/-- One round of the loop in `AgreeMediaType`, and whether it connected. -/
def tryEnumerator (c : Filter) (env : Nat → ConnectEnv α) (f : CTransformFilter α) (dir : PIN_DIRECTION)
    (pReceivePin : P) (pmt : Option CMediaType) (pEnum : Except HRESULT IEnumMediaTypes) (hrFailure : HRESULT) :
    Option (CTransformFilter α × P × HRESULT × Bool) :=
  match pEnum with
  | .error _ => some (f, pReceivePin, hrFailure, false)
  | .ok pEnumMediaTypes => do
    let (f, pReceivePin, hr) ← f.TryMediaTypes c env dir pReceivePin pmt pEnumMediaTypes
    if hr.SUCCEEDED then some (f, pReceivePin, NOERROR, true)
    else if hr ≠ E_FAIL ∧ hr ≠ E_INVALIDARG ∧ hr ≠ VFW_E_TYPE_NOT_ACCEPTED then some (f, pReceivePin, hr, false)
    else some (f, pReceivePin, hrFailure, false)

def AgreeMediaType (c : Filter) (env : AgreeEnv α) (f : CTransformFilter α) (dir : PIN_DIRECTION)
    (pReceivePin : P) (pmt : Option CMediaType) : Option (CTransformFilter α × P × HRESULT) :=
  match pmt.filter fun mt => !mt.IsPartiallySpecified with
  | some mt => f.AttemptConnection c (env.theirs 0) dir pReceivePin mt
  | none => do
    let (f, pReceivePin, hr, done) ← f.tryEnumerator c env.theirs dir pReceivePin pmt
      (IPin.EnumMediaTypes pReceivePin) VFW_E_NO_ACCEPTABLE_TYPES
    if done then some (f, pReceivePin, hr)
    else
      let (f, pReceivePin, hr, _) ← f.tryEnumerator c env.ours dir pReceivePin pmt
        (f.EnumMediaTypes c env.enumerator dir) hr
      some (f, pReceivePin, hr)

def Connect (c : Filter) (env : AgreeEnv α) (f : CTransformFilter α) (dir : PIN_DIRECTION) (pReceivePin : P)
    (pmt : Option CMediaType) : Option (CTransformFilter α × P × HRESULT) :=
  if f.IsConnected dir then some (f, pReceivePin, VFW_E_ALREADY_CONNECTED)
  else if !f.IsStopped then some (f, pReceivePin, VFW_E_NOT_STOPPED)
  else do
    let (f, pReceivePin, hr) ← f.AgreeMediaType c env dir pReceivePin pmt
    if hr.FAILED then some ((f.BreakConnect dir).1, pReceivePin, hr)
    else some (f, pReceivePin, NOERROR)

def ReceiveConnection (c : Filter) (env : ConnectEnv α) (f : CTransformFilter α) (dir : PIN_DIRECTION)
    (pConnector : P) (pmt : CMediaType) : Option (CTransformFilter α × P × HRESULT) :=
  if f.IsConnected dir then some (f, pConnector, VFW_E_ALREADY_CONNECTED)
  else if !f.IsStopped then some (f, pConnector, VFW_E_NOT_STOPPED)
  else
    let (f, hr) := f.CheckConnect dir pConnector
    if hr.FAILED then some ((f.BreakConnect dir).1, pConnector, hr)
    else do
      let hr ← f.CheckMediaType c dir pmt
      if hr ≠ NOERROR then some ((f.BreakConnect dir).1, pConnector, typeError hr)
      else
        let f := f.connect dir true
        let (f, hr) := f.SetMediaType dir env.CoTaskMemAlloc pmt
        let (f, pConnector, hr) := if hr.SUCCEEDED then f.CompleteConnect c env dir pConnector else (f, pConnector, hr)
        if hr.SUCCEEDED then some (f, pConnector, NOERROR)
        else some (((f.connect dir false).BreakConnect dir).1, pConnector, hr)

def DisconnectInternal (f : CTransformFilter α) (dir : PIN_DIRECTION) : CTransformFilter α × HRESULT :=
  if f.IsConnected dir then
    let (f, hr) := f.BreakConnect dir
    if hr.FAILED then (f, hr) else (f.connect dir false, S_OK)
  else (f, S_FALSE)

def Disconnect (f : CTransformFilter α) (dir : PIN_DIRECTION) : CTransformFilter α × HRESULT :=
  if !f.IsStopped then (f, VFW_E_NOT_STOPPED) else f.DisconnectInternal dir

/-! ## What a step on one pin leaves alone -/

/-- From `f` to `f'` only the pin `dir` has changed. -/
structure Frame (dir : PIN_DIRECTION) (f f' : CTransformFilter α) : Prop where
  state : f'.m_State = f.m_State
  input : dir = .PINDIR_OUTPUT → f'.m_pInput = f.m_pInput
  output : dir = .PINDIR_INPUT → f'.m_pOutput = f.m_pOutput

variable {c : Filter} {f f' f'' : CTransformFilter α} {dir : PIN_DIRECTION} {p p' : P} {hr : HRESULT}
  {pmt : CMediaType}

namespace Frame

theorem refl (dir : PIN_DIRECTION) (f : CTransformFilter α) : Frame dir f f := ⟨rfl, fun _ => rfl, fun _ => rfl⟩

theorem trans (h : Frame dir f f') (h' : Frame dir f' f'') : Frame dir f f'' :=
  ⟨h'.state.trans h.state, fun hd => (h'.input hd).trans (h.input hd),
    fun hd => (h'.output hd).trans (h.output hd)⟩

theorem connect (dir : PIN_DIRECTION) (f : CTransformFilter α) (b : Bool) : Frame dir f (f.connect dir b) := by
  cases dir <;> exact ⟨rfl, fun hd => by cases hd <;> rfl, fun hd => by cases hd <;> rfl⟩

theorem SetMediaType (dir : PIN_DIRECTION) (f : CTransformFilter α) (b : Bool) (pmt : CMediaType) :
    Frame dir f (f.SetMediaType dir b pmt).1 := by
  cases dir <;> exact ⟨rfl, fun hd => by cases hd <;> rfl, fun hd => by cases hd <;> rfl⟩

theorem CheckConnect (dir : PIN_DIRECTION) (f : CTransformFilter α) (p : P) :
    Frame dir f (f.CheckConnect dir p).1 := by
  cases dir with
  | PINDIR_INPUT => exact refl _ _
  | PINDIR_OUTPUT =>
    unfold CTransformFilter.CheckConnect
    dsimp only
    split
    · exact refl _ _
    · split
      · exact refl _ _
      · exact ⟨rfl, fun _ => rfl, nofun⟩

theorem BreakConnect (dir : PIN_DIRECTION) (f : CTransformFilter α) : Frame dir f (f.BreakConnect dir).1 := by
  cases dir with
  | PINDIR_INPUT =>
    unfold CTransformFilter.BreakConnect
    dsimp only
    split
    · exact refl _ _
    · split <;> exact ⟨rfl, nofun, fun _ => rfl⟩
  | PINDIR_OUTPUT =>
    unfold CTransformFilter.BreakConnect
    dsimp only
    split
    · exact ⟨rfl, fun _ => rfl, nofun⟩
    · split <;> exact ⟨rfl, fun _ => rfl, nofun⟩

theorem CompleteConnect (c : Filter) (env : ConnectEnv α) (dir : PIN_DIRECTION) (f : CTransformFilter α) (p : P) :
    Frame dir f (f.CompleteConnect c env dir p).1 := by
  cases dir with
  | PINDIR_INPUT => exact refl _ _
  | PINDIR_OUTPUT => exact ⟨rfl, fun _ => rfl, nofun⟩

/-- The check of a type depends on the other pin only. -/
theorem CheckMediaType_eq (h : Frame dir f f') (c : Filter) (pmt : CMediaType) :
    f'.CheckMediaType c dir pmt = f.CheckMediaType c dir pmt := by
  cases dir with
  | PINDIR_INPUT => simp only [CTransformFilter.CheckMediaType, h.output rfl]
  | PINDIR_OUTPUT => simp only [CTransformFilter.CheckMediaType, h.input rfl]

end Frame

@[simp] theorem IsConnected_connect (f : CTransformFilter α) (dir : PIN_DIRECTION) (b : Bool) :
    (f.connect dir b).IsConnected dir = b := by cases dir <;> rfl

@[simp] theorem IsConnected_SetMediaType (f : CTransformFilter α) (dir : PIN_DIRECTION) (b : Bool) (pmt : CMediaType) :
    (f.SetMediaType dir b pmt).1.IsConnected dir = f.IsConnected dir := by cases dir <;> rfl

@[simp] theorem IsConnected_CheckConnect (f : CTransformFilter α) (dir : PIN_DIRECTION) (p : P) :
    (f.CheckConnect dir p).1.IsConnected dir = f.IsConnected dir := by
  cases dir with
  | PINDIR_INPUT => rfl
  | PINDIR_OUTPUT =>
    unfold CheckConnect
    dsimp only
    split
    · rfl
    · split <;> rfl

@[simp] theorem IsConnected_BreakConnect (f : CTransformFilter α) (dir : PIN_DIRECTION) :
    (f.BreakConnect dir).1.IsConnected dir = f.IsConnected dir := by
  cases dir <;> unfold BreakConnect <;> dsimp only <;> split <;> try rfl
  all_goals split <;> rfl

@[simp] theorem IsConnected_CompleteConnect (f : CTransformFilter α) (dir : PIN_DIRECTION) (c : Filter)
    (env : ConnectEnv α) (p : P) : (f.CompleteConnect c env dir p).1.IsConnected dir = f.IsConnected dir := by
  cases dir <;> rfl

@[simp] theorem CurrentMediaType_CompleteConnect (f : CTransformFilter α) (dir : PIN_DIRECTION) (c : Filter)
    (env : ConnectEnv α) (p : P) : (f.CompleteConnect c env dir p).1.CurrentMediaType dir = f.CurrentMediaType dir := by
  cases dir <;> rfl

/-- A type that was set without an error is now the type of the pin. -/
theorem SetMediaType_ok {f : CTransformFilter α} {b : Bool} (h : ¬ (f.SetMediaType dir b pmt).2.FAILED = true) :
    (f.SetMediaType dir b pmt).1.CurrentMediaType dir = pmt := by
  have hs : (CMediaType.Set b pmt).2.SUCCEEDED = true := by
    simp only [SetMediaType] at h
    split at h
    · rename_i hf
      exact absurd hf h
    · rename_i hf
      exact SUCCEEDED_of_not_FAILED hf
  cases dir <;> exact CMediaType.Set_ok hs

/-! ## The allocator of a completed connection -/

/-- `a` granted one buffer of the sample size of `mt`, when it was asked last. -/
def Sized (mt : CMediaType) (a : α) : Prop :=
  ∃ (a₀ : α) (req Actual : ALLOCATOR_PROPERTIES) (hr : HRESULT),
    IMemAllocator.SetProperties a₀ req = (a, hr, Actual) ∧ hr.SUCCEEDED = true ∧
      req.cBuffers = 1 ∧ req.cbBuffer = Int32.ofBitVec mt.GetSampleSize ∧
      req.cBuffers ≤ Actual.cBuffers ∧ req.cbBuffer ≤ Actual.cbBuffer

theorem tryAllocator_ok {prop : ALLOCATOR_PROPERTIES} {pa : Option α}
    (h : (tryAllocator c f p hr pa prop).2.2.2.SUCCEEDED = true) :
    ∃ a, (tryAllocator c f p hr pa prop).2.1 = some a ∧ Sized f.m_pInput.m_mt a := by
  unfold tryAllocator at h ⊢
  split at h
  · rename_i hf
    simp [FAILED, h] at hf
  · rename_i hf
    rw [if_neg hf]
    rw [c.DecideBufferSize_eq] at h ⊢
    rcases hd : requestBuffer f pa prop with ⟨pa', prop', hr'⟩
    simp only [hd] at h ⊢
    split at h
    · rename_i hf'
      simp [FAILED, h] at hf'
    · rename_i hf'
      rw [if_neg hf']
      obtain ⟨a, a', Actual, hrs, -, rfl, -, hp, hset, hok, hcount, hsize⟩ :=
        requestBuffer_ok hd (SUCCEEDED_of_not_FAILED hf')
      exact ⟨a', rfl, a, prop', Actual, hrs, hset, hok, by rw [hp], by rw [hp], hcount, hsize⟩

/-- `DecideAllocator` leaves a sized allocator or none. -/
theorem DecideAllocator_cases {env : ConnectEnv α} {pa : Option α}
    (h : DecideAllocator c env f p = (p', pa, hr)) :
    (hr = NOERROR ∧ ∃ a, pa = some a ∧ Sized f.m_pInput.m_mt a) ∨ (hr.FAILED = true ∧ pa = none) := by
  unfold DecideAllocator at h
  dsimp only at h
  generalize (if (IPin.GetAllocatorRequirements p : ALLOCATOR_PROPERTIES).cbAlign = 0 then _ else _) = prop at h
  split at h
  · rename_i hs
    cases h
    exact .inl ⟨rfl, tryAllocator_ok hs⟩
  · split at h
    · rename_i hs
      cases h
      exact .inl ⟨rfl, tryAllocator_ok hs⟩
    · rename_i hs
      cases h
      exact .inr ⟨by simpa [FAILED] using hs, rfl⟩

theorem CompleteConnect_cases {env : ConnectEnv α} (h : f.CompleteConnect c env dir p = (f', p', hr)) :
    (hr = NOERROR ∧ (dir = .PINDIR_OUTPUT → ∃ a, f'.m_pOutput.m_pAllocator = some a ∧ Sized f.m_pInput.m_mt a)) ∨
      hr.FAILED = true := by
  cases dir with
  | PINDIR_INPUT =>
    cases h
    exact .inl ⟨rfl, nofun⟩
  | PINDIR_OUTPUT =>
    rcases hd : DecideAllocator c env f p with ⟨p1, pa, hr1⟩
    simp only [CompleteConnect, hd] at h
    cases h
    rcases DecideAllocator_cases hd with ⟨rfl, hsz⟩ | ⟨hf, -⟩
    · exact .inl ⟨rfl, fun _ => hsz⟩
    · exact .inr hf

/-! ## What an attempt can do -/

/-- From `f` to `f'` the pin `dir` was connected with `pmt`. -/
structure Attached (c : Filter) (dir : PIN_DIRECTION) (f f' : CTransformFilter α) (pmt : CMediaType) : Prop where
  connected : f'.IsConnected dir = true
  mt : f'.CurrentMediaType dir = pmt
  checked : f.CheckMediaType c dir pmt = some NOERROR
  sized : dir = .PINDIR_OUTPUT → ∃ a, f'.m_pOutput.m_pAllocator = some a ∧ Sized f.m_pInput.m_mt a

theorem Attached.of_frame (h : Frame dir f f') (ha : Attached c dir f' f'' pmt) : Attached c dir f f'' pmt := by
  refine ⟨ha.connected, ha.mt, by rw [← h.CheckMediaType_eq]; exact ha.checked, fun hd => ?_⟩
  obtain ⟨a, hpa, hsz⟩ := ha.sized hd
  exact ⟨a, hpa, by rw [← h.input hd]; exact hsz⟩

theorem typeError_FAILED (hr : HRESULT) : (typeError hr).FAILED = true := by
  unfold typeError
  split
  · rfl
  · rename_i h
    simp only [not_or] at h
    simpa [FAILED] using h.1

/-- `CompleteConnect` on a connected pin that has the checked type. -/
theorem Attached.of_complete {env : ConnectEnv α} (hcheck : f.CheckMediaType c dir pmt = some NOERROR)
    (hframe : Frame dir f f') (hconn : f'.IsConnected dir = true) (hmt : f'.CurrentMediaType dir = pmt)
    (h : f'.CompleteConnect c env dir p = (f'', p', hr)) (hs : hr.SUCCEEDED = true) :
    hr = S_OK ∧ Attached c dir f f'' pmt := by
  have hconn' := IsConnected_CompleteConnect f' dir c env p
  have hmt' := CurrentMediaType_CompleteConnect f' dir c env p
  simp only [h] at hconn' hmt'
  rcases CompleteConnect_cases h with ⟨hno, hsz⟩ | hf
  · refine ⟨hno, hconn'.trans hconn, hmt'.trans hmt, hcheck, fun hd => ?_⟩
    rw [← hframe.input hd]
    exact hsz hd
  · simp [FAILED, hs] at hf

theorem tryConnection_cases {env : ConnectEnv α} {done : Bool}
    (h : f.tryConnection c env dir p pmt = some (f', p', hr, done)) :
    Frame dir f f' ∧ (done = true → hr = S_OK ∧ Attached c dir f f' pmt) ∧ (done = false → hr.FAILED = true) := by
  simp only [tryConnection, Option.bind_eq_bind, Option.bind_eq_some_iff] at h
  obtain ⟨hr1, hcheck, h⟩ := h
  split at h
  · cases h
    exact ⟨Frame.refl _ _, nofun, fun _ => typeError_FAILED hr1⟩
  · rename_i hok
    rw [ne_eq, not_not] at hok
    subst hok
    -- The pin is connected and typed before the other pin is asked, so what happens
    -- there needs only this frame.
    have hframe := (Frame.connect dir f true).trans (Frame.SetMediaType dir _ env.CoTaskMemAlloc pmt)
    split at h
    · rename_i hf
      cases h
      exact ⟨hframe, nofun, fun _ => hf⟩
    · rename_i hset
      have hmt := SetMediaType_ok hset
      have hconn : ((f.connect dir true).SetMediaType dir env.CoTaskMemAlloc pmt).1.IsConnected dir = true := by simp
      simp only [Option.bind_eq_some_iff] at h
      obtain ⟨⟨p1, hr2⟩, -, h⟩ := h
      dsimp only at h
      split at h
      · rename_i hf
        cases h
        exact ⟨hframe, nofun, fun _ => hf⟩
      · generalize ((f.connect dir true).SetMediaType dir env.CoTaskMemAlloc pmt).1 = f1 at h hframe hmt hconn
        have hframe2 := Frame.CompleteConnect c env dir f1 p1
        rcases hcomp : f1.CompleteConnect c env dir p1 with ⟨f2, p2, hr3⟩
        simp only [hcomp] at h hframe2
        split at h
        · rename_i hs
          cases h
          exact ⟨hframe.trans hframe2, fun _ => Attached.of_complete hcheck hframe hconn hmt hcomp hs, nofun⟩
        · rename_i hs
          cases h
          exact ⟨hframe.trans hframe2, nofun, fun _ => by simpa [FAILED] using hs⟩

/-- The outcome of a try to connect the pin `dir` with one of `types`: success
with a pin attached, or failure with the pin unconnected. -/
def Outcome (c : Filter) (dir : PIN_DIRECTION) (types : List CMediaType) (f f' : CTransformFilter α)
    (hr : HRESULT) : Prop :=
  Frame dir f f' ∧
    ((hr = S_OK ∧ ∃ mt ∈ types, Attached c dir f f' mt) ∨ (hr.FAILED = true ∧ f'.IsConnected dir = false))

theorem Outcome.of_frame {types : List CMediaType} (h : Frame dir f f') (ho : Outcome c dir types f' f'' hr) :
    Outcome c dir types f f'' hr := by
  obtain ⟨hf, ⟨hno, mt, hmem, hatt⟩ | hfail⟩ := ho
  · exact ⟨h.trans hf, .inl ⟨hno, mt, hmem, hatt.of_frame h⟩⟩
  · exact ⟨h.trans hf, .inr hfail⟩

theorem Outcome.mono {types types' : List CMediaType} (ho : Outcome c dir types f f' hr)
    (hsub : ∀ mt ∈ types, mt ∈ types') : Outcome c dir types' f f' hr := by
  obtain ⟨hf, ⟨hno, mt, hmem, hatt⟩ | hfail⟩ := ho
  · exact ⟨hf, .inl ⟨hno, mt, hsub mt hmem, hatt⟩⟩
  · exact ⟨hf, .inr hfail⟩

theorem AttemptConnection_cases {env : ConnectEnv α} (hc : f.IsConnected dir = false)
    (h : f.AttemptConnection c env dir p pmt = some (f', p', hr)) : Outcome c dir [pmt] f f' hr := by
  have hframe := Frame.CheckConnect dir f p
  have hconn := IsConnected_CheckConnect f dir p
  simp only [AttemptConnection] at h
  generalize f.CheckConnect dir p = fc at h hframe hconn
  obtain ⟨f1, hr1⟩ := fc
  dsimp only at h hframe hconn
  split at h
  · rename_i hf
    cases h
    refine ⟨hframe.trans (Frame.BreakConnect dir f1), .inr ⟨hf, ?_⟩⟩
    rw [IsConnected_BreakConnect, hconn, hc]
  · simp only [Option.bind_eq_bind, Option.bind_eq_some_iff] at h
    obtain ⟨⟨f2, p2, hr2, done⟩, htry, h⟩ := h
    obtain ⟨hframe2, hdone, hfail⟩ := tryConnection_cases htry
    dsimp only at h
    split at h
    · rename_i hd
      cases h
      obtain ⟨hno, hatt⟩ := hdone hd
      exact ⟨hframe.trans hframe2, .inl ⟨hno, pmt, List.mem_singleton_self pmt, hatt.of_frame hframe⟩⟩
    · rename_i hd
      cases h
      exact ⟨((hframe.trans hframe2).trans (Frame.BreakConnect dir f2)).trans (Frame.connect dir _ false),
        .inr ⟨hfail (by simpa using hd), by simp⟩⟩

/-- The loop stops at the first type that connects, and ends unconnected when
there is none. -/
theorem tryTypes_cases {types : List CMediaType} : ∀ {env : Nat → ConnectEnv α} {f : CTransformFilter α} {p : P}
    {hrFailure : HRESULT} {pmt : Option CMediaType}, f.IsConnected dir = false →
    hrFailure = S_OK ∨ hrFailure.FAILED = true →
    tryTypes c dir pmt types env f p hrFailure = some (f', p', hr) → Outcome c dir types f f' hr := by
  -- The error remembered so far is generalised: it only ever changes to a failure.
  induction types with
  | nil =>
    intro env f p hrFailure pmt hc hhr h
    simp only [tryTypes] at h
    cases h
    refine ⟨Frame.refl _ _, .inr ⟨?_, hc⟩⟩
    split
    · rfl
    · rename_i hne
      exact hhr.resolve_left hne
  | cons mt types ih =>
    intro env f p hrFailure pmt hc hhr h
    have hsub : ∀ x ∈ types, x ∈ mt :: types := fun x hx => List.mem_cons_of_mem _ hx
    unfold tryTypes at h
    split at h
    · simp only [Option.bind_eq_bind, Option.bind_eq_some_iff] at h
      obtain ⟨⟨f1, p1, hr1⟩, hatt, h⟩ := h
      have hout := AttemptConnection_cases hc hatt
      dsimp only at h
      split at h
      · cases h
        exact hout.mono fun x hx => List.mem_singleton.1 hx ▸ List.mem_cons_self
      · rename_i hne
        obtain ⟨hframe, ⟨hno, -⟩ | ⟨-, hc1⟩⟩ := hout
        · exact absurd hno hne
        · refine (Outcome.of_frame hframe (ih hc1 ?_ h)).mono hsub
          split
          · rename_i hcond
            exact .inr hcond.1
          · exact hhr
    · exact (ih hc hhr h).mono hsub

theorem TryMediaTypes_cases {env : Nat → ConnectEnv α} {types : Option CMediaType} {pEnum : IEnumMediaTypes}
    (hc : f.IsConnected dir = false)
    (h : f.TryMediaTypes c env dir p types pEnum = some (f', p', hr)) : Outcome c dir pEnum.types f f' hr := by
  unfold TryMediaTypes at h
  split at h
  · rename_i hf
    cases h
    exact ⟨Frame.refl _ _, .inr ⟨hf, hc⟩⟩
  · exact tryTypes_cases hc (.inl rfl) h

/-- The types of an enumerator; none when there is no enumerator. -/
def enumerated : Except HRESULT IEnumMediaTypes → List CMediaType
  | .error _ => []
  | .ok pEnum => pEnum.types

theorem tryEnumerator_cases {env : Nat → ConnectEnv α} {mt : Option CMediaType}
    {pEnum : Except HRESULT IEnumMediaTypes} {hrFailure : HRESULT} {done : Bool} (hc : f.IsConnected dir = false)
    (hhr : hrFailure.FAILED = true)
    (h : f.tryEnumerator c env dir p mt pEnum hrFailure = some (f', p', hr, done)) :
    Outcome c dir (enumerated pEnum) f f' hr ∧ (done = false → hr.FAILED = true) := by
  unfold tryEnumerator at h
  split at h
  · cases h
    exact ⟨⟨Frame.refl _ _, .inr ⟨hhr, hc⟩⟩, fun _ => hhr⟩
  · simp only [Option.bind_eq_bind, Option.bind_eq_some_iff] at h
    obtain ⟨⟨f1, p1, hr1⟩, htry, h⟩ := h
    obtain ⟨hframe, hcases⟩ := TryMediaTypes_cases hc htry
    dsimp only at h
    split at h
    · rename_i hs
      cases h
      rcases hcases with ⟨hno, hatt⟩ | ⟨hf, -⟩
      · exact ⟨⟨hframe, .inl ⟨rfl, hatt⟩⟩, nofun⟩
      · simp [FAILED, hs] at hf
    · rename_i hs
      have hdis : f1.IsConnected dir = false := by
        rcases hcases with ⟨rfl, -⟩ | ⟨-, hdis⟩
        · exact absurd rfl hs
        · exact hdis
      have hfail : hr1.FAILED = true := by simpa [FAILED] using hs
      split at h
      · cases h
        exact ⟨⟨hframe, .inr ⟨hfail, hdis⟩⟩, fun _ => hfail⟩
      · cases h
        exact ⟨⟨hframe, .inr ⟨hhr, hdis⟩⟩, fun _ => hhr⟩

/-- The types that a `Connect` may try, in order. -/
def proposals (c : Filter) (env : AgreeEnv α) (f : CTransformFilter α) (dir : PIN_DIRECTION) (pReceivePin : P)
    (pmt : Option CMediaType) : List CMediaType :=
  match pmt.filter fun mt => !mt.IsPartiallySpecified with
  | some mt => [mt]
  | none => enumerated (IPin.EnumMediaTypes pReceivePin) ++ enumerated (f.EnumMediaTypes c env.enumerator dir)

/-- The types a pin enumerates depend on the input pin's type, which no attempt
on the output pin changes; the input pin has none. -/
theorem EnumMediaTypes_eq (h : Frame dir f f') (c : Filter) (env : EnumEnv) :
    f'.EnumMediaTypes c env dir = f.EnumMediaTypes c env dir := by
  cases dir with
  | PINDIR_INPUT => rfl
  | PINDIR_OUTPUT => simp only [EnumMediaTypes, c.GetMediaType_eq, inputType, h.input rfl]

theorem AgreeMediaType_cases {env : AgreeEnv α} {mt : Option CMediaType} (hc : f.IsConnected dir = false)
    (h : f.AgreeMediaType c env dir p mt = some (f', p', hr)) :
    Outcome c dir (f.proposals c env dir p mt) f f' hr := by
  unfold AgreeMediaType at h
  unfold proposals
  split at h
  · exact AttemptConnection_cases hc h
  · simp only [Option.bind_eq_bind, Option.bind_eq_some_iff] at h
    obtain ⟨⟨f1, p1, hr1, done⟩, h1, h⟩ := h
    obtain ⟨hout1, hfail1⟩ := tryEnumerator_cases hc (by rfl) h1
    dsimp only at h
    split at h
    · cases h
      exact hout1.mono fun x hx => List.mem_append_left _ hx
    · rename_i hd
      simp only [Option.bind_eq_some_iff] at h
      obtain ⟨⟨f2, p2, hr2, done2⟩, h2, h⟩ := h
      cases h
      have hf1 := hfail1 (by simpa using hd)
      obtain ⟨hframe1, ⟨rfl, -⟩ | ⟨-, hc1⟩⟩ := hout1
      -- A round that goes on to our own types has failed, so it left no connection.
      · cases hf1
      · obtain ⟨hout2, -⟩ := tryEnumerator_cases hc1 hf1 h2
        rw [EnumMediaTypes_eq hframe1] at hout2
        exact (hout2.of_frame hframe1).mono fun x hx => List.mem_append_right _ hx

theorem Connect_cases {env : AgreeEnv α} {mt : Option CMediaType}
    (h : f.Connect c env dir p mt = some (f', p', hr)) :
    Frame dir f f' ∧ (f' = f ∨ (f.IsConnected dir = false ∧ f.IsStopped = true) ∧
      ((∃ x ∈ f.proposals c env dir p mt, Attached c dir f f' x) ∨ f'.IsConnected dir = false)) := by
  unfold Connect at h
  split at h
  · cases h
    exact ⟨Frame.refl _ _, .inl rfl⟩
  · rename_i hc
    have hc0 : f.IsConnected dir = false := by simpa using hc
    split at h
    · cases h
      exact ⟨Frame.refl _ _, .inl rfl⟩
    · rename_i hs
      have hfree : f.IsConnected dir = false ∧ f.IsStopped = true := ⟨hc0, by simpa using hs⟩
      simp only [Option.bind_eq_bind, Option.bind_eq_some_iff] at h
      obtain ⟨⟨f1, p1, hr1⟩, hagree, h⟩ := h
      obtain ⟨hframe, hcases⟩ := AgreeMediaType_cases hc0 hagree
      dsimp only at h
      split at h
      · rename_i hf
        cases h
        refine ⟨hframe.trans (Frame.BreakConnect dir f1), .inr ⟨hfree, .inr ?_⟩⟩
        rw [IsConnected_BreakConnect]
        rcases hcases with ⟨rfl, -⟩ | ⟨-, hdis⟩
        · cases hf
        · exact hdis
      · rename_i hf
        cases h
        rcases hcases with ⟨-, hatt⟩ | ⟨hf', -⟩
        · exact ⟨hframe, .inr ⟨hfree, .inl hatt⟩⟩
        · exact absurd hf' hf

theorem Disconnect_cases (f : CTransformFilter α) (dir : PIN_DIRECTION) :
    Frame dir f (f.Disconnect dir).1 ∧
      ((f.Disconnect dir).1 = f ∨ (f.Disconnect dir).1 = (f.BreakConnect dir).1 ∧
        (f.BreakConnect dir).2.FAILED = true ∨ (f.Disconnect dir).1.IsConnected dir = false) := by
  unfold Disconnect
  split
  · exact ⟨Frame.refl _ _, .inl rfl⟩
  · unfold DisconnectInternal
    split
    · have hframe := Frame.BreakConnect dir f
      dsimp only
      split
      · rename_i hf
        exact ⟨hframe, .inr (.inl ⟨rfl, hf⟩)⟩
      · exact ⟨hframe.trans (Frame.connect dir _ false), .inr (.inr (by simp))⟩
    · exact ⟨Frame.refl _ _, .inl rfl⟩

/-- The same for a connection that the other pin asks for. -/
theorem ReceiveConnection_cases {env : ConnectEnv α} (h : f.ReceiveConnection c env dir p pmt = some (f', p', hr)) :
    Frame dir f f' ∧ ((f' = f ∧ hr.FAILED = true) ∨ (f.IsConnected dir = false ∧ f.IsStopped = true) ∧
      ((hr = S_OK ∧ Attached c dir f f' pmt) ∨ (hr.FAILED = true ∧ f'.IsConnected dir = false))) := by
  simp only [ReceiveConnection] at h
  split at h
  · cases h
    exact ⟨Frame.refl _ _, .inl ⟨rfl, rfl⟩⟩
  · rename_i hc
    have hc0 : f.IsConnected dir = false := by simpa using hc
    split at h
    · cases h
      exact ⟨Frame.refl _ _, .inl ⟨rfl, rfl⟩⟩
    · rename_i hs
      have hfree : f.IsConnected dir = false ∧ f.IsStopped = true := ⟨hc0, by simpa using hs⟩
      have hframe := Frame.CheckConnect dir f p
      have hconn := IsConnected_CheckConnect f dir p
      generalize f.CheckConnect dir p = fc at h hframe hconn
      obtain ⟨f1, hr1⟩ := fc
      dsimp only at h hframe hconn
      have hbroken : ((f1.BreakConnect dir).1).IsConnected dir = false := by
        rw [IsConnected_BreakConnect, hconn, hc0]
      have hframeBreak := hframe.trans (Frame.BreakConnect dir f1)
      split at h
      · rename_i hf
        cases h
        exact ⟨hframeBreak, .inr ⟨hfree, .inr ⟨hf, hbroken⟩⟩⟩
      · simp only [Option.bind_eq_bind, Option.bind_eq_some_iff] at h
        obtain ⟨hr2, hcheck, h⟩ := h
        split at h
        · cases h
          exact ⟨hframeBreak, .inr ⟨hfree, .inr ⟨typeError_FAILED hr2, hbroken⟩⟩⟩
        · rename_i hok
          rw [ne_eq, not_not] at hok
          subst hok
          rw [hframe.CheckMediaType_eq] at hcheck
          have hframe2 := hframe.trans
            ((Frame.connect dir f1 true).trans (Frame.SetMediaType dir _ env.CoTaskMemAlloc pmt))
          have hconn2 : ((f1.connect dir true).SetMediaType dir env.CoTaskMemAlloc pmt).1.IsConnected dir = true := by
            simp
          have hset := @SetMediaType_ok α dir pmt (f1.connect dir true) env.CoTaskMemAlloc
          generalize (f1.connect dir true).SetMediaType dir env.CoTaskMemAlloc pmt = fs at h hframe2 hconn2 hset
          obtain ⟨f2, hr3⟩ := fs
          -- Every failure after this point disconnects the pin again.
          have hundone : ∀ g : CTransformFilter α, Frame dir f g →
              Frame dir f ((g.connect dir false).BreakConnect dir).1 ∧
                ((g.connect dir false).BreakConnect dir).1.IsConnected dir = false :=
            fun g hg => ⟨(hg.trans (Frame.connect dir g false)).trans (Frame.BreakConnect dir _), by simp⟩
          cases hs : hr3.SUCCEEDED with
          | false =>
            simp only [hs, Bool.false_eq_true, if_false] at h
            cases h
            obtain ⟨hfr, hdis⟩ := hundone f2 hframe2
            exact ⟨hfr, .inr ⟨hfree, .inr ⟨by simp [FAILED, hs], hdis⟩⟩⟩
          | true =>
            simp only [hs, if_true] at h
            have hframe3 := hframe2.trans (Frame.CompleteConnect c env dir f2 p)
            rcases hcomp : f2.CompleteConnect c env dir p with ⟨f3, p3, hr4⟩
            simp only [hcomp] at h hframe3
            split at h
            · rename_i hs4
              cases h
              obtain ⟨-, hatt⟩ := Attached.of_complete hcheck hframe2 hconn2 (hset (by simp [FAILED, hs])) hcomp hs4
              exact ⟨hframe3, .inr ⟨hfree, .inl ⟨rfl, hatt⟩⟩⟩
            · rename_i hs4
              cases h
              obtain ⟨hfr, hdis⟩ := hundone f3 hframe3
              exact ⟨hfr, .inr ⟨hfree, .inr ⟨by simpa [FAILED] using hs4, hdis⟩⟩⟩

end CTransformFilter

end FilterSln
