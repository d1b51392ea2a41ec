import FilterSln.Control
/-!
# What the negotiation guarantees, and what it does not

The types of two connected pins are equal, so `Transform` works with the
geometry of the sample it is given and of the type agreed downstream
(`connected_pins_agree`).

The size of the output buffers is only agreed when the output pin connects.
`CMediaType::operator ==` compares no sample size, so the input pin can be
reconnected with a type of larger samples while the output pin keeps its small
buffers (`reconnect_outgrows_buffers`). `buffers_fit` excludes just these steps.
-/

namespace FilterSln

open HRESULT Lib.Flags CTransformFilter

variable {α Env P : Type} [IMemAllocator α Env] [IPin P α]

/-! ## The picture geometry -/

/-- Both types give the same width, height and bit count. -/
structure SameGeometry (a b : CMediaType) : Prop where
  biWidth : VIDEOINFOHEADER.biWidth a.pbFormat = VIDEOINFOHEADER.biWidth b.pbFormat
  biHeight : VIDEOINFOHEADER.biHeight a.pbFormat = VIDEOINFOHEADER.biHeight b.pbFormat
  biBitCount : VIDEOINFOHEADER.biBitCount a.pbFormat = VIDEOINFOHEADER.biBitCount b.pbFormat

theorem SameGeometry.of_eq {a b : CMediaType} (h : a.eq b = true) : SameGeometry a b := by
  have hf := CMediaType.eq_format h
  exact ⟨by rw [hf], by rw [hf], by rw [hf]⟩

/-- The sample announces the type `mt`. -/
def IMediaSample.Carries (pSample : IMediaSample) (mt : CMediaType) : Prop :=
  match pSample.IMediaSample2 with
  | some (_, Props) => has Props.dwSampleFlags SampleFlag.TypeChanged = true ∧ Props.pMediaType = some mt
  | none => pSample.GetMediaType = (S_OK, some mt)

/-- The properties read from the sample show the type it announces. -/
theorem readProps_carries {pSample : IMediaSample} {mt : CMediaType} (h : pSample.Carries mt)
    (m_SampleProps : AM_SAMPLE2_PROPERTIES) :
    has (readProps pSample m_SampleProps).2.dwSampleFlags SampleFlag.TypeChanged = true ∧
      (readProps pSample m_SampleProps).2.pMediaType = some mt := by
  unfold IMediaSample.Carries at h
  unfold readProps
  split at h
  · rename_i hs
    rw [hs]
    exact h
  · rename_i hs
    rw [hs]
    simp [propsTheHardWay, h]

/-- A sample that passes the check announces a type that the input pin accepts
in the present state. -/
theorem checkSample_carries {c : Filter} {f f' : CTransformFilter α} {pSample : IMediaSample} {mt : CMediaType}
    (hs : f.checkSample c pSample = some (f', NOERROR)) (hm : pSample.Carries mt) :
    f.m_pOutput.m_Connected = true ∧ f.CheckMediaType c .PINDIR_INPUT mt = some NOERROR := by
  obtain ⟨hflag, hmt⟩ := readProps_carries hm f.m_pInput.m_SampleProps
  unfold checkSample at hs
  dsimp only at hs
  split at hs
  · rename_i hne
    rw [Option.some_inj, Prod.mk.injEq] at hs
    exact absurd hs.2 hne
  · rename_i hstream
    have hout : f.m_pOutput.m_Connected = true := by
      by_contra hc
      have hno : f.CheckStreaming = VFW_E_NOT_CONNECTED := by simp [CheckStreaming, hc]
      exact hstream (by rw [hno]; nofun)
    split at hs
    · rename_i hf
      simp only [Option.some.injEq, Prod.mk.injEq] at hs
      rw [hs.2] at hf
      cases hf
    · simp only [hflag, hmt, Bool.not_true, Bool.false_eq_true, if_false, Option.bind_eq_bind,
        Option.bind_some, Option.bind_eq_some_iff] at hs
      obtain ⟨hr, hcheck, hs⟩ := hs
      split at hs
      · rename_i hno
        subst hno
        exact ⟨hout, hcheck⟩
      · cases hs

/-- In every reachable state with both pins connected the two types are equal,
and so is the type that any sample passing the check announces. -/
theorem connected_pins_agree (c : Filter) {f : CTransformFilter α} (h : Reaches (P := P) c Lib.Any f)
    (hin : f.m_pInput.m_Connected = true) (hout : f.m_pOutput.m_Connected = true) :
    f.m_pInput.m_mt.eq f.m_pOutput.m_mt = true ∧ SameGeometry f.m_pInput.m_mt f.m_pOutput.m_mt ∧
    ∀ (pSample : IMediaSample) (f' : CTransformFilter α) (mt : CMediaType),
      f.checkSample c pSample = some (f', NOERROR) → pSample.Carries mt →
        mt.eq f.m_pInput.m_mt = true ∧ mt.eq f.m_pOutput.m_mt = true ∧
          SameGeometry f'.m_pInput.m_mt mt ∧ SameGeometry f'.m_pInput.m_mt f.m_pOutput.m_mt := by
  have hagree := agree_reachable h hin hout
  refine ⟨hagree, .of_eq hagree, fun pSample f' mt hs hm => ?_⟩
  obtain ⟨hc, hcheck⟩ := checkSample_carries hs hm
  have hmtOut := (CheckMediaType_input hcheck).2 hc
  have hmtIn : mt.eq f.m_pInput.m_mt = true := CMediaType.eq_trans hmtOut (CMediaType.eq_symm hagree)
  rw [(Quiet.checkSample hs).inputType]
  exact ⟨hmtIn, hmtOut, .of_eq (CMediaType.eq_symm hmtIn), .of_eq hagree⟩

/-- The calls that connect both pins of a filter with `mt`. -/
def connectBoth (mt : CMediaType) : List (Op CMemAllocator AllocEnv (Answers CMemAllocator)) :=
  let env : ConnectEnv CMemAllocator := ⟨true, E_FAIL, none⟩
  [.ReceiveConnection .PINDIR_INPUT env sourcePin mt,
    .Connect .PINDIR_OUTPUT ⟨fun _ => env, fun _ => env, true, true, true⟩ rendererPin none]

/-- A sample that announces `mt`, from a filter without `IMediaSample2`. -/
def announcing (mt : CMediaType) : IMediaSample :=
  { plainSample (.sixteen 0) with GetMediaType := (S_OK, some mt) }

/-- A flip filter with both pins connected, paused. -/
def pausedFlip : CTransformFilter CMemAllocator :=
  (Lib.evalRun (step .CFlipFilter) Lib.Any (connectBoth (rgb24 2 2 16) ++ [Op.Pause someMemory]) new).get (by decide)

theorem connected_pins_agree_paused :
    pausedFlip.m_pInput.m_mt.eq pausedFlip.m_pOutput.m_mt = true ∧
      (rgb24 2 2 16).eq pausedFlip.m_pOutput.m_mt = true := by
  obtain ⟨heq, -, hsample⟩ := connected_pins_agree .CFlipFilter (f := pausedFlip)
    ⟨_, Lib.Runs.of_isSome (by decide)⟩ (by decide) (by decide)
  have hout := (hsample (announcing (rgb24 2 2 16))
    ((pausedFlip.checkSample .CFlipFilter (announcing (rgb24 2 2 16))).get (by decide)).1 (rgb24 2 2 16)
    (by rfl) (by rfl)).2.1
  exact ⟨heq, hout⟩

/-! ## The size of the buffers -/

/-- The buffer size `DecideBufferSize` asks for. -/
def requestedSize (mt : CMediaType) : LONG := Int32.ofBitVec mt.GetSampleSize

/-- With both pins connected, the agreed size of the output buffers is at least
what the input type asks for. Both are `LONG`s, and compared as such, as in
`DecideBufferSize`. -/
def BuffersFit (f : CTransformFilter CMemAllocator) : Prop :=
  f.m_pInput.m_Connected = true → f.m_pOutput.m_Connected = true →
    Allocated (fun a => requestedSize f.m_pInput.m_mt ≤ a.m_lSize) f

/-- The call offers the input pin no acceptable type with samples larger than
the buffers of a connected output pin. Only the free input pin of a stopped filter
can take a type. -/
def NoLargerType (c : Filter) [IPin P CMemAllocator] (f : CTransformFilter CMemAllocator)
    (op : Op CMemAllocator AllocEnv P) : Prop :=
  f.IsStopped = true → f.m_pOutput.m_Connected = true → f.m_pInput.m_Connected = false →
    ∀ mt ∈ op.offers c f .PINDIR_INPUT, f.CheckMediaType c .PINDIR_INPUT mt = some NOERROR →
      ∀ a ∈ f.m_pOutput.m_pAllocator, requestedSize mt ≤ a.m_lSize

instance (c : Filter) [IPin P CMemAllocator] (f : CTransformFilter CMemAllocator)
    (op : Op CMemAllocator AllocEnv P) : Decidable (NoLargerType c f op) :=
  inferInstanceAs (Decidable (_ → _ → _ → ∀ mt ∈ op.offers c f .PINDIR_INPUT, _ → ∀ a ∈ f.m_pOutput.m_pAllocator, _))

theorem stable_size (n : LONG) : Stable fun a : CMemAllocator => n ≤ a.m_lSize := by
  refine ⟨fun a env h => ?_, fun a h => ?_⟩
  · show n ≤ (a.Commit env).1.m_lSize
    rwa [a.Commit_m_lSize]
  · show n ≤ a.Decommit.1.m_lSize
    rwa [a.Decommit_m_lSize]

/-- An allocator that was sized for a type has buffers for it. -/
theorem requestedSize_le {mt : CMediaType} {a : CMemAllocator} (h : Sized mt a) : requestedSize mt ≤ a.m_lSize := by
  obtain ⟨a₀, req, Actual, hr, hset, hok, -, hreq, -, hle⟩ := h
  obtain ⟨-, -, -, hsize, -⟩ := CMemAllocator.SetProperties_ok hset hok
  rw [hsize, requestedSize, ← hreq]
  exact hle

section Fit

variable [IPin P CMemAllocator] {c : Filter} {f f' : CTransformFilter CMemAllocator}

/-- A connected output pin holds an allocator, large enough for the input type. -/
def Fitted (f : CTransformFilter CMemAllocator) : Prop :=
  (f.m_pOutput.m_Connected = true → Allocated (fun _ => True) f) ∧ BuffersFit f

theorem fitted_step {op : Op CMemAllocator AllocEnv P} (hi : Fitted f) (hop : NoLargerType c f op)
    (h : f.step c op = some f') : Fitted f' := by
  obtain ⟨halloc, hfit⟩ := hi
  rcases step_cases h with hq | ⟨dir, hframe, hdis⟩ | ⟨dir, mt, hmt, hframe, ⟨hc, hstop⟩, hatt⟩
  · refine ⟨fun hout => hq.allocator _ ⟨fun _ _ _ => trivial, fun _ _ => trivial⟩ (halloc (hq.output ▸ hout)), ?_⟩
    intro hin hout
    rw [hq.inputType]
    exact hq.allocator _ (stable_size _) (hfit (hq.input ▸ hin) (hq.output ▸ hout))
  · cases dir with
    | PINDIR_INPUT =>
      refine ⟨fun hout => ?_, fun hin => absurd hin (by simpa [CTransformFilter.IsConnected] using hdis)⟩
      rw [Allocated, hframe.output rfl]
      rw [hframe.output rfl] at hout
      exact halloc hout
    | PINDIR_OUTPUT =>
      have hno : ¬ f'.m_pOutput.m_Connected = true := by simpa [CTransformFilter.IsConnected] using hdis
      exact ⟨fun hout => absurd hout hno, fun _ hout => absurd hout hno⟩
  · cases dir with
    | PINDIR_INPUT =>
      have hmt' : f'.m_pInput.m_mt = mt := hatt.mt
      unfold Fitted BuffersFit Allocated
      rw [hframe.output rfl, hmt']
      refine ⟨halloc, fun _ hout => ?_⟩
      obtain ⟨a, ha, -⟩ := halloc hout
      exact ⟨a, ha, hop hstop hout hc mt hmt hatt.checked a ha⟩
    | PINDIR_OUTPUT =>
      obtain ⟨a, ha, hsz⟩ := hatt.sized rfl
      refine ⟨fun _ => ⟨a, ha, trivial⟩, fun _ _ => ⟨a, ha, ?_⟩⟩
      rw [hframe.input rfl]
      exact requestedSize_le hsz

/-- Unless the input pin of the stopped filter is given a type with larger samples while
the output pin is connected, the output buffers fit the input type in every state. -/
theorem buffers_fit (h : Reaches (P := P) c (NoLargerType c) f) : BuffersFit f := by
  obtain ⟨es, h⟩ := h
  have hnew : Fitted (new : CTransformFilter CMemAllocator) := ⟨by simp [new], by simp [BuffersFit, new]⟩
  exact (h.inv Fitted hnew fun _ _ _ hi hop hs => fitted_step hi hop hs).2

end Fit

/-- Both pins connected with samples of 16 bytes, then the input pin again with
`mt`. -/
def reconnect (mt : CMediaType) : List (Op CMemAllocator AllocEnv (Answers CMemAllocator)) :=
  connectBoth (rgb24 2 2 16) ++
    [.Disconnect .PINDIR_INPUT, .ReceiveConnection .PINDIR_INPUT ⟨true, E_FAIL, none⟩ sourcePin mt]

theorem buffers_fit_same_size :
    BuffersFit ((Lib.evalRun (step .CFlipFilter) (NoLargerType .CFlipFilter) (reconnect (rgb24 2 2 16)) new).get
      (by decide)) :=
  buffers_fit ⟨_, Lib.Runs.of_isSome (by decide)⟩

/-- The input pin has taken a type whose samples are twice as large as the buffers. -/
def outgrown : CTransformFilter CMemAllocator :=
  (Lib.evalRun (step .CFlipFilter) Lib.Any (reconnect (rgb24 2 2 32)) new).get (by decide)

theorem reconnect_outgrows_buffers :
    ∃ f : CTransformFilter CMemAllocator, Reaches (P := Answers CMemAllocator) .CFlipFilter Lib.Any f ∧
      ¬ BuffersFit f := by
  refine ⟨outgrown, ⟨_, .of_isSome (by decide)⟩, fun hfit => ?_⟩
  obtain ⟨a, ha, hle⟩ := hfit (by decide) (by decide)
  have hsize : a.m_lSize = 16 := by
    have := congrArg (Option.map CMemAllocator.m_lSize) ha
    exact Option.some_inj.1 (this.symm.trans (by decide))
  rw [hsize] at hle
  exact absurd hle (by decide)

end FilterSln
