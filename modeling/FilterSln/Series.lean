import FilterSln.Metadata
import FilterSln.Peers
import FilterSln.Picture
/-!
# Two flip filters in series

The second filter's input pin connects to the first's output pin, and what the
first delivers the second receives. The type of the connection is whatever the
two negotiate (`InputPin` gives the second filter's answers), the rest of the two
filters is open to any calls.

Both filters copy with the geometry of their own input type. The types are equal
all the way through (`Series.Inv`), so the picture is mirrored twice with one
stride and one height and comes out as it went in. The answers about the sample do
too when its times get through the first filter (`twice_flipped_iff`); the second
always gets a `CMediaSample`.
-/

namespace FilterSln

open HRESULT Lib CTransformFilter

/-! ## The pin of the second filter -/

/-- The input pin of a filter of class `c`, with what the system answers in the
calls to come. -/
structure InputPin (c : Filter) where
  filter : CTransformFilter CMemAllocator
  env : Nat → ConnectEnv CMemAllocator
  enumerator : EnumEnv

namespace InputPin

variable {c : Filter}

/-- The pin after a call. -/
def after (p : InputPin c) (filter : CTransformFilter CMemAllocator) : InputPin c :=
  { p with filter, env := fun n => p.env (n + 1) }

/-- An input pin asks its connector for the direction only. It has no
requirements for the allocator. -/
instance : IPin (InputPin c) CMemAllocator where
  QueryDirection _ := .PINDIR_INPUT
  QueryMemInputPin _ := S_OK
  EnumMediaTypes p := p.filter.EnumMediaTypes c p.enumerator .PINDIR_INPUT
  ReceiveConnection p mt :=
    (p.filter.ReceiveConnection c (p.env 0) .PINDIR_INPUT sourcePin mt).map fun (filter, _, hr) => (p.after filter, hr)
  Disconnect p := p.after (p.filter.Disconnect .PINDIR_INPUT).1
  GetAllocatorRequirements _ := .zero
  GetAllocator p :=
    let (filter, hr, a) := p.filter.GetAllocator (p.env 0).CreateMemoryAllocator
    (p.after filter, hr, a)
  NotifyAllocator p a :=
    let (filter, hr) := p.filter.NotifyAllocator a
    (p.after filter, hr)

/-- The filter of the pin is in order. -/
def Sound (p : InputPin c) : Prop := Negotiated c p.filter

/-- The pin is connected with `mt`. -/
def Has (mt : CMediaType) (p : InputPin c) : Prop :=
  p.filter.m_pInput.m_Connected = true ∧ p.filter.m_pInput.m_mt = mt

theorem sameTypes_GetAllocator (f : CTransformFilter CMemAllocator) (a : HRESULT × Option CMemAllocator) :
    SameTypes f (f.GetAllocator a).1 := by
  unfold GetAllocator
  split
  · exact SameTypes.refl f
  · dsimp only
    split <;> exact ⟨rfl, rfl, rfl, rfl⟩

theorem Has.of_sameTypes {p : InputPin c} {f : CTransformFilter CMemAllocator} {mt : CMediaType} (h : Has mt p)
    (hs : SameTypes p.filter f) : Has mt (p.after f) :=
  ⟨hs.input.trans h.1, hs.inputType.trans h.2⟩

/-- An input pin keeps its filter in order, and has the type that it accepted. -/
theorem peerSpec : PeerSpec (P := InputPin c) Sound Has where
  received := by
    intro p p' mt hr hj h
    obtain ⟨⟨f, q, hr1⟩, h, heq⟩ := Option.map_eq_some_iff.1 h
    cases heq
    have hstep : p.filter.step c (.ReceiveConnection .PINDIR_INPUT (p.env 0) sourcePin mt) = some f := by
      simp only [CTransformFilter.step, h, Option.map_some]
    refine ⟨negotiated_step hj hstep, fun hs => ?_⟩
    obtain ⟨-, ⟨-, hf⟩ | ⟨-, ⟨-, hatt⟩ | ⟨hf, -⟩⟩⟩ := ReceiveConnection_cases h
    · simp [FAILED, hs] at hf
    · exact ⟨hatt.connected, hatt.mt⟩
    · simp [FAILED, hs] at hf
  disconnected := by
    intro p hj
    have hstep : p.filter.step c (.Disconnect .PINDIR_INPUT : Op CMemAllocator AllocEnv (Answers CMemAllocator)) =
        some (p.filter.Disconnect .PINDIR_INPUT).1 := rfl
    exact negotiated_step hj hstep
  asked := by
    intro p hj
    have hs := sameTypes_GetAllocator p.filter (p.env 0).CreateMemoryAllocator
    exact ⟨hj.of_sameTypes hs, fun mt h => h.of_sameTypes hs⟩
  notified := by
    intro p a hj
    have hs : SameTypes p.filter (p.filter.NotifyAllocator a).1 := ⟨rfl, rfl, rfl, rfl⟩
    exact ⟨hj.of_sameTypes hs, fun mt h => h.of_sameTypes hs⟩

end InputPin

/-! ## The machine -/

structure Series where
  first : Stream
  second : Stream
  /-- The first's output pin and the second's input pin are connected with each other. -/
  joined : Bool
  /-- The samples the second has passed on of those the first was given, in pairs. -/
  delivered : List (IMediaSample × IMediaSample)

namespace Series

/-- Samples from upstream come to the first filter while the two are joined;
whatever else happens to either filter is an event of its own. -/
inductive Event (P : Type) where
  | first (e : Stream.Event P)
  | second (e : Stream.Event P)
  | Connect (env : AgreeEnv CMemAllocator) (pinEnv : Nat → ConnectEnv CMemAllocator) (enumerator : EnumEnv)
      (pmt : Option CMediaType)
  | Receive (pSample : IMediaSample) (env env' : ReceiveEnv) (hr : HRESULT) (use : Use)

/-- `Receive` of the second filter, for a sample from the first. `out` is what it
passes on to the filters downstream, which answer `hr`. It only reads the sample. -/
def deliverSecond (env : ReceiveEnv) (hr : HRESULT) (use : Use) (d : Stream × Option IMediaSample)
    (pSample : IMediaSample) : Option ((Stream × Option IMediaSample) × HRESULT × Use) := do
  let (second, out, hr) ← d.1.Receive .CFlipFilter env (fun _ out => some (some out, hr, use)) none pSample
  some ((second, out), hr, Stream.noUse)

def isReceive {P : Type} : Stream.Event P → Bool
  | .Receive .. => true
  | _ => false

variable {P : Type} [IPin P CMemAllocator]

def step (p : Series) : Event P → Option Series
  | .first e =>
    if p.joined && isReceive e then none
    else do
      let first ← Stream.step .CFlipFilter p.first e
      some { p with first, joined := p.joined && first.filter.m_pOutput.m_Connected }
  | .second e =>
    if p.joined && isReceive e then none
    else do
      let second ← Stream.step .CFlipFilter p.second e
      some { p with second, joined := p.joined && second.filter.m_pInput.m_Connected }
  | .Connect env pinEnv enumerator pmt => do
    let pin : InputPin .CFlipFilter := ⟨p.second.filter, pinEnv, enumerator⟩
    let (filter, pin, hr) ← p.first.filter.Connect .CFlipFilter env .PINDIR_OUTPUT pin pmt
    some { p with
      first := { p.first with filter, held := if filter.m_pOutput.m_Connected then p.first.held else [] }
      second := { p.second with filter := pin.filter }
      joined := p.joined || hr.SUCCEEDED }
  | .Receive pSample env env' hr use =>
    if !p.joined then none
    else do
      let (first, (second, out), _) ←
        p.first.Receive .CFlipFilter env (deliverSecond env' hr use) (p.second, none) pSample
      some { p with first, second, delivered := p.delivered ++ (out.map (pSample, ·)).toList }

/-- Two filters that nobody has called. -/
def new : Series := ⟨.new, .new, false, []⟩

/-! ## One type all the way through -/

structure Inv (p : Series) : Prop where
  first : Negotiated .CFlipFilter p.first.filter
  second : Negotiated .CFlipFilter p.second.filter
  output : p.joined = true → p.first.filter.m_pOutput.m_Connected = true
  input : p.joined = true → p.second.filter.m_pInput.m_Connected = true
  type : p.joined = true → p.second.filter.m_pInput.m_mt = p.first.filter.m_pOutput.m_mt

theorem inv_new : Inv new := ⟨negotiated_new, negotiated_new, nofun, nofun, nofun⟩

/-- What `Receive` of the second filter can do with a sample. -/
theorem deliverSecond_cases {env : ReceiveEnv} {hr hr' : HRESULT} {use use' : Use} {s s' : Stream} {out : Option IMediaSample}
    {pSample : IMediaSample} (h : deliverSecond env hr use (s, none) pSample = some ((s', out), hr', use')) :
    SameTypes s.filter s'.filter ∧
      (out = none ∨ ((s.props pSample).dwStreamId ≠ AM_STREAM_MEDIA ∧ out = some pSample) ∨
        ∃ pOut, Stream.Delivered .CFlipFilter env s s' pSample pOut ∧ out = some pOut.view) := by
  simp only [deliverSecond, Option.bind_eq_bind, Option.bind_eq_some_iff] at h
  obtain ⟨⟨s1, out1, hr1⟩, h, heq⟩ := h
  cases heq
  rcases Stream.Receive_cases h with ⟨hsame, hout, -⟩ | ⟨hsame, hstream, use1, hdel⟩ | ⟨pOut, use1, hdelivered, hdel⟩
  · exact ⟨hsame.types, .inl hout⟩
  · cases hdel
    exact ⟨hsame.types, .inr (.inl ⟨hstream, rfl⟩)⟩
  · cases hdel
    exact ⟨hdelivered.types, .inr (.inr ⟨pOut, hdelivered, rfl⟩)⟩

/-- A sample passes the two filters: neither changes its connections, and what
comes out, if anything, is the sample itself or made from it by both. -/
theorem Receive_cases {p p' : Series} {pSample : IMediaSample} {env env' : ReceiveEnv} {hr : HRESULT} {use : Use}
    (h : p.step (.Receive pSample env env' hr use : Event P) = some p') :
    p.joined = true ∧ p'.joined = true ∧ SameTypes p.first.filter p'.first.filter ∧
    SameTypes p.second.filter p'.second.filter ∧
      (p'.delivered = p.delivered ∨
        (Stream.OtherStream pSample ∧ p'.delivered = p.delivered ++ [(pSample, pSample)]) ∨
        ∃ pMid pOut, Stream.Delivered .CFlipFilter env p.first p'.first pSample pMid ∧
          Stream.Delivered .CFlipFilter env' p.second p'.second pMid.view pOut ∧
          p'.delivered = p.delivered ++ [(pSample, pOut.view)]) := by
  simp only [step] at h
  split at h
  · cases h
  · rename_i hj
    have hj' : p.joined = true := by simpa using hj
    simp only [Option.bind_eq_bind, Option.bind_eq_some_iff] at h
    obtain ⟨⟨first, ⟨second, out⟩, hr1⟩, h, heq⟩ := h
    cases heq
    rcases Stream.Receive_cases h with ⟨hsame, hout, -⟩ | ⟨hsame, hstream, use1, hdel⟩ | ⟨pMid, use1, hmid, hdel⟩
    · cases hout
      exact ⟨hj', hj', hsame.types, SameTypes.refl _, .inl (by simp)⟩
    · obtain ⟨htypes, rfl | ⟨-, rfl⟩ | ⟨pOut, hdelivered, rfl⟩⟩ := deliverSecond_cases hdel
      · exact ⟨hj', hj', hsame.types, htypes, .inl (by simp)⟩
      · exact ⟨hj', hj', hsame.types, htypes, .inr (.inl ⟨(Stream.otherStream_iff _ _).1 hstream, by simp⟩)⟩
      · -- What the first passes through, the second does too.
        have hmedia := hdelivered.delivers.2.1
        rw [Stream.props_stream p.second p.first] at hmedia
        exact absurd hmedia hstream
    · obtain ⟨htypes, rfl | ⟨hstream, rfl⟩ | ⟨pOut, hdelivered, rfl⟩⟩ := deliverSecond_cases hdel
      · exact ⟨hj', hj', hmid.types, htypes, .inl (by simp)⟩
      · exact absurd (Stream.delivered_stream hmid) hstream
      · exact ⟨hj', hj', hmid.types, htypes, .inr (.inr ⟨pMid, pOut, hmid, hdelivered, by simp⟩)⟩

theorem inv_step {p p' : Series} {e : Event P} (hi : p.Inv) (h : p.step e = some p') : p'.Inv := by
  cases e with
  | first e =>
    simp only [step] at h
    split at h
    · cases h
    · simp only [Option.bind_eq_bind, Option.bind_eq_some_iff] at h
      obtain ⟨first, he, h⟩ := h
      cases h
      refine ⟨Stream.negotiated_event hi.first he, hi.second, fun hj => ?_, fun hj => ?_, fun hj => ?_⟩ <;>
        obtain ⟨hj, hc⟩ := Bool.and_eq_true_iff.1 hj
      · exact hc
      · exact hi.input hj
      · exact (hi.type hj).trans (Stream.event_keeps_type .PINDIR_OUTPUT he (hi.output hj) hc).symm
  | second e =>
    simp only [step] at h
    split at h
    · cases h
    · simp only [Option.bind_eq_bind, Option.bind_eq_some_iff] at h
      obtain ⟨second, he, h⟩ := h
      cases h
      refine ⟨hi.first, Stream.negotiated_event hi.second he, fun hj => ?_, fun hj => ?_, fun hj => ?_⟩ <;>
        obtain ⟨hj, hc⟩ := Bool.and_eq_true_iff.1 hj
      · exact hi.output hj
      · exact hc
      · exact (Stream.event_keeps_type .PINDIR_INPUT he (hi.input hj) hc).trans (hi.type hj)
  | Connect env pinEnv enumerator pmt =>
    simp only [step, Option.bind_eq_bind, Option.bind_eq_some_iff] at h
    obtain ⟨⟨filter, pin, hr⟩, hconn, h⟩ := h
    cases h
    have hop : p.first.filter.step .CFlipFilter (.Connect .PINDIR_OUTPUT env
        (⟨p.second.filter, pinEnv, enumerator⟩ : InputPin .CFlipFilter) pmt) = some filter := by
      simp only [CTransformFilter.step, hconn, Option.map_some]
    have hpin : InputPin.Sound (⟨p.second.filter, pinEnv, enumerator⟩ : InputPin .CFlipFilter) := hi.second
    obtain ⟨hsound, hhas⟩ := Connect_peer InputPin.peerSpec hpin hconn
    have hfirst := negotiated_step hi.first hop
    cases hs : hr.SUCCEEDED with
    | true =>
      obtain ⟨-, hout, hin, hmt⟩ := hhas hs
      exact ⟨hfirst, hsound, fun _ => hout, fun _ => hin, fun _ => hmt⟩
    | false =>
      cases hj : p.joined with
      | false =>
        have hno : ¬ (false || false) = true := Bool.false_ne_true
        exact ⟨hfirst, hsound, fun hj' => absurd hj' hno, fun hj' => absurd hj' hno, fun hj' => absurd hj' hno⟩
      | true =>
        -- The pin is connected, so the call has changed nothing.
        have hno : p.first.filter.IsConnected .PINDIR_OUTPUT = true := hi.output hj
        simp only [CTransformFilter.Connect, hno, if_true] at hconn
        cases hconn
        exact ⟨hi.first, hi.second, fun _ => hi.output hj, fun _ => hi.input hj, fun _ => hi.type hj⟩
  | Receive pSample env env' hr use =>
    obtain ⟨hj, hj', h1, h2, -⟩ := Receive_cases h
    refine ⟨hi.first.of_sameTypes h1, hi.second.of_sameTypes h2, fun _ => ?_, fun _ => ?_, fun _ => ?_⟩
    · rw [h1.output]
      exact hi.output hj
    · rw [h2.input]
      exact hi.input hj
    · rw [h2.inputType, h1.outputType]
      exact hi.type hj

/-! ## Mirrored twice -/

/-- `Transform` of a flip filter with an accepted type mirrors the picture and
copies a data length that the output buffer can hold. -/
theorem flip_frame {f : CTransformFilter CMemAllocator} {env : TransformEnv} {pIn : IMediaSample}
    {pOut pOut' : CMediaSample} {file file' : List BYTE} {biWidth biHeight : LONG}
    (h : Filter.Transform .CFlipFilter env f pIn pOut file = some (pOut', NOERROR, file'))
    (hmt : CFlipFilter.CheckInputType f.m_pInput.m_mt = some S_OK)
    (hw : VIDEOINFOHEADER.biWidth f.m_pInput.m_mt.pbFormat = some biWidth)
    (hh : VIDEOINFOHEADER.biHeight f.m_pInput.m_mt.pbFormat = some biHeight)
    (hsrc : rowBytes biWidth * biHeight.toInt.toNat ≤ pIn.GetPointer.bytes.length)
    (hdst : rowBytes biWidth * biHeight.toInt.toNat ≤ pOut.m_pBuffer.bytes.length) :
    Mirrored (rowBytes biWidth) biHeight.toInt.toNat pIn.GetPointer.bytes pOut.m_pBuffer.bytes pOut'.m_pBuffer.bytes ∧
      (0 ≤ pIn.GetActualDataLength.toInt → pIn.GetActualDataLength.toInt ≤ pOut.m_cbBuffer.toInt →
        pOut'.m_lActual = pIn.GetActualDataLength) := by
  simp only [Filter.Transform, Option.map_eq_some_iff] at h
  obtain ⟨⟨t, hr⟩, h, heq⟩ := h
  cases heq
  obtain ⟨calls, m_pBuffer, hcalls, hrun, hsize, hmeta⟩ := CFlipFilter.Transform_ok h
  obtain ⟨w, n, hw', hh', hcalls'⟩ := pictureCopies_24 hmt
  cases Option.some_inj.1 (hw.symm.trans hw')
  cases Option.some_inj.1 (hh.symm.trans hh')
  cases Option.some_inj.1 (hcalls.symm.trans hcalls')
  rw [runCopies_rowCopies (nWidth_toInt biWidth) pIn.GetPointer.fits hsrc hdst, Option.some_inj] at hrun
  -- Copying the metadata does not touch the buffer.
  have hbuf := (copyMetadata_buffer pIn { pOut with m_pBuffer }).m_pBuffer
  rw [hmeta] at hbuf
  dsimp only at hbuf
  refine ⟨?_, fun h0 hle => ?_⟩
  · rw [hbuf, ← hrun]
    exact copyRows_mirrored hsrc hdst
  · have hcb : CMediaSample.m_cbBuffer { pOut with m_pBuffer } = pOut.m_cbBuffer := hsize
    rw [copyMetadata_length hmeta, hcb, if_neg]
    rw [gt_iff_lt, Int32.lt_iff_toInt_lt, Int32.lt_iff_toInt_lt, Int32.toInt_zero]
    omega

/-- The bytes of a picture of 24 bits per pixel, with rows rounded up to 32 bits. -/
def frameSize (biWidth biHeight : LONG) : Int := 4 * ((24 * biWidth.toInt + 31) / 32) * biHeight.toInt

/-- The sample holds a picture of the type the first filter is connected with, and
the buffers that wait for it are large enough. -/
structure Fits (p : Series) (pSample : IMediaSample) (biWidth biHeight : LONG) : Prop where
  connected : p.first.filter.m_pInput.m_Connected = true
  typeWidth : VIDEOINFOHEADER.biWidth p.first.filter.m_pInput.m_mt.pbFormat = some biWidth
  typeHeight : VIDEOINFOHEADER.biHeight p.first.filter.m_pInput.m_mt.pbFormat = some biHeight
  width : 0 ≤ biWidth.toInt ∧ 24 * biWidth.toInt + 31 < 2 ^ 31
  height : 0 ≤ biHeight.toInt
  data : pSample.GetActualDataLength.toInt = frameSize biWidth biHeight
  input : frameSize biWidth biHeight ≤ pSample.GetSize.toInt
  first : ∀ free, p.first.nextFree = some free → frameSize biWidth biHeight ≤ free.1.m_cbBuffer.toInt
  second : ∀ free, p.second.nextFree = some free → frameSize biWidth biHeight ≤ free.1.m_cbBuffer.toInt

/-- Every sample given to the two filters, whoever implements it, holds a picture
that fits. -/
def PictureFrames (p : Series) : Event P → Prop
  | .Receive pSample _ _ _ _ => ∃ biWidth biHeight, p.Fits pSample biWidth biHeight
  | _ => True

/-- The sample `b` has the data, the data length and the metadata of `a`. -/
structure SameFrame (a b : IMediaSample) : Prop where
  data : b.GetPointer.bytes.take a.GetActualDataLength.toInt.toNat =
    a.GetPointer.bytes.take a.GetActualDataLength.toInt.toNat
  length : b.GetActualDataLength = a.GetActualDataLength
  metadata : b.SameMetadata a

theorem SameFrame.refl (a : IMediaSample) : SameFrame a a := ⟨rfl, rfl, .refl a⟩

/-- One flip filter: the picture mirrored, in data of the same length. -/
theorem flip_delivered {s s' : Stream} {pSample : IMediaSample} {pOut : CMediaSample} {env : ReceiveEnv}
    {biWidth biHeight : LONG} (h : Stream.Delivered .CFlipFilter env s s' pSample pOut)
    (hmt : CFlipFilter.CheckInputType s.filter.m_pInput.m_mt = some S_OK)
    (hw : VIDEOINFOHEADER.biWidth s.filter.m_pInput.m_mt.pbFormat = some biWidth)
    (hh : VIDEOINFOHEADER.biHeight s.filter.m_pInput.m_mt.pbFormat = some biHeight)
    (hdata : pSample.GetActualDataLength.toInt = (rowBytes biWidth * biHeight.toInt.toNat : Nat))
    (hsrc : (rowBytes biWidth * biHeight.toInt.toNat : Nat) ≤ pSample.GetSize.toInt)
    (hdst : ∀ free, s.nextFree = some free → (rowBytes biWidth * biHeight.toInt.toNat : Nat) ≤ free.1.m_cbBuffer.toInt) :
    (∃ old, Mirrored (rowBytes biWidth) biHeight.toInt.toNat pSample.GetPointer.bytes old pOut.m_pBuffer.bytes) ∧
      pOut.GetActualDataLength = pSample.GetActualDataLength ∧
      (rowBytes biWidth * biHeight.toInt.toNat : Nat) ≤ pOut.m_cbBuffer.toInt := by
  obtain ⟨free, hfree⟩ := Option.isSome_iff_exists.1 h.delivers.2.2.1
  have hmade := h.made free hfree
  have hbuf := (copyProps_buffer (s.props pSample) env.OutProps free.1.AddRef).1.m_pBuffer
  generalize copyProps (s.props pSample) env.OutProps free.1.AddRef = pOut0 at hmade hbuf
  have hsize : pOut0.m_cbBuffer = free.1.m_cbBuffer := by
    rw [CMediaSample.m_cbBuffer, hbuf]
    rfl
  have hroom := hdst free hfree
  rw [← hsize] at hroom
  simp only [IMediaSample.GetSize, CMediaSample.m_cbBuffer, Block.size_toInt, Nat.cast_le] at hsrc hroom
  obtain ⟨hmir, hact⟩ := flip_frame hmade hmt hw hh hsrc hroom
  have hcb : pOut0.m_cbBuffer.toInt = pOut0.m_pBuffer.bytes.length := Block.size_toInt _
  refine ⟨⟨_, hmir⟩, hact (by omega) (by omega), ?_⟩
  rw [CMediaSample.m_cbBuffer, Block.size_toInt, hmir.length]
  exact_mod_cast hroom

/-- What a joined first and second filter make of a picture that fits: the same
data, and the same metadata if it gets through the first. The second gets a
`CMediaSample`. -/
theorem sameFrame_delivered {p : Series} {pSample : IMediaSample} {pMid pOut : CMediaSample} {env env' : ReceiveEnv}
    {biWidth biHeight : LONG} {first second : Stream} (hi : p.Inv) (hj : p.joined = true)
    (hfits : p.Fits pSample biWidth biHeight) (h1 : Stream.Delivered .CFlipFilter env p.first first pSample pMid)
    (h2 : Stream.Delivered .CFlipFilter env' p.second second pMid.view pOut) :
    SameFrame pSample pOut.view ↔ Stream.Carried pSample := by
  -- Both filters copy with the geometry of one type.
  have hgeo : SameGeometry p.first.filter.m_pInput.m_mt p.second.filter.m_pInput.m_mt := by
    rw [hi.type hj]
    exact .of_eq (hi.first.agree hfits.connected (hi.output hj))
  have hF : frameSize biWidth biHeight = (rowBytes biWidth * biHeight.toInt.toNat : Nat) := by
    rw [Nat.cast_mul, rowBytes_exact hfits.width.1 hfits.width.2, Int.toNat_of_nonneg hfits.height]
    rfl
  obtain ⟨-, -, -, -, -, hdata, hsrc, hfirst, hsecond⟩ := id hfits
  rw [hF] at hdata hsrc hfirst hsecond
  obtain ⟨⟨old1, hmir1⟩, hact1, hsize1⟩ := flip_delivered h1 (hi.first.accepted hfits.connected) hfits.typeWidth
    hfits.typeHeight hdata hsrc hfirst
  obtain ⟨⟨old2, hmir2⟩, hact2, -⟩ := flip_delivered h2 (hi.second.accepted (hi.input hj))
    (hgeo.biWidth ▸ hfits.typeWidth) (hgeo.biHeight ▸ hfits.typeHeight)
    (show pMid.GetActualDataLength.toInt = _ by rw [hact1]; exact hdata) hsize1 hsecond
  have hmeta2 : pOut.view.SameMetadata pMid.view := h2.metadata_iff.2 (.inr (carried_view pMid))
  rw [← h1.metadata_iff]
  constructor
  · intro hsame
    exact hmeta2.symm.trans hsame.metadata
  · intro hmeta1
    refine ⟨?_, hact2.trans hact1, hmeta2.trans hmeta1⟩
    have hlen : pSample.GetActualDataLength.toInt.toNat = rowBytes biWidth * biHeight.toInt.toNat := by
      rw [hdata, Int.toNat_natCast]
    rw [hlen]
    exact hmir1.twice hmir2

/-- Only a sample from upstream can add to what is delivered. -/
theorem step_delivered {p p' : Series} {e : Event P} (h : p.step e = some p') :
    p'.delivered = p.delivered ∨ ∃ pSample env env' hr use, e = .Receive pSample env env' hr use := by
  cases e with
  | first e =>
    left
    simp only [step] at h
    split at h
    · cases h
    · simp only [Option.bind_eq_bind, Option.bind_eq_some_iff] at h
      obtain ⟨first, -, h⟩ := h
      cases h
      rfl
  | second e =>
    left
    simp only [step] at h
    split at h
    · cases h
    · simp only [Option.bind_eq_bind, Option.bind_eq_some_iff] at h
      obtain ⟨second, -, h⟩ := h
      cases h
      rfl
  | Connect env pinEnv enumerator pmt =>
    left
    simp only [step, Option.bind_eq_bind, Option.bind_eq_some_iff] at h
    obtain ⟨⟨filter, pin, hr⟩, -, h⟩ := h
    cases h
    rfl
  | Receive pSample env env' hr use => exact .inr ⟨pSample, env, env', hr, use, rfl⟩

/-- What a step adds comes out as it came exactly when its times get through. -/
theorem delivered_step {p p' : Series} {e : Event P} (hi : p.Inv) (he : PictureFrames p e) (h : p.step e = some p') :
    p'.delivered = p.delivered ∨
      ∃ d, p'.delivered = p.delivered ++ [d] ∧ (SameFrame d.1 d.2 ↔ Stream.Carried d.1) := by
  rcases step_delivered h with hsame | ⟨pSample, env, env', hr, use, rfl⟩
  · exact .inl hsame
  · obtain ⟨biWidth, biHeight, hfits⟩ := he
    obtain ⟨hj, -, -, -, heq | ⟨hother, heq⟩ | ⟨pMid, pOut, h1, h2, heq⟩⟩ := Receive_cases h
    · exact .inl heq
    · exact .inr ⟨_, heq, iff_of_true (SameFrame.refl pSample) (.inl hother)⟩
    · exact .inr ⟨_, heq, sameFrame_delivered hi hj hfits h1 h2⟩

/-- Two flip filters in series hand on a picture that fits as it came, exactly when
its times get through, in any run: whatever was connected before, whatever the
buffers held before. -/
theorem twice_flipped_iff {p : Series} {es : List (Event P)} (h : Runs Series.step PictureFrames Series.new es p) :
    ∀ d ∈ p.delivered, SameFrame d.1 d.2 ↔ Stream.Carried d.1 := by
  have h0 : ∀ d ∈ Series.new.delivered, SameFrame d.1 d.2 ↔ Stream.Carried d.1 := fun _ hd => nomatch hd
  refine (h.inv (fun t => t.Inv ∧ ∀ d ∈ t.delivered, SameFrame d.1 d.2 ↔ Stream.Carried d.1) ⟨inv_new, h0⟩ ?_).2
  rintro t e u ⟨hi, ht⟩ he hstep
  refine ⟨inv_step hi hstep, ?_⟩
  rcases delivered_step hi he hstep with heq | ⟨d, heq, hd⟩ <;> rw [heq]
  · exact ht
  · intro d' hd'
    rcases List.mem_append.1 hd' with hd' | hd'
    · exact ht d' hd'
    · rw [List.mem_singleton.1 hd']
      exact hd

/-- The calls that connect two filters in series with `mt` and start them. -/
def connectSeries (mt : CMediaType) : List (Event (Answers CMemAllocator)) :=
  let env : ConnectEnv CMemAllocator := ⟨true, S_OK, some (.new 0x10000)⟩
  let agree : AgreeEnv CMemAllocator := ⟨fun _ => env, fun _ => env, true, true, true⟩
  [.first (.call (.ReceiveConnection .PINDIR_INPUT env sourcePin mt)),
    .Connect agree (fun _ => env) ⟨true, true, true⟩ none,
    .second (.call (.Connect .PINDIR_OUTPUT agree rendererPin none)),
    .second (.call (.Pause someMemory)),
    .first (.call (.Pause someMemory))]

/-- A picture of two rows, in bytes that tell the rows apart. -/
def picture : CMediaSample :=
  Stream.frame Stream.everything ⟨0, List.replicate 8 1 ++ List.replicate 8 2, by decide⟩

def started : Series := (evalRun Series.step Any (connectSeries (rgb24 2 2 16)) Series.new).get (by decide)

/-- The two filters and a renderer get one sample. -/
def given (pSample : IMediaSample) : Event (Answers CMemAllocator) :=
  .Receive pSample Stream.steady Stream.steady S_OK Stream.noUse

theorem runs_started : Runs Series.step PictureFrames Series.new (connectSeries (rgb24 2 2 16)) started := by
  refine (Runs.of_isSome (C := Any) (by decide)).of_forall fun e he s => ?_
  simp only [connectSeries, List.mem_cons, List.not_mem_nil, or_false] at he
  rcases he with rfl | rfl | rfl | rfl | rfl <;> trivial

/-- A sample of 16 bytes holds a picture that fits. -/
theorem started_fits {pSample : IMediaSample} (hdata : pSample.GetActualDataLength = 16) (hsize : pSample.GetSize = 16) :
    started.Fits pSample 2 2 where
  connected := by decide
  typeWidth := by decide
  typeHeight := by decide
  width := by decide
  height := by decide
  data := by rw [hdata]; decide
  input := by rw [hsize]; decide
  first := by
    have h : ∀ free ∈ started.first.nextFree, frameSize 2 2 ≤ free.1.m_cbBuffer.toInt := by decide
    exact fun free hf => h free hf
  second := by
    have h : ∀ free ∈ started.second.nextFree, frameSize 2 2 ≤ free.1.m_cbBuffer.toInt := by decide
    exact fun free hf => h free hf

def afterPicture : Series := (started.step (given picture.view)).get (by decide)

theorem twice_flipped_picture :
    afterPicture.delivered.length = 1 ∧ ∀ d ∈ afterPicture.delivered, SameFrame d.1 d.2 := by
  have hgiven : PictureFrames started (given picture.view) := ⟨2, 2, started_fits (by decide) (by decide)⟩
  have hrun : Runs Series.step PictureFrames Series.new (connectSeries (rgb24 2 2 16) ++ [given picture.view])
      afterPicture := runs_started.snoc hgiven (Option.some_get _).symm
  have hfrom : afterPicture.delivered.map Prod.fst = [picture.view] := rfl
  refine ⟨by decide, fun d hd => (twice_flipped_iff hrun d hd).2 ?_⟩
  have hmem := List.mem_map_of_mem hd (f := Prod.fst)
  rw [hfrom, List.mem_singleton] at hmem
  rw [hmem]
  exact .inr (carried_view picture)

/-- The same picture from someone without `IMediaSample2`, with a start and no stop. -/
def startOnly : IMediaSample :=
  { plainSample picture.m_pBuffer with GetTime := (VFW_S_NO_STOP_TIME, some (100, 101)) }

def afterStartOnly : Series := (started.step (given startOnly)).get (by decide)

/-- It comes out with the stop that `GetTime` made up, as if it were one. -/
theorem start_only_gets_stop : Runs Series.step PictureFrames Series.new (connectSeries (rgb24 2 2 16) ++ [given startOnly])
      afterStartOnly ∧
    afterStartOnly.delivered.map (fun d => (d.1.GetTime, d.2.GetTime)) =
      [((VFW_S_NO_STOP_TIME, some (100, 101)), (S_OK, some (100, 101)))] ∧
    ¬ ∀ d ∈ afterStartOnly.delivered, SameFrame d.1 d.2 := by
  have hgiven : PictureFrames started (given startOnly) := ⟨2, 2, started_fits (by decide) (by decide)⟩
  have htimes : afterStartOnly.delivered.map (fun d => (d.1.GetTime, d.2.GetTime)) =
      [((VFW_S_NO_STOP_TIME, some (100, 101)), (S_OK, some (100, 101)))] := by decide
  refine ⟨runs_started.snoc hgiven (Option.some_get _).symm, htimes, fun hsame => ?_⟩
  obtain ⟨d, hd, heq⟩ := List.map_eq_singleton_iff.1 htimes
  have htime := (hsame d (by simp [hd])).metadata.time
  cases (Prod.mk.inj heq).1.symm.trans (htime.symm.trans (Prod.mk.inj heq).2)

end Series

end FilterSln
