import FilterSln.Picture
import FilterSln.SourcePin
/-!
# The length of the data

`m_lActual` is set by whoever fills a sample, and it survives when the sample goes
back to its allocator. A new sample starts with the size of its buffer.

`CMyOutputPin::FillBuffer` never sets it, so a frame of the source has the length
that the last holder of the buffer left there (`filled_length_iff`). The two
transform filters set it, but drop the answer: a length that does not fit leaves
the old one in place, and the sample goes out (`output_length_iff`).
-/

namespace FilterSln

open HRESULT Lib CTransformFilter

/-! ## Lengths in a pool -/

namespace Pool

/-- Whoever gives a sample back for good leaves it with the length `l`. -/
def Op.GivesBack (l : LONG) (p : Pool) : Op → Prop
  | .Release i => ∀ s f, p.held[i]? = some s → s.Release = .final f → s.m_lActual = l
  | _ => True

/-- The samples that wait to be handed out have the length `l`, which is the agreed
size. -/
structure Lengths (l : LONG) (p : Pool) : Prop where
  size : p.alloc.m_lSize = l
  free : p.alloc.m_bChanged = false → ∀ s ∈ p.alloc.m_lFree, s.1.m_lActual = l

variable {p q : Pool} {l : LONG}

theorem lengths_Commit (h : p.Lengths l) (env : AllocEnv) :
    Lengths l { p with alloc := (p.alloc.Commit env).1 } := by
  unfold CMemAllocator.Commit
  split
  · exact h
  · split
    · exact ⟨h.size, h.free⟩
    · rcases hres : p.alloc.Alloc env with ⟨a', hr⟩
      have hall : Lengths l { p with alloc := a' } := by
        rcases CMemAllocator.Alloc_spec hres with
          ⟨rfl, -⟩ | ⟨-, rfl, -⟩ | ⟨hsize, m_pBuffer, lAlignedSize, n, m_bChanged, -, rfl⟩
        · exact h
        · exact ⟨h.size, fun _ _ hs => absurd hs List.not_mem_nil⟩
        · refine ⟨h.size, fun _ s hs => ?_⟩
          -- A new sample is full: its length is the size of its buffer.
          simp only [List.mem_reverse, List.mem_map] at hs
          obtain ⟨i, -, rfl⟩ := hs
          rw [← h.size]
          exact CMemAllocator.newSample_size p.alloc.ReallyFree env m_pBuffer lAlignedSize i hsize
      dsimp only
      split
      · exact hall
      · exact ⟨hall.size, hall.free⟩

theorem lengths_release (h : p.Lengths l) {i : Nat} (hback : Op.GivesBack l p (.Release i))
    (hr : p.release i = some q) : q.Lengths l := by
  simp only [release, Option.bind_eq_bind, Option.bind_eq_some_iff] at hr
  obtain ⟨s, hs, hr⟩ := hr
  rcases s.Release_spec with ⟨t, ht, -, -⟩ | ⟨f, hf, -, hflen⟩
  · rw [ht] at hr
    cases hr
    exact ⟨h.size, h.free⟩
  · rw [hf] at hr
    cases hr
    have hfree : p.alloc.m_bChanged = false → ∀ x ∈ f :: p.alloc.m_lFree, x.1.m_lActual = l := by
      intro hch x hx
      rcases List.mem_cons.1 hx with rfl | hx
      · exact hflen.trans (hback s x hs hf)
      · exact h.free hch x hx
    unfold CMemAllocator.ReleaseBuffer
    dsimp only
    split <;> exact ⟨h.size, hfree⟩

theorem lengths_step (h : p.Lengths l) (hinv : p.Inv) (e : Op) (he : e.keepsSize p) (hback : e.GivesBack l p)
    (hs : p.step e = some q) : q.Lengths l := by
  cases e with
  | SetProperties req => cases he
  | Commit env => cases hs; exact lengths_Commit h env
  | Decommit =>
    cases hs
    unfold CMemAllocator.Decommit
    split <;> exact ⟨h.size, h.free⟩
  | GetBuffer dwFlags =>
    simp only [step, Option.bind_eq_bind, Option.bind_eq_some_iff] at hs
    obtain ⟨⟨a', r⟩, hg, hs⟩ := hs
    cases r with
    | error hr =>
      cases hs
      rw [(CMemAllocator.GetBuffer_error hg).1]
      exact h
    | ok s =>
      cases hs
      obtain ⟨f, rest, hc, hfree, rfl, rfl⟩ := CMemAllocator.GetBuffer_ok hg
      have hch := hinv.unchanged hc
      exact ⟨h.size, fun _ x hx => h.free hch x (hfree ▸ List.mem_cons_of_mem _ hx)⟩
  | use i u =>
    simp only [step, Option.bind_eq_bind, Option.bind_eq_some_iff] at hs
    obtain ⟨s, -, hs⟩ := hs
    cases hs
    exact ⟨h.size, h.free⟩
  | Release i => exact lengths_release h hback hs

/-- While the samples come back with the size that the last `SetProperties`
reported, they are handed out with it. -/
theorem GetBuffer_length {req Actual : ALLOCATOR_PROPERTIES} {hr : HRESULT} {a a' : CMemAllocator} {es : List Op}
    {dwFlags : DWORD} {s : CMediaSample} (h : p.Inv) (hset : p.alloc.SetProperties req = (a, hr, Actual))
    (hok : hr.SUCCEEDED = true)
    (hrun : Runs step (fun p e => e.keepsSize p ∧ e.GivesBack Actual.cbBuffer p) ⟨a, p.held⟩ es q)
    (hget : q.alloc.GetBuffer dwFlags = some (a', .ok s)) : s.m_lActual = Actual.cbBuffer := by
  obtain ⟨-, -, -, hsize, ha⟩ := CMemAllocator.SetProperties_ok hset hok
  have hinv : Inv ⟨a, p.held⟩ := by
    have := inv_SetProperties h req
    rwa [hset] at this
  -- The samples on the free list are from before, and none of them is handed out.
  have h0 : Lengths Actual.cbBuffer ⟨a, p.held⟩ := by
    refine ⟨hsize, fun hch => ?_⟩
    rw [ha] at hch
    cases hch
  obtain ⟨hq, hlen⟩ : q.Inv ∧ q.Lengths Actual.cbBuffer := by
    refine hrun.inv (fun t => t.Inv ∧ t.Lengths Actual.cbBuffer) ⟨hinv, h0⟩ ?_
    intro t e u ⟨hi, hl⟩ ⟨hsz, hback⟩ hstep
    exact ⟨inv_step hi e hstep, lengths_step hl hi e hsz hback hstep⟩
  obtain ⟨f, rest, hcommit, hfree, rfl, -⟩ := CMemAllocator.GetBuffer_ok hget
  exact hlen.free (hq.unchanged hcommit) f (hfree ▸ List.mem_cons_self)

end Pool

/-! ## The source filter -/

namespace CMyOutputPin

/-- `FillBuffer` receives the sample from the allocator of a completed connection:
`DecideBufferSize` was content with its report `Actual`, and it has served the
calls `es` since, which gave samples back with the length that was granted. -/
def DeliverySample (pin : CMyOutputPin) (Actual : ALLOCATOR_PROPERTIES) (es : List Pool.Op)
    (pMediaSample : CMediaSample) : Prop :=
  ∃ (p q : Pool) (pprop pprop' : ALLOCATOR_PROPERTIES) (a a' : CMemAllocator) (hr : HRESULT) (dwFlags : DWORD),
    p.Reachable ∧ pin.DecideBufferSize (some p.alloc) pprop = (some a, pprop', NOERROR) ∧
    p.alloc.SetProperties pprop' = (a, hr, Actual) ∧
    Runs Pool.step (fun p e => e.keepsSize p ∧ e.GivesBack Actual.cbBuffer p) ⟨a, p.held⟩ es q ∧
    q.alloc.GetBuffer dwFlags = some (a', .ok pMediaSample)

variable {pin pin' : CMyOutputPin} {pMediaSample filled : CMediaSample} {hr : HRESULT}

theorem DeliverySample.length {Actual : ALLOCATOR_PROPERTIES} {es : List Pool.Op}
    (h : DeliverySample pin Actual es pMediaSample) : pMediaSample.GetActualDataLength = Actual.cbBuffer := by
  obtain ⟨p, q, pprop, pprop', a, a', hr, dwFlags, hp, hdec, hset, hrun, hget⟩ := h
  obtain ⟨a₀, a₁, Actual', hrs, h0, h1, -, hset', hok, -⟩ := DecideBufferSize_ok hdec rfl
  cases h0
  cases h1
  have heq : (a, hrs, Actual') = (a, hr, Actual) := hset'.symm.trans hset
  cases heq
  exact Pool.GetBuffer_length hp.inv hset hok hrun hget

/-- Filling a sample leaves the length of its data as it is. -/
theorem FillBuffer_length (h : pin.FillBuffer pMediaSample = some (pin', filled, hr)) :
    hr = NOERROR ∧ filled.GetActualDataLength = pMediaSample.GetActualDataLength := by
  simp only [FillBuffer, Option.bind_eq_bind, Option.bind_eq_some_iff] at h
  obtain ⟨image, -, m_pBuffer, -, h⟩ := h
  cases h
  exact ⟨rfl, rfl⟩

/-- A filled sample has the advertised length exactly when it had it before. While
the samples come back to the allocator with the length it has granted, that is
when it has granted exactly what was asked for. -/
theorem filled_length_iff (h : pin.FillBuffer pMediaSample = some (pin', filled, NOERROR)) :
    (filled.GetActualDataLength = pin.m_nImageSize ↔ pMediaSample.GetActualDataLength = pin.m_nImageSize) ∧
      ∀ Actual es, DeliverySample pin Actual es pMediaSample →
        (filled.GetActualDataLength = pin.m_nImageSize ↔ Actual.cbBuffer = pin.m_nImageSize) := by
  obtain ⟨-, hlen⟩ := FillBuffer_length h
  rw [hlen]
  refine ⟨Iff.rfl, fun Actual es hsample => ?_⟩
  rw [hsample.length]

/-- A new allocator asked for one buffer of 8 bytes with this alignment. -/
def granted (cbAlign : LONG) : CMemAllocator × HRESULT × ALLOCATOR_PROPERTIES :=
  (CMemAllocator.new 0x10000).SetProperties ⟨1, 8, cbAlign, 0⟩

/-- The sample it hands out once it is committed. -/
def grantedSample (cbAlign : LONG) : Option CMediaSample :=
  match ((granted cbAlign).1.Commit someMemory).1.GetBuffer 0 with
  | some (_, .ok pSample) => some pSample
  | _ => none

def oneByteAligned : CMediaSample := (grantedSample 1).get (by decide)
def sixteenAligned : CMediaSample := (grantedSample 16).get (by decide)

theorem oneByteAligned_delivered : DeliverySample equalFiles.1 ⟨1, 8, 1, 0⟩ [.Commit someMemory] oneByteAligned :=
  ⟨⟨.new 0x10000, []⟩, _, ⟨0, 0, 1, 0⟩, ⟨1, 8, 1, 0⟩, (granted 1).1, _, NOERROR, 0, ⟨_, [], .nil⟩, rfl, rfl,
    .single ⟨trivial, trivial⟩ rfl, rfl⟩

theorem sixteenAligned_delivered : DeliverySample equalFiles.1 ⟨1, 16, 16, 0⟩ [.Commit someMemory] sixteenAligned :=
  ⟨⟨.new 0x10000, []⟩, _, ⟨0, 0, 16, 0⟩, ⟨1, 8, 16, 0⟩, (granted 16).1, _, NOERROR, 0, ⟨_, [], .nil⟩, rfl, rfl,
    .single ⟨trivial, trivial⟩ rfl, rfl⟩

/-- The frame that the pin makes of a sample. -/
theorem filled_of_isSome {pMediaSample : CMediaSample} (h : (pin.FillBuffer pMediaSample).isSome) :
    pin.FillBuffer pMediaSample = some (((pin.FillBuffer pMediaSample).get h).1,
      ((pin.FillBuffer pMediaSample).get h).2.1, NOERROR) := by
  obtain ⟨⟨pin', filled, hr⟩, hr⟩ := Option.isSome_iff_exists.1 h
  obtain ⟨rfl, -⟩ := FillBuffer_length hr
  simp only [hr, Option.get_some]

theorem filled_length_exact :
    ((equalFiles.1.FillBuffer oneByteAligned).get (by decide)).2.1.GetActualDataLength = equalFiles.1.m_nImageSize :=
  ((filled_length_iff (filled_of_isSome (by decide))).2 _ _ oneByteAligned_delivered).2 (by decide)

/-- The input pin downstream wants an alignment of 16, so images of 8 bytes go out
as 16 bytes. -/
theorem aligned_frame_too_long :
    DeliverySample equalFiles.1 ⟨1, 16, 16, 0⟩ [.Commit someMemory] sixteenAligned ∧
      ∃ pin' filled, equalFiles.1.FillBuffer sixteenAligned = some (pin', filled, NOERROR) ∧
        filled.GetActualDataLength ≠ equalFiles.1.m_nImageSize :=
  ⟨sixteenAligned_delivered, _, _, filled_of_isSome (by decide), by decide⟩

end CMyOutputPin

/-! ## The transform filters -/

/-- The output sample has the length of the input sample, and a length that does
not fit its buffer is a failure. -/
structure LengthCarried (pIn : IMediaSample) (pOut pOut' : CMediaSample) (hr : HRESULT) : Prop where
  equal : hr = NOERROR → pOut'.GetActualDataLength = pIn.GetActualDataLength
  refused : ¬ (0 ≤ pIn.GetActualDataLength ∧ pIn.GetActualDataLength ≤ pOut.m_cbBuffer) → hr ≠ NOERROR

/-- What `Transform` of either filter does with the length: it is carried over
exactly when it fits, or when a strange answer about a flag makes the call fail
first. -/
theorem output_length_iff {α : Type} {c : Filter} {env : TransformEnv} {f : CTransformFilter α} {pIn : IMediaSample}
    {pOut pOut' : CMediaSample} {hr : HRESULT} {file file' : List BYTE}
    (h : c.Transform env f pIn pOut file = some (pOut', hr, file')) :
    LengthCarried pIn pOut pOut' hr ↔
      (pIn.Answers → 0 ≤ pIn.GetActualDataLength ∧ pIn.GetActualDataLength ≤ pOut.m_cbBuffer) := by
  obtain ⟨m_pBuffer, hmeta, hsize⟩ := Filter.Transform_result h
  have hok : hr = NOERROR ↔ pIn.Answers := by
    rw [← @copyMetadata_ok pIn { pOut with m_pBuffer }, hmeta]
  rw [← hok]
  constructor
  · intro hcarry hno
    by_contra hfit
    exact hcarry.refused hfit hno
  · intro hfits
    refine ⟨fun hno => ?_, fun hnot hno => hnot (hfits hno)⟩
    subst hno
    obtain ⟨h0, hle⟩ := hfits rfl
    have hlen := copyMetadata_length hmeta
    have hbuf : ({ pOut with m_pBuffer } : CMediaSample).m_cbBuffer = pOut.m_cbBuffer := hsize
    rw [hbuf, if_neg (not_or.2 ⟨Int32.not_lt.2 hle, Int32.not_lt.2 h0⟩)] at hlen
    exact hlen

/-- A flip filter for samples of 16 bytes flips a buffer full of data. -/
def flipInto16 (b : Block) : Option (CMediaSample × HRESULT × List BYTE) :=
  Filter.CFlipFilter.Transform ⟨true, ⟨true, true, true⟩⟩ (connected .CFlipFilter (rgb24 2 2 16)) (plainSample b) flip16.2 []

def flippedFull : CMediaSample × HRESULT × List BYTE := (flipInto16 (.sixteen 7)).get (by decide)
def flippedLong : CMediaSample × HRESULT × List BYTE := (flipInto16 (.filled 32 7 (by decide))).get (by decide)

theorem output_length_full : LengthCarried (plainSample (.sixteen 7)) flip16.2 flippedFull.1 flippedFull.2.1 := by
  have h : flipInto16 (.sixteen 7) = some flippedFull := (Option.some_get _).symm
  generalize flippedFull = r at h
  unfold flipInto16 at h
  exact (output_length_iff h).2 fun _ => by decide

/-- The buffer upstream is larger than the picture and all of it is declared data.
The flipped sample keeps the length it had. -/
theorem long_sample_keeps_old_length :
    OutputBuffer .CFlipFilter (connected .CFlipFilter (rgb24 2 2 16)) flip16.1 flip16.2 ∧
      flipInto16 (.filled 32 7 (by decide)) = some flippedLong ∧ flippedLong.2.1 = NOERROR ∧
      flippedLong.1.GetActualDataLength = flip16.2.GetActualDataLength ∧
      ¬ LengthCarried (plainSample (.filled 32 7 (by decide))) flip16.2 flippedLong.1 flippedLong.2.1 :=
  ⟨firstBuffer_ok (by decide), (Option.some_get _).symm, by decide, by decide,
    fun h => absurd (h.equal (by decide)) (by decide)⟩

end FilterSln
