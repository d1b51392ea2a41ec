import FilterSln.Negotiation
import FilterSln.Transform
/-!
# The copied picture

What the row loop of the flip filter and the one copy of the dump filter touch,
and what they leave in the output buffer.

The loop walks `biWidth` and `biHeight`, the buffers are sized by `lSampleSize`,
the length of the data is whatever the input sample says, and the dump filter
copies the input buffer as a whole. Each theorem names the relation between
these quantities under which the code is right.
-/

namespace FilterSln

open HRESULT Lib CTransformFilter

/-! ## The stride -/

/-- The bytes of a row as the code computes them: wrapped to 32 bits before it
rounds. -/
def rowBytes (biWidth : LONG) : Nat := (((24 * biWidth.toInt + 31) % 2 ^ 32).toNat) / 32 * 4

theorem rowBytes_lt (biWidth : LONG) : rowBytes biWidth < 2 ^ 29 := by
  unfold rowBytes
  omega

theorem WIDTHBYTES_toNat (biWidth : LONG) : (WIDTHBYTES (biWidth * 24)).toNat = rowBytes biWidth := by
  have hmask : (~~~31#32) = ~~~(BitVec.allOnes 32 >>> (32 - 5)) := by decide
  have hbits : ((biWidth * 24 + 31).toBitVec.toNat : Int) = (24 * biWidth.toInt + 31) % 2 ^ 32 := by
    have hw : biWidth.toInt = biWidth.toBitVec.toInt := rfl
    have hv : (biWidth * 24 + 31).toBitVec = biWidth.toBitVec * 24#32 + 31#32 := rfl
    rw [hv, hw, BitVec.toInt_eq_toNat_cond, BitVec.toNat_add, BitVec.toNat_mul]
    have := biWidth.toBitVec.isLt
    simp only [BitVec.toNat_ofNat]
    split <;> omega
  unfold WIDTHBYTES rowBytes
  rw [BitVec.toNat_udiv, hmask, Word.and_not_low, ← hbits, Int.toNat_natCast]
  generalize (biWidth * 24 + 31).toBitVec.toNat = x
  have hdiv : x / 2 ^ 5 * 2 ^ 5 / 8 = x / 32 * 4 := by omega
  exact hdiv

/-- The stride of a 24-bit picture. -/
def nWidth (biWidth : LONG) : LONG := Int32.ofBitVec (WIDTHBYTES (biWidth * 24))

theorem nWidth_toInt (biWidth : LONG) : (nWidth biWidth).toInt = rowBytes biWidth := by
  have h := WIDTHBYTES_toNat biWidth
  have hlt := rowBytes_lt biWidth
  have hd : (nWidth biWidth).toInt = (WIDTHBYTES (biWidth * 24)).toInt := rfl
  rw [hd, BitVec.toInt_eq_toNat_of_lt (by omega), h]

/-- Without overflow a row has the bytes of its bits, rounded up to 32. -/
theorem rowBytes_exact {biWidth : LONG} (h0 : 0 ≤ biWidth.toInt) (h1 : 24 * biWidth.toInt + 31 < 2 ^ 31) :
    (rowBytes biWidth : Int) = 4 * ((24 * biWidth.toInt + 31) / 32) := by
  unfold rowBytes
  omega

/-- The copies for an accepted type. The check has read the format block up to
the bit count, so width and height are in it. -/
theorem pictureCopies_24 {mt : CMediaType} (h : CFlipFilter.CheckInputType mt = some S_OK) :
    ∃ biWidth biHeight, VIDEOINFOHEADER.biWidth mt.pbFormat = some biWidth ∧
      VIDEOINFOHEADER.biHeight mt.pbFormat = some biHeight ∧
      pictureCopies mt.pbFormat = some (rowCopies (nWidth biWidth) biHeight) := by
  obtain ⟨-, -, -, hbits⟩ := CFlipFilter.CheckInputType_ok h
  have hlen : 62 + 2 ≤ mt.pbFormat.length := readWORD_isSome.1 (Option.isSome_iff_exists.2 ⟨_, hbits⟩)
  obtain ⟨biWidth, hw⟩ := Option.isSome_iff_exists.1 (readLONG_isSome.2 (show 52 + 4 ≤ mt.pbFormat.length by omega))
  obtain ⟨biHeight, hh⟩ := Option.isSome_iff_exists.1 (readLONG_isSome.2 (show 56 + 4 ≤ mt.pbFormat.length by omega))
  have hw' : VIDEOINFOHEADER.biWidth mt.pbFormat = some biWidth := hw
  have hh' : VIDEOINFOHEADER.biHeight mt.pbFormat = some biHeight := hh
  refine ⟨biWidth, biHeight, hw', hh', ?_⟩
  simp only [pictureCopies, hw', hh', hbits, Option.bind_eq_bind, Option.bind_some]
  rfl

/-! ## The rows -/

section Rows

variable {w h : LONG} {S n : Nat}

theorem row_exact (hS : w.toInt = S) {i : Nat} (hi : S * i < 2 ^ 31) (hi' : i < 2 ^ 31) :
    (w * Int32.ofNat i).toInt = (S * i : Nat) := by
  have hof : (Int32.ofNat i).toInt = i := Int32.toInt_ofNat_of_lt hi'
  have hprod : w.toInt * (Int32.ofNat i).toInt = (S * i : Nat) := by rw [hS, hof, Nat.cast_mul]
  rw [Word.mul_exact (by omega) (by omega), hprod]

/-- Row `i` of the source, from the top of the memory. -/
theorem mirrored_row_exact (hS : w.toInt = S) (hn : h.toInt = n) {i : Nat} (hi : i < n)
    (hrow : S * (n - 1 - i) < 2 ^ 31) : (w * (h - Int32.ofNat i - 1)).toInt = (S * (n - 1 - i) : Nat) := by
  have hlt := h.toInt_lt
  have hof : (Int32.ofNat i).toInt = i := Int32.toInt_ofNat_of_lt (by omega)
  have h1 : (h - Int32.ofNat i).toInt = (n - i : Nat) := by
    rw [Word.sub_exact (by omega) (by omega)]
    omega
  have h2 : (h - Int32.ofNat i - 1).toInt = (n - 1 - i : Nat) := by
    rw [Word.sub_exact (by rw [h1]; simp; omega) (by rw [h1]; simp; omega), h1]
    simp
    omega
  have hprod : w.toInt * (h - Int32.ofNat i - 1).toInt = (S * (n - 1 - i) : Nat) := by rw [hS, h2, Nat.cast_mul]
  rw [Word.mul_exact (by omega) (by omega), hprod]

/-- While the picture is smaller than 2 GB, the loop makes the mirroring copies. -/
theorem rowCopies_exact (hS : w.toInt = S) (hn : h.toInt = n) (hsize : S * n < 2 ^ 31) :
    rowCopies w h = (List.range n).map (mirrorCall S n) := by
  unfold rowCopies
  have hn' : h.toInt.toNat = n := by omega
  have hS' : w.toInt.toNat = S := by omega
  have hlt := h.toInt_lt
  rw [hn', hS']
  apply List.map_congr_left
  intro i hi
  rw [List.mem_range] at hi
  have hrow := row_end_le (S := S) hi
  have hrow' := row_end_le (S := S) (show n - 1 - i < n by omega)
  rw [row_exact hS (by omega) (by omega), mirrored_row_exact hS hn hi (by omega)]
  rfl

/-- The row in which a buffer ends that is too small for the picture. -/
theorem row_at {size : Nat} (hsize : size < S * n) : ∃ i < n, S * i ≤ size ∧ size < S * i + S := by
  obtain ⟨hS, hrow, hcol⟩ := row_of_lt hsize
  exact ⟨size / S, hrow, Nat.mul_div_le size S, Nat.lt_mul_div_succ size hS⟩

/-- The loop stays inside its buffers exactly when there is no row or the whole
picture fits into both. -/
theorem rowCopies_inBounds (hS : w.toInt = S) {a b : Nat} (ha : a < 2 ^ 31) (hb : b < 2 ^ 31) :
    (∀ c ∈ rowCopies w h, c.InBounds a b) ↔ h.toInt ≤ 0 ∨ S * h.toInt.toNat ≤ a ∧ S * h.toInt.toNat ≤ b := by
  have hlt := h.toInt_lt
  rcases le_or_gt h.toInt 0 with hneg | hpos
  · have hnone : h.toInt.toNat = 0 := by omega
    simp [rowCopies, hnone, hneg]
  · obtain ⟨n, hn⟩ : ∃ n : Nat, h.toInt = n := ⟨h.toInt.toNat, by omega⟩
    have hn' : h.toInt.toNat = n := by omega
    rw [hn', or_iff_right (by omega)]
    constructor
    · intro hin
      -- Only the row at the end of a buffer that is too small decides. Its offset is
      -- within the buffer, so it has not wrapped.
      have hmem : ∀ i < n, CopyCall.InBounds a b
          ⟨(w * Int32.ofNat i).toInt, (w * (h - Int32.ofNat i - 1)).toInt, S⟩ := by
        intro i hi
        refine hin _ (List.mem_map.2 ⟨i, List.mem_range.2 (by omega), ?_⟩)
        rw [show w.toInt.toNat = S by omega]
      refine ⟨?_, ?_⟩ <;> by_contra hout
      · -- The row of the source in which the buffer ends is read.
        obtain ⟨i, hi, hle, hend⟩ := row_at (Nat.lt_of_not_le hout)
        have hrow : n - 1 - (n - 1 - i) = i := by omega
        rcases hmem (n - 1 - i) (by omega) with hS0 | ⟨⟨-, h2⟩, -⟩
        · exact absurd hS0 (by dsimp only; omega)
        · dsimp only at h2
          rw [mirrored_row_exact hS hn (by omega) (by rw [hrow]; omega), hrow] at h2
          omega
      · obtain ⟨i, hi, hle, hend⟩ := row_at (Nat.lt_of_not_le hout)
        rcases hmem i hi with hS0 | ⟨-, -, h2⟩
        · exact absurd hS0 (by dsimp only; omega)
        · dsimp only at h2
          rw [row_exact hS (by omega) (by omega)] at h2
          omega
    · rintro ⟨h1, h2⟩ c hc
      rw [rowCopies_exact hS hn (by omega), List.mem_map] at hc
      obtain ⟨i, hi, rfl⟩ := hc
      rw [List.mem_range] at hi
      have hrow := row_end_le (S := S) hi
      have hrow' := row_end_le (S := S) (show n - 1 - i < n by omega)
      unfold mirrorCall CopyCall.InBounds
      dsimp only
      omega

/-- With room for the picture the loop mirrors it; a picture without rows is no
copy at all. -/
theorem runCopies_rowCopies (hS : w.toInt = S) {src dst : List BYTE} (hsrc : src.length < 2 ^ 31)
    (hs : S * h.toInt.toNat ≤ src.length) (hd : S * h.toInt.toNat ≤ dst.length) :
    runCopies src dst (rowCopies w h) = some (copyRows S h.toInt.toNat src dst h.toInt.toNat) := by
  rcases le_or_gt h.toInt 0 with hneg | hpos
  · have hnone : h.toInt.toNat = 0 := by omega
    simp [rowCopies, hnone, runCopies, copyRows]
  · rw [rowCopies_exact hS (Int.toNat_of_nonneg (by omega)).symm (by omega)]
    exact runCopies_mirrorCalls hs hd (Nat.le_refl _)

end Rows

/-! ## The output buffer -/

/-- The buffer of `pOut` was handed out by the allocator of a completed output
connection: `DecideBufferSize` agreed on the size with it, and it has served any
calls but a new `SetProperties` since. -/
def OutputBuffer (c : Filter) (f : CTransformFilter CMemAllocator) (agreed : LONG) (pOut : CMediaSample) : Prop :=
  ∃ (p q : Pool) (pprop pprop' : ALLOCATOR_PROPERTIES) (a a' : CMemAllocator) (es : List Pool.Op)
    (dwFlags : DWORD) (pSample : CMediaSample),
    p.Reachable ∧ c.DecideBufferSize f (some p.alloc) pprop = (some a, pprop', NOERROR) ∧ a.m_lSize = agreed ∧
    Runs Pool.step (fun p e => e.keepsSize p) ⟨a, p.held⟩ es q ∧
    q.alloc.GetBuffer dwFlags = some (a', .ok pSample) ∧ pOut.m_pBuffer = pSample.m_pBuffer

/-- The buffer has the agreed size, which is at least what was asked for. -/
theorem OutputBuffer.size {c : Filter} {f : CTransformFilter CMemAllocator} {agreed : LONG} {pOut : CMediaSample}
    (h : OutputBuffer c f agreed pOut) : pOut.m_cbBuffer = agreed ∧ requestedSize f.m_pInput.m_mt ≤ agreed := by
  obtain ⟨p, q, pprop, pprop', a, a', es, dwFlags, s, hp, hdec, hagreed, hrun, hget, hbuf⟩ := h
  rw [c.DecideBufferSize_eq] at hdec
  obtain ⟨a₀, a₁, Actual, hr, h0, h1, -, hprop, hset, hok, -, hle⟩ := requestBuffer_ok hdec rfl
  cases h0
  cases h1
  have hset' : p.alloc.SetProperties pprop' = (a, hr, Actual) := hset
  -- The connection was completed, so its allocator granted the request.
  obtain ⟨-, -, -, hsize, -⟩ := CMemAllocator.SetProperties_ok hset' hok
  rw [hprop] at hle
  refine ⟨?_, ?_⟩
  · rw [CMediaSample.m_cbBuffer, hbuf, ← hagreed, hsize]
    exact Pool.GetBuffer_size_agreed hp.inv hset' hok hrun hget
  · rw [← hagreed, hsize]
    exact hle

/-! ## The flip filter stays inside its buffers -/

/-- `Transform` returns exactly when the row loop stays inside. -/
theorem flip_returns_iff {α : Type} {f : CTransformFilter α} {pIn : IMediaSample} {pOut : CMediaSample}
    {calls : List CopyCall} (hcalls : pictureCopies f.m_pInput.m_mt.pbFormat = some calls) :
    (CFlipFilter.Transform true f pIn pOut).isSome = true ↔ StayInside calls pIn.GetSize pOut.m_cbBuffer := by
  rw [IMediaSample.GetSize, CMediaSample.m_cbBuffer, ← Block.copyFrom_isSome]
  cases hcopy : pOut.m_pBuffer.copyFrom pIn.GetPointer calls <;>
    simp [CFlipFilter.Transform, Set_true, hcalls, hcopy]

/-- The row loop stays inside the buffers exactly when the picture has no rows,
or the input buffer and the agreed buffer size have room for all of them. -/
theorem flip_rows_inside_iff {f : CTransformFilter CMemAllocator} {pIn : IMediaSample} {pOut : CMediaSample}
    {agreed : LONG} (hmt : CFlipFilter.CheckInputType f.m_pInput.m_mt = some S_OK)
    (hout : OutputBuffer .CFlipFilter f agreed pOut) :
    ∃ biWidth biHeight calls, VIDEOINFOHEADER.biWidth f.m_pInput.m_mt.pbFormat = some biWidth ∧
      VIDEOINFOHEADER.biHeight f.m_pInput.m_mt.pbFormat = some biHeight ∧
      pictureCopies f.m_pInput.m_mt.pbFormat = some calls ∧
      (StayInside calls pIn.GetSize pOut.m_cbBuffer ↔
        biHeight.toInt ≤ 0 ∨
          rowBytes biWidth * biHeight.toInt ≤ pIn.GetSize.toInt ∧ rowBytes biWidth * biHeight.toInt ≤ agreed.toInt) := by
  obtain ⟨biWidth, biHeight, hw, hh, hcalls⟩ := pictureCopies_24 hmt
  obtain ⟨hsize, -⟩ := hout.size
  refine ⟨biWidth, biHeight, _, hw, hh, hcalls, ?_⟩
  have hiff := rowCopies_inBounds (h := biHeight) (nWidth_toInt biWidth) pIn.GetPointer.fits pOut.m_pBuffer.fits
  rw [← hsize, IMediaSample.GetSize, CMediaSample.m_cbBuffer, stayInside_iff, hiff, Block.size_toInt, Block.size_toInt]
  rcases le_or_gt biHeight.toInt 0 with hneg | hpos
  · simp [hneg]
  · have hcast : ((rowBytes biWidth * biHeight.toInt.toNat : Nat) : Int) = rowBytes biWidth * biHeight.toInt := by
      rw [Nat.cast_mul, Int.toNat_of_nonneg (by omega)]
    rw [← hcast, Nat.cast_le, Nat.cast_le]

/-- A filter whose pins have been connected with `mt`. -/
def connected (c : Filter) (mt : CMediaType) : CTransformFilter CMemAllocator :=
  (evalRun (step c) Any (connectBoth mt) new).getD new

/-- The first buffer of a new allocator, with the size agreed on. -/
def firstBuffer (c : Filter) (f : CTransformFilter CMemAllocator) : Option (LONG × CMediaSample) :=
  match c.DecideBufferSize f (some (.new 0x10000)) ⟨0, 0, 1, 0⟩ with
  | (some a, _, .S_OK) =>
    match (a.Commit someMemory).1.GetBuffer 0 with
    | some (_, .ok pSample) => some (a.m_lSize, pSample)
    | _ => none
  | _ => none

theorem firstBuffer_ok {c : Filter} {f : CTransformFilter CMemAllocator} (h : (firstBuffer c f).isSome) :
    OutputBuffer c f ((firstBuffer c f).get h).1 ((firstBuffer c f).get h).2 := by
  obtain ⟨⟨agreed, pOut⟩, hr⟩ := Option.isSome_iff_exists.1 h
  simp only [hr, Option.get_some]
  unfold firstBuffer at hr
  split at hr
  · rename_i a pprop hdec
    split at hr
    · rename_i a' pSample hget
      cases hr
      have hnew : Pool.Reachable ⟨.new 0x10000, []⟩ := ⟨_, [], .nil⟩
      have hrun : Runs Pool.step (fun p e => e.keepsSize p) ⟨a, []⟩ [.Commit someMemory]
          ⟨(a.Commit someMemory).1, []⟩ := .single trivial rfl
      exact ⟨_, _, _, _, a, a', _, 0, pOut, hnew, hdec, rfl, hrun, hget, rfl⟩
    · cases hr
  · cases hr

/-- The output buffer of a flip filter for pictures of two rows of 8 bytes, with
samples of 16 bytes. -/
def flip16 : LONG × CMediaSample := (firstBuffer .CFlipFilter (connected .CFlipFilter (rgb24 2 2 16))).get (by decide)

theorem flip_rows_inside_16 :
    ∃ calls, pictureCopies (rgb24 2 2 16).pbFormat = some calls ∧ StayInside calls 16 flip16.2.m_cbBuffer := by
  have hout : OutputBuffer .CFlipFilter (connected .CFlipFilter (rgb24 2 2 16)) flip16.1 flip16.2 :=
    firstBuffer_ok (by decide)
  obtain ⟨w, h, calls, hw, hh, hcalls, hiff⟩ :=
    @flip_rows_inside_iff _ (plainSample (.filled 16 0 (by decide))) _ _ (by decide) hout
  have hw2 : w = 2 := Option.some_inj.1 (hw.symm.trans (by decide))
  have hh2 : h = 2 := Option.some_inj.1 (hh.symm.trans (by decide))
  subst hw2 hh2
  exact ⟨calls, hcalls, hiff.2 (.inr (by decide))⟩

/-- The same pictures with samples of 8 bytes, which the negotiation accepts. -/
def flip8 : LONG × CMediaSample := (firstBuffer .CFlipFilter (connected .CFlipFilter (rgb24 2 2 8))).get (by decide)

theorem flip_rows_outside_8 :
    let f := connected .CFlipFilter (rgb24 2 2 8)
    let pIn := plainSample (.filled 8 0 (by decide))
    CFlipFilter.CheckInputType f.m_pInput.m_mt = some S_OK ∧
      VIDEOINFOHEADER.sizeof ≤ f.m_pInput.m_mt.cbFormat ∧ OutputBuffer .CFlipFilter f flip8.1 flip8.2 ∧
      f.m_pInput.m_mt.lSampleSize.toNat ≤ pIn.GetPointer.bytes.length ∧
      ∃ calls, pictureCopies f.m_pInput.m_mt.pbFormat = some calls ∧
        ¬ StayInside calls pIn.GetSize flip8.2.m_cbBuffer := by
  refine ⟨by decide, by decide, firstBuffer_ok (by decide), by decide,
    (pictureCopies (rgb24 2 2 8).pbFormat).get (by decide), (Option.some_get _).symm, ?_⟩
  rw [IMediaSample.GetSize, CMediaSample.m_cbBuffer, stayInside_iff]
  decide

/-! ## The flip filter and the old content of its output buffer -/

/-- The sample with `bytes` in its buffer. -/
def CMediaSample.withBytes (s : CMediaSample) (bytes : List BYTE) (h : bytes.length = s.m_pBuffer.bytes.length) :
    CMediaSample :=
  { s with m_pBuffer := s.m_pBuffer.write bytes h }

/-- Whatever was in the output buffer, a `Transform` that succeeds leaves a sample
with the same data. -/
def HidesOldContent {α : Type} (f : CTransformFilter α) (pIn : IMediaSample) (pOut : CMediaSample) : Prop :=
  ∀ (old old' : List BYTE) (h : old.length = pOut.m_pBuffer.bytes.length)
    (h' : old'.length = pOut.m_pBuffer.bytes.length) (r r' : CMediaSample),
    CFlipFilter.Transform true f pIn (pOut.withBytes old h) = some (r, NOERROR) →
    CFlipFilter.Transform true f pIn (pOut.withBytes old' h') = some (r', NOERROR) → r.data = r'.data

section Stale

variable {α : Type} {f : CTransformFilter α} {pIn : IMediaSample} {pOut : CMediaSample} {biWidth biHeight : LONG}

/-- With room for the picture, `Transform` returns and leaves it mirrored. -/
theorem flip_mirrors (hmt : CFlipFilter.CheckInputType f.m_pInput.m_mt = some S_OK)
    (hw : VIDEOINFOHEADER.biWidth f.m_pInput.m_mt.pbFormat = some biWidth)
    (hh : VIDEOINFOHEADER.biHeight f.m_pInput.m_mt.pbFormat = some biHeight)
    (hsrc : rowBytes biWidth * biHeight.toInt.toNat ≤ pIn.GetPointer.bytes.length)
    (hdst : rowBytes biWidth * biHeight.toInt.toNat ≤ pOut.m_pBuffer.bytes.length) :
    ∃ m_pBuffer : Block, CFlipFilter.Transform true f pIn pOut = some (copyMetadata pIn { pOut with m_pBuffer }) ∧
      Mirrored (rowBytes biWidth) biHeight.toInt.toNat pIn.GetPointer.bytes pOut.m_pBuffer.bytes m_pBuffer.bytes := by
  obtain ⟨w, h, hw', hh', hcalls⟩ := pictureCopies_24 hmt
  cases Option.some_inj.1 (hw.symm.trans hw')
  cases Option.some_inj.1 (hh.symm.trans hh')
  have hrun := runCopies_rowCopies (nWidth_toInt biWidth) pIn.GetPointer.fits hsrc hdst
  obtain ⟨m_pBuffer, hbytes, htransform⟩ := CFlipFilter.Transform_returns hcalls hrun
  exact ⟨m_pBuffer, htransform, hbytes ▸ copyRows_mirrored hsrc hdst⟩

/-- With room for the picture and the data, `Transform` succeeds if the flags are
answered, mirrors the picture over what was there and takes over a length that is
not negative. -/
theorem flip_made (hmt : CFlipFilter.CheckInputType f.m_pInput.m_mt = some S_OK)
    (hw : VIDEOINFOHEADER.biWidth f.m_pInput.m_mt.pbFormat = some biWidth)
    (hh : VIDEOINFOHEADER.biHeight f.m_pInput.m_mt.pbFormat = some biHeight)
    (hsrc : rowBytes biWidth * biHeight.toInt.toNat ≤ pIn.GetPointer.bytes.length)
    (hdst : rowBytes biWidth * biHeight.toInt.toNat ≤ pOut.m_pBuffer.bytes.length)
    (hact : pIn.GetActualDataLength.toInt ≤ pOut.m_pBuffer.bytes.length)
    (old : List BYTE) (h : old.length = pOut.m_pBuffer.bytes.length) :
    ∃ (r : CMediaSample) (hr : HRESULT), CFlipFilter.Transform true f pIn (pOut.withBytes old h) = some (r, hr) ∧
      (hr = NOERROR ↔ pIn.Answers) ∧
      Mirrored (rowBytes biWidth) biHeight.toInt.toNat pIn.GetPointer.bytes old r.m_pBuffer.bytes ∧
      (hr = NOERROR → r.GetActualDataLength =
        if pIn.GetActualDataLength < 0 then pOut.GetActualDataLength else pIn.GetActualDataLength) := by
  have hsize : (pOut.withBytes old h).m_pBuffer.bytes.length = pOut.m_pBuffer.bytes.length := h
  obtain ⟨m_pBuffer, hret, hmir⟩ := @flip_mirrors _ f pIn (pOut.withBytes old h) _ _ hmt hw hh hsrc (by rwa [hsize])
  have hlength : m_pBuffer.bytes.length = pOut.m_pBuffer.bytes.length := hmir.length.trans hsize
  rcases hmeta : copyMetadata pIn { pOut.withBytes old h with m_pBuffer } with ⟨r, hr⟩
  have hbuf := (copyMetadata_buffer pIn { pOut.withBytes old h with m_pBuffer }).m_pBuffer
  have hok := @copyMetadata_ok pIn { pOut.withBytes old h with m_pBuffer }
  rw [hmeta] at hret hbuf hok
  dsimp only at hbuf hok
  refine ⟨r, hr, hret, hok, hbuf ▸ hmir, ?_⟩
  rintro rfl
  have hlen := copyMetadata_length hmeta
  have hfit : ¬ pIn.GetActualDataLength > CMediaSample.m_cbBuffer { pOut.withBytes old h with m_pBuffer } := by
    rw [gt_iff_lt, Int32.lt_iff_toInt_lt, CMediaSample.m_cbBuffer, Block.size_toInt, hlength]
    omega
  simp only [hfit, false_or] at hlen
  exact hlen

/-- The old content stays hidden exactly when `Transform` fails, or the picture
covers all the data the output declares: the length of the input's data, or the
one left in the output sample where the input's is negative and so refused. -/
theorem flip_hides_old_iff (hmt : CFlipFilter.CheckInputType f.m_pInput.m_mt = some S_OK)
    (hw : VIDEOINFOHEADER.biWidth f.m_pInput.m_mt.pbFormat = some biWidth)
    (hh : VIDEOINFOHEADER.biHeight f.m_pInput.m_mt.pbFormat = some biHeight)
    (hsrc : rowBytes biWidth * biHeight.toInt.natAbs ≤ pIn.GetPointer.bytes.length)
    (hdst : rowBytes biWidth * biHeight.toInt.natAbs ≤ pOut.m_pBuffer.bytes.length)
    (hact : pIn.GetActualDataLength.toInt ≤ pOut.m_pBuffer.bytes.length) :
    HidesOldContent f pIn pOut ↔
      (pIn.Answers →
        (if pIn.GetActualDataLength < 0 then min pOut.GetActualDataLength.toInt pOut.m_cbBuffer.toInt
          else pIn.GetActualDataLength.toInt) ≤ rowBytes biWidth * max biHeight.toInt 0) := by
  have hcover : (rowBytes biWidth : Int) * max biHeight.toInt 0 =
      (rowBytes biWidth * biHeight.toInt.toNat : Nat) := by
    rw [Nat.cast_mul, Int.toNat_eq_max]
  have hrows : rowBytes biWidth * biHeight.toInt.toNat ≤ rowBytes biWidth * biHeight.toInt.natAbs :=
    Nat.mul_le_mul_left _ (by omega)
  have hmade := @flip_made _ f pIn pOut biWidth biHeight hmt hw hh (hrows.trans hsrc) (hrows.trans hdst) hact
  have hcb : pOut.m_cbBuffer.toInt = pOut.m_pBuffer.bytes.length := Block.size_toInt _
  rw [hcover, hcb]
  generalize hP : rowBytes biWidth * biHeight.toInt.toNat = P at hmade hrows
  -- What counts is how far the declared length reaches into the buffer.
  have hreach : (if pIn.GetActualDataLength < 0 then min pOut.GetActualDataLength.toInt pOut.m_pBuffer.bytes.length
      else pIn.GetActualDataLength.toInt) ≤ (P : Nat) ↔
      min (if pIn.GetActualDataLength < 0 then pOut.GetActualDataLength else pIn.GetActualDataLength).toInt.toNat
        pOut.m_pBuffer.bytes.length ≤ P := by
    split <;> omega
  rw [hreach]
  generalize (if pIn.GetActualDataLength < 0 then pOut.GetActualDataLength else pIn.GetActualDataLength) = l at hmade
  constructor
  · intro hhide hans
    by_contra hlong
    -- The byte behind the last row tells zeros from ones.
    obtain ⟨r, hr, hret, hok, hmir, hlen⟩ := hmade (List.replicate pOut.m_pBuffer.bytes.length 0) (by simp)
    obtain ⟨r', hr', hret', hok', hmir', hlen'⟩ := hmade (List.replicate pOut.m_pBuffer.bytes.length 1) (by simp)
    cases hok.2 hans
    cases hok'.2 hans
    have heq := congrArg (·[P]?) (hhide _ _ _ _ r r' hret hret')
    have hin : P < l.toInt.toNat ∧ P < pOut.m_pBuffer.bytes.length := by omega
    simp only [CMediaSample.data, hlen rfl, hlen' rfl, List.getElem?_take_of_lt hin.1] at heq
    rcases (hmir.agree_iff hmir' P).1 heq with hlt | hold
    · omega
    · simp [hin.2] at hold
  · intro hle old old' h h' r r' hret hret'
    obtain ⟨t, hr, ht, hok, hmir, hlen⟩ := hmade old h
    obtain ⟨t', hr', ht', hok', hmir', hlen'⟩ := hmade old' h'
    cases Option.some_inj.1 (hret.symm.trans ht)
    cases Option.some_inj.1 (hret'.symm.trans ht')
    have hcovered := hle (hok.1 rfl)
    rw [CMediaSample.data, CMediaSample.data, hlen rfl, hlen' rfl]
    apply List.ext_getElem?
    intro k
    rw [List.getElem?_take, List.getElem?_take]
    split
    · by_cases hk : k < P
      · exact (hmir.agree_iff hmir' k).2 (.inl (hP ▸ hk))
      · -- Behind the picture both buffers have ended.
        rw [List.getElem?_eq_none (by rw [hmir.length]; omega), List.getElem?_eq_none (by rw [hmir'.length]; omega)]
    · rfl

end Stale

theorem flip_hides_old_16 : HidesOldContent (connected .CFlipFilter (rgb24 2 2 16))
    (plainSample (.filled 16 7 (by decide))) flip16.2 :=
  (@flip_hides_old_iff _ (connected .CFlipFilter (rgb24 2 2 16)) (plainSample (.filled 16 7 (by decide))) flip16.2 2 2
    (by decide) (by decide) (by decide) (by decide) (by decide) (by decide)).2 fun _ => by decide

/-- A top-down picture is not copied at all, so the old bytes are delivered. -/
theorem topDown_shows_old :
    let f := connected .CFlipFilter (rgb24 2 (-2) 16)
    let pIn := plainSample (.filled 16 7 (by decide))
    CFlipFilter.CheckInputType f.m_pInput.m_mt = some S_OK ∧
      VIDEOINFOHEADER.biWidth f.m_pInput.m_mt.pbFormat = some 2 ∧
      VIDEOINFOHEADER.biHeight f.m_pInput.m_mt.pbFormat = some (-2) ∧
      4 * ((24 * 2 + 31) / 32) * 2 ≤ pIn.GetPointer.bytes.length ∧
      4 * ((24 * 2 + 31) / 32) * 2 ≤ flip16.2.m_pBuffer.bytes.length ∧
      pIn.GetActualDataLength.toInt ≤ flip16.2.m_pBuffer.bytes.length ∧
      ¬ HidesOldContent f pIn flip16.2 := by
  refine ⟨by decide, by decide, by decide, by decide, by decide, by decide, fun hhide => ?_⟩
  have heq := hhide (List.replicate 16 0) (List.replicate 16 1) (by decide) (by decide) _ _ rfl rfl
  exact absurd heq (by decide)

/-! ## The dump filter copies the whole input buffer -/

/-- The dump filter's copy leaves nothing behind the end of the output buffer,
and data that fits is there after `Transform`. -/
def CopiesRight (env : FileEnv) (file : List BYTE) (pIn : IMediaSample) (pOut : CMediaSample) : Prop :=
  (∀ k, (bufferCopy pIn).Writes k → k < pOut.m_cbBuffer.toInt) ∧
  (pIn.GetActualDataLength.toInt ≤ pOut.m_cbBuffer.toInt → ∃ r, CMyFilter.Transform env pIn pOut file = some r ∧
    r.1.m_pBuffer.bytes.take pIn.GetActualDataLength.toInt.toNat =
      pIn.GetPointer.bytes.take pIn.GetActualDataLength.toInt.toNat)

theorem bufferCopy_eq (pIn : IMediaSample) : bufferCopy pIn = ⟨0, 0, pIn.GetPointer.bytes.length⟩ := by
  rw [bufferCopy, IMediaSample.GetSize, Block.size_toInt, Int.toNat_natCast]

/-- The dump filter copies right exactly when the input buffer is no larger than
the agreed size of the output buffers. -/
theorem dump_copies_right_iff {f : CTransformFilter CMemAllocator} {pIn : IMediaSample} {pOut : CMediaSample}
    {agreed : LONG} (env : FileEnv) (file : List BYTE) (hout : OutputBuffer .CMyFilter f agreed pOut)
    (hact : pIn.GetActualDataLength.toInt ≤ pIn.GetSize.toInt) :
    CopiesRight env file pIn pOut ↔ pIn.GetSize.toInt ≤ agreed.toInt := by
  obtain ⟨hsize, -⟩ := hout.size
  have hsrc : pIn.GetSize.toInt = pIn.GetPointer.bytes.length := Block.size_toInt _
  have hdst : agreed.toInt = pOut.m_pBuffer.bytes.length := by rw [← hsize]; exact Block.size_toInt _
  constructor
  · rintro ⟨hw, -⟩
    by_contra hlt
    -- The last byte copied lies behind the end.
    have := hw (pIn.GetSize.toInt - 1) (by unfold bufferCopy CopyCall.Writes; dsimp only; omega)
    rw [hsize] at this
    omega
  · intro hle
    refine ⟨fun k hk => ?_, fun _ => ?_⟩
    · unfold bufferCopy CopyCall.Writes at hk
      dsimp only at hk
      rw [hsize]
      omega
    · have hfits : pIn.GetPointer.bytes.length ≤ pOut.m_pBuffer.bytes.length := by omega
      have hrun := runCopies_whole hfits
      rw [← bufferCopy_eq] at hrun
      obtain ⟨r, hr, hbytes⟩ := CMyFilter.Transform_returns env file hrun
      refine ⟨r, hr, ?_⟩
      have hfront := splice_zero_take pOut.m_pBuffer.bytes pIn.GetPointer.bytes
      calc r.1.m_pBuffer.bytes.take pIn.GetActualDataLength.toInt.toNat
          = ((splice pOut.m_pBuffer.bytes 0 pIn.GetPointer.bytes).take pIn.GetPointer.bytes.length).take
              pIn.GetActualDataLength.toInt.toNat := by rw [hbytes, List.take_take, Nat.min_eq_left (by omega)]
        _ = pIn.GetPointer.bytes.take pIn.GetActualDataLength.toInt.toNat := by rw [hfront]

/-- The first output buffer of a dump filter with samples of 8 bytes. -/
def dump8 : LONG × CMediaSample := (firstBuffer .CMyFilter (connected .CMyFilter (yuy2 2 2 8))).get (by decide)

theorem dump_copies_right_8 :
    CopiesRight ⟨true, true, true⟩ [] (plainSample (.filled 8 7 (by decide))) dump8.2 :=
  (@dump_copies_right_iff (connected .CMyFilter (yuy2 2 2 8)) (plainSample (.filled 8 7 (by decide))) dump8.2 dump8.1
    ⟨true, true, true⟩ [] (firstBuffer_ok (by decide)) (by decide)).2 (by decide)

/-- An input buffer of 12 bytes holds 8 bytes of data, which would fit. -/
theorem dump_copy_overruns :
    let pIn := { plainSample (.filled 12 7 (by decide)) with GetActualDataLength := 8 }
    CMyFilter.CheckInputType (connected .CMyFilter (yuy2 2 2 8)).m_pInput.m_mt = some S_OK ∧
      OutputBuffer .CMyFilter (connected .CMyFilter (yuy2 2 2 8)) dump8.1 dump8.2 ∧
      pIn.GetActualDataLength.toInt ≤ pIn.GetSize.toInt ∧ ¬ CopiesRight ⟨true, true, true⟩ [] pIn dump8.2 := by
  refine ⟨by decide, firstBuffer_ok (by decide), by decide, fun hright => ?_⟩
  have hlast := hright.1 11 ⟨by decide, by decide⟩
  exact absurd hlast (by decide)

end FilterSln
