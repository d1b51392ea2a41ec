import FilterSln.Picture
import FilterSln.Lib.Space
/-!
# The row loop in memory

The loop of `CFlipFilter::Transform` as it runs in the one memory that holds both
buffers, with the machine's arithmetic on strides and offsets.

When the buffers do not overlap the loop leaves in memory what `Transform` leaves
in its output sample, and the picture is mirrored row by row (`rows_in_memory`).
The bit count of a row is eight times its size, so the stride overflows long
before a frame outgrows the largest buffer: `offsets_exact_iff` gives the bound.
-/

namespace FilterSln

open HRESULT Lib CTransformFilter

/-- The bytes of a row of 24-bit pixels, rounded up to 32 bits, as a number. -/
def exactStride (biWidth : LONG) : Int := 4 * ((24 * biWidth.toInt + 31) / 32)

/-! ## The bound of the arithmetic -/

/-- The stride and the offsets of all rows are the exact numbers. -/
structure OffsetsExact (biWidth biHeight : LONG) : Prop where
  stride : ((WIDTHBYTES (biWidth * 24)).toNat : Int) = exactStride biWidth
  dest : ∀ i : Nat, i < biHeight.toInt → (nWidth biWidth * Int32.ofNat i).toInt = exactStride biWidth * i
  src : ∀ i : Nat, i < biHeight.toInt →
    (nWidth biWidth * (biHeight - Int32.ofNat i - 1)).toInt = exactStride biWidth * (biHeight.toInt - i - 1)

/-- The stride is right exactly when the bits of a row, before they are rounded,
fit an unsigned word. -/
theorem rowBytes_eq_iff {biWidth : LONG} (h0 : 0 ≤ biWidth.toInt) :
    (rowBytes biWidth : Int) = exactStride biWidth ↔ 24 * biWidth.toInt + 31 < 2 ^ 32 := by
  have := biWidth.toInt_lt
  unfold rowBytes exactStride
  omega

/-- For a frame that some buffer can hold, the bound on the bits of a row decides
alone. -/
theorem offsets_exact_iff {biWidth biHeight : LONG} (hw : 1 ≤ biWidth.toInt) (hh : 1 ≤ biHeight.toInt)
    (hsize : exactStride biWidth * biHeight.toInt ≤ 2 ^ 31 - 1) :
    OffsetsExact biWidth biHeight ↔ 24 * biWidth.toInt + 31 < 2 ^ 32 := by
  rw [← rowBytes_eq_iff (by omega)]
  constructor
  · intro h
    rw [← WIDTHBYTES_toNat]
    exact h.stride
  · intro hS
    obtain ⟨n, hn⟩ := Int.eq_ofNat_of_zero_le (show 0 ≤ biHeight.toInt by omega)
    have hlt := biHeight.toInt_lt
    have hframe : rowBytes biWidth * n < 2 ^ 31 := by
      rw [← hS, hn] at hsize
      exact_mod_cast (show (rowBytes biWidth * n : Int) < 2 ^ 31 by omega)
    refine ⟨by rw [WIDTHBYTES_toNat, hS], fun i hi => ?_, fun i hi => ?_⟩
    · have hend := row_end_le (S := rowBytes biWidth) (show i < n by omega)
      rw [row_exact (nWidth_toInt biWidth) (by omega) (by omega), ← hS, Nat.cast_mul]
    · have hend := row_end_le (S := rowBytes biWidth) (show n - 1 - i < n by omega)
      rw [mirrored_row_exact (nWidth_toInt biWidth) hn (by omega) (by omega), ← hS, hn, Nat.cast_mul]
      congr 1
      omega

theorem offsets_exact_640x480 : OffsetsExact 640 480 :=
  (offsets_exact_iff (by decide) (by decide) (by decide)).2 (by decide)

/-- One row of `2 ^ 29` bytes: its bits do not fit a word, and the stride comes out
as zero. -/
theorem wide_row_overflows :
    1 ≤ (178956970 : LONG).toInt ∧ 1 ≤ (1 : LONG).toInt ∧
      exactStride 178956970 * (1 : LONG).toInt ≤ 2 ^ 31 - 1 ∧ ¬ OffsetsExact 178956970 1 := by
  refine ⟨by decide, by decide, by decide, fun h => ?_⟩
  exact absurd h.stride (by decide)

/-! ## The loop -/

/-- The row loop of `CFlipFilter::Transform`; `none` for a read outside the format
block. -/
def rowLoop (mem : Space BYTE) (pDestBuffer pSourceBuffer : Int) (pvi : List BYTE) : Option (Space BYTE) := do
  let biWidth ← VIDEOINFOHEADER.biWidth pvi
  let biBitCount ← VIDEOINFOHEADER.biBitCount pvi
  let biHeight ← VIDEOINFOHEADER.biHeight pvi
  let nWidth := Int32.ofBitVec (WIDTHBYTES (biWidth * Int32.ofBitVec (biBitCount.setWidth 32)))
  some ((List.range biHeight.toInt.toNat).foldl
    (fun mem i => mem.copy (pDestBuffer + (nWidth * Int32.ofNat i).toInt)
      (pSourceBuffer + (nWidth * (biHeight - Int32.ofNat i - 1)).toInt) nWidth.toInt.toNat) mem)

/-- The loop makes the copies of `pictureCopies`. -/
theorem rowLoop_eq (mem : Space BYTE) (pDestBuffer pSourceBuffer : Int) (pvi : List BYTE) :
    rowLoop mem pDestBuffer pSourceBuffer pvi =
      (pictureCopies pvi).map (mem.copyAll pDestBuffer pSourceBuffer) := by
  unfold rowLoop pictureCopies
  cases VIDEOINFOHEADER.biWidth pvi with
  | none => rfl
  | some biWidth =>
    cases VIDEOINFOHEADER.biBitCount pvi with
    | none => rfl
    | some biBitCount =>
      cases VIDEOINFOHEADER.biHeight pvi with
      | none => rfl
      | some biHeight => simp [Space.copyAll, rowCopies, List.foldl_map]

/-- The block lies in the memory, at its address. -/
def Block.LiesIn (b : Block) (mem : Space BYTE) : Prop := mem.block b.addr b.bytes.length = b.bytes

instance (b : Block) (mem : Space BYTE) : Decidable (b.LiesIn mem) := inferInstanceAs (Decidable (_ = _))

theorem Block.LiesIn.getElem? {b : Block} {mem : Space BYTE} (h : b.LiesIn mem) {k : Nat} (hk : k < b.bytes.length) :
    b.bytes[k]? = some (mem (b.addr + k)) := by
  have hbyte := Space.block_getElem? mem b.addr hk
  rwa [h] at hbyte

/-- From `mem` to `mem'` the `n` rows of `S` bytes at `src` have been written to
`dst` in opposite order by `calls`, and nothing else has changed in the two blocks. -/
structure RowsMirrored (S n : Int) (src dst : Block) (calls : List CopyCall) (mem mem' : Space BYTE) : Prop where
  rows : ∀ i j : Nat, i < n → j < S → mem' (dst.addr + (i * S + j)) = mem (src.addr + ((n - 1 - i) * S + j))
  rest : ∀ k : Nat, S * n ≤ k → k < dst.bytes.length → mem' (dst.addr + k) = mem (dst.addr + k)
  source : ∀ k : Nat, k < src.bytes.length → mem' (src.addr + k) = mem (src.addr + k)
  offsets : ∀ c ∈ calls, ∀ k, c.Reads k ∨ c.Writes k → 0 ≤ k ∧ k < S * n

/-- Two blocks in one memory without an address in common. -/
structure InMemory (mem : Space BYTE) (src dst : Block) : Prop where
  source : src.LiesIn mem
  target : dst.LiesIn mem
  apart : Apart src.addr src.bytes.length dst.addr dst.bytes.length

section Loop

variable {mem : Space BYTE} {src dst : Block} {w h : LONG} {S n : Nat}

/-- No copy touches an offset outside the `n` rows. -/
theorem rowCopies_offsets (hS : w.toInt = S) (hn : h.toInt = n) (hlt : S * n < 2 ^ 31) :
    ∀ c ∈ rowCopies w h, ∀ k, c.Reads k ∨ c.Writes k → 0 ≤ k ∧ k < S * n := by
  intro c hc k hk
  rw [rowCopies_exact hS hn hlt, List.mem_map] at hc
  obtain ⟨i, hi, rfl⟩ := hc
  rw [List.mem_range] at hi
  have hend := row_end_le (S := S) hi
  have hend' := row_end_le (S := S) (show n - 1 - i < n by omega)
  unfold mirrorCall CopyCall.Reads CopyCall.Writes at hk
  dsimp only at hk
  rw [← Nat.cast_mul]
  omega

/-- The loop invariant of `copyRows_spec`, carried over to the memory. -/
theorem rowCopies_mirror (hm : InMemory mem src dst) (hS : w.toInt = S) (hn : h.toInt = n)
    (hs : S * n ≤ src.bytes.length) (hd : S * n ≤ dst.bytes.length) :
    RowsMirrored S n src dst (rowCopies w h) mem (mem.copyAll dst.addr src.addr (rowCopies w h)) ∧
      (mem.copyAll dst.addr src.addr (rowCopies w h)).block dst.addr dst.bytes.length =
        copyRows S n src.bytes dst.bytes n := by
  have hlt : S * n < 2 ^ 31 := lt_of_le_of_lt hs src.fits
  have hn' : h.toInt.toNat = n := by omega
  have hrun : runCopies src.bytes dst.bytes (rowCopies w h) = some (copyRows S n src.bytes dst.bytes n) := by
    have := @runCopies_rowCopies w h S hS src.bytes dst.bytes src.fits (by rwa [hn']) (by rwa [hn'])
    rwa [hn'] at this
  have hmir := copyRows_mirrored hs hd
  rw [← hm.source, ← hm.target] at hrun
  obtain ⟨hblock, hframe⟩ := Space.copyAll_block hm.apart hrun
  rw [hm.source, hm.target] at hblock
  have hoffsets := rowCopies_offsets hS hn hlt
  generalize mem.copyAll dst.addr src.addr (rowCopies w h) = mem' at hblock hframe
  -- A byte of the target afterwards.
  have hafter : ∀ k < dst.bytes.length, (copyRows S n src.bytes dst.bytes n)[k]? = some (mem' (dst.addr + k)) := by
    intro k hk
    rw [← hblock, Space.block_getElem? _ _ hk]
  refine ⟨⟨?_, ?_, ?_, hoffsets⟩, hblock⟩
  · intro i j hi hj
    obtain ⟨hlt', hidx⟩ := mirrorIdx_row (show i < n by omega) (show j < S by omega)
    have hsrc := mirrorIdx_lt hlt'
    rw [hidx] at hsrc
    have hrow := hmir.rows _ hlt'
    rw [hafter _ (by omega), hidx, hm.source.getElem? (by omega), Option.some_inj] at hrow
    have hto : (dst.addr + (i * S + j) : Int) = dst.addr + (S * i + j : Nat) := by push_cast; ring
    have hfrom : (src.addr + ((n - 1 - i) * S + j) : Int) = src.addr + (S * (n - 1 - i) + j : Nat) := by
      have : ((n - 1 - i : Nat) : Int) = n - 1 - i := by omega
      rw [Nat.cast_add, Nat.cast_mul, this]
      ring
    rw [hto, hfrom]
    exact hrow
  · intro k hk hlen
    have hrest := hmir.rest k (by exact_mod_cast hk)
    rw [hafter k hlen, hm.target.getElem? hlen, Option.some_inj] at hrest
    exact hrest
  · intro k hk
    apply hframe
    have := hm.apart
    unfold Apart at this
    omega

end Loop

/-- Without overflow and with room for the picture, the row loop mirrors it in
memory, and `Transform` leaves the bytes of its output sample as the loop leaves
them in memory. -/
theorem rows_in_memory {α : Type} {f : CTransformFilter α} {pIn : IMediaSample} {pOut : CMediaSample}
    {biWidth biHeight : LONG} {mem : Space BYTE} (hmt : CFlipFilter.CheckInputType f.m_pInput.m_mt = some S_OK)
    (hw : VIDEOINFOHEADER.biWidth f.m_pInput.m_mt.pbFormat = some biWidth)
    (hh : VIDEOINFOHEADER.biHeight f.m_pInput.m_mt.pbFormat = some biHeight)
    (hwidth : 0 ≤ biWidth.toInt ∧ 24 * biWidth.toInt + 31 < 2 ^ 31)
    (hheight : 0 ≤ biHeight.toInt ∧ exactStride biWidth * biHeight.toInt < 2 ^ 31)
    (hmem : InMemory mem pIn.GetPointer pOut.m_pBuffer)
    (hsrc : exactStride biWidth * biHeight.toInt ≤ pIn.GetPointer.bytes.length)
    (hdst : exactStride biWidth * biHeight.toInt ≤ pOut.m_pBuffer.bytes.length) :
    ∃ calls mem' r, pictureCopies f.m_pInput.m_mt.pbFormat = some calls ∧
      rowLoop mem pOut.m_pBuffer.addr pIn.GetPointer.addr f.m_pInput.m_mt.pbFormat = some mem' ∧
      RowsMirrored (exactStride biWidth) biHeight.toInt pIn.GetPointer pOut.m_pBuffer calls mem mem' ∧
      CFlipFilter.Transform true f pIn pOut = some r ∧ r.1.m_pBuffer.addr = pOut.m_pBuffer.addr ∧
      r.1.m_pBuffer.LiesIn mem' ∧ pIn.GetPointer.LiesIn mem' := by
  obtain ⟨w, h, hw', hh', hcalls⟩ := pictureCopies_24 hmt
  cases Option.some_inj.1 (hw.symm.trans hw')
  cases Option.some_inj.1 (hh.symm.trans hh')
  obtain ⟨n, hn⟩ := Int.eq_ofNat_of_zero_le hheight.1
  have hS : (rowBytes biWidth : Int) = exactStride biWidth := rowBytes_exact hwidth.1 hwidth.2
  rw [← hS, hn] at hsrc hdst ⊢
  have hs : rowBytes biWidth * n ≤ pIn.GetPointer.bytes.length := by exact_mod_cast hsrc
  have hd : rowBytes biWidth * n ≤ pOut.m_pBuffer.bytes.length := by exact_mod_cast hdst
  obtain ⟨hmirror, hblock⟩ := rowCopies_mirror hmem (nWidth_toInt biWidth) hn hs hd
  have hn' : biHeight.toInt.toNat = n := by omega
  have hrun := @runCopies_rowCopies _ biHeight _ (nWidth_toInt biWidth) pIn.GetPointer.bytes pOut.m_pBuffer.bytes
    pIn.GetPointer.fits (by rwa [hn']) (by rwa [hn'])
  rw [hn'] at hrun
  obtain ⟨m_pBuffer, hcopy, hbytes⟩ := Block.copyFrom_of_run hrun
  obtain ⟨-, haddr, -⟩ := Block.copyFrom_eq_some hcopy
  have htrans : CFlipFilter.Transform true f pIn pOut = some (copyMetadata pIn { pOut with m_pBuffer }) := by
    simp only [CFlipFilter.Transform, Set_true, hcalls, hcopy, Option.bind_eq_bind, Option.bind_some]
  have hbuf : (copyMetadata pIn { pOut with m_pBuffer }).1.m_pBuffer = m_pBuffer :=
    (copyMetadata_buffer pIn { pOut with m_pBuffer }).m_pBuffer
  refine ⟨_, _, _, hcalls, by rw [rowLoop_eq, hcalls]; rfl, hmirror, htrans, ?_, ?_, ?_⟩
  · rw [hbuf, haddr]
  · unfold Block.LiesIn
    rw [hbuf, haddr, hbytes, (copyRows_mirrored hs hd).length]
    exact hblock
  · exact (Space.block_congr hmirror.source).trans hmem.source

/-- Sixteen bytes that count up, zeros everywhere else. -/
def countingMemory : Space BYTE := fun x => if x < 16 then UInt8.ofNat x.toNat else 0

/-- An input sample with the counting bytes. -/
def countingSample : IMediaSample := plainSample ⟨0, (List.range 16).map UInt8.ofNat, by decide⟩

theorem rows_in_memory_2x2 :
    ∃ calls mem' r, pictureCopies (connected .CFlipFilter (rgb24 2 2 16)).m_pInput.m_mt.pbFormat = some calls ∧
      rowLoop countingMemory flip16.2.m_pBuffer.addr countingSample.GetPointer.addr
        (connected .CFlipFilter (rgb24 2 2 16)).m_pInput.m_mt.pbFormat = some mem' ∧
      RowsMirrored (exactStride 2) (2 : LONG).toInt countingSample.GetPointer flip16.2.m_pBuffer calls countingMemory mem' ∧
      CFlipFilter.Transform true (connected .CFlipFilter (rgb24 2 2 16)) countingSample flip16.2 = some r ∧
      r.1.m_pBuffer.addr = flip16.2.m_pBuffer.addr ∧ r.1.m_pBuffer.LiesIn mem' ∧ countingSample.GetPointer.LiesIn mem' :=
  @rows_in_memory _ (connected .CFlipFilter (rgb24 2 2 16)) countingSample flip16.2 2 2 countingMemory (by decide)
    (by decide) (by decide) (by decide) (by decide) ⟨by decide, by decide, by unfold Apart; decide⟩ (by decide)
    (by decide)

end FilterSln
