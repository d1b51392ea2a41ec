import FilterSln.Allocator
import FilterSln.Memory
import FilterSln.Lib.Words
/-!
# The output pin of the source filter

`CMyOutputPin` of `MyOutputPin.cpp`. The pin loads three bitmaps when it is
created and shows them in turn: `FillBuffer` copies the image that its counter
selects into a sample and stamps the sample with one unit of time.

The three loads share `m_nImageSize`: a load that succeeds overwrites it, one
that fails leaves it alone. So it is the size of the last bitmap that could be
loaded, and `FillBuffer` copies as many bytes of every image
(`fill_stays_inside_iff`).
-/

namespace FilterSln

open HRESULT Lib

/-! ## Loading a bitmap -/

/-- What `GetObject` tells about a bitmap. -/
structure BITMAP where
  bmWidth : LONG
  bmHeight : LONG
  bmWidthBytes : LONG
  bmBitsPixel : WORD

/-- `bmWidthBytes * bmHeight`. -/
def BITMAP.size (bmp : BITMAP) : LONG := bmp.bmWidthBytes * bmp.bmHeight

/-- What the system answers while one file is loaded: the bitmap, the address of
the new memory, and the bytes that `GetDIBits` leaves there for a header with
this width, height and bit count. -/
structure LoadEnv where
  LoadImage : Option BITMAP
  newBytes : Option Nat
  GetDIBits : LONG → LONG → WORD → Nat → BYTE

/-- The data of the bitmap. -/
def LoadEnv.bits (env : LoadEnv) (bmp : BITMAP) : List BYTE :=
  (List.range bmp.size.toInt.toNat).map (env.GetDIBits bmp.bmWidth bmp.bmHeight bmp.bmBitsPixel)

theorem LoadEnv.bits_length (env : LoadEnv) (bmp : BITMAP) : (env.bits bmp).length = bmp.size.toInt.toNat := by
  simp [bits]

/-- The memory returned and the three reference parameters; `none` when `new`
throws, as it does for a negative size. -/
def LoadBitmapFileToMemory (env : LoadEnv) (nWidth nHeight nImageDataSize : LONG) :
    Option (Option Block × LONG × LONG × LONG) :=
  match env.LoadImage with
  | none => some (none, nWidth, nHeight, nImageDataSize)
  | some bmp =>
    if bmp.size < 0 then none
    else
      match env.newBytes with
      | none => none
      | some addr =>
        let p : Block :=
          { addr
            bytes := env.bits bmp
            fits := by rw [env.bits_length]; exact CMemAllocator.toNat_lt _ }
        some (some p, bmp.bmWidth, bmp.bmHeight, bmp.size)

/-- A failed load touches none of the parameters; after a successful one they
are those of its bitmap. -/
theorem LoadBitmapFileToMemory_ok {env : LoadEnv} {w h n w' h' n' : LONG} {p : Option Block}
    (hl : LoadBitmapFileToMemory env w h n = some (p, w', h', n')) :
    p.map Block.bytes = env.LoadImage.map env.bits ∧ n' = (env.LoadImage.map BITMAP.size).getD n ∧
      ∀ bmp, env.LoadImage = some bmp → 0 ≤ bmp.size.toInt := by
  unfold LoadBitmapFileToMemory at hl
  split at hl
  · rename_i hnone
    cases hl
    simp [hnone]
  · rename_i bmp hsome
    split at hl
    · cases hl
    · rename_i hpos
      split at hl
      · cases hl
      · cases hl
        rw [hsome]
        refine ⟨rfl, rfl, fun b hb => ?_⟩
        cases hb
        simpa [Int32.lt_iff_toInt_lt] using hpos

/-! ## The pin -/

def UNITS : REFERENCE_TIME := 10000000
def TS_ONE : REFERENCE_TIME := UNITS

structure CMyOutputPin where
  m_pData : Vector (Option Block) 3
  m_nWidth : LONG
  m_nHeight : LONG
  m_nImageSize : LONG
  m_nCount : LONG

namespace CMyOutputPin

/-- The constructor, for the files `0.bmp` to `2.bmp`. -/
def new (files : Fin 3 → LoadEnv) : Option CMyOutputPin := do
  let (p0, m_nWidth, m_nHeight, m_nImageSize) ← LoadBitmapFileToMemory (files 0) 0 0 0
  let (p1, m_nWidth, m_nHeight, m_nImageSize) ← LoadBitmapFileToMemory (files 1) m_nWidth m_nHeight m_nImageSize
  let (p2, m_nWidth, m_nHeight, m_nImageSize) ← LoadBitmapFileToMemory (files 2) m_nWidth m_nHeight m_nImageSize
  some ⟨#v[p0, p1, p2], m_nWidth, m_nHeight, m_nImageSize, 0⟩

def DecideBufferSize {α Env : Type} [IMemAllocator α Env] (pin : CMyOutputPin) (pIMemAlloc : Option α)
    (pProperties : ALLOCATOR_PROPERTIES) : Option α × ALLOCATOR_PROPERTIES × HRESULT :=
  match pIMemAlloc with
  | none => (none, pProperties, E_POINTER)
  | some a =>
    let pProperties := { pProperties with cBuffers := 1, cbBuffer := pin.m_nImageSize }
    let (a, hr, Actual) := IMemAllocator.SetProperties a pProperties
    if hr.FAILED then (some a, pProperties, hr)
    else if Actual.cbBuffer < pProperties.cbBuffer then (some a, pProperties, E_FAIL)
    else (some a, pProperties, NOERROR)

def image (pin : CMyOutputPin) (i : Fin 3) : Option Block := pin.m_pData[i]

/-- `m_pData[m_nCount%3]`; `none` when the index lies outside the array. -/
def currentImage (pin : CMyOutputPin) : Option (Option Block) :=
  let i := (pin.m_nCount % 3).toInt
  if 0 ≤ i then pin.m_pData[i.toNat]? else none

/-- The copy into the sample. `CopyMemory` takes the size as unsigned. -/
def imageCopy (pin : CMyOutputPin) : CopyCall := ⟨0, 0, pin.m_nImageSize.toBitVec.toNat⟩

/-- `none` when the copy leaves the image or the sample; a null image has no
bytes to copy. -/
def FillBuffer (pin : CMyOutputPin) (pMediaSample : CMediaSample) : Option (CMyOutputPin × CMediaSample × HRESULT) := do
  let image ← pin.currentImage
  let pData := pMediaSample.m_pBuffer.zero
  let m_pBuffer ← pData.copyFrom (image.getD .empty) [pin.imageCopy]
  let start := TS_ONE * pin.m_nCount.toInt64
  let stop := TS_ONE + start
  let pMediaSample := { pMediaSample with m_pBuffer }.SetTime start stop
  some ({ pin with m_nCount := pin.m_nCount + 1 }, pMediaSample.SetSyncPoint true, NOERROR)

/-! ## What the constructor leaves -/

/-- The size of the last bitmap that can be loaded, zero when there is none. -/
def lastSize (files : Fin 3 → LoadEnv) : LONG :=
  (((files 2).LoadImage <|> (files 1).LoadImage <|> (files 0).LoadImage).map BITMAP.size).getD 0

variable {files : Fin 3 → LoadEnv} {pin : CMyOutputPin}

/-- Each image is that of its own file, the one size is that of the last. -/
theorem new_ok (h : new files = some pin) :
    pin.m_nCount = 0 ∧ pin.m_nImageSize = lastSize files ∧
      (∀ i : Fin 3, (pin.image i).map Block.bytes = (files i).LoadImage.map (files i).bits) ∧
      ∀ (i : Fin 3) (bmp : BITMAP), (files i).LoadImage = some bmp → 0 ≤ bmp.size.toInt := by
  simp only [new, Option.bind_eq_bind, Option.bind_eq_some_iff] at h
  obtain ⟨⟨p0, w0, h0, n0⟩, hl0, ⟨p1, w1, h1, n1⟩, hl1, ⟨p2, w2, h2, n2⟩, hl2, h⟩ := h
  cases h
  obtain ⟨hp0, hn0, hs0⟩ := LoadBitmapFileToMemory_ok hl0
  obtain ⟨hp1, hn1, hs1⟩ := LoadBitmapFileToMemory_ok hl1
  obtain ⟨hp2, hn2, hs2⟩ := LoadBitmapFileToMemory_ok hl2
  refine ⟨rfl, ?_, ?_, ?_⟩
  · dsimp only
    rw [hn2, hn1, hn0, lastSize]
    cases (files 2).LoadImage <;> cases (files 1).LoadImage <;> rfl
  · intro i
    match i with
    | 0 => exact hp0
    | 1 => exact hp1
    | 2 => exact hp2
  · intro i
    match i with
    | 0 => exact hs0
    | 1 => exact hs1
    | 2 => exact hs2

theorem lastSize_nonneg (h : ∀ (i : Fin 3) (bmp : BITMAP), (files i).LoadImage = some bmp → 0 ≤ bmp.size.toInt) :
    0 ≤ (lastSize files).toInt := by
  unfold lastSize
  rcases h2 : (files 2).LoadImage with - | bmp
  · rcases h1 : (files 1).LoadImage with - | bmp
    · rcases h0 : (files 0).LoadImage with - | bmp
      · decide
      · exact h 0 bmp h0
    · exact h 1 bmp h1
  · exact h 2 bmp h2

/-! ## The image of a frame -/

/-- The pin when it fills frame `n`. -/
def atFrame (pin : CMyOutputPin) (n : Nat) : CMyOutputPin := { pin with m_nCount := Int32.ofNat n }

theorem currentImage_atFrame (pin : CMyOutputPin) {n : Nat} (hn : n < 2 ^ 31) :
    (pin.atFrame n).currentImage = some (pin.image (Fin.ofNat 3 n)) := by
  have hmod : (Int32.ofNat n % 3).toInt = (n % 3 : Nat) := by
    rw [Int32.toInt_mod, Int32.toInt_ofNat_of_lt hn]
    rfl
  unfold currentImage atFrame
  dsimp only
  rw [hmod, if_pos (Int.natCast_nonneg _), Int.toNat_natCast]
  exact getElem?_pos _ _ _

/-! ## Inside the image and the sample -/

/-- The selected image is there, and the copy reads and writes only inside it and
the sample. The zeroing before it covers the sample's buffer and nothing else. -/
def FillStaysInside (pin : CMyOutputPin) (pMediaSample : CMediaSample) : Prop :=
  ∃ image, pin.currentImage = some (some image) ∧
    StayInside [pin.imageCopy] image.size pMediaSample.m_cbBuffer

/-- With an image, `FillBuffer` returns exactly when it stays inside. -/
theorem fillStaysInside_iff_returns {pMediaSample : CMediaSample} :
    FillStaysInside pin pMediaSample ↔
      (∃ image, pin.currentImage = some (some image)) ∧ (pin.FillBuffer pMediaSample).isSome = true := by
  have hreturns : ∀ image, pin.currentImage = some (some image) →
      ((pin.FillBuffer pMediaSample).isSome = true ↔
        StayInside [pin.imageCopy] image.size pMediaSample.m_cbBuffer) := by
    intro image hcur
    have hsize : pMediaSample.m_pBuffer.zero.size = pMediaSample.m_cbBuffer := Block.write_size _ _ _
    rw [← hsize, ← Block.copyFrom_isSome]
    cases hcopy : pMediaSample.m_pBuffer.zero.copyFrom image [pin.imageCopy] <;> simp [FillBuffer, hcur, hcopy]
  constructor
  · rintro ⟨image, hcur, hin⟩
    exact ⟨⟨image, hcur⟩, (hreturns image hcur).2 hin⟩
  · rintro ⟨⟨image, hcur⟩, hret⟩
    exact ⟨image, hcur, (hreturns image hcur).1 hret⟩

theorem imageCopy_inBounds (h : 0 ≤ pin.m_nImageSize.toInt) {a b : Nat} :
    pin.imageCopy.InBounds a b ↔ pin.m_nImageSize.toInt ≤ a ∧ pin.m_nImageSize.toInt ≤ b := by
  have hlen := Word.toNat_toBitVec h
  unfold imageCopy CopyCall.InBounds
  dsimp only
  omega

/-- The buffer was handed out by the allocator of a completed connection:
`DecideBufferSize` agreed on the size with it, and it has served any calls but a
new `SetProperties` since. -/
def DeliveryBuffer (pin : CMyOutputPin) (pMediaSample : CMediaSample) : Prop :=
  ∃ (p q : Pool) (pprop pprop' : ALLOCATOR_PROPERTIES) (a a' : CMemAllocator) (es : List Pool.Op) (dwFlags : DWORD)
    (pSample : CMediaSample),
    p.Reachable ∧ pin.DecideBufferSize (some p.alloc) pprop = (some a, pprop', NOERROR) ∧
    Runs Pool.step (fun p e => e.keepsSize p) ⟨a, p.held⟩ es q ∧
    q.alloc.GetBuffer dwFlags = some (a', .ok pSample) ∧ pMediaSample.m_pBuffer = pSample.m_pBuffer

theorem DecideBufferSize_ok {α Env : Type} [IMemAllocator α Env] {pa pa' : Option α}
    {pprop pprop' : ALLOCATOR_PROPERTIES} {hr : HRESULT} (h : pin.DecideBufferSize pa pprop = (pa', pprop', hr))
    (hr0 : hr.SUCCEEDED = true) :
    ∃ a a' Actual hrs, pa = some a ∧ pa' = some a' ∧ pprop' = { pprop with cBuffers := 1, cbBuffer := pin.m_nImageSize } ∧
      IMemAllocator.SetProperties a pprop' = (a', hrs, Actual) ∧ hrs.SUCCEEDED = true ∧
      pin.m_nImageSize ≤ Actual.cbBuffer := by
  unfold DecideBufferSize at h
  split at h
  · cases h; cases hr0
  · rename_i a
    dsimp only at h
    split at h
    · rename_i hf
      cases h
      simp [FAILED, hr0] at hf
    · rename_i hf
      split at h
      · cases h; cases hr0
      · rename_i hle
        cases h
        exact ⟨a, _, _, _, rfl, rfl, rfl, rfl, SUCCEEDED_of_not_FAILED hf, Int32.not_lt.1 hle⟩

/-- The buffers of a completed connection have room for `m_nImageSize` bytes. -/
theorem DeliveryBuffer.size {pMediaSample : CMediaSample} (h : DeliveryBuffer pin pMediaSample) :
    pin.m_nImageSize ≤ pMediaSample.m_cbBuffer := by
  obtain ⟨p, q, pprop, pprop', a, a', es, dwFlags, s, hp, hdec, hrun, hget, hbuf⟩ := h
  obtain ⟨a₀, a₁, Actual, hr, h0, h1, -, hset, hok, hle⟩ := DecideBufferSize_ok hdec rfl
  cases h0
  cases h1
  rw [CMediaSample.m_cbBuffer, hbuf]
  exact hle.trans_eq (Pool.GetBuffer_size_agreed hp.inv hset hok hrun hget).symm

/-- Frame `n` stays inside image and sample exactly when its bitmap could be
loaded and is no smaller than the last one that could. -/
theorem fill_stays_inside_iff {pMediaSample : CMediaSample} {n : Nat} (hnew : new files = some pin)
    (hbuf : DeliveryBuffer pin pMediaSample) (hn : n < 2 ^ 31) :
    FillStaysInside (pin.atFrame n) pMediaSample ↔
      ∃ bmp, (files (Fin.ofNat 3 n)).LoadImage = some bmp ∧ lastSize files ≤ bmp.size := by
  obtain ⟨-, hsize, himages, hpos⟩ := new_ok hnew
  have hnonneg : 0 ≤ (pin.atFrame n).m_nImageSize.toInt := by
    show 0 ≤ pin.m_nImageSize.toInt
    rw [hsize]
    exact lastSize_nonneg hpos
  -- The sample always has room, so only the image can be too short.
  have hroom : pin.m_nImageSize.toInt ≤ pMediaSample.m_pBuffer.bytes.length := by
    rw [← Block.size_toInt]
    exact Int32.le_iff_toInt_le.1 hbuf.size
  have himage := currentImage_atFrame pin hn
  have hbits := himages (Fin.ofNat 3 n)
  unfold FillStaysInside
  constructor
  · rintro ⟨image, hcur, hin⟩
    rw [himage, Option.some_inj] at hcur
    rw [hcur] at hbits
    obtain ⟨bmp, hbmp, heq⟩ := Option.map_eq_some_iff.1 hbits.symm
    refine ⟨bmp, hbmp, ?_⟩
    rw [CMediaSample.m_cbBuffer, stayInside_iff, List.forall_mem_singleton, imageCopy_inBounds hnonneg, ← heq,
      LoadEnv.bits_length] at hin
    have hle : pin.m_nImageSize.toInt ≤ bmp.size.toInt.toNat := hin.1
    have := hpos _ _ hbmp
    rw [Int32.le_iff_toInt_le, ← hsize]
    omega
  · rintro ⟨bmp, hbmp, hle⟩
    rw [hbmp] at hbits
    obtain ⟨image, hcur, heq⟩ := Option.map_eq_some_iff.1 hbits
    refine ⟨image, himage.trans (congrArg some hcur), ?_⟩
    rw [CMediaSample.m_cbBuffer, stayInside_iff, List.forall_mem_singleton, imageCopy_inBounds hnonneg, heq,
      LoadEnv.bits_length]
    have := hpos _ _ hbmp
    rw [Int32.le_iff_toInt_le, ← hsize] at hle
    refine ⟨?_, hroom⟩
    show pin.m_nImageSize.toInt ≤ bmp.size.toInt.toNat
    omega

/-! ## The filled sample -/

/-- The sample holds `image` with zeros behind it, and takes the `n`-th unit of
time. -/
structure Shows (image : List BYTE) (n : Nat) (pMediaSample : CMediaSample) : Prop where
  front : pMediaSample.m_pBuffer.bytes.take image.length = image
  zeros : ∀ b ∈ pMediaSample.m_pBuffer.bytes.drop image.length, b = 0
  time : ∃ start stop : REFERENCE_TIME, pMediaSample.GetTime = (NOERROR, some (start, stop)) ∧
    start.toInt = n * UNITS.toInt ∧ stop.toInt = (n + 1) * UNITS.toInt
  syncPoint : pMediaSample.IsSyncPoint = S_OK

theorem start_exact (m_nCount : LONG) : (TS_ONE * m_nCount.toInt64).toInt = m_nCount.toInt * UNITS.toInt := by
  have hone : TS_ONE.toInt = 10000000 := by decide
  have hunits : UNITS.toInt = 10000000 := by decide
  have hc : m_nCount.toInt64.toInt = m_nCount.toInt := Int32.toInt_toInt64 _
  have h1 := m_nCount.le_toInt
  have h2 := m_nCount.toInt_lt
  rw [Word.mul_exact64 (by rw [hone, hc]; omega) (by rw [hone, hc]; omega), hone, hc, hunits]
  omega

theorem stop_exact (m_nCount : LONG) :
    (TS_ONE + TS_ONE * m_nCount.toInt64).toInt = (m_nCount.toInt + 1) * UNITS.toInt := by
  have hone : TS_ONE.toInt = 10000000 := by decide
  have hunits : UNITS.toInt = 10000000 := by decide
  have hs := start_exact m_nCount
  have h1 := m_nCount.le_toInt
  have h2 := m_nCount.toInt_lt
  rw [hunits] at hs ⊢
  rw [Word.add_exact64 (by rw [hone, hs]; omega) (by rw [hone, hs]; omega), hone, hs]
  omega

/-- With its image loaded and room in the sample, frame `n` is filled and the
counter moves on by one. -/
theorem FillBuffer_ok {pMediaSample : CMediaSample} {n : Nat} {image : Block} (hn : n < 2 ^ 31)
    (himage : pin.image (Fin.ofNat 3 n) = some image) (hsize : pin.m_nImageSize = image.size)
    (hroom : pin.m_nImageSize ≤ pMediaSample.m_cbBuffer) :
    ∃ filled, (pin.atFrame n).FillBuffer pMediaSample = some (pin.atFrame (n + 1), filled, NOERROR) ∧
      Shows image.bytes n filled := by
  have hlen : image.bytes.length ≤ pMediaSample.m_pBuffer.zero.bytes.length := by
    rw [hsize, CMediaSample.m_cbBuffer, Int32.le_iff_toInt_le, Block.size_toInt, Block.size_toInt] at hroom
    simpa [Block.zero] using hroom
  have hcopy : (pin.atFrame n).imageCopy = ⟨0, 0, image.bytes.length⟩ := by
    have h := Word.toNat_toBitVec (show 0 ≤ image.size.toInt by simp)
    rw [Block.size_toInt, Int.natCast_inj] at h
    show CopyCall.mk 0 0 pin.m_nImageSize.toBitVec.toNat = _
    rw [hsize, h]
  obtain ⟨m_pBuffer, hbuf, hbytes⟩ := Block.copyFrom_of_run (runCopies_whole hlen)
  -- The counter wraps at `2 ^ 31`, and the times are exact below it.
  have hnext : (pin.atFrame n).m_nCount + 1 = Int32.ofNat (n + 1) := (Int32.ofNat_add n 1).symm
  have hcount : (pin.atFrame n).m_nCount.toInt = n := Int32.toInt_ofNat_of_lt hn
  have hstart := start_exact (pin.atFrame n).m_nCount
  have hstop := stop_exact (pin.atFrame n).m_nCount
  rw [hcount] at hstart hstop
  generalize hs : TS_ONE * (pin.atFrame n).m_nCount.toInt64 = start at hstart hstop
  refine ⟨({ pMediaSample with m_pBuffer }.SetTime start (TS_ONE + start)).SetSyncPoint true, ?_, ?_⟩
  · simp only [FillBuffer, currentImage_atFrame pin hn, himage, hcopy, hbuf, hs, hnext, Option.bind_eq_bind,
      Option.bind_some, Option.getD_some]
    rfl
  · refine ⟨?_, ?_, ⟨start, TS_ONE + start, ?_, hstart, hstop⟩, ?_⟩
    · show m_pBuffer.bytes.take _ = _
      rw [hbytes]
      exact splice_zero_take _ _
    · show ∀ b ∈ m_pBuffer.bytes.drop _, b = 0
      rw [hbytes, splice_zero_drop]
      intro b hb
      exact List.eq_of_mem_replicate (List.mem_of_mem_drop hb)
    · simp [CMediaSample.SetSyncPoint]
    · simp [CMediaSample.SetSyncPoint, CMediaSample.IsSyncPoint, yesNo]

/-! ## Files of equal and of different sizes -/

/-- A bitmap with one row of `n` pixels of 32 bits. -/
def row32 (n : Nat) : LoadEnv where
  LoadImage := some ⟨Int32.ofNat n, 1, Int32.ofNat (4 * n), 32⟩
  newBytes := some 0x1000
  GetDIBits _ _ _ k := UInt8.ofNat (n + k)

/-- A pin with the first buffer of a new allocator it has agreed on. -/
def firstDelivery (files : Fin 3 → LoadEnv) : Option (CMyOutputPin × CMediaSample) :=
  match new files with
  | none => none
  | some pin =>
    match pin.DecideBufferSize (some (CMemAllocator.new 0x10000)) ⟨0, 0, 1, 0⟩ with
    | (some a, _, .S_OK) =>
      match (a.Commit someMemory).1.GetBuffer 0 with
      | some (_, .ok pSample) => some (pin, pSample)
      | _ => none
    | _ => none

theorem firstDelivery_ok (h : (firstDelivery files).isSome) :
    new files = some ((firstDelivery files).get h).1 ∧
      DeliveryBuffer ((firstDelivery files).get h).1 ((firstDelivery files).get h).2 := by
  obtain ⟨⟨pin, pSample⟩, hr⟩ := Option.isSome_iff_exists.1 h
  simp only [hr, Option.get_some]
  unfold firstDelivery at hr
  split at hr
  · cases hr
  · rename_i pin' hnew
    split at hr
    · rename_i a pprop hdec
      split at hr
      · rename_i a' s hget
        cases hr
        have hrun : Runs Pool.step (fun p e => e.keepsSize p) ⟨a, []⟩ [.Commit someMemory]
            ⟨(a.Commit someMemory).1, []⟩ := .single trivial rfl
        exact ⟨hnew, ⟨.new 0x10000, []⟩, _, _, _, a, a', _, 0, pSample, ⟨_, [], .nil⟩, hdec, hrun, hget, rfl⟩
      · cases hr
    · cases hr

/-- Three bitmaps of two pixels. -/
def equalFiles : CMyOutputPin × CMediaSample := (firstDelivery fun _ => row32 2).get (by decide)

theorem equal_files_stay_inside : FillStaysInside (equalFiles.1.atFrame 5) equalFiles.2 := by
  have hok := @firstDelivery_ok (fun _ => row32 2) (by decide)
  exact (@fill_stays_inside_iff (fun _ => row32 2) _ _ 5 hok.1 hok.2 (by decide)).2 ⟨_, rfl, by decide⟩

/-- Bitmaps of one, two and three pixels. -/
def growing (i : Fin 3) : LoadEnv := row32 (i + 1)

def growingFiles : CMyOutputPin × CMediaSample := (firstDelivery growing).get (by decide)

/-- The first frame reads twelve bytes of an image of four. -/
theorem growing_files_overread :
    new growing = some growingFiles.1 ∧ DeliveryBuffer growingFiles.1 growingFiles.2 ∧
      ¬ FillStaysInside (growingFiles.1.atFrame 0) growingFiles.2 := by
  have hok := @firstDelivery_ok growing (by decide)
  refine ⟨hok.1, hok.2, ?_⟩
  rintro ⟨image, hcur, hin⟩
  have hfour : (growingFiles.1.atFrame 0).currentImage.map (Option.map fun b => b.bytes.length) = some (some 4) := by
    decide
  rw [hcur] at hfour
  rw [CMediaSample.m_cbBuffer, stayInside_iff, List.forall_mem_singleton,
    show image.bytes.length = 4 from Option.some_inj.1 (Option.some_inj.1 hfour)] at hin
  exact absurd hin (by decide)

end CMyOutputPin

end FilterSln
