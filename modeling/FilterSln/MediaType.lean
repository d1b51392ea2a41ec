import FilterSln.Types
/-!
# Media types

`CMediaType` of `mtype.cpp` and the part of `VIDEOINFOHEADER` the filters
read. The format block is the list of bytes `pbFormat` points to, so `cbFormat`
is its length and the pointer is null when it is empty. The interface pointer
`pUnk` plays no part in any decision and is left out.
-/

namespace FilterSln

open HRESULT

structure CMediaType where
  majortype : GUID
  subtype : GUID
  bFixedSizeSamples : Bool
  bTemporalCompression : Bool
  lSampleSize : ULONG
  formattype : GUID
  pbFormat : List BYTE
  deriving DecidableEq

namespace CMediaType

def cbFormat (mt : CMediaType) : Nat := mt.pbFormat.length

/-- `CMediaType::InitMediaType`. -/
def InitMediaType : CMediaType where
  majortype := .GUID_NULL
  subtype := .GUID_NULL
  bFixedSizeSamples := true
  bTemporalCompression := false
  lSampleSize := 1
  formattype := .GUID_NULL
  pbFormat := []

/-- `CMediaType::operator ==`: the GUIDs and the format block. -/
def eq (mt rt : CMediaType) : Bool :=
  mt.majortype = rt.majortype &&
  mt.subtype = rt.subtype &&
  mt.formattype = rt.formattype &&
  mt.cbFormat = rt.cbFormat &&
  (mt.cbFormat = 0 || mt.pbFormat = rt.pbFormat)

def IsFixedSize (mt : CMediaType) : Bool := mt.bFixedSizeSamples

def GetSampleSize (mt : CMediaType) : ULONG := if mt.IsFixedSize then mt.lSampleSize else 0

def IsPartiallySpecified (mt : CMediaType) : Bool :=
  mt.majortype = .GUID_NULL || mt.formattype = .GUID_NULL

def MatchesPartial (mt pmt : CMediaType) : Bool :=
  !(pmt.majortype ≠ .GUID_NULL && mt.majortype ≠ pmt.majortype) &&
  !(pmt.subtype ≠ .GUID_NULL && mt.subtype ≠ pmt.subtype) &&
  (if pmt.formattype ≠ .GUID_NULL then
    mt.formattype = pmt.formattype && mt.cbFormat = pmt.cbFormat &&
      (mt.cbFormat = 0 || mt.pbFormat = pmt.pbFormat)
  else true)

/-- `CopyMediaType`: the copy is left without a format block when there is no
memory for it. `CoTaskMemAlloc` says whether the allocation succeeds. -/
def CopyMediaType (CoTaskMemAlloc : Bool) (pmtSource : CMediaType) : CMediaType × HRESULT :=
  if pmtSource.cbFormat ≠ 0 then
    if CoTaskMemAlloc then (pmtSource, S_OK)
    else ({ pmtSource with pbFormat := [] }, E_OUTOFMEMORY)
  else (pmtSource, S_OK)

/-- `CMediaType::Set`, on an object other than `rt`. -/
def Set (CoTaskMemAlloc : Bool) (rt : CMediaType) : CMediaType × HRESULT :=
  let (mt, hr) := CopyMediaType CoTaskMemAlloc rt
  if hr.FAILED then (mt, E_OUTOFMEMORY) else (mt, S_OK)

def SetVariableSize (mt : CMediaType) : CMediaType := { mt with bFixedSizeSamples := false }

def SetSampleSize (mt : CMediaType) (sz : ULONG) : CMediaType :=
  if sz = 0 then mt.SetVariableSize else { mt with bFixedSizeSamples := true, lSampleSize := sz }

/-- `CMediaType::AllocFormatBuffer`: the type with a format block of at least
`length` bytes; `none` for a null pointer. `CoTaskMemAlloc` is what the new
memory holds, if there is any. -/
def AllocFormatBuffer (CoTaskMemAlloc : Option (Nat → BYTE)) (mt : CMediaType) (length : Nat) : Option CMediaType :=
  if mt.cbFormat = length then some mt
  else
    match CoTaskMemAlloc with
    | none => if length ≤ mt.cbFormat then some mt else none
    | some raw => some { mt with pbFormat := (List.range length).map raw }

theorem AllocFormatBuffer_length {CoTaskMemAlloc : Option (Nat → BYTE)} {mt mt' : CMediaType} {length : Nat}
    (h : AllocFormatBuffer CoTaskMemAlloc mt length = some mt') : length ≤ mt'.pbFormat.length := by
  unfold AllocFormatBuffer cbFormat at h
  split at h
  · cases h
    omega
  · split at h
    · split at h <;> cases h
      assumption
    · cases h
      simp

/-! ## Equality -/

theorem eq_iff {mt rt : CMediaType} :
    mt.eq rt = true ↔ mt.majortype = rt.majortype ∧ mt.subtype = rt.subtype ∧
      mt.formattype = rt.formattype ∧ mt.pbFormat = rt.pbFormat := by
  simp only [eq, Bool.and_eq_true, Bool.or_eq_true, decide_eq_true_eq]
  unfold cbFormat
  constructor
  · rintro ⟨⟨⟨⟨h1, h2⟩, h3⟩, h4⟩, h5⟩
    refine ⟨h1, h2, h3, ?_⟩
    rcases h5 with h5 | h5
    · -- Two empty blocks are equal.
      have h5' : rt.pbFormat.length = 0 := h4 ▸ h5
      rw [List.length_eq_zero_iff.1 h5, List.length_eq_zero_iff.1 h5']
    · exact h5
  · rintro ⟨h1, h2, h3, h4⟩
    exact ⟨⟨⟨⟨h1, h2⟩, h3⟩, congrArg _ h4⟩, .inr h4⟩

theorem eq_symm {mt rt : CMediaType} (h : mt.eq rt = true) : rt.eq mt = true := by
  obtain ⟨h1, h2, h3, h4⟩ := eq_iff.1 h
  exact eq_iff.2 ⟨h1.symm, h2.symm, h3.symm, h4.symm⟩

theorem eq_trans {a b c : CMediaType} (h : a.eq b = true) (h' : b.eq c = true) : a.eq c = true := by
  obtain ⟨h1, h2, h3, h4⟩ := eq_iff.1 h
  obtain ⟨g1, g2, g3, g4⟩ := eq_iff.1 h'
  exact eq_iff.2 ⟨h1.trans g1, h2.trans g2, h3.trans g3, h4.trans g4⟩

theorem eq_format {mt rt : CMediaType} (h : mt.eq rt = true) : mt.pbFormat = rt.pbFormat :=
  (eq_iff.1 h).2.2.2

/-- A type that was set without an error is the type it was set to. -/
theorem Set_ok {alloc : Bool} {rt : CMediaType} (h : (Set alloc rt).2.SUCCEEDED = true) :
    (Set alloc rt).1 = rt := by
  by_cases h0 : rt.cbFormat ≠ 0
  · cases alloc <;> simp [Set, CopyMediaType, h0, FAILED, SUCCEEDED] at h ⊢
  · simp [Set, CopyMediaType, h0]

end CMediaType

/-! ## Reading a format block -/

/-- Little-endian integers in a block of memory; `none` when the read leaves
the block. -/
def readWORD (p : List BYTE) (off : Nat) : Option WORD := do
  let b0 ← p[off]?
  let b1 ← p[off + 1]?
  some (b1.toBitVec ++ b0.toBitVec)

def readLONG (p : List BYTE) (off : Nat) : Option LONG := do
  let lo ← readWORD p off
  let hi ← readWORD p (off + 2)
  some (Int32.ofBitVec (hi ++ lo))

theorem readWORD_isSome {p : List BYTE} {off : Nat} : (readWORD p off).isSome ↔ off + 2 ≤ p.length := by
  rcases Nat.lt_or_ge (off + 1) p.length with h | h
  · simp [readWORD, h, show off < p.length by omega]; omega
  · simp only [readWORD, List.getElem?_eq_none h]
    cases p[off]? <;> simp <;> omega

theorem readLONG_isSome {p : List BYTE} {off : Nat} : (readLONG p off).isSome ↔ off + 4 ≤ p.length := by
  have h0 := @readWORD_isSome p off
  have h2 := @readWORD_isSome p (off + 2)
  cases h : readWORD p off <;> cases h' : readWORD p (off + 2) <;>
    simp [readLONG, h, h'] at h0 h2 ⊢ <;> omega

/-- What can be read in a block can be read in a longer one. -/
theorem readWORD_append {p : List BYTE} {off : Nat} {x : WORD} (h : readWORD p off = some x) (q : List BYTE) :
    readWORD (p ++ q) off = some x := by
  have hlen : off + 2 ≤ p.length := readWORD_isSome.1 (Option.isSome_iff_exists.2 ⟨x, h⟩)
  unfold readWORD at h ⊢
  rwa [List.getElem?_append_left (by omega), List.getElem?_append_left (by omega)]

theorem readLONG_append {p : List BYTE} {off : Nat} {x : LONG} (h : readLONG p off = some x) (q : List BYTE) :
    readLONG (p ++ q) off = some x := by
  simp only [readLONG, Option.bind_eq_bind, Option.bind_eq_some_iff] at h ⊢
  obtain ⟨lo, hlo, hi, hhi, h⟩ := h
  exact ⟨lo, readWORD_append hlo q, hi, readWORD_append hhi q, h⟩

/-! The bytes of an integer, and reading them back. -/

def WORD.bytes (x : WORD) : List BYTE := [.ofBitVec (x.extractLsb' 0 8), .ofBitVec (x.extractLsb' 8 8)]

def LONG.bytes (x : LONG) : List BYTE :=
  WORD.bytes (x.toBitVec.extractLsb' 0 16) ++ WORD.bytes (x.toBitVec.extractLsb' 16 16)

theorem readWORD_bytes (pre post : List BYTE) (x : WORD) :
    readWORD (pre ++ x.bytes ++ post) pre.length = some x := by
  have h : x.extractLsb' 8 8 ++ x.extractLsb' 0 8 = x := by
    apply BitVec.eq_of_getLsbD_eq
    intro i hi
    simp only [BitVec.getLsbD_append, BitVec.getLsbD_extractLsb']
    by_cases h8 : i < 8
    · simp [h8]
    · simp [h8, show i - 8 < 8 by omega, show 8 + (i - 8) = i by omega]
  simp [readWORD, WORD.bytes, List.append_assoc, h]

theorem readLONG_bytes (pre post : List BYTE) (x : LONG) :
    readLONG (pre ++ x.bytes ++ post) pre.length = some x := by
  have h : x.toBitVec.extractLsb' 16 16 ++ x.toBitVec.extractLsb' 0 16 = x.toBitVec := by
    apply BitVec.eq_of_getLsbD_eq
    intro i hi
    simp only [BitVec.getLsbD_append, BitVec.getLsbD_extractLsb']
    by_cases h16 : i < 16
    · simp [h16]
    · simp [h16, show i - 16 < 16 by omega, show 16 + (i - 16) = i by omega]
  have hlo := readWORD_bytes pre (WORD.bytes (x.toBitVec.extractLsb' 16 16) ++ post) (x.toBitVec.extractLsb' 0 16)
  have hhi := readWORD_bytes (pre ++ WORD.bytes (x.toBitVec.extractLsb' 0 16)) post (x.toBitVec.extractLsb' 16 16)
  have hlen : (pre ++ WORD.bytes (x.toBitVec.extractLsb' 0 16)).length = pre.length + 2 := by
    simp [WORD.bytes]
  rw [hlen] at hhi
  simp only [LONG.bytes, List.append_assoc] at hlo hhi ⊢
  simp [readLONG, hlo, hhi, h]

/-! The fields of a `VIDEOINFOHEADER` (and of the `VIDEOINFO` that starts with
one) at their offsets on Win32. -/

namespace VIDEOINFOHEADER

def sizeof : Nat := 88

def biWidth (pvi : List BYTE) : Option LONG := readLONG pvi 52
def biHeight (pvi : List BYTE) : Option LONG := readLONG pvi 56
def biBitCount (pvi : List BYTE) : Option WORD := readWORD pvi 62
def biSizeImage (pvi : List BYTE) : Option LONG := readLONG pvi 68

/-- A header cleared by `ZeroMemory` with the fields of an uncompressed picture
set: `biSize`, `biWidth`, `biHeight`, `biPlanes`, `biBitCount` and `biSizeImage`. -/
def make (biWidth biHeight : LONG) (biBitCount : WORD) (biSizeImage : LONG) : List BYTE :=
  List.replicate 48 0 ++ LONG.bytes 40 ++ biWidth.bytes ++ biHeight.bytes ++ WORD.bytes 1 ++ biBitCount.bytes ++
    List.replicate 4 0 ++ biSizeImage.bytes ++ List.replicate 16 0

theorem make_length (w h : LONG) (n : WORD) (size : LONG) : (make w h n size).length = sizeof := by
  simp [make, LONG.bytes, WORD.bytes, sizeof]

theorem make_fields (w h : LONG) (n : WORD) (size : LONG) :
    biWidth (make w h n size) = some w ∧ biHeight (make w h n size) = some h ∧
      biBitCount (make w h n size) = some n := by
  have hw := readLONG_bytes (List.replicate 48 0 ++ LONG.bytes 40)
    (h.bytes ++ WORD.bytes 1 ++ n.bytes ++ List.replicate 4 0 ++ size.bytes ++ List.replicate 16 0) w
  have hh := readLONG_bytes (List.replicate 48 0 ++ LONG.bytes 40 ++ w.bytes)
    (WORD.bytes 1 ++ n.bytes ++ List.replicate 4 0 ++ size.bytes ++ List.replicate 16 0) h
  have hn := readWORD_bytes (List.replicate 48 0 ++ LONG.bytes 40 ++ w.bytes ++ h.bytes ++ WORD.bytes 1)
    (List.replicate 4 0 ++ size.bytes ++ List.replicate 16 0) n
  refine ⟨?_, ?_, ?_⟩
  · simpa [make, biWidth, List.append_assoc, LONG.bytes, WORD.bytes] using hw
  · simpa [make, biHeight, List.append_assoc, LONG.bytes, WORD.bytes] using hh
  · simpa [make, biBitCount, List.append_assoc, LONG.bytes, WORD.bytes] using hn

theorem make_biSizeImage (w h : LONG) (n : WORD) (size : LONG) : biSizeImage (make w h n size) = some size := by
  have hs := readLONG_bytes (List.replicate 48 0 ++ LONG.bytes 40 ++ w.bytes ++ h.bytes ++ WORD.bytes 1 ++ n.bytes ++
    List.replicate 4 0) (List.replicate 16 0) size
  simpa [make, biSizeImage, List.append_assoc, LONG.bytes, WORD.bytes] using hs

end VIDEOINFOHEADER

/-- The types a neighbour proposes for pictures of one size. -/
def rgb24 (biWidth biHeight : LONG) (lSampleSize : ULONG) : CMediaType where
  majortype := .MEDIATYPE_Video
  subtype := .MEDIASUBTYPE_RGB24
  bFixedSizeSamples := true
  bTemporalCompression := false
  lSampleSize := lSampleSize
  formattype := .FORMAT_VideoInfo
  pbFormat := VIDEOINFOHEADER.make biWidth biHeight 24 0

def yuy2 (biWidth biHeight : LONG) (lSampleSize : ULONG) : CMediaType :=
  { rgb24 biWidth biHeight lSampleSize with
    subtype := .MEDIASUBTYPE_YUY2
    pbFormat := VIDEOINFOHEADER.make biWidth biHeight 16 0 }

end FilterSln
