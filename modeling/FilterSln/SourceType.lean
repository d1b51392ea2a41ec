import FilterSln.SourcePin
import Mathlib.Tactic.Ring
import Mathlib.Tactic.Linarith
/-!
# The type of the source filter

`CMyOutputPin::GetMediaType` and `CheckMediaType`: the one type the pin offers,
and what it asks of a type that comes back. The two agree as long as there is
picture data (`offered_type_accepted_iff`).

The type says 32 bits per pixel whatever the loaded file has, while the data and
its size keep the file's own depth (`type_describes_image_iff`).
-/

namespace FilterSln

open HRESULT Lib

/-! ## The format block -/

/-- `sizeof(VIDEOINFO)`: the header, the colour table with its masks, and the
padding to a multiple of 8. -/
def VIDEOINFO.sizeof : Nat := 1128

/-- A `VIDEOINFO` cleared by `ZeroMemory`, with the fields of its header set. -/
def VIDEOINFO.make (biWidth biHeight : LONG) (biBitCount : WORD) (biSizeImage : LONG) : List BYTE :=
  VIDEOINFOHEADER.make biWidth biHeight biBitCount biSizeImage ++
    List.replicate (VIDEOINFO.sizeof - VIDEOINFOHEADER.sizeof) 0

theorem VIDEOINFO.make_length (w h : LONG) (n : WORD) (size : LONG) :
    (VIDEOINFO.make w h n size).length = VIDEOINFO.sizeof := by
  rw [VIDEOINFO.make, List.length_append, VIDEOINFOHEADER.make_length, List.length_replicate]
  rfl

/-- The four fields in a block that starts with a `VIDEOINFO`. -/
theorem VIDEOINFO.make_fields (w h : LONG) (n : WORD) (size : LONG) (rest : List BYTE) :
    VIDEOINFOHEADER.biWidth (VIDEOINFO.make w h n size ++ rest) = some w ∧
      VIDEOINFOHEADER.biHeight (VIDEOINFO.make w h n size ++ rest) = some h ∧
      VIDEOINFOHEADER.biBitCount (VIDEOINFO.make w h n size ++ rest) = some n ∧
      VIDEOINFOHEADER.biSizeImage (VIDEOINFO.make w h n size ++ rest) = some size := by
  obtain ⟨hw, hh, hn⟩ := VIDEOINFOHEADER.make_fields w h n size
  have hs := VIDEOINFOHEADER.make_biSizeImage w h n size
  unfold VIDEOINFO.make
  rw [List.append_assoc]
  exact ⟨readLONG_append hw _, readLONG_append hh _, readWORD_append hn _, readLONG_append hs _⟩

namespace CMyOutputPin

/-! ## The two functions -/

/-- `GetMediaType` into an object that holds the type `pmt`. -/
def GetMediaType (pin : CMyOutputPin) (CoTaskMemAlloc : Option (Nat → BYTE)) (iPosition : Int) (pmt : CMediaType) :
    CMediaType × HRESULT :=
  if iPosition < 0 then (pmt, E_INVALIDARG)
  else if iPosition > 0 then (pmt, VFW_S_NO_MORE_ITEMS)
  else
    match pmt.AllocFormatBuffer CoTaskMemAlloc VIDEOINFO.sizeof with
    | none => (pmt, E_OUTOFMEMORY)
    | some pmt =>
      let pvi := VIDEOINFO.make pin.m_nWidth pin.m_nHeight 32 pin.m_nImageSize
      let pmt := { pmt with
        pbFormat := splice pmt.pbFormat 0 pvi
        majortype := .MEDIATYPE_Video
        subtype := .MEDIASUBTYPE_RGB32
        formattype := .FORMAT_VideoInfo }
      ({ pmt.SetSampleSize pin.m_nImageSize.toBitVec with bTemporalCompression := false }, NOERROR)

/-- `none` for a read outside the format block. -/
def CheckMediaType (pin : CMyOutputPin) (pMediaType : CMediaType) : Option HRESULT :=
  if pMediaType.majortype ≠ .MEDIATYPE_Video ∨ !pMediaType.IsFixedSize then some E_INVALIDARG
  else if pMediaType.subtype ≠ .MEDIASUBTYPE_RGB32 then some E_INVALIDARG
  else if pMediaType.formattype ≠ .FORMAT_VideoInfo then some E_INVALIDARG
  else if pMediaType.pbFormat = [] then some E_INVALIDARG
  else do
    let biBitCount ← VIDEOINFOHEADER.biBitCount pMediaType.pbFormat
    if biBitCount ≠ 32 then some E_INVALIDARG
    else
      let biWidth ← VIDEOINFOHEADER.biWidth pMediaType.pbFormat
      if biWidth ≠ pin.m_nWidth then some E_INVALIDARG
      else
        let biHeight ← VIDEOINFOHEADER.biHeight pMediaType.pbFormat
        if biHeight ≠ pin.m_nHeight then some E_INVALIDARG else some S_OK

variable {pin : CMyOutputPin} {CoTaskMemAlloc : Option (Nat → BYTE)} {iPosition : Int} {pmt mt : CMediaType}

/-- The type that `GetMediaType` leaves: the format block starts with the fields
of the pin, and the sample size is fixed unless there is no image. -/
theorem GetMediaType_ok (h : pin.GetMediaType CoTaskMemAlloc iPosition pmt = (mt, NOERROR)) :
    mt.majortype = .MEDIATYPE_Video ∧ mt.subtype = .MEDIASUBTYPE_RGB32 ∧ mt.formattype = .FORMAT_VideoInfo ∧
      (∃ rest, mt.pbFormat = VIDEOINFO.make pin.m_nWidth pin.m_nHeight 32 pin.m_nImageSize ++ rest) ∧
      (mt.IsFixedSize = true ↔ pin.m_nImageSize ≠ 0) ∧
      (pin.m_nImageSize ≠ 0 → mt.lSampleSize = pin.m_nImageSize.toBitVec) := by
  unfold GetMediaType at h
  split at h
  · cases h
  · split at h
    · cases h
    · split at h
      · cases h
      · rename_i mt0 halloc
        have hlen := CMediaType.AllocFormatBuffer_length halloc
        have hzero : pin.m_nImageSize.toBitVec = 0 ↔ pin.m_nImageSize = 0 :=
          ⟨fun h0 => Int32.toBitVec_inj.1 h0, fun h0 => by rw [h0]; rfl⟩
        simp only [Prod.mk.injEq, and_true] at h
        subst h
        unfold CMediaType.SetSampleSize CMediaType.SetVariableSize
        split
        · rename_i h0
          have h0' := hzero.1 h0
          exact ⟨rfl, rfl, rfl, ⟨_, rfl⟩, by simp [CMediaType.IsFixedSize, h0'], fun hne => absurd h0' hne⟩
        · rename_i h0
          have h0' : pin.m_nImageSize ≠ 0 := fun hz => h0 (hzero.2 hz)
          exact ⟨rfl, rfl, rfl, ⟨_, rfl⟩, by simp [CMediaType.IsFixedSize, h0'], fun _ => rfl⟩

/-! ## The pin accepts the type it offers -/

theorem CheckMediaType_offered (h : pin.GetMediaType CoTaskMemAlloc 0 pmt = (mt, NOERROR)) :
    pin.CheckMediaType mt = some S_OK ↔ mt.IsFixedSize = true := by
  obtain ⟨hmajor, hsub, hformat, ⟨rest, hblock⟩, -, -⟩ := GetMediaType_ok h
  obtain ⟨hw, hh, hn, -⟩ := VIDEOINFO.make_fields pin.m_nWidth pin.m_nHeight 32 pin.m_nImageSize rest
  rw [← hblock] at hw hh hn
  have hne : mt.pbFormat ≠ [] := by
    intro hnil
    rw [hnil] at hn
    cases hn
  cases hb : mt.IsFixedSize with
  | false => simp [CheckMediaType, hb]
  | true => simp [CheckMediaType, hb, hmajor, hsub, hformat, hne, hw, hh, hn]

/-- The offered type passes the pin's own check exactly when there is an image. -/
theorem offered_type_accepted_iff (h : pin.GetMediaType CoTaskMemAlloc 0 pmt = (mt, NOERROR)) :
    pin.CheckMediaType mt = some S_OK ↔ pin.m_nImageSize ≠ 0 := by
  obtain ⟨-, -, -, -, hfixed, -⟩ := GetMediaType_ok h
  rw [CheckMediaType_offered h, hfixed]

/-- The type that a pin with three bitmaps of two pixels offers. -/
def equalOffer : CMediaType := (equalFiles.1.GetMediaType (some fun _ => 0xCC) 0 .InitMediaType).1

theorem offered_type_accepted_two_pixels :
    equalFiles.1.CheckMediaType equalOffer = some S_OK ↔ equalFiles.1.m_nImageSize ≠ 0 :=
  @offered_type_accepted_iff equalFiles.1 (some fun _ => 0xCC) .InitMediaType equalOffer (Prod.ext rfl (by decide))

/-! ## The offered type and the picture data -/

theorem LoadBitmapFileToMemory_size {env : LoadEnv} {w h n w' h' n' : LONG} {p : Option Block}
    (hl : LoadBitmapFileToMemory env w h n = some (p, w', h', n')) :
    w' = (env.LoadImage.map BITMAP.bmWidth).getD w ∧ h' = (env.LoadImage.map BITMAP.bmHeight).getD h := by
  unfold LoadBitmapFileToMemory at hl
  split at hl
  · rename_i hnone
    cases hl
    rw [hnone]
    exact ⟨rfl, rfl⟩
  · rename_i bmp hsome
    rw [hsome]
    split at hl
    · cases hl
    · split at hl <;> cases hl
      exact ⟨rfl, rfl⟩

/-- `bmp` is the bitmap of file `i`, and no later file could be loaded. -/
structure LastLoaded (files : Fin 3 → LoadEnv) (i : Fin 3) (bmp : BITMAP) : Prop where
  loaded : (files i).LoadImage = some bmp
  last : ∀ j, i < j → (files j).LoadImage = none

variable {files : Fin 3 → LoadEnv} {i : Fin 3} {bmp : BITMAP}

theorem LastLoaded.lastSize (h : LastLoaded files i bmp) : lastSize files = bmp.size := by
  unfold CMyOutputPin.lastSize
  obtain rfl | rfl | rfl : i = 0 ∨ i = 1 ∨ i = 2 := by omega
  · simp [h.loaded, h.last 1 (by decide), h.last 2 (by decide)]
  · simp [h.loaded, h.last 2 (by decide)]
  · simp [h.loaded]

/-- Width and height are those of the last bitmap that could be loaded. -/
theorem LastLoaded.geometry (h : LastLoaded files i bmp) (hnew : new files = some pin) :
    pin.m_nWidth = bmp.bmWidth ∧ pin.m_nHeight = bmp.bmHeight := by
  simp only [new, Option.bind_eq_bind, Option.bind_eq_some_iff] at hnew
  obtain ⟨⟨p0, w0, h0, n0⟩, hl0, ⟨p1, w1, h1, n1⟩, hl1, ⟨p2, w2, h2, n2⟩, hl2, hnew⟩ := hnew
  cases hnew
  have hs0 := LoadBitmapFileToMemory_size hl0
  have hs1 := LoadBitmapFileToMemory_size hl1
  have hs2 := LoadBitmapFileToMemory_size hl2
  obtain rfl | rfl | rfl : i = 0 ∨ i = 1 ∨ i = 2 := by omega
  · rw [h.loaded] at hs0
    rw [h.last 1 (by decide)] at hs1
    rw [h.last 2 (by decide)] at hs2
    exact ⟨hs2.1.trans (hs1.1.trans hs0.1), hs2.2.trans (hs1.2.trans hs0.2)⟩
  · rw [h.loaded] at hs1
    rw [h.last 2 (by decide)] at hs2
    exact ⟨hs2.1.trans hs1.1, hs2.2.trans hs1.2⟩
  · rw [h.loaded] at hs2
    exact hs2

/-- A row of `bmWidth` pixels of `bmBitsPixel` bits, in words of 32 bits. -/
def rowWords (bmp : BITMAP) : Int := (bmp.bmWidth.toInt * bmp.bmBitsPixel.toNat + 31) / 32

/-- The two sizes in the type, and the length of the image, are those of 32-bit
pixels in the type's width and height. -/
def DescribesImage (mt : CMediaType) (image : Block) : Prop :=
  ∃ biWidth biHeight biSizeImage : LONG, VIDEOINFOHEADER.biWidth mt.pbFormat = some biWidth ∧
    VIDEOINFOHEADER.biHeight mt.pbFormat = some biHeight ∧
    VIDEOINFOHEADER.biSizeImage mt.pbFormat = some biSizeImage ∧
    biSizeImage.toInt = 4 * biWidth.toInt * biHeight.toInt ∧
    (mt.lSampleSize.toNat : Int) = 4 * biWidth.toInt * biHeight.toInt ∧
    (image.bytes.length : Int) = 4 * biWidth.toInt * biHeight.toInt

/-- Rows of as many words as pixels, in all less than a `LONG` holds. The size is
a product of words: rows that are longer by a multiple of `2 ^ 30` words in all
give it too. -/
def FourBytesPerPixel (bmp : BITMAP) : Prop :=
  4 * bmp.bmWidth.toInt * bmp.bmHeight.toInt < 2 ^ 31 ∧
    (2 ^ 30 : Int) ∣ (rowWords bmp - bmp.bmWidth.toInt) * bmp.bmHeight.toInt

theorem size_eq_iff (hw : 0 < bmp.bmWidth.toInt) (hh : 0 < bmp.bmHeight.toInt)
    (halign : bmp.bmWidthBytes.toInt = 4 * rowWords bmp) :
    bmp.size.toInt = 4 * bmp.bmWidth.toInt * bmp.bmHeight.toInt ↔ FourBytesPerPixel bmp := by
  have hpos : 0 < bmp.bmWidth.toInt * bmp.bmHeight.toInt := Int.mul_pos hw hh
  have hsize : bmp.size.toInt = (4 * rowWords bmp * bmp.bmHeight.toInt).bmod (2 ^ 32) := by
    rw [BITMAP.size, Int32.toInt_mul, halign]
  have hdiff : 4 * rowWords bmp * bmp.bmHeight.toInt - 4 * bmp.bmWidth.toInt * bmp.bmHeight.toInt =
      4 * ((rowWords bmp - bmp.bmWidth.toInt) * bmp.bmHeight.toInt) := by ring
  unfold FourBytesPerPixel
  constructor
  · intro h
    have hlt := bmp.size.toInt_lt
    refine ⟨by omega, ?_⟩
    have hdvd := Int.dvd_self_sub_of_bmod_eq (hsize.symm.trans h)
    rw [hdiff] at hdvd
    omega
  · rintro ⟨hlt, k, hk⟩
    rw [hk] at hdiff
    have hprod : 4 * rowWords bmp * bmp.bmHeight.toInt =
        4 * bmp.bmWidth.toInt * bmp.bmHeight.toInt + ((2 ^ 32 : Nat) : Int) * k := by omega
    have hassoc : 4 * bmp.bmWidth.toInt * bmp.bmHeight.toInt = 4 * (bmp.bmWidth.toInt * bmp.bmHeight.toInt) := by ring
    rw [hsize, hprod, Int.add_mul_bmod_self_left]
    exact Word.bmod_exact (by omega) hlt

/-- Up to 64 bits per pixel, the rows themselves must have as many words as pixels. -/
theorem FourBytesPerPixel_iff (hw : 0 < bmp.bmWidth.toInt) (hh : 0 < bmp.bmHeight.toInt)
    (hbits : bmp.bmBitsPixel.toNat ≤ 64) :
    FourBytesPerPixel bmp ↔ 4 * bmp.bmWidth.toInt * bmp.bmHeight.toInt < 2 ^ 31 ∧
      32 * (bmp.bmWidth.toInt - 1) < bmp.bmWidth.toInt * bmp.bmBitsPixel.toNat ∧
      bmp.bmWidth.toInt * bmp.bmBitsPixel.toNat ≤ 32 * bmp.bmWidth.toInt := by
  have hq0 : 0 ≤ bmp.bmWidth.toInt * (bmp.bmBitsPixel.toNat : Int) := Int.mul_nonneg hw.le (Int.natCast_nonneg _)
  have hq : bmp.bmWidth.toInt * (bmp.bmBitsPixel.toNat : Int) ≤ bmp.bmWidth.toInt * 64 :=
    Int.mul_le_mul_of_nonneg_left (by exact_mod_cast hbits) hw.le
  unfold FourBytesPerPixel rowWords
  generalize bmp.bmWidth.toInt * (bmp.bmBitsPixel.toNat : Int) = q at hq0 hq ⊢
  refine and_congr_right fun hlt => ?_
  have hrow : (q + 31) / 32 = bmp.bmWidth.toInt ↔ 32 * (bmp.bmWidth.toInt - 1) < q ∧ q ≤ 32 * bmp.bmWidth.toInt := by
    omega
  rw [← hrow]
  constructor
  · intro hdvd
    -- A row is at most twice as long as it should be, so the difference is less than `2 ^ 30`.
    have habs : |((q + 31) / 32 - bmp.bmWidth.toInt) * bmp.bmHeight.toInt| < 2 ^ 30 := by
      rw [abs_lt]
      constructor <;> nlinarith [show (q + 31) / 32 ≤ 2 * bmp.bmWidth.toInt by omega, show 0 ≤ (q + 31) / 32 by omega]
    have hzero := Int.eq_zero_of_abs_lt_dvd hdvd habs
    rcases Int.mul_eq_zero.1 hzero with h0 | h0 <;> omega
  · intro h
    rw [h, Int.sub_self, Int.zero_mul]
    exact Int.dvd_zero _

/-- The type that is offered and accepted describes the image of the last bitmap
exactly when the bitmap has four bytes per pixel. -/
theorem type_describes_image_iff (hnew : new files = some pin) (hlast : LastLoaded files i bmp)
    (hw : 0 < bmp.bmWidth.toInt) (hh : 0 < bmp.bmHeight.toInt) (halign : bmp.bmWidthBytes.toInt = 4 * rowWords bmp)
    (hget : pin.GetMediaType CoTaskMemAlloc 0 pmt = (mt, NOERROR)) (hcheck : pin.CheckMediaType mt = some S_OK) :
    ∃ image, pin.image i = some image ∧ (DescribesImage mt image ↔ FourBytesPerPixel bmp) := by
  obtain ⟨-, hsize, himages, hpos⟩ := new_ok hnew
  obtain ⟨hwidth, hheight⟩ := hlast.geometry hnew
  rw [hlast.lastSize] at hsize
  have himage := himages i
  rw [hlast.loaded] at himage
  obtain ⟨image, hdata, hbits⟩ := Option.map_eq_some_iff.1 himage
  have hnonneg : 0 ≤ bmp.size.toInt := hpos i bmp hlast.loaded
  have hlen : (image.bytes.length : Int) = bmp.size.toInt := by
    rw [hbits, LoadEnv.bits_length]
    omega
  obtain ⟨-, -, -, ⟨rest, hblock⟩, hfixed, hsample⟩ := GetMediaType_ok hget
  have hne : pin.m_nImageSize ≠ 0 := hfixed.1 ((CheckMediaType_offered hget).1 hcheck)
  have hlSampleSize : (mt.lSampleSize.toNat : Int) = bmp.size.toInt := by
    rw [hsample hne, hsize]
    exact Word.toNat_toBitVec hnonneg
  obtain ⟨hw', hh', -, hs'⟩ := VIDEOINFO.make_fields pin.m_nWidth pin.m_nHeight 32 pin.m_nImageSize rest
  rw [← hblock] at hw' hh' hs'
  rw [hwidth] at hw'
  rw [hheight] at hh'
  rw [hsize] at hs'
  refine ⟨image, hdata, Iff.trans ?_ (size_eq_iff hw hh halign)⟩
  constructor
  · rintro ⟨biWidth, biHeight, biSizeImage, h1, h2, h3, h4, -, -⟩
    cases Option.some_inj.1 (hw'.symm.trans h1)
    cases Option.some_inj.1 (hh'.symm.trans h2)
    cases Option.some_inj.1 (hs'.symm.trans h3)
    exact h4
  · intro h
    exact ⟨_, _, _, hw', hh', hs', h, hlSampleSize.trans h, hlen.trans h⟩

theorem type_describes_two_pixels :
    ∃ image, equalFiles.1.image 2 = some image ∧
      (DescribesImage equalOffer image ↔ FourBytesPerPixel ⟨2, 1, 8, 32⟩) :=
  @type_describes_image_iff equalFiles.1 (some fun _ => 0xCC) .InitMediaType equalOffer (fun _ => row32 2) 2
    ⟨2, 1, 8, 32⟩ (firstDelivery_ok (by decide)).1 ⟨rfl, fun j hj => absurd hj (by omega)⟩ (by decide) (by decide)
    (by decide) (Prod.ext rfl (by decide)) (by decide)

/-- Bitmaps with one row of four pixels of 24 bits. -/
def row24 (_ : Fin 3) : LoadEnv where
  LoadImage := some ⟨4, 1, 12, 24⟩
  newBytes := some 0x1000
  GetDIBits _ _ _ k := UInt8.ofNat k

def row24Pin : CMyOutputPin := (new row24).get (by decide)

def row24Offer : CMediaType := (row24Pin.GetMediaType (some fun _ => 0xCC) 0 .InitMediaType).1

/-- A type of sixteen bytes per frame, by its width and height, for images of
twelve. -/
theorem row24_misdescribed :
    new row24 = some row24Pin ∧ LastLoaded row24 2 ⟨4, 1, 12, 24⟩ ∧
      row24Pin.GetMediaType (some fun _ => 0xCC) 0 .InitMediaType = (row24Offer, NOERROR) ∧
      row24Pin.CheckMediaType row24Offer = some S_OK ∧
      ∀ image, row24Pin.image 2 = some image → ¬ DescribesImage row24Offer image := by
  refine ⟨(Option.some_get _).symm, ⟨rfl, fun j hj => absurd hj (by omega)⟩, Prod.ext rfl (by decide), by decide, ?_⟩
  rintro image - ⟨biWidth, biHeight, biSizeImage, hw, hh, -, -, hsample, -⟩
  have hw' : VIDEOINFOHEADER.biWidth row24Offer.pbFormat = some 4 := by decide
  have hh' : VIDEOINFOHEADER.biHeight row24Offer.pbFormat = some 1 := by decide
  cases Option.some_inj.1 (hw'.symm.trans hw)
  cases Option.some_inj.1 (hh'.symm.trans hh)
  exact absurd hsample (by decide)

end CMyOutputPin

end FilterSln
