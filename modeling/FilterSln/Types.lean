import Mathlib.Data.BitVec
/-!
# The Windows types of the filters

Result codes, GUIDs and the integer types the source works with. `LONG`,
`DWORD` and the others wrap around as on Win32. A result code or a GUID that the
source does not name is one of the `other` values.
-/

namespace FilterSln

abbrev BYTE := UInt8
abbrev WORD := BitVec 16
abbrev DWORD := BitVec 32
abbrev ULONG := BitVec 32
abbrev LONG := Int32
abbrev LONGLONG := Int64
abbrev REFERENCE_TIME := LONGLONG

/-! ## Result codes -/

inductive HRESULT where
  | S_OK | S_FALSE | VFW_S_NO_MORE_ITEMS | VFW_S_NO_STOP_TIME
  | E_FAIL | E_POINTER | E_INVALIDARG | E_OUTOFMEMORY | E_UNEXPECTED | E_NOTIMPL | E_NOINTERFACE
  | VFW_E_INVALIDMEDIATYPE | VFW_E_ALREADY_CONNECTED | VFW_E_NO_ACCEPTABLE_TYPES
  | VFW_E_INVALID_DIRECTION | VFW_E_NOT_CONNECTED | VFW_E_NO_ALLOCATOR | VFW_E_RUNTIME_ERROR
  | VFW_E_BUFFER_OVERFLOW | VFW_E_BADALIGN | VFW_E_ALREADY_COMMITTED | VFW_E_BUFFERS_OUTSTANDING
  | VFW_E_NOT_COMMITTED | VFW_E_SIZENOTSET | VFW_E_NOT_STOPPED | VFW_E_WRONG_STATE
  | VFW_E_TYPE_NOT_ACCEPTED | VFW_E_TIMEOUT | VFW_E_SAMPLE_TIME_NOT_SET | VFW_E_MEDIA_TIME_NOT_SET
  /-- Any other success code. -/
  | otherSuccess (code : Nat)
  /-- Any other failure code. -/
  | otherFailure (code : Nat)
  deriving DecidableEq, Repr

namespace HRESULT

abbrev NOERROR : HRESULT := S_OK

def SUCCEEDED : HRESULT → Bool
  | S_OK | S_FALSE | VFW_S_NO_MORE_ITEMS | VFW_S_NO_STOP_TIME | otherSuccess _ => true
  | _ => false

def FAILED (hr : HRESULT) : Bool := !hr.SUCCEEDED

@[simp] theorem FAILED_S_OK : S_OK.FAILED = false := rfl

theorem SUCCEEDED_of_not_FAILED {hr : HRESULT} (h : ¬ hr.FAILED = true) : hr.SUCCEEDED = true := by
  simpa [FAILED] using h

end HRESULT

/-! ## GUIDs -/

inductive GUID where
  | GUID_NULL
  | MEDIATYPE_Video
  | MEDIASUBTYPE_RGB24 | MEDIASUBTYPE_RGB32 | MEDIASUBTYPE_YUY2
  | FORMAT_VideoInfo
  | other (data : Nat)
  deriving DecidableEq, Repr

inductive PIN_DIRECTION where
  | PINDIR_INPUT | PINDIR_OUTPUT
  deriving DecidableEq, Repr

inductive FILTER_STATE where
  | State_Stopped | State_Paused | State_Running
  deriving DecidableEq, Repr

/-! ## Memory blocks -/

/-- A block of memory at `addr`. Its length is the value of a `LONG`. -/
structure Block where
  addr : Nat
  bytes : List BYTE
  fits : bytes.length < 2 ^ 31

namespace Block

/-- The length of the block, as the code sees it. -/
def size (b : Block) : LONG := Int32.ofNat b.bytes.length

@[simp] theorem size_toInt (b : Block) : b.size.toInt = b.bytes.length :=
  Int32.toInt_ofNat_of_lt b.fits

/-- `n` bytes with the value `b`. -/
def filled (n : Nat) (b : BYTE) (h : n < 2 ^ 31) : Block := ⟨0, List.replicate n b, by simpa using h⟩

/-- Sixteen bytes with the value `b`. -/
def sixteen (b : BYTE) : Block := filled 16 b (by decide)

/-- A block without bytes, which is all that can be read through a null pointer. -/
def empty : Block := ⟨0, [], by decide⟩

/-- The block with other content of the same length. -/
def write (b : Block) (bytes : List BYTE) (h : bytes.length = b.bytes.length) : Block :=
  ⟨b.addr, bytes, h ▸ b.fits⟩

@[simp] theorem write_bytes (b : Block) (bytes : List BYTE) (h : bytes.length = b.bytes.length) :
    (b.write bytes h).bytes = bytes := rfl

/-- The block after `ZeroMemory`. -/
def zero (b : Block) : Block := b.write (List.replicate b.bytes.length 0) (by simp)

@[simp] theorem write_size (b : Block) (bytes : List BYTE) (h : bytes.length = b.bytes.length) :
    (b.write bytes h).size = b.size := by
  simp [size, h]

end Block

end FilterSln
