import FilterSln.Allocator
/-!
# The pins of a transform filter

The state of a `CTransformFilter` (`transfrm.h`) with its two pins
(`amfilter.h`), over a type `α` of allocators, and what a pin asks of the pin
on the other side of a connection (`IPin`).

An allocator is a value: the calls of a pin act on the pin's own. What the
other filter does to an allocator it shares is an operation of its own in
`FilterSln.Connect`. The interface pointer of the connected pin is only ever
tested for null, so `m_Connected` is a boolean. `m_bCanReconnectWhenActive` and
`m_bTryMyTypesFirst` are false in every pin of these filters.
-/

namespace FilterSln

open HRESULT

/-! ## State -/

structure CTransformInputPin (α : Type) where
  m_Connected : Bool
  m_mt : CMediaType
  m_bRunTimeError : Bool
  m_bFlushing : Bool
  m_pAllocator : Option α
  m_SampleProps : AM_SAMPLE2_PROPERTIES

structure CTransformOutputPin (α : Type) where
  m_Connected : Bool
  m_mt : CMediaType
  m_pAllocator : Option α
  m_pInputPin : Bool

structure CTransformFilter (α : Type) where
  m_State : FILTER_STATE
  m_pInput : CTransformInputPin α
  m_pOutput : CTransformOutputPin α
  m_bSampleSkipped : Bool

variable {α : Type}

namespace CTransformFilter

/-- A filter whose pins have just been created. -/
def new : CTransformFilter α where
  m_State := .State_Stopped
  m_pInput := ⟨false, .InitMediaType, false, false, none, .zero⟩
  m_pOutput := ⟨false, .InitMediaType, none, false⟩
  m_bSampleSkipped := false

def IsStopped (f : CTransformFilter α) : Bool := f.m_State = .State_Stopped

/-- `IsConnected` of a pin. -/
def IsConnected (f : CTransformFilter α) : PIN_DIRECTION → Bool
  | .PINDIR_INPUT => f.m_pInput.m_Connected
  | .PINDIR_OUTPUT => f.m_pOutput.m_Connected

/-- `m_Connected` of a pin assigned. -/
def connect (f : CTransformFilter α) (dir : PIN_DIRECTION) (b : Bool) : CTransformFilter α :=
  match dir with
  | .PINDIR_INPUT => { f with m_pInput := { f.m_pInput with m_Connected := b } }
  | .PINDIR_OUTPUT => { f with m_pOutput := { f.m_pOutput with m_Connected := b } }

/-- `CurrentMediaType` of a pin. -/
def CurrentMediaType (f : CTransformFilter α) : PIN_DIRECTION → CMediaType
  | .PINDIR_INPUT => f.m_pInput.m_mt
  | .PINDIR_OUTPUT => f.m_pOutput.m_mt

/-- `m_mt` of a pin assigned. -/
def putMediaType (f : CTransformFilter α) (dir : PIN_DIRECTION) (mt : CMediaType) : CTransformFilter α :=
  match dir with
  | .PINDIR_INPUT => { f with m_pInput := { f.m_pInput with m_mt := mt } }
  | .PINDIR_OUTPUT => { f with m_pOutput := { f.m_pOutput with m_mt := mt } }

end CTransformFilter

/-! ## The pin on the other side -/

/-- The types an enumerator of a pin delivers, after the result of its `Reset`. -/
structure IEnumMediaTypes where
  Reset : HRESULT
  types : List CMediaType

/-- The answers of a pin `P` to the pin that connects to it, as `IPin` and as
`IMemInputPin`. `ReceiveConnection` is `none` when the call does not return. -/
class IPin (P : Type) (α : outParam Type) where
  QueryDirection : P → PIN_DIRECTION
  QueryMemInputPin : P → HRESULT
  EnumMediaTypes : P → Except HRESULT IEnumMediaTypes
  ReceiveConnection : P → CMediaType → Option (P × HRESULT)
  Disconnect : P → P
  GetAllocatorRequirements : P → ALLOCATOR_PROPERTIES
  GetAllocator : P → P × HRESULT × Option α
  NotifyAllocator : P → α → P × HRESULT

/-- A pin that gives the same answers whenever it is asked. -/
structure Answers (α : Type) where
  QueryDirection : PIN_DIRECTION
  QueryMemInputPin : HRESULT
  EnumMediaTypes : Except HRESULT IEnumMediaTypes
  ReceiveConnection : HRESULT
  GetAllocatorRequirements : ALLOCATOR_PROPERTIES
  GetAllocator : HRESULT × Option α
  NotifyAllocator : HRESULT

instance : IPin (Answers α) α where
  QueryDirection := Answers.QueryDirection
  QueryMemInputPin := Answers.QueryMemInputPin
  EnumMediaTypes := Answers.EnumMediaTypes
  ReceiveConnection p _ := some (p, p.ReceiveConnection)
  Disconnect p := p
  GetAllocatorRequirements := Answers.GetAllocatorRequirements
  GetAllocator p := (p, p.GetAllocator)
  NotifyAllocator p _ := (p, p.NotifyAllocator)

/-- The output pin of a source, which only asks for a connection. -/
def sourcePin : Answers CMemAllocator where
  QueryDirection := .PINDIR_OUTPUT
  QueryMemInputPin := E_NOINTERFACE
  EnumMediaTypes := .error E_NOTIMPL
  ReceiveConnection := E_UNEXPECTED
  GetAllocatorRequirements := .zero
  GetAllocator := (E_NOTIMPL, none)
  NotifyAllocator := E_NOTIMPL

/-- The input pin of a renderer that takes any type and has an allocator. -/
def rendererPin : Answers CMemAllocator where
  QueryDirection := .PINDIR_INPUT
  QueryMemInputPin := S_OK
  EnumMediaTypes := .error E_NOTIMPL
  ReceiveConnection := S_OK
  GetAllocatorRequirements := .zero
  GetAllocator := (S_OK, some (.new 0x10000))
  NotifyAllocator := S_OK

end FilterSln
