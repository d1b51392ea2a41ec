import FilterSln.MediaSample
import FilterSln.Lib.Runs
import Mathlib.Tactic.Common
/-!
# The memory allocator

`CMemAllocator` of `amfilter.cpp`, and the pool it makes up together with the
samples it has handed out (`Pool`). The allocator owns the samples on its free
list; a sample that `GetBuffer` hands out belongs to its holders until the last
of them releases it.

`Pool.Inv` holds in every reachable pool. What the filters rely on is
`Pool.GetBuffer_size`: the samples of a committed allocator have the size that
was agreed last.

Waiting in `GetBuffer` is an event that cannot happen yet, so the semaphore and
the count of waiting threads are left out.
-/

namespace FilterSln

open HRESULT

structure ALLOCATOR_PROPERTIES where
  cBuffers : LONG
  cbBuffer : LONG
  cbAlign : LONG
  cbPrefix : LONG
  deriving DecidableEq

/-- The properties after `ZeroMemory`. -/
def ALLOCATOR_PROPERTIES.zero : ALLOCATOR_PROPERTIES := ⟨0, 0, 0, 0⟩

/-- The calls the pins make on an allocator. `Env` is what the system answers
when memory is committed. -/
class IMemAllocator (α : Type) (Env : outParam Type) where
  SetProperties : α → ALLOCATOR_PROPERTIES → α × HRESULT × ALLOCATOR_PROPERTIES
  Commit : α → Env → α × HRESULT
  Decommit : α → α × HRESULT

structure CMemAllocator where
  m_lFree : List FreeSample
  m_lAllocated : Nat
  m_lCount : LONG
  m_lSize : LONG
  m_lAlignment : LONG
  m_lPrefix : LONG
  m_bChanged : Bool
  m_bCommitted : Bool
  m_bDecommitInProgress : Bool
  /-- `SysInfo.dwAllocationGranularity` of the machine. -/
  dwAllocationGranularity : DWORD

/-- The address that `VirtualAlloc` returns, for how many samples `new` finds
memory, and the bytes their constructors find in their time fields. -/
structure AllocEnv where
  VirtualAlloc : Option Nat
  newSamples : Nat
  raw : Nat → RawTimes

/-- Memory at an address, with times that nobody has set. -/
def someMemory : AllocEnv := ⟨some 0x10000, 0x7FFFFFFF, fun _ => ⟨0, 0, 0, 0⟩⟩

def AM_GBF_NOWAIT : DWORD := 4

namespace CMemAllocator

/-- The constructor. -/
def new (dwAllocationGranularity : DWORD) : CMemAllocator where
  m_lFree := []
  m_lAllocated := 0
  m_lCount := 0
  m_lSize := 0
  m_lAlignment := 0
  m_lPrefix := 0
  m_bChanged := false
  m_bCommitted := false
  m_bDecommitInProgress := false
  dwAllocationGranularity := dwAllocationGranularity

/-- The buffer size for a request: the request with its prefix rounded up to
the alignment, less the prefix. -/
def roundedSize (pRequest : ALLOCATOR_PROPERTIES) : LONG :=
  let lSize := pRequest.cbBuffer + pRequest.cbPrefix
  let lRemainder := lSize % pRequest.cbAlign
  let lSize := if lRemainder ≠ 0 then lSize - lRemainder + pRequest.cbAlign else lSize
  lSize - pRequest.cbPrefix

def SetProperties (a : CMemAllocator) (pRequest : ALLOCATOR_PROPERTIES) :
    CMemAllocator × HRESULT × ALLOCATOR_PROPERTIES :=
  if pRequest.cbAlign = 0 ∨ a.dwAllocationGranularity &&& (pRequest.cbAlign - 1).toBitVec ≠ 0 then
    (a, VFW_E_BADALIGN, .zero)
  else if a.m_bCommitted then (a, VFW_E_ALREADY_COMMITTED, .zero)
  else if a.m_lFree.length < a.m_lAllocated then (a, VFW_E_BUFFERS_OUTSTANDING, .zero)
  else
    let pActual := { pRequest with cbBuffer := roundedSize pRequest }
    ({ a with
        m_lSize := pActual.cbBuffer
        m_lCount := pActual.cBuffers
        m_lAlignment := pActual.cbAlign
        m_lPrefix := pActual.cbPrefix
        m_bChanged := true }, NOERROR, pActual)

/-- `CBaseAllocator::Alloc`. -/
def baseAlloc (a : CMemAllocator) : HRESULT :=
  if a.m_lCount ≤ 0 ∨ a.m_lSize ≤ 0 ∨ a.m_lAlignment ≤ 0 then VFW_E_SIZENOTSET
  else if !a.m_bChanged then S_FALSE
  else NOERROR

def ReallyFree (a : CMemAllocator) : CMemAllocator := { a with m_lFree := [], m_lAllocated := 0 }

/-- Prefix and buffer together, rounded up to the alignment; `none` when that
overflows. -/
def alignedSize (a : CMemAllocator) : Option LONG :=
  let lAlignedSize := a.m_lSize + a.m_lPrefix
  if lAlignedSize < a.m_lSize then none
  else if a.m_lAlignment > 1 then
    let lRemainder := lAlignedSize % a.m_lAlignment
    if lRemainder ≠ 0 then
      let lNewSize := lAlignedSize + a.m_lAlignment - lRemainder
      if lNewSize < lAlignedSize then none else some lNewSize
    else some lAlignedSize
  else some lAlignedSize

theorem toNat_lt (n : LONG) : n.toInt.toNat < 2 ^ 31 := by
  have := n.toInt_lt
  omega

/-- The `i`-th sample of a freshly committed allocator. `VirtualAlloc` clears
the memory. -/
def newSample (a : CMemAllocator) (env : AllocEnv) (m_pBuffer : Nat) (lAlignedSize : LONG) (i : Nat) :
    FreeSample :=
  ⟨.new (env.raw i)
    { addr := m_pBuffer + i * lAlignedSize.toInt.toNat + a.m_lPrefix.toInt.toNat
      bytes := List.replicate a.m_lSize.toInt.toNat 0
      fits := by rw [List.length_replicate]; exact toNat_lt _ }, rfl, rfl, rfl⟩

def Alloc (a : CMemAllocator) (env : AllocEnv) : CMemAllocator × HRESULT :=
  let hr := a.baseAlloc
  if hr.FAILED then (a, hr)
  else if hr = S_FALSE then (a, NOERROR)
  else
    let a := a.ReallyFree
    if a.m_lSize < 0 ∨ a.m_lPrefix < 0 ∨ a.m_lCount < 0 then (a, E_OUTOFMEMORY)
    else
      match a.alignedSize with
      | none => (a, E_OUTOFMEMORY)
      | some lAlignedSize =>
        let lToAllocate : LONGLONG := a.m_lCount.toInt64 * lAlignedSize.toInt64
        if lToAllocate > 0x7FFFFFFF then (a, E_OUTOFMEMORY)
        else
          match env.VirtualAlloc with
          | none => (a, E_OUTOFMEMORY)
          | some m_pBuffer =>
            let m_lAllocated := min env.newSamples a.m_lCount.toInt.toNat
            -- Every new sample goes to the head of the free list.
            let m_lFree := ((List.range m_lAllocated).map (a.newSample env m_pBuffer lAlignedSize)).reverse
            let a := { a with m_lFree, m_lAllocated }
            -- The samples made so far stay where they are when `new` fails for one.
            if m_lAllocated < a.m_lCount.toInt.toNat then (a, E_OUTOFMEMORY)
            else ({ a with m_bChanged := false }, NOERROR)

def Commit (a : CMemAllocator) (env : AllocEnv) : CMemAllocator × HRESULT :=
  if a.m_bCommitted then (a, NOERROR)
  else if a.m_bDecommitInProgress then
    ({ a with m_bCommitted := true, m_bDecommitInProgress := false }, NOERROR)
  else
    let (a, hr) := a.Alloc env
    if hr.FAILED then (a, hr) else ({ a with m_bCommitted := true }, NOERROR)

def Decommit (a : CMemAllocator) : CMemAllocator × HRESULT :=
  if !a.m_bCommitted ∧ !a.m_bDecommitInProgress then (a, NOERROR)
  else
    -- `Free` keeps the memory for the next `Commit`.
    ({ a with
        m_bCommitted := false
        m_bDecommitInProgress := decide (a.m_lFree.length < a.m_lAllocated) }, NOERROR)

/-- `none` while the call waits for a sample to come back. -/
def GetBuffer (a : CMemAllocator) (dwFlags : DWORD) : Option (CMemAllocator × Except HRESULT CMediaSample) :=
  if !a.m_bCommitted then some (a, .error VFW_E_NOT_COMMITTED)
  else
    match a.m_lFree with
    | pSample :: m_lFree => some ({ a with m_lFree }, .ok pSample.1.AddRef)
    | [] => if dwFlags &&& AM_GBF_NOWAIT ≠ 0 then some (a, .error VFW_E_TIMEOUT) else none

def ReleaseBuffer (a : CMemAllocator) (pSample : FreeSample) : CMemAllocator :=
  let a := { a with m_lFree := pSample :: a.m_lFree }
  if a.m_bDecommitInProgress ∧ a.m_lFree.length = a.m_lAllocated then
    { a with m_bDecommitInProgress := false }
  else a

instance : IMemAllocator CMemAllocator AllocEnv where
  SetProperties := SetProperties
  Commit := Commit
  Decommit := Decommit

/-! ## One lemma per call -/

theorem SetProperties_ok {a a' : CMemAllocator} {req act : ALLOCATOR_PROPERTIES} {hr : HRESULT}
    (h : a.SetProperties req = (a', hr, act)) (hr0 : hr.SUCCEEDED = true) :
    a.m_bCommitted = false ∧ a.m_lAllocated ≤ a.m_lFree.length ∧
      act = { req with cbBuffer := roundedSize req } ∧ a'.m_lSize = act.cbBuffer ∧
      a' = { a with
              m_lSize := act.cbBuffer, m_lCount := act.cBuffers, m_lAlignment := act.cbAlign
              m_lPrefix := act.cbPrefix, m_bChanged := true } := by
  unfold SetProperties at h
  split at h
  · cases h; cases hr0
  · split at h
    · cases h; cases hr0
    · split at h
      · cases h; cases hr0
      · rename_i hc hf
        cases h
        exact ⟨by simpa using hc, by omega, rfl, rfl, rfl⟩

theorem SetProperties_failed {a a' : CMemAllocator} {req act : ALLOCATOR_PROPERTIES} {hr : HRESULT}
    (h : a.SetProperties req = (a', hr, act)) (hr0 : hr.SUCCEEDED = false) : a' = a := by
  unfold SetProperties at h
  split at h
  · cases h; rfl
  · split at h
    · cases h; rfl
    · split at h
      · cases h; rfl
      · cases h; cases hr0

@[simp] theorem newSample_size (a : CMemAllocator) (env : AllocEnv) (p : Nat) (l : LONG) (i : Nat) (h : 0 ≤ a.m_lSize.toInt) :
    (a.newSample env p l i).1.m_cbBuffer = a.m_lSize := by
  apply Int32.toInt_inj.1
  rw [CMediaSample.m_cbBuffer, Block.size_toInt]
  simp only [newSample, CMediaSample.new, List.length_replicate]
  omega

/-- What `Alloc` leaves: the allocator as it was, an empty one, or one with new
samples. Unless `new` failed for one of them, these are the samples agreed on. -/
theorem Alloc_spec {a a' : CMemAllocator} {env : AllocEnv} {hr : HRESULT} (h : a.Alloc env = (a', hr)) :
    (a' = a ∧ (hr.FAILED = true ∨ a.m_bChanged = false)) ∨
    (a.m_bChanged = true ∧ a' = a.ReallyFree ∧ hr.FAILED = true) ∨
    (0 ≤ a.m_lSize.toInt ∧ ∃ (m_pBuffer : Nat) (lAlignedSize : LONG) (n : Nat) (m_bChanged : Bool),
      (m_bChanged = true → hr.FAILED = true) ∧ a' = { a with
        m_lFree := ((List.range n).map (a.ReallyFree.newSample env m_pBuffer lAlignedSize)).reverse
        m_lAllocated := n
        m_bChanged := m_bChanged }) := by
  have hbase : (a.baseAlloc = VFW_E_SIZENOTSET) ∨ (a.baseAlloc = S_FALSE ∧ a.m_bChanged = false) ∨
      (a.baseAlloc = NOERROR ∧ a.m_bChanged = true ∧ 0 ≤ a.m_lSize.toInt) := by
    unfold baseAlloc
    split
    · exact .inl rfl
    · rename_i hpos
      split
      · rename_i hch
        exact .inr (.inl ⟨rfl, by simpa using hch⟩)
      · rename_i hch
        refine .inr (.inr ⟨rfl, by simpa using hch, ?_⟩)
        simp only [Int32.le_iff_toInt_le, Int32.toInt_zero] at hpos
        omega
  -- `Alloc` looks at the base class's answer first, and frees the old samples only
  -- when it is `NOERROR`.
  rcases hbase with hb | ⟨hb, hch⟩ | ⟨hb, hch, hsize⟩
  · simp only [Alloc, hb, FAILED, SUCCEEDED] at h
    cases h
    exact .inl ⟨rfl, .inl rfl⟩
  · simp only [Alloc, hb, FAILED, SUCCEEDED] at h
    cases h
    exact .inl ⟨rfl, .inr hch⟩
  · right
    simp only [Alloc, hb, FAILED_S_OK, Bool.false_eq_true, if_false] at h
    rw [if_neg (by decide)] at h
    split at h
    · cases h; exact .inl ⟨hch, rfl, rfl⟩
    · split at h
      · cases h; exact .inl ⟨hch, rfl, rfl⟩
      · split at h
        · cases h; exact .inl ⟨hch, rfl, rfl⟩
        · split at h
          · cases h; exact .inl ⟨hch, rfl, rfl⟩
          · rename_i lAlignedSize _ _ _ m_pBuffer _
            split at h
            · cases h
              exact .inr ⟨hsize, m_pBuffer, lAlignedSize, _, a.m_bChanged, fun _ => rfl, rfl⟩
            · cases h
              exact .inr ⟨hsize, m_pBuffer, lAlignedSize, _, false, fun h => absurd h Bool.false_ne_true, rfl⟩

/-- The samples that `Alloc` makes all have the agreed size. -/
theorem Alloc_cases {a a' : CMemAllocator} {env : AllocEnv} {hr : HRESULT} (h : a.Alloc env = (a', hr)) :
    (a' = a ∧ (hr.FAILED = true ∨ a.m_bChanged = false)) ∨
    (a.m_bChanged = true ∧ a' = a.ReallyFree ∧ hr.FAILED = true) ∨
    (∃ (free : List FreeSample) (m_bChanged : Bool), (∀ s ∈ free, s.1.m_cbBuffer = a.m_lSize) ∧
      (m_bChanged = true → hr.FAILED = true) ∧
      a' = { a with m_lFree := free, m_lAllocated := free.length, m_bChanged := m_bChanged }) := by
  rcases Alloc_spec h with h1 | h2 | ⟨hsize, m_pBuffer, lAlignedSize, n, m_bChanged, hch, rfl⟩
  · exact .inl h1
  · exact .inr (.inl h2)
  · refine .inr (.inr ⟨((List.range n).map (a.ReallyFree.newSample env m_pBuffer lAlignedSize)).reverse, m_bChanged,
      ?_, hch, by simp⟩)
    intro s hs
    simp only [List.mem_reverse, List.mem_map] at hs
    obtain ⟨i, -, rfl⟩ := hs
    exact newSample_size _ _ _ _ _ hsize

/-- What `GetBuffer` hands out is a sample of the free list with one reference. -/
theorem GetBuffer_ok {a a' : CMemAllocator} {dwFlags : DWORD} {s : CMediaSample}
    (h : a.GetBuffer dwFlags = some (a', .ok s)) :
    ∃ (f : FreeSample) (rest : List FreeSample), a.m_bCommitted = true ∧ a.m_lFree = f :: rest ∧ s = f.1.AddRef ∧
      a' = { a with m_lFree := rest } := by
  unfold GetBuffer at h
  split at h
  · cases h
  · rename_i hc
    split at h
    · rename_i f rest hfree
      cases h
      exact ⟨f, rest, by simpa using hc, hfree, rfl, rfl⟩
    · split at h <;> cases h

theorem GetBuffer_error {a a' : CMemAllocator} {dwFlags : DWORD} {hr : HRESULT}
    (h : a.GetBuffer dwFlags = some (a', .error hr)) : a' = a ∧ (a.m_bCommitted = false ∨ a.m_lFree = []) := by
  unfold GetBuffer at h
  split at h
  · rename_i hc
    cases h
    exact ⟨rfl, .inl (by simpa using hc)⟩
  · split at h
    · cases h
    · rename_i hfree
      split at h <;> cases h
      exact ⟨rfl, .inr hfree⟩

theorem Commit_m_lSize (a : CMemAllocator) (env : AllocEnv) : (a.Commit env).1.m_lSize = a.m_lSize := by
  unfold Commit
  split
  · rfl
  · split
    · rfl
    · rcases hres : a.Alloc env with ⟨a', hr⟩
      have ha : a'.m_lSize = a.m_lSize := by
        rcases Alloc_cases hres with ⟨rfl, -⟩ | ⟨-, rfl, -⟩ | ⟨free, m_bChanged, -, -, rfl⟩ <;> rfl
      dsimp only
      split <;> exact ha

theorem Decommit_m_lSize (a : CMemAllocator) : a.Decommit.1.m_lSize = a.m_lSize := by
  unfold Decommit
  split <;> rfl

end CMemAllocator

/-! ## The pool: the allocator and the samples it has handed out -/

/-- What the holders of a sample do to it: anything that keeps its buffer where
it is and as long as it is. -/
structure Use where
  apply : CMediaSample → CMediaSample
  addr : ∀ s, (apply s).m_pBuffer.addr = s.m_pBuffer.addr
  length : ∀ s, (apply s).m_pBuffer.bytes.length = s.m_pBuffer.bytes.length

theorem Use.size (u : Use) (s : CMediaSample) : (u.apply s).m_cbBuffer = s.m_cbBuffer := by
  simp [CMediaSample.m_cbBuffer, Block.size, u.length]

structure Pool where
  alloc : CMemAllocator
  held : List CMediaSample

namespace Pool

inductive Op where
  | SetProperties (pRequest : ALLOCATOR_PROPERTIES)
  | Commit (env : AllocEnv)
  | Decommit
  | GetBuffer (dwFlags : DWORD)
  | use (i : Nat) (u : Use)
  | Release (i : Nat)

/-- The holder of sample `i` releases it. -/
def release (p : Pool) (i : Nat) : Option Pool := do
  let s ← p.held[i]?
  match s.Release with
  | .held s => some { p with held := p.held.set i s }
  | .final s => some ⟨p.alloc.ReleaseBuffer s, p.held.eraseIdx i⟩

def step (p : Pool) : Op → Option Pool
  | .SetProperties req => some { p with alloc := (p.alloc.SetProperties req).1 }
  | .Commit env => some { p with alloc := (p.alloc.Commit env).1 }
  | .Decommit => some { p with alloc := p.alloc.Decommit.1 }
  | .GetBuffer dwFlags => do
    let (alloc, r) ← p.alloc.GetBuffer dwFlags
    match r with
    | .error _ => some { p with alloc }
    | .ok pSample => some ⟨alloc, pSample :: p.held⟩
  | .use i u => do
    let s ← p.held[i]?
    some { p with held := p.held.set i (u.apply s) }
  | .Release i => p.release i

/-- What holds of an allocator and its outstanding samples at all times. -/
structure Inv (p : Pool) : Prop where
  count : p.alloc.m_lFree.length + p.held.length = p.alloc.m_lAllocated
  freeSize : p.alloc.m_bChanged = false → ∀ s ∈ p.alloc.m_lFree, s.1.m_cbBuffer = p.alloc.m_lSize
  heldSize : ∀ s ∈ p.held, s.m_cbBuffer = p.alloc.m_lSize
  /-- Samples are out only while the allocator is committed or waits for them. -/
  active : p.held ≠ [] → p.alloc.m_bCommitted = true ∨ p.alloc.m_bDecommitInProgress = true
  /-- A decommit is in progress only while samples are out. -/
  waits : p.alloc.m_bDecommitInProgress = true → p.held ≠ []
  /-- After `SetProperties` no sample is out before the next `Commit`. -/
  changed : p.alloc.m_bChanged = true → p.held = [] ∧ p.alloc.m_bCommitted = false

theorem inv_new (g : DWORD) : Inv ⟨.new g, []⟩ where
  count := rfl
  freeSize _ _ hs := nomatch hs
  heldSize _ hs := nomatch hs
  active h := absurd rfl h
  waits h := nomatch h
  changed h := nomatch h

variable {p q : Pool}

/-- A committed allocator has the samples of its last properties. -/
theorem Inv.unchanged (h : p.Inv) (hc : p.alloc.m_bCommitted = true) : p.alloc.m_bChanged = false := by
  rw [← Bool.not_eq_true]
  intro hch
  have := (h.changed hch).2
  simp [hc] at this

theorem held_eq_nil (h : p.Inv) (ha : p.alloc.m_lAllocated ≤ p.alloc.m_lFree.length) : p.held = [] := by
  have := h.count
  exact List.length_eq_zero_iff.1 (by omega)

theorem inv_SetProperties (h : p.Inv) (req : ALLOCATOR_PROPERTIES) :
    Inv { p with alloc := (p.alloc.SetProperties req).1 } := by
  rcases hres : p.alloc.SetProperties req with ⟨a', hr, act⟩
  cases hs : hr.SUCCEEDED with
  | false => rw [CMemAllocator.SetProperties_failed hres hs]; exact h
  | true =>
    obtain ⟨hc, hf, -, -, rfl⟩ := CMemAllocator.SetProperties_ok hres hs
    have hnil := held_eq_nil h hf
    refine ⟨h.count, nofun, ?_, h.active, h.waits, fun _ => ⟨hnil, hc⟩⟩
    intro s hs
    rw [hnil] at hs
    cases hs

theorem inv_Commit (h : p.Inv) (env : AllocEnv) : Inv { p with alloc := (p.alloc.Commit env).1 } := by
  unfold CMemAllocator.Commit
  split
  · exact h
  · rename_i hc
    split
    · rename_i hd
      -- The samples of a decommit in progress are those of the last commit.
      have hch : p.alloc.m_bChanged = false := by
        rw [← Bool.not_eq_true]
        exact fun hch => h.waits hd (h.changed hch).1
      exact ⟨h.count, h.freeSize, h.heldSize, fun _ => .inl rfl, nofun,
        fun hch' => absurd hch' (by simp [hch])⟩
    · rename_i hd
      -- A commit that allocates finds no sample outstanding, so the new free list may
      -- have another size.
      have hnil : p.held = [] := by
        by_contra hne
        rcases h.active hne with h1 | h1
        · exact hc h1
        · exact hd h1
      have hnone : ∀ s ∈ p.held, ∀ l : LONG, s.m_cbBuffer = l := by
        intro s hs
        rw [hnil] at hs
        cases hs
      rcases hres : p.alloc.Alloc env with ⟨a', hr⟩
      rcases CMemAllocator.Alloc_cases hres with ⟨rfl, hk⟩ | ⟨hch, rfl, hf⟩ | ⟨free, m_bChanged, hsz, hch, rfl⟩
      · dsimp only
        split
        · exact h
        · rename_i hf
          have hch := hk.resolve_left hf
          exact ⟨h.count, h.freeSize, h.heldSize, fun _ => .inl rfl, h.waits,
            fun hch' => absurd hch' (by simp [hch])⟩
      · dsimp only
        rw [if_pos hf]
        exact ⟨by simp [CMemAllocator.ReallyFree, hnil], fun _ _ hs => (nomatch hs), fun s hs => hnone s hs _,
          h.active, h.waits, h.changed⟩
      · have hall : ∀ c : Bool, (m_bChanged = true → c = false) → Inv { p with alloc := { p.alloc with
            m_lFree := free, m_lAllocated := free.length, m_bChanged := m_bChanged, m_bCommitted := c } } :=
          fun c hc => ⟨by simp [hnil], fun _ => hsz, fun s hs => hnone s hs _, fun hne => absurd hnil hne,
            fun hw => absurd hw hd, fun hch => ⟨hnil, hc hch⟩⟩
        dsimp only
        split
        · exact hall p.alloc.m_bCommitted fun _ => by simpa using hc
        · rename_i hok
          exact hall true fun hm => absurd (hch hm) hok

theorem inv_Decommit (h : p.Inv) : Inv { p with alloc := p.alloc.Decommit.1 } := by
  unfold CMemAllocator.Decommit
  split
  · exact h
  · have hpos : p.held ≠ [] ↔ p.alloc.m_lFree.length < p.alloc.m_lAllocated := by
      have := h.count
      rw [← List.length_pos_iff]
      omega
    refine ⟨h.count, h.freeSize, h.heldSize, ?_, ?_, fun hch => ⟨(h.changed hch).1, rfl⟩⟩
    · intro hne
      exact .inr (decide_eq_true (hpos.1 hne))
    · intro hw
      exact hpos.2 (of_decide_eq_true hw)

theorem inv_GetBuffer {a' : CMemAllocator} {dwFlags : DWORD} {s : CMediaSample} (h : p.Inv)
    (hg : p.alloc.GetBuffer dwFlags = some (a', .ok s)) : Inv ⟨a', s :: p.held⟩ := by
  obtain ⟨f, rest, hc, hfree, rfl, rfl⟩ := CMemAllocator.GetBuffer_ok hg
  have hch := h.unchanged hc
  have hcount := h.count
  rw [hfree] at hcount
  refine ⟨?_, ?_, ?_, fun _ => .inl hc, fun _ => nofun, fun hch' => absurd hch' (by simp [hch])⟩
  · simp only [List.length_cons] at hcount ⊢
    omega
  · intro _ x hx
    exact h.freeSize hch x (hfree ▸ List.mem_cons_of_mem _ hx)
  · intro x hx
    rcases List.mem_cons.1 hx with rfl | hx
    · exact h.freeSize hch f (hfree ▸ List.mem_cons_self)
    · exact h.heldSize x hx

theorem inv_use (h : p.Inv) {i : Nat} {s : CMediaSample} (hs : p.held[i]? = some s) (t : CMediaSample)
    (ht : t.m_cbBuffer = s.m_cbBuffer) : Inv { p with held := p.held.set i t } := by
  have hmem : s ∈ p.held := List.mem_of_getElem? hs
  have hne : p.held ≠ [] := List.ne_nil_of_mem hmem
  refine ⟨by simpa using h.count, h.freeSize, ?_, fun _ => h.active hne, ?_, ?_⟩
  · intro x hx
    rcases List.mem_or_eq_of_mem_set hx with hx | rfl
    · exact h.heldSize x hx
    · rw [ht]; exact h.heldSize s hmem
  · intro _
    simpa using hne
  · intro hch
    exact absurd (h.changed hch).1 hne

theorem inv_ReleaseBuffer (h : p.Inv) {i : Nat} {s : CMediaSample} (hs : p.held[i]? = some s) (f : FreeSample)
    (hf : f.1.m_cbBuffer = s.m_cbBuffer) : Inv ⟨p.alloc.ReleaseBuffer f, p.held.eraseIdx i⟩ := by
  obtain ⟨hi, -⟩ := List.getElem?_eq_some_iff.1 hs
  have hmem : s ∈ p.held := List.mem_of_getElem? hs
  have hne : p.held ≠ [] := List.ne_nil_of_mem hmem
  have hlen : (p.held.eraseIdx i).length + 1 = p.held.length := by
    rw [List.length_eraseIdx_of_lt hi]
    omega
  -- The sample moves from one list to the other.
  have hcount : (f :: p.alloc.m_lFree).length + (p.held.eraseIdx i).length = p.alloc.m_lAllocated := by
    have := h.count
    simp only [List.length_cons]
    omega
  have hfree : p.alloc.m_bChanged = false → ∀ x ∈ f :: p.alloc.m_lFree, x.1.m_cbBuffer = p.alloc.m_lSize := by
    intro hch x hx
    rcases List.mem_cons.1 hx with rfl | hx
    · rw [hf]; exact h.heldSize s hmem
    · exact h.freeSize hch x hx
  have hheld : ∀ x ∈ p.held.eraseIdx i, x.m_cbBuffer = p.alloc.m_lSize :=
    fun x hx => h.heldSize x (List.mem_of_mem_eraseIdx hx)
  unfold CMemAllocator.ReleaseBuffer
  dsimp only
  split
  · -- The last sample came back, so the decommit is complete.
    rename_i hlast
    have hnil : p.held.eraseIdx i = [] := List.length_eq_zero_iff.1 (by omega)
    exact ⟨hcount, hfree, hheld, fun hne' => absurd hnil hne', nofun, fun hch => absurd (h.changed hch).1 hne⟩
  · rename_i hlast
    refine ⟨hcount, hfree, hheld, fun _ => h.active hne, ?_, fun hch => absurd (h.changed hch).1 hne⟩
    intro hw (hnil : p.held.eraseIdx i = [])
    rw [hnil] at hcount
    exact hlast ⟨hw, by simpa using hcount⟩

theorem inv_release (h : p.Inv) {i : Nat} (hr : p.release i = some q) : q.Inv := by
  simp only [release, Option.bind_eq_bind, Option.bind_eq_some_iff] at hr
  obtain ⟨s, hs, hr⟩ := hr
  rcases s.Release_cases with ⟨t, ht, hb⟩ | ⟨f, hf, hb⟩
  · rw [ht] at hr
    cases hr
    exact inv_use h hs t (by simp [CMediaSample.m_cbBuffer, hb])
  · rw [hf] at hr
    cases hr
    exact inv_ReleaseBuffer h hs f (by simp [CMediaSample.m_cbBuffer, hb])

theorem inv_step (h : p.Inv) (e : Op) (hs : p.step e = some q) : q.Inv := by
  cases e with
  | SetProperties req => cases hs; exact inv_SetProperties h req
  | Commit env => cases hs; exact inv_Commit h env
  | Decommit => cases hs; exact inv_Decommit h
  | GetBuffer dwFlags =>
    simp only [step, Option.bind_eq_bind, Option.bind_eq_some_iff] at hs
    obtain ⟨⟨a', r⟩, hg, hs⟩ := hs
    cases r with
    | error hr =>
      cases hs
      rw [(CMemAllocator.GetBuffer_error hg).1]
      exact h
    | ok s =>
      cases hs
      exact inv_GetBuffer h hg
  | use i u =>
    simp only [step, Option.bind_eq_bind, Option.bind_eq_some_iff] at hs
    obtain ⟨s, hi, hs⟩ := hs
    cases hs
    exact inv_use h hi _ (u.size s)
  | Release i => exact inv_release h hs

/-- A pool after any calls on a new allocator and on the samples it handed out. -/
def Reachable (p : Pool) : Prop :=
  ∃ (dwAllocationGranularity : DWORD) (es : List Op), Lib.Runs step Lib.Any ⟨.new dwAllocationGranularity, []⟩ es p

theorem Reachable.inv (h : p.Reachable) : p.Inv := by
  obtain ⟨g, es, h⟩ := h
  exact h.inv Inv (inv_new g) fun t e u ht _ hs => inv_step ht e hs

/-- A sample that a reachable allocator hands out has the agreed size. -/
theorem GetBuffer_size {a' : CMemAllocator} {dwFlags : DWORD} {s : CMediaSample} (h : p.Inv)
    (hg : p.alloc.GetBuffer dwFlags = some (a', .ok s)) : s.m_cbBuffer = p.alloc.m_lSize := by
  have hsize := (inv_GetBuffer h hg).heldSize s List.mem_cons_self
  obtain ⟨f, rest, -, -, -, rfl⟩ := CMemAllocator.GetBuffer_ok hg
  exact hsize

/-! ## The agreed size stays until the next `SetProperties` -/

/-- The call is no `SetProperties`. -/
def Op.keepsSize (_ : Pool) : Op → Prop
  | .SetProperties _ => False
  | _ => True

theorem step_m_lSize (e : Op) (he : e.keepsSize p) (hs : p.step e = some q) :
    q.alloc.m_lSize = p.alloc.m_lSize := by
  cases e with
  | SetProperties req => cases he
  | Commit env => cases hs; exact p.alloc.Commit_m_lSize env
  | Decommit => cases hs; exact p.alloc.Decommit_m_lSize
  | GetBuffer dwFlags =>
    simp only [step, Option.bind_eq_bind, Option.bind_eq_some_iff] at hs
    obtain ⟨⟨a', r⟩, hg, hs⟩ := hs
    cases r with
    | error hr => cases hs; rw [(CMemAllocator.GetBuffer_error hg).1]
    | ok s =>
      cases hs
      obtain ⟨f, rest, -, -, -, rfl⟩ := CMemAllocator.GetBuffer_ok hg
      rfl
  | use i u =>
    simp only [step, Option.bind_eq_bind, Option.bind_eq_some_iff] at hs
    obtain ⟨s, -, hs⟩ := hs
    cases hs
    rfl
  | Release i =>
    simp only [step, release, Option.bind_eq_bind, Option.bind_eq_some_iff] at hs
    obtain ⟨s, -, hs⟩ := hs
    rcases s.Release_cases with ⟨t, ht, -⟩ | ⟨f, hf, -⟩
    · rw [ht] at hs
      cases hs
      rfl
    · rw [hf] at hs
      cases hs
      unfold CMemAllocator.ReleaseBuffer
      dsimp only
      split <;> rfl

theorem runs_m_lSize {es : List Op} (h : Lib.Runs step (fun p e => e.keepsSize p) p es q) :
    q.alloc.m_lSize = p.alloc.m_lSize :=
  h.inv (fun t => t.alloc.m_lSize = p.alloc.m_lSize) rfl
    fun _ e _ ht hc hs => (step_m_lSize e hc hs).trans ht

/-- The samples handed out have the size that the last `SetProperties` reported. -/
theorem GetBuffer_size_agreed {req Actual : ALLOCATOR_PROPERTIES} {hr : HRESULT} {a a' : CMemAllocator} {es : List Op}
    {dwFlags : DWORD} {s : CMediaSample} (h : p.Inv) (hset : p.alloc.SetProperties req = (a, hr, Actual))
    (hok : hr.SUCCEEDED = true) (hrun : Lib.Runs step (fun p e => e.keepsSize p) ⟨a, p.held⟩ es q)
    (hget : q.alloc.GetBuffer dwFlags = some (a', .ok s)) : s.m_cbBuffer = Actual.cbBuffer := by
  obtain ⟨-, -, -, hsize, -⟩ := CMemAllocator.SetProperties_ok hset hok
  have hinv : Inv ⟨a, p.held⟩ := by
    have := inv_SetProperties h req
    rwa [hset] at this
  have hq : q.Inv := hrun.inv Inv hinv fun _ e _ hi _ hs => inv_step hi e hs
  rw [GetBuffer_size hq hget, runs_m_lSize hrun]
  exact hsize

end Pool

end FilterSln
