import FilterSln.Connect
import FilterSln.SourcePin
/-!
# The allocator of an output pin

`CBaseOutputPin::CompleteConnect`, for the output pins of all three filters. They
share everything but `DecideBufferSize`, and even there they differ in one test
only: the transform filters refuse an allocator that reports no buffer or small
ones, `CMyOutputPin` refuses small ones and leaves the number to an `ASSERT`,
which is not in a release build.

So the allocator a pin ends up with always reports enough room, and for
`CMyOutputPin` it reports a buffer only if the one it settles on happens to
(`held_allocator_grants_iff`).
-/

namespace FilterSln

open HRESULT

variable {α Env P : Type} [IMemAllocator α Env] [IPin P α]

/-! ## `CBaseOutputPin` -/

namespace CBaseOutputPin

/-- One of the two tries of `DecideAllocator`, for any `DecideBufferSize`. -/
def tryAllocator (DecideBufferSize : Option α → ALLOCATOR_PROPERTIES → Option α × ALLOCATOR_PROPERTIES × HRESULT)
    (pPin : P) (hr : HRESULT) (pAlloc : Option α) (prop : ALLOCATOR_PROPERTIES) :
    P × Option α × ALLOCATOR_PROPERTIES × HRESULT :=
  if hr.FAILED then (pPin, pAlloc, prop, hr)
  else
    let (pAlloc, prop, hr) := DecideBufferSize pAlloc prop
    if hr.FAILED then (pPin, pAlloc, prop, hr)
    else
      match pAlloc with
      | none => (pPin, pAlloc, prop, E_POINTER)
      | some a =>
        let (pPin, hr) := IPin.NotifyAllocator pPin a
        (pPin, some a, prop, hr)

/-- What the input pin requires, with the alignment 1 if it does not care. -/
def requirements (pPin : P) : ALLOCATOR_PROPERTIES :=
  let prop : ALLOCATOR_PROPERTIES := IPin.GetAllocatorRequirements pPin
  if prop.cbAlign = 0 then { prop with cbAlign := 1 } else prop

def DecideAllocator (DecideBufferSize : Option α → ALLOCATOR_PROPERTIES → Option α × ALLOCATOR_PROPERTIES × HRESULT)
    (env : ConnectEnv α) (pPin : P) : P × Option α × HRESULT :=
  let prop := requirements pPin
  let (pPin, hr, pAlloc) := IPin.GetAllocator pPin
  let (pPin, pAlloc, prop, hr) := tryAllocator DecideBufferSize pPin hr pAlloc prop
  if hr.SUCCEEDED then (pPin, pAlloc, NOERROR)
  else
    let (hr, pAlloc) := env.CreateMemoryAllocator
    let (pPin, pAlloc, _, hr) := tryAllocator DecideBufferSize pPin hr pAlloc prop
    if hr.SUCCEEDED then (pPin, pAlloc, NOERROR) else (pPin, none, hr)

end CBaseOutputPin

/-! ## The three pins -/

/-- The output pin of the source filter, or that of one of the two transform
filters. -/
inductive OutputPin (α : Type) where
  | CMyOutputPin (pin : CMyOutputPin)
  | CTransformOutputPin (c : Filter) (f : CTransformFilter α)

namespace OutputPin

def DecideBufferSize : OutputPin α → Option α → ALLOCATOR_PROPERTIES → Option α × ALLOCATOR_PROPERTIES × HRESULT
  | CMyOutputPin pin => pin.DecideBufferSize
  | CTransformOutputPin c f => c.DecideBufferSize f

/-- The input pin, the allocator the output pin holds, and the result. -/
def CompleteConnect (pin : OutputPin α) (env : ConnectEnv α) (pReceivePin : P) : P × Option α × HRESULT :=
  CBaseOutputPin.DecideAllocator pin.DecideBufferSize env pReceivePin

/-- The output pin of a transform filter connects like this. -/
theorem CompleteConnect_transform (c : Filter) (env : ConnectEnv α) (f : CTransformFilter α) (p : P) :
    f.CompleteConnect c env .PINDIR_OUTPUT p =
      let (p', m_pAllocator, hr) := (CTransformOutputPin c f).CompleteConnect env p
      ({ f with m_pOutput := { f.m_pOutput with m_pAllocator } }, p', hr) := rfl

/-! ## What they ask for and what they refuse -/

/-- The buffer size the pin needs. -/
def size : OutputPin α → LONG
  | CMyOutputPin pin => pin.m_nImageSize
  | CTransformOutputPin _ f => Int32.ofBitVec f.m_pInput.m_mt.GetSampleSize

def request (pin : OutputPin α) (prop : ALLOCATOR_PROPERTIES) : ALLOCATOR_PROPERTIES :=
  { prop with cBuffers := 1, cbBuffer := pin.size }

/-- A transform filter asks for buffers once its input pin is connected. -/
def Ready : OutputPin α → Prop
  | CMyOutputPin _ => True
  | CTransformOutputPin _ f => f.m_pInput.m_Connected = true

/-- The report of an allocator with which the pin is content. -/
def Accepts (Actual : ALLOCATOR_PROPERTIES) : OutputPin α → Prop
  | CMyOutputPin pin => pin.m_nImageSize ≤ Actual.cbBuffer
  | CTransformOutputPin c f => 1 ≤ Actual.cBuffers ∧ (CTransformOutputPin c f).size ≤ Actual.cbBuffer

instance : (pin : OutputPin α) → Decidable pin.Ready
  | CMyOutputPin _ => inferInstanceAs (Decidable True)
  | CTransformOutputPin _ _ => inferInstanceAs (Decidable (_ = _))

instance (Actual : ALLOCATOR_PROPERTIES) : (pin : OutputPin α) → Decidable (pin.Accepts Actual)
  | CMyOutputPin _ => inferInstanceAs (Decidable (_ ≤ _))
  | CTransformOutputPin _ _ => inferInstanceAs (Decidable (_ ∧ _))

/-- `DecideBufferSize` of any of the pins. -/
def sizeAllocator (pin : OutputPin α) (pAllocator : Option α) (pprop : ALLOCATOR_PROPERTIES) :
    Option α × ALLOCATOR_PROPERTIES × HRESULT :=
  if pin.Ready then
    match pAllocator with
    | none => (none, pprop, E_POINTER)
    | some a =>
      let pprop := pin.request pprop
      let (a, hr, Actual) := IMemAllocator.SetProperties a pprop
      if hr.FAILED then (some a, pprop, hr)
      else if pin.Accepts Actual then (some a, pprop, NOERROR)
      else (some a, pprop, E_FAIL)
  else (pAllocator, pprop, E_UNEXPECTED)

/-- What a transform filter refuses, in the words of its `DecideBufferSize`. -/
theorem not_accepts_transform {c : Filter} {f : CTransformFilter α} {Actual : ALLOCATOR_PROPERTIES} :
    ((1 : LONG) > Actual.cBuffers ∨ (CTransformOutputPin c f).size > Actual.cbBuffer) ↔
      ¬ (CTransformOutputPin c f).Accepts Actual := by
  rw [Accepts, not_and_or, Int32.not_le, Int32.not_le]

theorem DecideBufferSize_eq (pin : OutputPin α) : pin.DecideBufferSize = pin.sizeAllocator := by
  funext pa prop
  cases pin with
  | CMyOutputPin pin =>
    show pin.DecideBufferSize pa prop = _
    unfold CMyOutputPin.DecideBufferSize sizeAllocator
    rw [if_pos (show (CMyOutputPin pin : OutputPin α).Ready from trivial)]
    cases pa with
    | none => rfl
    | some a =>
      rcases hset : IMemAllocator.SetProperties a ((CMyOutputPin pin : OutputPin α).request prop) with ⟨a1, hr, Actual⟩
      have hset' : IMemAllocator.SetProperties a { prop with cBuffers := 1, cbBuffer := pin.m_nImageSize } =
        (a1, hr, Actual) := hset
      have hnot : Actual.cbBuffer < pin.m_nImageSize ↔ ¬ (CMyOutputPin pin : OutputPin α).Accepts Actual :=
        Int32.not_le.symm
      simp only [hset, hset']
      split
      · rfl
      · exact (if_congr hnot rfl rfl).trans (ite_not ..)
  | CTransformOutputPin c f =>
    show c.DecideBufferSize f pa prop = _
    rw [c.DecideBufferSize_eq]
    unfold requestBuffer sizeAllocator
    cases hc : f.m_pInput.m_Connected with
    | false =>
      have hno : ¬ (CTransformOutputPin c f).Ready := fun hready => absurd (hc.symm.trans hready) nofun
      rw [if_pos (show (!false) = true from rfl), if_neg hno]
    | true =>
      rw [if_neg (by simp), if_pos (show (CTransformOutputPin c f).Ready from hc)]
      cases pa with
      | none => rfl
      | some a =>
        rcases hset : IMemAllocator.SetProperties a ((CTransformOutputPin c f).request prop) with ⟨a1, hr, Actual⟩
        have hset' : IMemAllocator.SetProperties a
          { prop with cBuffers := 1, cbBuffer := Int32.ofBitVec f.m_pInput.m_mt.GetSampleSize } = (a1, hr, Actual) := hset
        simp only [hset, hset']
        split
        · rfl
        · exact (if_congr not_accepts_transform rfl rfl).trans (ite_not ..)

variable {pin : OutputPin α} {pa pa' : Option α} {prop prop' Actual : ALLOCATOR_PROPERTIES} {hr hr' : HRESULT}

omit [IMemAllocator α Env] in
theorem Accepts.size (h : pin.Accepts Actual) : pin.size ≤ Actual.cbBuffer := by
  cases pin with
  | CMyOutputPin pin => exact h
  | CTransformOutputPin c f => exact h.2

/-- The allocator, asked for one buffer of the pin's size, makes a report that the
pin accepts. -/
def Asks (pin : OutputPin α) (prop : ALLOCATOR_PROPERTIES) (pa : Option α) (a' : α) (Actual : ALLOCATOR_PROPERTIES) :
    Prop :=
  pin.Ready ∧ ∃ a hr, pa = some a ∧ IMemAllocator.SetProperties a (pin.request prop) = (a', hr, Actual) ∧
    hr.SUCCEEDED = true ∧ pin.Accepts Actual

/-- `DecideBufferSize` succeeds exactly with such an allocator. -/
theorem DecideBufferSize_cases (h : pin.DecideBufferSize pa prop = (pa', prop', hr)) :
    pin.request prop' = pin.request prop ∧
      (hr.SUCCEEDED = true ∧ (∃ a' Actual, pa' = some a' ∧ pin.Asks prop pa a' Actual) ∨
        hr.SUCCEEDED = false ∧ ∀ a' Actual, ¬ pin.Asks prop pa a' Actual) := by
  rw [DecideBufferSize_eq] at h
  unfold sizeAllocator at h
  split at h
  · rename_i hready
    cases pa with
    | none =>
      cases h
      exact ⟨rfl, .inr ⟨rfl, fun _ _ ⟨_, _, _, hnone, _⟩ => absurd hnone nofun⟩⟩
    | some a =>
      rcases hset : IMemAllocator.SetProperties a (pin.request prop) with ⟨a1, hr1, act⟩
      simp only [hset] at h
      -- Whatever is asked for again, the answer of the allocator is this one.
      have honly : ∀ {a' Actual}, pin.Asks prop (some a) a' Actual → hr1.SUCCEEDED = true ∧ pin.Accepts act := by
        rintro a' Actual ⟨-, b, hrb, hb, hsetb, hok, hacc⟩
        cases hb
        cases hset.symm.trans hsetb
        exact ⟨hok, hacc⟩
      split at h
      · rename_i hf
        cases h
        refine ⟨rfl, .inr ⟨by simpa [FAILED] using hf, fun a' Actual hasks => ?_⟩⟩
        simp [FAILED, (honly hasks).1] at hf
      · rename_i hs
        split at h
        · rename_i hacc
          cases h
          exact ⟨rfl, .inl ⟨rfl, a1, act, rfl, hready, a, hr1, rfl, hset, SUCCEEDED_of_not_FAILED hs, hacc⟩⟩
        · rename_i hacc
          cases h
          exact ⟨rfl, .inr ⟨rfl, fun a' Actual hasks => hacc (honly hasks).2⟩⟩
  · rename_i hready
    cases h
    exact ⟨rfl, .inr ⟨rfl, fun _ _ hasks => hready hasks.1⟩⟩

/-! ## The attempt that is taken -/

/-- An attempt of `DecideAllocator` that succeeds: it has an allocator, which makes
a report the output pin accepts, and the input pin takes it. -/
def Takes (pin : OutputPin α) (prop : ALLOCATOR_PROPERTIES) (pPin : P) (hr : HRESULT) (pa : Option α) (a' : α)
    (Actual : ALLOCATOR_PROPERTIES) : Prop :=
  hr.SUCCEEDED = true ∧ pin.Asks prop pa a' Actual ∧ (IPin.NotifyAllocator pPin a').2.SUCCEEDED = true

omit [IPin P α] in
theorem Asks.functional {a a' : α} {Actual' : ALLOCATOR_PROPERTIES} (h : pin.Asks prop pa a Actual)
    (h' : pin.Asks prop pa a' Actual') : a = a' ∧ Actual = Actual' := by
  obtain ⟨-, b, hrb, hb, hset, -, -⟩ := h
  obtain ⟨-, b', hrb', hb', hset', -, -⟩ := h'
  cases hb.symm.trans hb'
  cases hset.symm.trans hset'
  exact ⟨rfl, rfl⟩

/-- An attempt that fails, and the input pin after it: it was told of an allocator
and did not take it, or it was not told of any. -/
def Fails (pin : OutputPin α) (prop : ALLOCATOR_PROPERTIES) (pPin : P) (hr : HRESULT) (pa : Option α) (pPin' : P) :
    Prop :=
  (hr.SUCCEEDED = true ∧ ∃ a' Actual, pin.Asks prop pa a' Actual ∧
    (IPin.NotifyAllocator pPin a').2.SUCCEEDED = false ∧ pPin' = (IPin.NotifyAllocator pPin a').1) ∨
  (hr.SUCCEEDED = true → ∀ a' Actual, ¬ pin.Asks prop pa a' Actual) ∧ pPin' = pPin

theorem Fails.not_takes {p p' : P} {a' : α} (h : pin.Fails prop p hr pa p') :
    ¬ pin.Takes prop p hr pa a' Actual := by
  rintro ⟨hs, hasks, hn⟩
  rcases h with ⟨-, a, Actual', hasks', hno, -⟩ | ⟨hnone, -⟩
  · obtain ⟨rfl, -⟩ := hasks.functional hasks'
    exact absurd (hno.symm.trans hn) Bool.false_ne_true
  · exact hnone hs _ _ hasks

theorem Fails.functional {p p₁ p₂ : P} (h₁ : pin.Fails prop p hr pa p₁) (h₂ : pin.Fails prop p hr pa p₂) : p₁ = p₂ := by
  rcases h₁ with ⟨hs, a, Actual, hasks, -, rfl⟩ | ⟨hnone, rfl⟩
  · rcases h₂ with ⟨-, a', Actual', hasks', -, rfl⟩ | ⟨hnone, -⟩
    · obtain ⟨rfl, -⟩ := hasks.functional hasks'
      rfl
    · exact absurd hasks (hnone hs _ _)
  · rcases h₂ with ⟨hs, a', Actual', hasks', -, -⟩ | ⟨-, rfl⟩
    · exact absurd hasks' (hnone hs _ _)
    · rfl

theorem tryAllocator_cases {pPin pPin' : P}
    (h : CBaseOutputPin.tryAllocator pin.DecideBufferSize pPin hr pa prop = (pPin', pa', prop', hr')) :
    pin.request prop' = pin.request prop ∧
      (hr'.SUCCEEDED = true ∧ (∃ a' Actual, pa' = some a' ∧ pin.Takes prop pPin hr pa a' Actual) ∨
        hr'.SUCCEEDED = false ∧ pin.Fails prop pPin hr pa pPin') := by
  unfold CBaseOutputPin.tryAllocator at h
  split at h
  · rename_i hf
    cases h
    have hno : hr.SUCCEEDED = false := by simpa [FAILED] using hf
    exact ⟨rfl, .inr ⟨hno, .inr ⟨fun hs => absurd (hno.symm.trans hs) Bool.false_ne_true, rfl⟩⟩⟩
  · rename_i hs
    rcases hdec : pin.DecideBufferSize pa prop with ⟨pa1, prop1, hr1⟩
    obtain ⟨hreq, ⟨hok, a', Actual, rfl, hasks⟩ | ⟨hno, hnone⟩⟩ := DecideBufferSize_cases hdec
    · simp only [hdec, FAILED, hok, Bool.not_true, Bool.false_eq_true, if_false] at h
      cases h
      refine ⟨hreq, ?_⟩
      cases hn : (IPin.NotifyAllocator pPin a').2.SUCCEEDED with
      | true => exact .inl ⟨rfl, a', Actual, rfl, SUCCEEDED_of_not_FAILED hs, hasks, hn⟩
      | false => exact .inr ⟨rfl, .inl ⟨SUCCEEDED_of_not_FAILED hs, a', Actual, hasks, hn, rfl⟩⟩
    · simp only [hdec, FAILED, hno, Bool.not_false, if_true] at h
      cases h
      exact ⟨hreq, .inr ⟨hno, .inr ⟨fun _ => hnone, rfl⟩⟩⟩

/-- The allocator on which the connection settles, and its report: that of the
input pin if it is taken, else one of our own. -/
def Settles (pin : OutputPin α) (env : ConnectEnv α) (pPin : P) (a' : α) (Actual : ALLOCATOR_PROPERTIES) : Prop :=
  let prop := CBaseOutputPin.requirements pPin
  let (pPin, hr, pAlloc) := IPin.GetAllocator pPin
  pin.Takes prop pPin hr pAlloc a' Actual ∨
    ∃ pPin', pin.Fails prop pPin hr pAlloc pPin' ∧
      pin.Takes prop pPin' env.CreateMemoryAllocator.1 env.CreateMemoryAllocator.2 a' Actual

theorem Takes.congr {p : P} {a' : α} (hreq : pin.request prop' = pin.request prop) :
    pin.Takes prop' p hr pa a' Actual ↔ pin.Takes prop p hr pa a' Actual := by
  unfold Takes Asks
  rw [hreq]

theorem Settles.asks {env : ConnectEnv α} {p : P} {a' : α} (h : pin.Settles env p a' Actual) :
    ∃ pa, pin.Asks (CBaseOutputPin.requirements p) pa a' Actual := by
  rcases h with h | ⟨_, -, h⟩
  · exact ⟨_, h.2.1⟩
  · exact ⟨_, h.2.1⟩

theorem Settles.functional {env : ConnectEnv α} {p : P} {a a' : α} {Actual' : ALLOCATOR_PROPERTIES}
    (h : pin.Settles env p a Actual) (h' : pin.Settles env p a' Actual') : a = a' ∧ Actual = Actual' := by
  rcases h with h | ⟨p₁, hfails, h⟩
  · rcases h' with h' | ⟨_, hfails', -⟩
    · exact h.2.1.functional h'.2.1
    · exact absurd h hfails'.not_takes
  · rcases h' with h' | ⟨p₂, hfails', h'⟩
    · exact absurd h' hfails.not_takes
    · obtain rfl := hfails.functional hfails'
      exact h.2.1.functional h'.2.1

/-- `CompleteConnect` holds the allocator it settles on, or fails and holds none. -/
theorem CompleteConnect_cases {env : ConnectEnv α} {p p' : P} (h : pin.CompleteConnect env p = (p', pa, hr)) :
    (hr.SUCCEEDED = true ∧ ∃ a' Actual, pa = some a' ∧ pin.Settles env p a' Actual) ∨
      (hr.SUCCEEDED = false ∧ pa = none ∧ ∀ a' Actual, ¬ pin.Settles env p a' Actual) := by
  unfold CompleteConnect CBaseOutputPin.DecideAllocator at h
  unfold Settles
  generalize IPin.GetAllocator p = first at h ⊢
  obtain ⟨p1, hr1, pa1⟩ := first
  dsimp only at h ⊢
  rcases ht : CBaseOutputPin.tryAllocator pin.DecideBufferSize p1 hr1 pa1 (CBaseOutputPin.requirements p) with
    ⟨p2, pa2, prop2, hr2⟩
  simp only [ht] at h ⊢
  obtain ⟨hreq, ⟨hok, a', Actual, rfl, htakes⟩ | ⟨hno, hfails⟩⟩ := tryAllocator_cases ht
  · rw [if_pos hok] at h
    cases h
    exact .inl ⟨rfl, a', Actual, rfl, .inl htakes⟩
  · rw [if_neg (by simp [hno])] at h
    rcases ht' : CBaseOutputPin.tryAllocator pin.DecideBufferSize p2 env.CreateMemoryAllocator.1
      env.CreateMemoryAllocator.2 prop2 with ⟨p3, pa3, prop3, hr3⟩
    simp only [ht'] at h
    -- The second try asks with the properties that the first one may have written.
    obtain ⟨-, ⟨hok, a', Actual, rfl, htakes⟩ | ⟨hno', hfails'⟩⟩ := tryAllocator_cases ht'
    · rw [if_pos hok] at h
      cases h
      exact .inl ⟨rfl, a', Actual, rfl, .inr ⟨p2, hfails, (Takes.congr hreq).1 htakes⟩⟩
    · rw [if_neg (by simp [hno'])] at h
      cases h
      refine .inr ⟨hno', rfl, fun a' Actual hsettles => ?_⟩
      rcases hsettles with htakes | ⟨p₂, hfails₂, htakes⟩
      · exact hfails.not_takes htakes
      · obtain rfl := hfails.functional hfails₂
        exact hfails'.not_takes ((Takes.congr hreq).2 htakes)

end OutputPin

/-! ## What the held allocator has reported -/

/-- An allocator with the last request it granted, and its report on that. -/
structure Reported (α : Type) where
  alloc : α
  report : Option (ALLOCATOR_PROPERTIES × ALLOCATOR_PROPERTIES)

instance : IMemAllocator (Reported α) Env where
  SetProperties a pRequest :=
    let (alloc, hr, pActual) := IMemAllocator.SetProperties a.alloc pRequest
    (⟨alloc, if hr.SUCCEEDED then some (pRequest, pActual) else a.report⟩, hr, pActual)
  Commit a env := ({ a with alloc := (IMemAllocator.Commit a.alloc env).1 }, (IMemAllocator.Commit a.alloc env).2)
  Decommit a := ({ a with alloc := (IMemAllocator.Decommit a.alloc).1 }, (IMemAllocator.Decommit a.alloc).2)

omit [IPin P α] in
theorem OutputPin.Asks.report {pin : OutputPin (Reported α)} {prop Actual : ALLOCATOR_PROPERTIES}
    {pa : Option (Reported α)} {a' : Reported α} (h : pin.Asks prop pa a' Actual) :
    a'.report = some (pin.request prop, Actual) := by
  obtain ⟨-, a, hr, -, hset, hok, -⟩ := h
  rcases hin : IMemAllocator.SetProperties a.alloc (pin.request prop) with ⟨alloc, hr', Actual'⟩
  simp only [IMemAllocator.SetProperties] at hset
  rw [hin] at hset
  cases hset
  exact if_pos hok

variable [IPin P (Reported α)]

/-- The result of a `CompleteConnect`: after a success an allocator that reports at
least one buffer, and at least as many bytes each as it was asked for; after a
failure none. -/
structure HoldsGranted (pin : OutputPin (Reported α)) (env : ConnectEnv (Reported α)) (p : P) : Prop where
  granted : (pin.CompleteConnect env p).2.2.SUCCEEDED = true → ∃ a request Actual,
    (pin.CompleteConnect env p).2.1 = some a ∧ a.report = some (request, Actual) ∧ request.cbBuffer = pin.size ∧
      1 ≤ Actual.cBuffers ∧ request.cbBuffer ≤ Actual.cbBuffer
  dropped : (pin.CompleteConnect env p).2.2.SUCCEEDED = false → (pin.CompleteConnect env p).2.1 = none

omit [IPin P α] in
/-- The transform filters always hold what they asked for. The source filter does
exactly when the allocator it settles on reports a buffer. -/
theorem held_allocator_grants_iff (pin : OutputPin (Reported α)) (env : ConnectEnv (Reported α)) (p : P) :
    HoldsGranted pin env p ↔
      ∀ source, pin = .CMyOutputPin source → ∀ a Actual, pin.Settles env p a Actual → 1 ≤ Actual.cBuffers := by
  rcases hcomp : pin.CompleteConnect env p with ⟨p', pa, hr⟩
  rcases OutputPin.CompleteConnect_cases hcomp with ⟨hok, a, Actual, rfl, hsettles⟩ | ⟨hno, rfl, hnone⟩
  · obtain ⟨pa', hasks⟩ := hsettles.asks
    constructor
    · intro h source _ b Actual' hsettles'
      obtain ⟨rfl, rfl⟩ := hsettles.functional hsettles'
      obtain ⟨b, request, Actual', hb, hreport, -, hcount, -⟩ := h.granted (by rw [hcomp]; exact hok)
      rw [hcomp] at hb
      cases hb
      rw [hasks.report] at hreport
      cases hreport
      exact hcount
    · intro hcond
      refine ⟨fun _ => ⟨a, _, Actual, by rw [hcomp], hasks.report, rfl, ?_, ?_⟩, fun hno => ?_⟩
      · cases pin with
        | CMyOutputPin source => exact hcond source rfl a Actual hsettles
        | CTransformOutputPin c f =>
          obtain ⟨-, -, -, -, -, -, hacc⟩ := hasks
          exact hacc.1
      · obtain ⟨-, -, -, -, -, -, hacc⟩ := hasks
        exact hacc.size
      · rw [hcomp, hok] at hno
        cases hno
  · constructor
    · intro _ source _ b Actual' hsettles'
      exact absurd hsettles' (hnone b Actual')
    · intro _
      refine ⟨fun hs => ?_, fun _ => by rw [hcomp]⟩
      rw [hcomp, hno] at hs
      cases hs

/-- An allocator that makes the same report whatever it is asked for. -/
structure FixedAllocator where
  hr : HRESULT
  Actual : ALLOCATOR_PROPERTIES

instance : IMemAllocator FixedAllocator Unit where
  SetProperties a _ := (a, a.hr, a.Actual)
  Commit a _ := (a, NOERROR)
  Decommit a := (a, NOERROR)

/-- An input pin whose allocator reports no buffers, of the right size. -/
def emptyPoolPin : Answers (Reported FixedAllocator) where
  QueryDirection := .PINDIR_INPUT
  QueryMemInputPin := S_OK
  EnumMediaTypes := .error E_NOTIMPL
  ReceiveConnection := S_OK
  GetAllocatorRequirements := .zero
  GetAllocator := (S_OK, some ⟨⟨S_OK, ⟨0, 8, 1, 0⟩⟩, none⟩)
  NotifyAllocator := S_OK

/-- The source filter connects with it. -/
theorem empty_pool_held :
    ((OutputPin.CMyOutputPin CMyOutputPin.equalFiles.1).CompleteConnect ⟨true, (E_FAIL, none)⟩ emptyPoolPin).2.2 =
        NOERROR ∧
      ¬ HoldsGranted (.CMyOutputPin CMyOutputPin.equalFiles.1) ⟨true, (E_FAIL, none)⟩ emptyPoolPin := by
  refine ⟨by decide, fun h => ?_⟩
  obtain ⟨a, request, Actual, hheld, hreport, -, hcount, -⟩ := h.granted (by decide)
  have hzero : (((OutputPin.CMyOutputPin CMyOutputPin.equalFiles.1).CompleteConnect ⟨true, (E_FAIL, none)⟩
      emptyPoolPin).2.1.bind Reported.report).map (fun r => r.2.cBuffers) = some 0 := by decide
  rw [hheld, Option.bind_some, hreport] at hzero
  rw [show Actual.cBuffers = 0 from Option.some_inj.1 hzero] at hcount
  exact absurd hcount (by decide)

end FilterSln
