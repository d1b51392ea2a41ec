import FilterSln.SourceThread
/-!
# The pull pin

`CPullPin` of `pullpin.cpp`: its thread reads a file from the pin it is connected
to, sample by sample, and passes the samples on. A sample carries the part of the
file it is for as its time, a byte being one `UNITS`. `Process` is the thread's
loop, which comes in two: with `m_bSync` it reads one sample after the other, else
it keeps up to two requests with the reader.

The machine has what `Process` is told by others as its events: whether a command
has come, the buffers of the allocator, what the reader does with the requests, in
whatever order, and the answers of `Receive`.
-/

namespace FilterSln

open HRESULT Lib

/-- What a read leaves in a sample: the bytes, as far as the buffer goes, and their number. -/
def CMediaSample.fill (s : CMediaSample) (bytes : List BYTE) : CMediaSample :=
  let read := bytes.take s.m_pBuffer.bytes.length
  { s with
    m_pBuffer := s.m_pBuffer.write (splice s.m_pBuffer.bytes 0 read) (splice_length _ _ _ (by simp [read]))
    m_lActual := Int32.ofNat read.length }

structure CPullPin where
  m_tDuration : REFERENCE_TIME
  m_tStop : REFERENCE_TIME
  m_tStart : REFERENCE_TIME
  m_bSync : Bool
  /-- What `m_pAlloc` answers to `GetProperties`. -/
  Actual : ALLOCATOR_PROPERTIES

namespace CPullPin

/-- What `Connect` sets, for a reader whose `Length` is `llTotal`. -/
def Connect (Actual : ALLOCATOR_PROPERTIES) (llTotal : LONGLONG) (bSync : Bool) : CPullPin where
  m_tDuration := llTotal * UNITS
  m_tStop := llTotal * UNITS
  m_tStart := 0
  m_bSync := bSync
  Actual := Actual

/-- What `Seek` sets. -/
def Seek (pin : CPullPin) (tStart tStop : REFERENCE_TIME) : CPullPin := { pin with m_tStart := tStart, m_tStop := tStop }

def AlignDown (ll : LONGLONG) (lAlign : LONG) : LONGLONG := ll &&& (~~~(lAlign - 1)).toInt64

def AlignUp (ll : LONGLONG) (lAlign : LONG) : LONGLONG := (ll + (lAlign - 1).toInt64) &&& (~~~(lAlign - 1)).toInt64

/-- Which call of `QueueSample` or `CollectAndDeliver` it is: the one in front of
the inner loop, the ones in it, or the one behind it. -/
inductive Caller where
  | first | inner | last
  deriving DecidableEq

/-- The call that `Process` is about to make, or waits for. -/
inductive Place where
  | CheckRequest
  | GetBuffer (c : Caller)
  | Request (c : Caller) (pSample : CMediaSample)
  | WaitForNext (c : Caller)
  | Receive (c : Caller)
  /-- `GetBuffer`, `SyncReadAligned` and `Receive` of the loop for `m_bSync`. -/
  | GetBufferSync
  | SyncReadAligned (pSample : CMediaSample)
  | ReceiveSync
  /-- In `CleanupCancelled`, after the error `hr`. -/
  | CleanupCancelled (hr : HRESULT)
  | returned

/-- A call of one of the functions that a pull pin has to be given. -/
inductive Call where
  | Receive (pSample : CMediaSample)
  | EndOfStream
  | OnError (hr : HRESULT)

structure Process where
  pin : CPullPin
  tStart : REFERENCE_TIME
  tCurrent : REFERENCE_TIME
  tStop : REFERENCE_TIME
  tAlignStop : REFERENCE_TIME
  bDiscontinuity : Bool
  place : Place
  /-- The samples that the reader has, the oldest request first. -/
  requested : List CMediaSample
  /-- The calls made so far. -/
  calls : List Call
  /-- How many samples the allocator has given out, and how many have been released. -/
  got : Nat
  released : Nat

namespace Process

def goto (p : Process) (place : Place) : Process := { p with place }

/-- The end of `Process`, with a last call or without. -/
def finish (p : Process) (calls : List Call) : Process := { p with place := .returned, calls := p.calls ++ calls }

/-- The test of the two outer loops. -/
def outer (p : Process) : Process :=
  if p.tCurrent < p.tAlignStop then p.goto .CheckRequest else p.finish [.EndOfStream]

/-- The test of the inner loop, and what comes behind it. -/
def inner (p : Process) : Process :=
  if p.tCurrent < p.tAlignStop then p.goto (.GetBuffer .inner)
  else if 1 < p.pin.Actual.cBuffers then p.goto (.WaitForNext .last)
  else p.outer

def start (pin : CPullPin) : Process :=
  let Actual := pin.Actual
  let tStart := AlignDown (pin.m_tStart / UNITS) Actual.cbAlign * UNITS
  let tStop := if pin.m_tStop > pin.m_tDuration then pin.m_tDuration else pin.m_tStop
  let p : Process := {
    pin, tStart, tStop
    tCurrent := tStart
    tAlignStop := AlignUp (tStop / UNITS) Actual.cbAlign * UNITS
    bDiscontinuity := true
    place := .returned
    requested := []
    calls := []
    got := 0
    released := 0 }
  -- is there anything to do?
  if pin.m_tStop ≤ pin.m_tStart then p.finish [.EndOfStream] else p.outer

/-- Where the sample from `tCurrent` on stops. -/
def stopThis (p : Process) (pSample : CMediaSample) : REFERENCE_TIME :=
  let tStopThis := p.tCurrent + pSample.m_cbBuffer.toInt64 * UNITS
  if tStopThis > p.tAlignStop then p.tAlignStop else tStopThis

/-- A buffer gets its times. -/
def stamped (p : Process) (pSample : CMediaSample) : CMediaSample := pSample.SetTime p.tCurrent (p.stopThis pSample)

/-- The next buffer follows it. -/
def stamp (p : Process) (pSample : CMediaSample) (bDiscontinuity : Bool) : Process :=
  { p with tCurrent := p.stopThis pSample, got := p.got + 1, bDiscontinuity }

/-- `DeliverSample` up to `Receive`: a sample past the actual stop, for sector
alignment, is fixed up, and its times count from the aligned start. -/
def fixUp (p : Process) (pSample : CMediaSample) : CMediaSample :=
  match pSample.GetTime with
  | (S_OK, some (t1, t2)) =>
    let t2 := if t2 > p.tStop then p.tStop else t2
    pSample.SetTime (t1 - p.tStart) (t2 - p.tStart)
  | _ => pSample

/-- `Receive`, which the thread then waits for at `place`. -/
def deliver (p : Process) (place : Place) (pSample : CMediaSample) : Process :=
  { p with place, calls := p.calls ++ [.Receive (p.fixUp pSample)] }

/-- `Release` of a sample. -/
def Release (p : Process) : Process := { p with released := p.released + 1 }

/-! ## The machine -/

inductive Event where
  /-- Whether there is a request. -/
  | CheckRequest (asked : Bool)
  | GetBuffer (r : Except HRESULT CMediaSample)
  | Request (hr : HRESULT)
  /-- The reader gives back one of the requests, by its number, with what it has read. -/
  | WaitForNext (hr : HRESULT) (next : Option (Nat × List BYTE))
  | SyncReadAligned (hr : HRESULT) (bytes : List BYTE)
  | Receive (hr : HRESULT)
  /-- `WaitForNext` without waiting, after an error. -/
  | Cancelled (next : Option Nat)

def CheckRequest (p : Process) (asked : Bool) : Option Process :=
  match p.place with
  | .CheckRequest =>
    if asked then some (p.finish [])
    else if p.pin.m_bSync then some (p.goto .GetBufferSync)
    else if 1 < p.pin.Actual.cBuffers then some (p.goto (.GetBuffer .first))
    else some p.inner
  | _ => none

def GetBuffer (p : Process) (r : Except HRESULT CMediaSample) : Option Process :=
  match p.place, r with
  | .GetBuffer _, .error _ => some (p.finish [])
  | .GetBuffer c, .ok pSample =>
    let bDiscontinuity := if c = .first then true else p.bDiscontinuity
    some ((p.stamp pSample p.bDiscontinuity).goto (.Request c ((p.stamped pSample).SetDiscontinuity bDiscontinuity)))
  | .GetBufferSync, .error hr => some (p.finish [.OnError hr])
  | .GetBufferSync, .ok pSample =>
    let p' := p.stamp pSample false
    if p.bDiscontinuity then some (p'.goto (.SyncReadAligned ((p.stamped pSample).SetDiscontinuity true)))
    else some (p'.goto (.SyncReadAligned (p.stamped pSample)))
  | _, _ => none

/-- The reader takes a request; the sample is not the first any more. -/
def queue (p : Process) (pSample : CMediaSample) : Process :=
  { p with requested := p.requested ++ [pSample], bDiscontinuity := false }

/-- The rest of `QueueSample`, and where its caller goes on. -/
def Request (p : Process) (hr : HRESULT) : Option Process :=
  match p.place with
  | .Request c pSample =>
    if hr.FAILED then some (p.Release.goto (.CleanupCancelled hr))
    else if c = .first then some (p.queue pSample).inner
    else some ((p.queue pSample).goto (.WaitForNext .inner))
  | _ => none

/-- `CollectAndDeliver` up to `Receive`. -/
def WaitForNext (p : Process) (hr : HRESULT) (next : Option (Nat × List BYTE)) : Option Process :=
  match p.place, next with
  | .WaitForNext _, none => if hr.FAILED then some (p.goto (.CleanupCancelled hr)) else none
  | .WaitForNext c, some (i, bytes) => do
    let pSample ← p.requested[i]?
    let p := { p with requested := p.requested.eraseIdx i }
    if hr.FAILED then some (p.Release.goto (.CleanupCancelled hr))
    else some (p.deliver (.Receive c) (pSample.fill bytes))
  | _, _ => none

def SyncReadAligned (p : Process) (hr : HRESULT) (bytes : List BYTE) : Option Process :=
  match p.place with
  | .SyncReadAligned pSample =>
    if hr.FAILED then some (p.Release.finish [.OnError hr])
    else some (p.deliver .ReceiveSync (pSample.fill bytes))
  | _ => none

/-- After `Receive`: the rest of `DeliverSample` and `CollectAndDeliver`, and
where their caller goes on. -/
def Receive (p : Process) (hr : HRESULT) : Option Process :=
  match p.place with
  | .Receive c =>
    if hr.FAILED then some (p.Release.goto (.CleanupCancelled hr))
    else if c = .last then some p.Release.outer
    else if hr ≠ S_OK then some (p.Release.finish [])
    else some p.Release.inner
  | .ReceiveSync =>
    if hr ≠ S_OK then some (p.Release.finish (if hr.FAILED then [.OnError hr] else []))
    else some p.Release.outer
  | _ => none

/-- `CleanupCancelled`, and then `OnError`. -/
def Cancelled (p : Process) (next : Option Nat) : Option Process :=
  match p.place, next with
  | .CleanupCancelled _, some i =>
    if i < p.requested.length then some { p.Release with requested := p.requested.eraseIdx i } else none
  | .CleanupCancelled hr, none => some (p.finish [.OnError hr])
  | _, _ => none

def step (p : Process) : Event → Option Process
  | .CheckRequest asked => p.CheckRequest asked
  | .GetBuffer r => p.GetBuffer r
  | .Request hr => p.Request hr
  | .WaitForNext hr next => p.WaitForNext hr next
  | .SyncReadAligned hr bytes => p.SyncReadAligned hr bytes
  | .Receive hr => p.Receive hr
  | .Cancelled next => p.Cancelled next

/-- The samples passed on. -/
def received (calls : List Call) : List CMediaSample :=
  calls.filterMap fun | .Receive pSample => some pSample | _ => none

/-- The samples stamped and not yet passed on, the oldest first. -/
def outstanding (p : Process) : List CMediaSample :=
  p.requested ++ match p.place with | .Request _ pSample | .SyncReadAligned pSample => [pSample] | _ => []

/-- How many samples the thread itself holds. -/
def hand (p : Process) : Nat :=
  match p.place with
  | .Request _ _ | .SyncReadAligned _ | .Receive _ | .ReceiveSync => 1
  | _ => 0

end Process

/-- How many requests are with the reader when a call of `QueueSample` is made. -/
def owed (pin : CPullPin) (c : Caller) : Nat := if c = .inner ∧ 1 < pin.Actual.cBuffers then 1 else 0

/-! ## Where `Process` stands -/

namespace Process

variable {p q : Process} {pin : CPullPin} {C : Process → Event → Prop} {es : List Event}

@[simp] theorem received_append (calls calls' : List Call) :
    received (calls ++ calls') = received calls ++ received calls' := List.filterMap_append

@[simp] theorem received_Receive (s : CMediaSample) : received [.Receive s] = [s] := rfl

@[simp] theorem received_EndOfStream : received [.EndOfStream] = [] := rfl

@[simp] theorem received_OnError (hr : HRESULT) : received [.OnError hr] = [] := rfl

@[simp] theorem received_nil : received [] = [] := rfl

/-- Nothing but `Receive` has been called. -/
def OnlyReceive (calls : List Call) : Prop := calls = (received calls).map .Receive

theorem OnlyReceive.snoc {calls : List Call} (h : OnlyReceive calls) (s : CMediaSample) :
    OnlyReceive (calls ++ [.Receive s]) := by
  unfold OnlyReceive
  rw [received_append, List.map_append, ← h]
  rfl

theorem OnlyReceive.not_ended {calls : List Call} (h : OnlyReceive calls) : .EndOfStream ∉ calls := by
  intro hmem
  rw [h, List.mem_map] at hmem
  obtain ⟨_, _, ⟨⟩⟩ := hmem

theorem outer_cases (p : Process) :
    (p.tCurrent < p.tAlignStop ∧ p.outer = p.goto .CheckRequest) ∨
    (¬ p.tCurrent < p.tAlignStop ∧ p.outer = p.finish [.EndOfStream]) := by
  unfold outer
  by_cases h : p.tCurrent < p.tAlignStop
  · exact .inl ⟨h, if_pos h⟩
  · exact .inr ⟨h, if_neg h⟩

theorem inner_cases (p : Process) :
    (p.tCurrent < p.tAlignStop ∧ p.inner = p.goto (.GetBuffer .inner)) ∨
    (¬ p.tCurrent < p.tAlignStop ∧ 1 < p.pin.Actual.cBuffers ∧ p.inner = p.goto (.WaitForNext .last)) ∨
    (¬ p.tCurrent < p.tAlignStop ∧ ¬ 1 < p.pin.Actual.cBuffers ∧ p.inner = p.finish [.EndOfStream]) := by
  unfold inner
  by_cases h : p.tCurrent < p.tAlignStop
  · exact .inl ⟨h, if_pos h⟩
  · rw [if_neg h]
    by_cases hc : 1 < p.pin.Actual.cBuffers
    · exact .inr (.inl ⟨h, hc, if_pos hc⟩)
    · exact .inr (.inr ⟨h, hc, by rw [if_neg hc, outer, if_neg h]⟩)

/-- `bDiscontinuity` says whether the next sample is the first. -/
def Fresh (p : Process) : Prop := p.bDiscontinuity = true ↔ received p.calls = [] ∧ p.requested = []

/-- What holds of the loops at each of the calls. -/
def AtPlace (p : Process) : Prop :=
  match p.place with
  | .CheckRequest =>
    p.tCurrent < p.tAlignStop ∧ p.requested = [] ∧ p.Fresh ∧ (p.pin.m_bSync = false → received p.calls = [])
  | .GetBuffer c =>
    p.pin.m_bSync = false ∧ p.tCurrent < p.tAlignStop ∧ p.requested.length = p.pin.owed c ∧ p.Fresh ∧
      (c = .inner ∨ c = .first ∧ 1 < p.pin.Actual.cBuffers ∧ received p.calls = [])
  | .Request c _ =>
    p.pin.m_bSync = false ∧ p.requested.length = p.pin.owed c ∧ (c = .inner ∨ c = .first ∧ 1 < p.pin.Actual.cBuffers)
  | .WaitForNext c =>
    p.pin.m_bSync = false ∧ p.bDiscontinuity = false ∧
      (c = .inner ∧ p.requested.length = p.pin.owed .inner + 1 ∨
        c = .last ∧ p.requested.length = 1 ∧ ¬ p.tCurrent < p.tAlignStop)
  | .Receive c =>
    p.pin.m_bSync = false ∧ p.bDiscontinuity = false ∧ received p.calls ≠ [] ∧
      (c = .inner ∧ p.requested.length = p.pin.owed .inner ∨
        c = .last ∧ p.requested = [] ∧ ¬ p.tCurrent < p.tAlignStop)
  | .GetBufferSync => p.pin.m_bSync = true ∧ p.tCurrent < p.tAlignStop ∧ p.requested = [] ∧ p.Fresh
  | .SyncReadAligned _ => p.pin.m_bSync = true ∧ p.bDiscontinuity = false ∧ p.requested = []
  | .ReceiveSync => p.pin.m_bSync = true ∧ p.bDiscontinuity = false ∧ p.requested = [] ∧ received p.calls ≠ []
  | .CleanupCancelled _ | .returned => True

/-- `EndOfStream` and `OnError` are called at the end only, and `EndOfStream` when
all has been passed on. -/
def Called (p : Process) : Prop :=
  OnlyReceive p.calls ∨
  p.place = .returned ∧ ∃ calls c, OnlyReceive calls ∧ p.calls = calls ++ [c] ∧ (∀ s, c ≠ .Receive s) ∧
    (c = .EndOfStream → p.requested = [] ∧ (p.tCurrent < p.tAlignStop → p.pin.m_tStop ≤ p.pin.m_tStart))

structure Standing (p : Process) : Prop where
  place : p.AtPlace
  calls : p.Called
  count : p.got = p.released + p.requested.length + p.hand

theorem Standing.open_calls (h : Standing p) (hp : p.place ≠ .returned) : OnlyReceive p.calls :=
  h.calls.resolve_right fun hc => hp hc.1

theorem called_goto (h : OnlyReceive p.calls) (place : Place) : (p.goto place).Called := .inl h

theorem standing_outer (hcalls : OnlyReceive p.calls) (hreq : p.requested = []) (hf : p.Fresh)
    (hs : p.pin.m_bSync = false → p.tCurrent < p.tAlignStop → received p.calls = []) (hn : p.got = p.released) :
    Standing p.outer := by
  rcases p.outer_cases with ⟨hlt, he⟩ | ⟨hge, he⟩
  · rw [he]
    exact ⟨⟨hlt, hreq, hf, fun h => hs h hlt⟩, called_goto hcalls _, by simpa [goto, hand, hreq] using hn⟩
  · rw [he]
    refine ⟨trivial, .inr ⟨rfl, p.calls, .EndOfStream, hcalls, rfl, by rintro _ ⟨⟩, fun _ => ⟨hreq, fun h => absurd h hge⟩⟩, ?_⟩
    simpa [finish, hand, hreq] using hn

theorem standing_inner (hcalls : OnlyReceive p.calls) (hsync : p.pin.m_bSync = false)
    (hreq : p.requested.length = p.pin.owed .inner) (hf : p.Fresh) (hn : p.got = p.released + p.requested.length)
    (hb : ¬ p.tCurrent < p.tAlignStop → p.bDiscontinuity = false) : Standing p.inner := by
  rcases p.inner_cases with ⟨hlt, he⟩ | ⟨hge, hc, he⟩ | ⟨hge, hc, he⟩
  · rw [he]
    exact ⟨⟨hsync, hlt, hreq, hf, .inl rfl⟩, called_goto hcalls _, by simpa [goto, hand] using hn⟩
  · rw [he]
    have hone : p.requested.length = 1 := by simpa [owed, hc] using hreq
    exact ⟨⟨hsync, hb hge, .inr ⟨rfl, hone, hge⟩⟩, called_goto hcalls _, by simpa [goto, hand] using hn⟩
  · rw [he]
    have hnil : p.requested = [] := by simpa [owed, hc] using hreq
    refine ⟨trivial, .inr ⟨rfl, p.calls, .EndOfStream, hcalls, rfl, by rintro _ ⟨⟩, fun _ => ⟨hnil, fun h => absurd h hge⟩⟩, ?_⟩
    simpa [finish, hand] using hn

/-- `Process` returns with a call of `OnError`, or with none. -/
theorem standing_finish (hcalls : OnlyReceive p.calls) (hn : p.got = p.released + p.requested.length)
    {calls : List Call} (he : calls = [] ∨ ∃ hr, calls = [.OnError hr]) : Standing (p.finish calls) := by
  rcases he with rfl | ⟨hr, rfl⟩
  · exact ⟨trivial, .inl (by simpa [finish] using hcalls), by simpa [finish, hand] using hn⟩
  · exact ⟨trivial, .inr ⟨rfl, p.calls, .OnError hr, hcalls, rfl, by rintro _ ⟨⟩, by rintro ⟨⟩⟩, by simpa [finish, hand] using hn⟩

theorem standing_cancel (hcalls : OnlyReceive p.calls) (hn : p.got = p.released + p.requested.length)
    (hr : HRESULT) : Standing (p.goto (.CleanupCancelled hr)) :=
  ⟨trivial, called_goto hcalls _, by simpa [goto, hand] using hn⟩

theorem standing_CheckRequest (h : Standing p) {asked : Bool} (hs : p.CheckRequest asked = some q) : Standing q := by
  have hat := h.place
  have hn := h.count
  cases hp : p.place with
  | CheckRequest =>
    have hcalls := h.open_calls (by rw [hp]; exact nofun)
    simp only [AtPlace, hp] at hat
    simp only [hand, hp, Nat.add_zero] at hn
    simp only [CheckRequest, hp] at hs
    obtain ⟨hlt, hreq, hf, hrec⟩ := hat
    split at hs
    · cases hs
      exact standing_finish hcalls hn (.inl rfl)
    · split at hs
      · rename_i hsync
        cases hs
        exact ⟨⟨hsync, hlt, hreq, hf⟩, called_goto hcalls _, by simpa [goto, hand] using hn⟩
      · rename_i hsync
        have hsync : p.pin.m_bSync = false := by simpa using hsync
        split at hs
        · rename_i hc
          cases hs
          refine ⟨⟨hsync, hlt, ?_, hf, .inr ⟨rfl, hc, hrec hsync⟩⟩, called_goto hcalls _, by simpa [goto, hand] using hn⟩
          simp [owed, goto, hreq]
        · rename_i hc
          cases hs
          exact standing_inner hcalls hsync (by simp [owed, hc, hreq]) hf hn fun hge => absurd hlt hge
  | _ => simp [CheckRequest, hp] at hs

theorem standing_GetBuffer (h : Standing p) {r : Except HRESULT CMediaSample} (hs : p.GetBuffer r = some q) :
    Standing q := by
  have hat := h.place
  have hn := h.count
  cases hp : p.place with
  | GetBuffer c =>
    have hcalls := h.open_calls (by rw [hp]; exact nofun)
    simp only [AtPlace, hp] at hat
    simp only [hand, hp, Nat.add_zero] at hn
    obtain ⟨hsync, -, hreq, -, hc⟩ := hat
    cases r with
    | error hr =>
      simp only [GetBuffer, hp] at hs
      cases hs
      exact standing_finish hcalls hn (.inl rfl)
    | ok pSample =>
      simp only [GetBuffer, hp] at hs
      cases hs
      unfold goto stamp
      exact ⟨⟨hsync, hreq, hc.imp_right fun hc => ⟨hc.1, hc.2.1⟩⟩, .inl hcalls, by simp only [hand]; omega⟩
  | GetBufferSync =>
    have hcalls := h.open_calls (by rw [hp]; exact nofun)
    simp only [AtPlace, hp] at hat
    simp only [hand, hp, Nat.add_zero] at hn
    obtain ⟨hsync, -, hreq, -⟩ := hat
    cases r with
    | error hr =>
      simp only [GetBuffer, hp] at hs
      cases hs
      exact standing_finish hcalls hn (.inr ⟨hr, rfl⟩)
    | ok pSample =>
      simp only [GetBuffer, hp] at hs
      unfold goto stamp at hs
      have hcount : p.got + 1 = p.released + p.requested.length + 1 := by omega
      split at hs
      · cases hs
        exact ⟨⟨hsync, rfl, hreq⟩, .inl hcalls, hcount⟩
      · cases hs
        exact ⟨⟨hsync, rfl, hreq⟩, .inl hcalls, hcount⟩
  | _ => simp [GetBuffer, hp] at hs

theorem standing_Request (h : Standing p) {hr : HRESULT} (hs : p.Request hr = some q) : Standing q := by
  have hat := h.place
  have hn := h.count
  cases hp : p.place with
  | Request c pSample =>
    have hcalls := h.open_calls (by rw [hp]; exact nofun)
    simp only [AtPlace, hp] at hat
    simp only [hand, hp] at hn
    obtain ⟨hsync, hreq, hc⟩ := hat
    simp only [Request, hp] at hs
    split at hs
    · cases hs
      exact standing_cancel (p := p.Release) hcalls (by simp only [Release]; omega) hr
    · have hlen : (p.queue pSample).requested.length = p.requested.length + 1 := by simp [queue]
      have hcount : (p.queue pSample).got = (p.queue pSample).released + (p.queue pSample).requested.length := by
        rw [hlen]
        exact hn
      rcases hc with rfl | ⟨rfl, hc⟩
      · rw [if_neg nofun] at hs
        cases hs
        refine ⟨⟨hsync, rfl, .inl ⟨rfl, ?_⟩⟩, called_goto (p := p.queue pSample) hcalls _, hcount⟩
        exact hlen.trans (by rw [hreq]; rfl)
      · rw [if_pos rfl] at hs
        cases hs
        refine standing_inner (p := p.queue pSample) hcalls hsync ?_ ⟨nofun, fun hnil => absurd hnil.2 (by simp [queue])⟩ hcount fun _ => rfl
        rw [hlen, hreq]
        simp [owed, queue, hc]
  | _ => simp [Request, hp] at hs

theorem standing_WaitForNext (h : Standing p) {hr : HRESULT} {next : Option (Nat × List BYTE)}
    (hs : p.WaitForNext hr next = some q) : Standing q := by
  have hat := h.place
  have hn := h.count
  cases hp : p.place with
  | WaitForNext c =>
    have hcalls := h.open_calls (by rw [hp]; exact nofun)
    simp only [AtPlace, hp] at hat
    simp only [hand, hp, Nat.add_zero] at hn
    obtain ⟨hsync, hb, hc⟩ := hat
    cases next with
    | none =>
      simp only [WaitForNext, hp] at hs
      obtain ⟨-, ⟨⟩⟩ := Option.ite_none_right_eq_some.1 hs
      exact standing_cancel hcalls hn hr
    | some next =>
      simp only [WaitForNext, hp] at hs
      obtain ⟨pSample, hget, hs⟩ := Option.bind_eq_some_iff.1 hs
      obtain ⟨hi, -⟩ := List.getElem?_eq_some_iff.1 hget
      have hlen := List.length_eraseIdx_of_lt hi
      split at hs
      · cases hs
        refine standing_cancel (p := Release { p with requested := p.requested.eraseIdx next.1 }) hcalls ?_ hr
        simp only [Release, hlen]
        omega
      · cases hs
        refine ⟨⟨hsync, hb, ?_, ?_⟩, .inl (hcalls.snoc _), ?_⟩
        · rw [deliver, received_append]
          simp
        · rcases hc with ⟨rfl, hc⟩ | ⟨rfl, hc, hge⟩
          · refine .inl ⟨rfl, ?_⟩
            simp only [deliver, hlen, hc]
            rfl
          · refine .inr ⟨rfl, List.length_eq_zero_iff.1 ?_, hge⟩
            simp only [deliver, hlen, hc]
        · simp only [deliver, hand, hlen]
          omega
  | _ => simp [WaitForNext, hp] at hs

theorem standing_SyncReadAligned (h : Standing p) {hr : HRESULT} {bytes : List BYTE}
    (hs : p.SyncReadAligned hr bytes = some q) : Standing q := by
  have hat := h.place
  have hn := h.count
  cases hp : p.place with
  | SyncReadAligned pSample =>
    have hcalls := h.open_calls (by rw [hp]; exact nofun)
    simp only [AtPlace, hp] at hat
    simp only [hand, hp] at hn
    obtain ⟨hsync, hb, hreq⟩ := hat
    simp only [SyncReadAligned, hp] at hs
    split at hs
    · cases hs
      exact standing_finish (p := p.Release) hcalls (by simp only [Release]; omega) (.inr ⟨hr, rfl⟩)
    · cases hs
      refine ⟨⟨hsync, hb, hreq, ?_⟩, .inl (hcalls.snoc _), hn⟩
      rw [deliver, received_append]
      simp
  | _ => simp [SyncReadAligned, hp] at hs

theorem standing_Receive (h : Standing p) {hr : HRESULT} (hs : p.Receive hr = some q) : Standing q := by
  have hat := h.place
  have hn := h.count
  cases hp : p.place with
  | Receive c =>
    have hcalls := h.open_calls (by rw [hp]; exact nofun)
    simp only [AtPlace, hp] at hat
    simp only [hand, hp] at hn
    obtain ⟨hsync, hb, hrec, hc⟩ := hat
    have hcount : p.Release.got = p.Release.released + p.Release.requested.length := by
      simp only [Release]
      omega
    have hf : p.Release.Fresh := by
      refine ⟨fun h => ?_, fun h => absurd h.1 hrec⟩
      rw [show p.bDiscontinuity = true from h] at hb
      cases hb
    simp only [Receive, hp] at hs
    split at hs
    · cases hs
      exact standing_cancel (p := p.Release) hcalls hcount hr
    · split at hs
      · rename_i hlast
        cases hs
        obtain ⟨-, hreq, hge⟩ := hc.resolve_left fun hc => by rw [hlast] at hc; cases hc.1
        have hreq : p.Release.requested = [] := hreq
        refine standing_outer (p := p.Release) hcalls hreq hf (fun _ hlt => absurd hlt hge) ?_
        rw [hcount, hreq]
        rfl
      · rename_i hlast
        obtain ⟨-, hreq⟩ := hc.resolve_right fun hc => hlast hc.1
        split at hs
        · cases hs
          exact standing_finish (p := p.Release) hcalls hcount (.inl rfl)
        · cases hs
          exact standing_inner (p := p.Release) hcalls hsync hreq hf hcount fun _ => hb
  | ReceiveSync =>
    have hcalls := h.open_calls (by rw [hp]; exact nofun)
    simp only [AtPlace, hp] at hat
    simp only [hand, hp] at hn
    obtain ⟨hsync, hb, hreq, hrec⟩ := hat
    have hcount : p.Release.got = p.Release.released + p.Release.requested.length := by
      simp only [Release]
      omega
    have hf : p.Release.Fresh := by
      refine ⟨fun h => ?_, fun h => absurd h.1 hrec⟩
      rw [show p.bDiscontinuity = true from h] at hb
      cases hb
    simp only [Receive, hp] at hs
    split at hs
    · cases hs
      refine standing_finish (p := p.Release) hcalls hcount ?_
      split
      · exact .inr ⟨hr, rfl⟩
      · exact .inl rfl
    · cases hs
      refine standing_outer (p := p.Release) hcalls hreq hf (fun h => ?_) (by rw [hcount, show p.Release.requested = [] from hreq]; rfl)
      rw [show p.pin.m_bSync = false from h] at hsync
      cases hsync
  | _ => simp [Receive, hp] at hs

theorem standing_Cancelled (h : Standing p) {next : Option Nat} (hs : p.Cancelled next = some q) : Standing q := by
  have hn := h.count
  cases hp : p.place with
  | CleanupCancelled hr =>
    have hcalls := h.open_calls (by rw [hp]; exact nofun)
    simp only [hand, hp, Nat.add_zero] at hn
    cases next with
    | none =>
      simp only [Cancelled, hp] at hs
      cases hs
      exact standing_finish hcalls hn (.inr ⟨hr, rfl⟩)
    | some i =>
      simp only [Cancelled, hp] at hs
      obtain ⟨hi, ⟨⟩⟩ := Option.ite_none_right_eq_some.1 hs
      refine ⟨by simp [AtPlace, Release, hp], .inl hcalls, ?_⟩
      simp only [Release, hand, hp, List.length_eraseIdx_of_lt hi]
      omega
  | _ => simp [Cancelled, hp] at hs

theorem standing_step (h : Standing p) {e : Event} (hs : p.step e = some q) : Standing q := by
  cases e with
  | CheckRequest asked => exact standing_CheckRequest h hs
  | GetBuffer r => exact standing_GetBuffer h hs
  | Request hr => exact standing_Request h hs
  | WaitForNext hr next => exact standing_WaitForNext h hs
  | SyncReadAligned hr bytes => exact standing_SyncReadAligned h hs
  | Receive hr => exact standing_Receive h hs
  | Cancelled next => exact standing_Cancelled h hs

theorem standing_start (pin : CPullPin) : Standing (start pin) := by
  unfold start
  dsimp only
  split
  · rename_i hle
    exact ⟨trivial, .inr ⟨rfl, [], .EndOfStream, rfl, rfl, by rintro _ ⟨⟩, fun _ => ⟨rfl, fun _ => hle⟩⟩, rfl⟩
  · exact standing_outer rfl rfl ⟨fun _ => ⟨rfl, rfl⟩, fun _ => rfl⟩ (fun _ _ => rfl) rfl

theorem standing (hrun : Runs step C (start pin) es p) : Standing p :=
  hrun.inv Standing (standing_start pin) fun _ _ _ h _ hs => standing_step h hs

/-! ## What a step does -/

/-- The bounds of the loops do not change. -/
def SameBounds (p q : Process) : Prop :=
  q.pin = p.pin ∧ q.tStart = p.tStart ∧ q.tStop = p.tStop ∧ q.tAlignStop = p.tAlignStop

theorem outer_bounds (p : Process) : SameBounds p p.outer := by
  rcases p.outer_cases with ⟨-, he⟩ | ⟨-, he⟩ <;> rw [he] <;> exact ⟨rfl, rfl, rfl, rfl⟩

theorem inner_bounds (p : Process) : SameBounds p p.inner := by
  rcases p.inner_cases with ⟨-, he⟩ | ⟨-, -, he⟩ | ⟨-, -, he⟩ <;> rw [he] <;> exact ⟨rfl, rfl, rfl, rfl⟩

theorem bounds_step {e : Event} (hs : p.step e = some q) : SameBounds p q := by
  cases e with
  | CheckRequest asked =>
    unfold step CheckRequest at hs
    dsimp only at hs
    repeat' split at hs
    all_goals cases hs
    · exact ⟨rfl, rfl, rfl, rfl⟩
    · exact ⟨rfl, rfl, rfl, rfl⟩
    · exact ⟨rfl, rfl, rfl, rfl⟩
    · exact p.inner_bounds
  | GetBuffer r =>
    cases hp : p.place with
    | GetBuffer c =>
      cases r with
      | error hr =>
        simp only [step, GetBuffer, hp] at hs
        cases hs
        exact ⟨rfl, rfl, rfl, rfl⟩
      | ok s =>
        simp only [step, GetBuffer, hp, goto, stamp] at hs
        cases hs
        exact ⟨rfl, rfl, rfl, rfl⟩
    | GetBufferSync =>
      cases r with
      | error hr =>
        simp only [step, GetBuffer, hp] at hs
        cases hs
        exact ⟨rfl, rfl, rfl, rfl⟩
      | ok s =>
        simp only [step, GetBuffer, hp, goto, stamp] at hs
        split at hs <;> cases hs <;> exact ⟨rfl, rfl, rfl, rfl⟩
    | _ => simp [step, GetBuffer, hp] at hs
  | Request hr =>
    unfold step Request at hs
    dsimp only at hs
    repeat' split at hs
    all_goals cases hs
    · exact ⟨rfl, rfl, rfl, rfl⟩
    · exact (p.queue _).inner_bounds
    · exact ⟨rfl, rfl, rfl, rfl⟩
  | WaitForNext hr next =>
    unfold step WaitForNext at hs
    dsimp only at hs
    split at hs
    · obtain ⟨-, ⟨⟩⟩ := Option.ite_none_right_eq_some.1 hs
      exact ⟨rfl, rfl, rfl, rfl⟩
    · obtain ⟨s, -, hs⟩ := Option.bind_eq_some_iff.1 hs
      split at hs <;> cases hs <;> exact ⟨rfl, rfl, rfl, rfl⟩
    · cases hs
  | SyncReadAligned hr bytes =>
    unfold step SyncReadAligned at hs
    dsimp only at hs
    repeat' split at hs
    all_goals cases hs
    all_goals exact ⟨rfl, rfl, rfl, rfl⟩
  | Receive hr =>
    unfold step Receive at hs
    dsimp only at hs
    repeat' split at hs
    all_goals cases hs
    · exact ⟨rfl, rfl, rfl, rfl⟩
    · exact p.Release.outer_bounds
    · exact ⟨rfl, rfl, rfl, rfl⟩
    · exact p.Release.inner_bounds
    · exact ⟨rfl, rfl, rfl, rfl⟩
    · exact ⟨rfl, rfl, rfl, rfl⟩
    · exact p.Release.outer_bounds
  | Cancelled next =>
    unfold step Cancelled at hs
    dsimp only at hs
    repeat' split at hs
    all_goals cases hs
    all_goals exact ⟨rfl, rfl, rfl, rfl⟩

/-- Nothing has gone wrong, and nobody has stopped the thread. -/
def Live (p : Process) : Prop :=
  match p.place with
  | .CleanupCancelled _ => False
  | .returned => .EndOfStream ∈ p.calls
  | _ => True

/-- The discontinuity flag. -/
def flag (s : CMediaSample) : Bool := s.m_dwFlags.has .Discontinuity

/-- What a step does to the samples that are out, and to those passed on. -/
inductive Progress (p q : Process) : Event → Prop
  | stay {e : Event} (live : p.Live ∧ q.Live) (received : received q.calls = received p.calls)
      (outstanding : q.outstanding = p.outstanding) (tCurrent : q.tCurrent = p.tCurrent) : Progress p q e
  | stamp {s s' : CMediaSample} (live : p.Live ∧ q.Live) (lt : p.tCurrent < p.tAlignStop)
      (received : received q.calls = received p.calls) (outstanding : q.outstanding = p.outstanding ++ [s'])
      (tCurrent : q.tCurrent = p.stopThis s) (time : s'.GetTime = (NOERROR, some (p.tCurrent, p.stopThis s)))
      (size : s'.m_cbBuffer = s.m_cbBuffer)
      (flag : flag s = false → flag s' = decide (Process.received p.calls ++ p.outstanding = [])) :
      Progress p q (.GetBuffer (.ok s))
  | read {hr : HRESULT} {i : Nat} {s : CMediaSample} {bytes : List BYTE} (live : p.Live ∧ q.Live)
      (received : received q.calls = received p.calls ++ [p.fixUp (s.fill bytes)]) (get : p.outstanding[i]? = some s)
      (outstanding : q.outstanding = p.outstanding.eraseIdx i) (tCurrent : q.tCurrent = p.tCurrent) :
      Progress p q (.WaitForNext hr (some (i, bytes)))
  | readSync {hr : HRESULT} {s : CMediaSample} {bytes : List BYTE} (live : p.Live ∧ q.Live)
      (received : received q.calls = received p.calls ++ [p.fixUp (s.fill bytes)]) (get : p.outstanding = [s])
      (outstanding : q.outstanding = []) (tCurrent : q.tCurrent = p.tCurrent) :
      Progress p q (.SyncReadAligned hr bytes)
  | stop {e : Event} (live : ¬ q.Live) (received : received q.calls = received p.calls) : Progress p q e

theorem outstanding_outer (p : Process) : p.outer.outstanding = p.requested := by
  rcases p.outer_cases with ⟨-, he⟩ | ⟨-, he⟩ <;> rw [he] <;> exact List.append_nil _

theorem outstanding_inner (p : Process) : p.inner.outstanding = p.requested := by
  rcases p.inner_cases with ⟨-, he⟩ | ⟨-, -, he⟩ | ⟨-, -, he⟩ <;> rw [he] <;> exact List.append_nil _

theorem live_outer (p : Process) : p.outer.Live ∧ received p.outer.calls = received p.calls ∧ p.outer.tCurrent = p.tCurrent := by
  rcases p.outer_cases with ⟨-, he⟩ | ⟨-, he⟩ <;> rw [he]
  · exact ⟨trivial, rfl, rfl⟩
  · exact ⟨by simp [Live, finish], by simp [finish], rfl⟩

theorem live_inner (p : Process) : p.inner.Live ∧ received p.inner.calls = received p.calls ∧ p.inner.tCurrent = p.tCurrent := by
  rcases p.inner_cases with ⟨-, he⟩ | ⟨-, -, he⟩ | ⟨-, -, he⟩ <;> rw [he]
  · exact ⟨trivial, rfl, rfl⟩
  · exact ⟨trivial, rfl, rfl⟩
  · exact ⟨by simp [Live, finish], by simp [finish], rfl⟩

/-- Before the first step nothing has been passed on, and nothing is out. -/
theorem start_new (pin : CPullPin) :
    (start pin).pin = pin ∧ received (start pin).calls = [] ∧ (start pin).outstanding = [] := by
  unfold start
  dsimp only
  split
  · exact ⟨rfl, rfl, rfl⟩
  · exact ⟨(outer_bounds _).1, (live_outer _).2.1, outstanding_outer _⟩

theorem runs_pin (hrun : Runs step C (start pin) es p) : p.pin = pin :=
  hrun.inv (fun t => t.pin = pin) (start_new pin).1 fun _ _ _ ht _ hs => (bounds_step hs).1.trans ht

/-- `Process` returns without `EndOfStream`. -/
theorem not_live_finish {calls : List Call} (h : OnlyReceive p.calls) (he : calls = [] ∨ ∃ hr, calls = [.OnError hr]) :
    ¬ (p.finish calls).Live ∧ received (p.finish calls).calls = received p.calls := by
  have hmem := h.not_ended
  rcases he with rfl | ⟨hr, rfl⟩
  · simpa [Live, finish] using hmem
  · simpa [Live, finish] using hmem

theorem flag_SetTime (s : CMediaSample) (a b : REFERENCE_TIME) : flag (s.SetTime a b) = flag s := by
  simp [flag, CMediaSample.SetTime]

theorem flag_SetDiscontinuity (s : CMediaSample) (b : Bool) : flag (s.SetDiscontinuity b) = b := by
  simp [flag, CMediaSample.SetDiscontinuity]

theorem GetTime_stamped (p : Process) (s : CMediaSample) (b : Bool) :
    ((p.stamped s).SetDiscontinuity b).GetTime = (NOERROR, some (p.tCurrent, p.stopThis s)) := by
  simp [CMediaSample.SetDiscontinuity, stamped]

theorem Fresh.flag (h : p.Fresh) : p.bDiscontinuity = decide (received p.calls ++ p.requested = []) := by
  rw [Bool.eq_iff_iff, decide_eq_true_iff, List.append_eq_nil_iff]
  exact h

theorem Progress.finish {e : Event} {r : Process} {calls : List Call} (hcalls : OnlyReceive r.calls)
    (hrec : received r.calls = received p.calls) (he : calls = [] ∨ ∃ hr, calls = [.OnError hr]) :
    Progress p (r.finish calls) e := by
  obtain ⟨hdead, hsame⟩ := not_live_finish hcalls he
  exact .stop hdead (hsame.trans hrec)

theorem Progress.outer {e : Event} {r : Process} (hlive : p.Live) (hrec : received r.calls = received p.calls)
    (hout : p.outstanding = r.requested) (hc : r.tCurrent = p.tCurrent) : Progress p r.outer e := by
  obtain ⟨hl, hsame, hcur⟩ := r.live_outer
  exact .stay ⟨hlive, hl⟩ (hsame.trans hrec) (r.outstanding_outer.trans hout.symm) (hcur.trans hc)

theorem Progress.inner {e : Event} {r : Process} (hlive : p.Live) (hrec : received r.calls = received p.calls)
    (hout : p.outstanding = r.requested) (hc : r.tCurrent = p.tCurrent) : Progress p r.inner e := by
  obtain ⟨hl, hsame, hcur⟩ := r.live_inner
  exact .stay ⟨hlive, hl⟩ (hsame.trans hrec) (r.outstanding_inner.trans hout.symm) (hcur.trans hc)

theorem progress_CheckRequest (h : Standing p) {asked : Bool} (hs : p.CheckRequest asked = some q) :
    Progress p q (.CheckRequest asked) := by
  cases hp : p.place with
  | CheckRequest =>
    have hcalls := h.open_calls (by rw [hp]; exact nofun)
    have hlive : p.Live := by simp [Live, hp]
    have hout : p.outstanding = p.requested := by simp [outstanding, hp]
    simp only [CheckRequest, hp] at hs
    split at hs
    · cases hs
      exact .finish hcalls rfl (.inl rfl)
    · split at hs
      · cases hs
        exact .stay ⟨hlive, trivial⟩ rfl (hout.symm ▸ List.append_nil _) rfl
      · split at hs
        · cases hs
          exact .stay ⟨hlive, trivial⟩ rfl (hout.symm ▸ List.append_nil _) rfl
        · cases hs
          exact .inner hlive rfl hout rfl
  | _ => simp [CheckRequest, hp] at hs

theorem progress_GetBuffer (h : Standing p) {r : Except HRESULT CMediaSample} (hs : p.GetBuffer r = some q) :
    Progress p q (.GetBuffer r) := by
  have hat := h.place
  cases hp : p.place with
  | GetBuffer c =>
    have hcalls := h.open_calls (by rw [hp]; exact nofun)
    have hlive : p.Live := by simp [Live, hp]
    have hout : p.outstanding = p.requested := by simp [outstanding, hp]
    simp only [AtPlace, hp] at hat
    obtain ⟨-, hlt, hreq, hf, hc⟩ := hat
    cases r with
    | error hr =>
      simp only [GetBuffer, hp] at hs
      cases hs
      exact .finish hcalls rfl (.inl rfl)
    | ok s =>
      simp only [GetBuffer, hp, goto, stamp] at hs
      cases hs
      refine .stamp ⟨hlive, trivial⟩ hlt rfl (by rw [hout]; rfl) rfl (p.GetTime_stamped s _) rfl fun _ => ?_
      rw [flag_SetDiscontinuity, hout, ← hf.flag]
      rcases hc with rfl | ⟨rfl, -, hnil⟩
      · rw [if_neg nofun]
      · -- in front of the inner loop the flag is set anyhow: nothing has been queued
        have hnone : p.requested = [] := List.length_eq_zero_iff.1 hreq
        rw [if_pos rfl, hf.flag, hnil, hnone]
        rfl
  | GetBufferSync =>
    have hcalls := h.open_calls (by rw [hp]; exact nofun)
    have hlive : p.Live := by simp [Live, hp]
    have hout : p.outstanding = p.requested := by simp [outstanding, hp]
    simp only [AtPlace, hp] at hat
    obtain ⟨-, hlt, hreq, hf⟩ := hat
    cases r with
    | error hr =>
      simp only [GetBuffer, hp] at hs
      cases hs
      exact .finish hcalls rfl (.inr ⟨hr, rfl⟩)
    | ok s =>
      simp only [GetBuffer, hp, goto, stamp] at hs
      split at hs
      · rename_i hb
        cases hs
        refine .stamp ⟨hlive, trivial⟩ hlt rfl (by rw [hout]; rfl) rfl (p.GetTime_stamped s _) rfl fun _ => ?_
        rw [flag_SetDiscontinuity, hout, ← hf.flag, hb]
      · rename_i hb
        cases hs
        refine .stamp ⟨hlive, trivial⟩ hlt rfl (by rw [hout]; rfl) rfl (s.GetTime_SetTime _ _) rfl fun hflag => ?_
        rw [hout, ← hf.flag, flag_SetTime, hflag]
        simpa using hb
  | _ => simp [GetBuffer, hp] at hs

theorem progress_Request {hr : HRESULT} (hs : p.Request hr = some q) : Progress p q (.Request hr) := by
  cases hp : p.place with
  | Request c s =>
    have hlive : p.Live := by simp [Live, hp]
    have hout : p.outstanding = p.requested ++ [s] := by simp [outstanding, hp]
    simp only [Request, hp] at hs
    split at hs
    · cases hs
      exact .stop id rfl
    · split at hs
      · cases hs
        exact .inner (r := p.queue s) hlive rfl hout rfl
      · cases hs
        exact .stay ⟨hlive, trivial⟩ rfl (hout.symm ▸ List.append_nil _) rfl
  | _ => simp [Request, hp] at hs

theorem progress_WaitForNext {hr : HRESULT} {next : Option (Nat × List BYTE)} (hs : p.WaitForNext hr next = some q) :
    Progress p q (.WaitForNext hr next) := by
  cases hp : p.place with
  | WaitForNext c =>
    have hlive : p.Live := by simp [Live, hp]
    have hout : p.outstanding = p.requested := by simp [outstanding, hp]
    cases next with
    | none =>
      simp only [WaitForNext, hp] at hs
      obtain ⟨-, ⟨⟩⟩ := Option.ite_none_right_eq_some.1 hs
      exact .stop id rfl
    | some next =>
      simp only [WaitForNext, hp] at hs
      obtain ⟨s, hget, hs⟩ := Option.bind_eq_some_iff.1 hs
      split at hs
      · cases hs
        exact .stop id rfl
      · cases hs
        refine .read ⟨hlive, trivial⟩ ?_ (hout.symm ▸ hget) (hout.symm ▸ List.append_nil _) rfl
        simp [deliver]
        rfl
  | _ => simp [WaitForNext, hp] at hs

theorem progress_SyncReadAligned (h : Standing p) {hr : HRESULT} {bytes : List BYTE}
    (hs : p.SyncReadAligned hr bytes = some q) : Progress p q (.SyncReadAligned hr bytes) := by
  have hat := h.place
  cases hp : p.place with
  | SyncReadAligned s =>
    have hcalls := h.open_calls (by rw [hp]; exact nofun)
    have hlive : p.Live := by simp [Live, hp]
    simp only [AtPlace, hp] at hat
    have hout : p.outstanding = [s] := by simp [outstanding, hp, hat.2.2]
    simp only [SyncReadAligned, hp] at hs
    split at hs
    · cases hs
      exact .finish (r := p.Release) hcalls rfl (.inr ⟨hr, rfl⟩)
    · cases hs
      refine .readSync ⟨hlive, trivial⟩ ?_ hout ?_ rfl
      · simp [deliver]
      · simp [outstanding, deliver, hat.2.2]
  | _ => simp [SyncReadAligned, hp] at hs

theorem progress_Receive (h : Standing p) {hr : HRESULT} (hs : p.Receive hr = some q) : Progress p q (.Receive hr) := by
  cases hp : p.place with
  | Receive c =>
    have hcalls := h.open_calls (by rw [hp]; exact nofun)
    have hlive : p.Live := by simp [Live, hp]
    have hout : p.outstanding = p.requested := by simp [outstanding, hp]
    simp only [Receive, hp] at hs
    split at hs
    · cases hs
      exact .stop id rfl
    · split at hs
      · cases hs
        exact .outer (r := p.Release) hlive rfl hout rfl
      · split at hs
        · cases hs
          exact .finish (r := p.Release) hcalls rfl (.inl rfl)
        · cases hs
          exact .inner (r := p.Release) hlive rfl hout rfl
  | ReceiveSync =>
    have hcalls := h.open_calls (by rw [hp]; exact nofun)
    have hlive : p.Live := by simp [Live, hp]
    have hout : p.outstanding = p.requested := by simp [outstanding, hp]
    simp only [Receive, hp] at hs
    split at hs
    · cases hs
      split
      · exact .finish (r := p.Release) hcalls rfl (.inr ⟨hr, rfl⟩)
      · exact .finish (r := p.Release) hcalls rfl (.inl rfl)
    · cases hs
      exact .outer (r := p.Release) hlive rfl hout rfl
  | _ => simp [Receive, hp] at hs

theorem progress_Cancelled (h : Standing p) {next : Option Nat} (hs : p.Cancelled next = some q) :
    Progress p q (.Cancelled next) := by
  cases hp : p.place with
  | CleanupCancelled hr =>
    have hcalls := h.open_calls (by rw [hp]; exact nofun)
    cases next with
    | none =>
      simp only [Cancelled, hp] at hs
      cases hs
      exact .finish hcalls rfl (.inr ⟨hr, rfl⟩)
    | some i =>
      simp only [Cancelled, hp] at hs
      obtain ⟨-, ⟨⟩⟩ := Option.ite_none_right_eq_some.1 hs
      exact .stop (by simp [Live, Release, hp]) rfl
  | _ => simp [Cancelled, hp] at hs

/-- What every step does to the samples. -/
theorem progress (h : Standing p) {e : Event} (hs : p.step e = some q) : Progress p q e := by
  cases e with
  | CheckRequest asked => exact progress_CheckRequest h hs
  | GetBuffer r => exact progress_GetBuffer h hs
  | Request hr => exact progress_Request hs
  | WaitForNext hr next => exact progress_WaitForNext hs
  | SyncReadAligned hr bytes => exact progress_SyncReadAligned h hs
  | Receive hr => exact progress_Receive h hs
  | Cancelled next => exact progress_Cancelled h hs

end Process

end CPullPin

end FilterSln
