import FilterSln.SourcePin
import FilterSln.Lib.Timeline
/-!
# The worker thread of the source

`CSourceStream` of `source.cpp` over `CAMThread` of `wxutil.cpp`: client threads
send commands one at a time and wait for the reply, the worker thread answers
them and, between a `CMD_PAUSE` or `CMD_RUN` and the next `CMD_STOP`, fills and
delivers samples. The machine has the calls of the clients, the moments when the
thread looks for a command, and the results of `GetDeliveryBuffer` and `Deliver`
as its events, in any order that the two sides allow.

What a step does to the stream is `step_cases`: it is one `FillBuffer`, or it
leaves the pin and the samples passed on alone. For the source filter it follows
that frame `n` shows image `n` modulo three in the `n`-th unit of time, whatever
commands, failures and restarts come in between (`delivered_frames`).
-/

namespace FilterSln

open HRESULT Lib

/-- The words a client can send; `other` is none of the commands. -/
inductive Command where
  | CMD_INIT | CMD_PAUSE | CMD_RUN | CMD_STOP | CMD_EXIT
  | other (dw : Nat)
  deriving DecidableEq

/-- Where the thread is: in one of the two `GetRequest`s of `ThreadProc`, at one
of the three calls of `DoBufferProcessingLoop`, or at its end. -/
inductive ThreadProc where
  | GetInit
  | GetRequest
  | CheckRequest
  | GetDeliveryBuffer
  | Deliver
  | exited (code : DWORD)
  deriving DecidableEq

/-- The pure virtual function of a stream. -/
class SourceStream (π : Type) where
  FillBuffer : π → CMediaSample → Option (π × CMediaSample × HRESULT)

instance : SourceStream CMyOutputPin := ⟨CMyOutputPin.FillBuffer⟩

structure CSourceStream (π : Type) where
  pin : π
  /-- The thread, by the place where it is. -/
  m_hThread : Option ThreadProc
  /-- The word sent, while `m_EventSend` is set. -/
  m_dwParam : Option Command
  m_dwReturnVal : Option HRESULT
  /-- The samples passed to `Deliver` so far. -/
  delivered : List CMediaSample

namespace CSourceStream

def OnThreadCreate : HRESULT := NOERROR
def OnThreadDestroy : HRESULT := NOERROR

variable {π : Type}

def new (pin : π) : CSourceStream π := ⟨pin, none, none, none, []⟩

def Reply (s : CSourceStream π) (dw : HRESULT) : CSourceStream π :=
  { s with m_dwReturnVal := some dw, m_dwParam := none }

/-- The thread at another place. -/
def goto (s : CSourceStream π) (p : ThreadProc) : CSourceStream π := { s with m_hThread := some p }

/-! ## The machine -/

inductive Event where
  | Create (CreateThread : Bool)
  | CallWorker (dwParam : Command)
  | Close
  /-- The thread takes up a request, or sees that there is none. -/
  | request
  | GetDeliveryBuffer (r : Except HRESULT CMediaSample)
  /-- `Deliver` returns. -/
  | Deliver (hr : HRESULT)

/-- `m_AccessLock` is held by a client that waits for a reply. -/
def Create (s : CSourceStream π) (CreateThread : Bool) : Option (CSourceStream π) :=
  if s.m_dwParam.isSome then none
  else if s.m_hThread.isSome ∨ !CreateThread then some s
  else some (s.goto .GetInit)

def CallWorker (s : CSourceStream π) (dwParam : Command) : Option (CSourceStream π) :=
  if s.m_dwParam.isSome then none
  else if s.m_hThread.isNone then some s
  else some { s with m_dwParam := some dwParam }

/-- `Close` waits for the end of the thread. -/
def Close (s : CSourceStream π) : Option (CSourceStream π) :=
  match s.m_hThread with
  | none => some s
  | some (.exited _) => some { s with m_hThread := none }
  | some _ => none

/-- A command at each of the three places where the thread looks for one. -/
def request (s : CSourceStream π) : Option (CSourceStream π) :=
  match s.m_hThread, s.m_dwParam with
  | some .GetInit, some com =>
    if com ≠ .CMD_INIT then some (s.Reply E_UNEXPECTED)
    else if OnThreadCreate.FAILED then some ((s.Reply OnThreadCreate).goto (.exited 1))
    else some ((s.Reply NOERROR).goto .GetRequest)
  | some .GetRequest, some .CMD_EXIT =>
    some ((s.Reply NOERROR).goto (.exited (if OnThreadDestroy.FAILED then 1 else 0)))
  | some .GetRequest, some .CMD_RUN => some ((s.Reply NOERROR).goto .CheckRequest)
  | some .GetRequest, some .CMD_PAUSE => some ((s.Reply NOERROR).goto .CheckRequest)
  | some .GetRequest, some .CMD_STOP => some (s.Reply NOERROR)
  | some .GetRequest, some _ => some (s.Reply E_NOTIMPL)
  | some .CheckRequest, none => some (s.goto .GetDeliveryBuffer)
  | some .CheckRequest, some com =>
    if com = .CMD_RUN ∨ com = .CMD_PAUSE then some (s.Reply NOERROR)
    else if com ≠ .CMD_STOP then some (s.Reply E_UNEXPECTED)
    -- No reply: the request stays for `ThreadProc`.
    else some (s.goto .GetRequest)
  | _, _ => none

variable [SourceStream π]

/-- The loop up to the call of `Deliver`, or to its end when `FillBuffer` wants
it to stop or fails. -/
def fill (s : CSourceStream π) (pSample : CMediaSample) : Option (CSourceStream π) := do
  let (pin, pSample, hr) ← SourceStream.FillBuffer s.pin pSample
  if hr = S_OK then some ({ s with pin, delivered := s.delivered ++ [pSample] }.goto .Deliver)
  else some ({ s with pin }.goto .GetRequest)

def step (s : CSourceStream π) : Event → Option (CSourceStream π)
  | .Create CreateThread => s.Create CreateThread
  | .CallWorker dwParam => s.CallWorker dwParam
  | .Close => s.Close
  | .request => s.request
  | .GetDeliveryBuffer r =>
    if s.m_hThread = some .GetDeliveryBuffer then
      match r with
      | .ok pSample => s.fill pSample
      | .error hr => if hr.FAILED then some (s.goto .CheckRequest) else none
    else none
  | .Deliver hr =>
    if s.m_hThread = some .Deliver then
      if hr ≠ S_OK then some (s.goto .GetRequest) else some (s.goto .CheckRequest)
    else none

/-! ## What a step does to the stream -/

/-- A buffer arrives and is filled. -/
def Event.isFill : Event → Bool
  | .GetDeliveryBuffer (.ok _) => true
  | _ => false

/-- The pin and the samples passed on are as before. -/
def SameFrames (s s' : CSourceStream π) : Prop := s'.pin = s.pin ∧ s'.delivered = s.delivered

omit [SourceStream π] in
theorem request_frames {s s' : CSourceStream π} (h : s.request = some s') : SameFrames s s' := by
  unfold request at h
  split at h
  -- The places where the thread looks for a command, and last the ones where it does not.
  case h_9 => cases h
  case h_1 | h_8 =>
    split at h
    · cases h; exact ⟨rfl, rfl⟩
    · split at h <;> cases h <;> exact ⟨rfl, rfl⟩
  all_goals
    cases h
    exact ⟨rfl, rfl⟩

/-- A step is one `FillBuffer`, whose sample is passed on when it succeeds, or
does nothing to the stream. -/
theorem step_cases {s s' : CSourceStream π} {e : Event} (h : s.step e = some s') :
    (∃ pSample filled hr, e = .GetDeliveryBuffer (.ok pSample) ∧
      SourceStream.FillBuffer s.pin pSample = some (s'.pin, filled, hr) ∧
      s'.delivered = if hr = S_OK then s.delivered ++ [filled] else s.delivered) ∨
    (e.isFill = false ∧ SameFrames s s') := by
  cases e with
  | Create CreateThread =>
    right
    simp only [step, Create] at h
    split at h
    · cases h
    · split at h <;> cases h <;> exact ⟨rfl, rfl, rfl⟩
  | CallWorker dwParam =>
    right
    simp only [step, CallWorker] at h
    split at h
    · cases h
    · split at h <;> cases h <;> exact ⟨rfl, rfl, rfl⟩
  | Close =>
    right
    simp only [step, Close] at h
    split at h <;> cases h <;> exact ⟨rfl, rfl, rfl⟩
  | request => exact .inr ⟨rfl, request_frames h⟩
  | GetDeliveryBuffer r =>
    simp only [step] at h
    split at h
    · cases r with
      | error hr =>
        right
        dsimp only at h
        split at h <;> cases h
        exact ⟨rfl, rfl, rfl⟩
      | ok pSample =>
        left
        simp only [fill, Option.bind_eq_bind, Option.bind_eq_some_iff] at h
        obtain ⟨⟨pin, filled, hr⟩, hfill, h⟩ := h
        refine ⟨pSample, filled, hr, rfl, ?_⟩
        dsimp only at h
        split at h
        · rename_i hok
          cases h
          exact ⟨hfill, by rw [if_pos hok]; rfl⟩
        · rename_i hno
          cases h
          exact ⟨hfill, by rw [if_neg hno]; rfl⟩
    · cases h
  | Deliver hr =>
    right
    simp only [step] at h
    split at h
    · split at h <;> cases h <;> exact ⟨rfl, rfl, rfl⟩
    · cases h

/-! ## The frames of the source filter -/

/-- Start and stop of a sample. -/
def interval (pSample : CMediaSample) : Int × Int :=
  match pSample.GetTime.2 with
  | some (start, stop) => (start.toInt, stop.toInt)
  | none => (0, 0)

/-- The buffers that arrive have room for `m_nImageSize` bytes. -/
def Roomy (m_nImageSize : LONG) (_ : CSourceStream CMyOutputPin) : Event → Prop
  | .GetDeliveryBuffer (.ok pSample) => m_nImageSize ≤ pSample.m_cbBuffer
  | _ => True

/-- The three images are there and have the size of the pin. -/
def Loaded (pin : CMyOutputPin) (images : Fin 3 → Block) : Prop :=
  ∀ i, pin.image i = some (images i) ∧ pin.m_nImageSize = (images i).size

/-- After `k` fills: the counter stands at `k`, and `k` samples have been passed
on, each showing its image in its unit of time. -/
structure Frames (pin : CMyOutputPin) (images : Fin 3 → Block) (k : Nat) (s : CSourceStream CMyOutputPin) : Prop where
  pin : s.pin = pin.atFrame k
  count : s.delivered.length = k
  shows : ∀ n (pSample : CMediaSample), s.delivered[n]? = some pSample →
    CMyOutputPin.Shows (images (Fin.ofNat 3 n)).bytes n pSample
  tiles : Tiles 0 (s.delivered.map interval) (k * UNITS.toInt)

variable {pin : CMyOutputPin} {images : Fin 3 → Block}

theorem interval_of_shows {image : List BYTE} {n : Nat} {pSample : CMediaSample}
    (h : CMyOutputPin.Shows image n pSample) : interval pSample = (n * UNITS.toInt, (n + 1) * UNITS.toInt) := by
  obtain ⟨start, stop, htime, hstart, hstop⟩ := h.time
  rw [interval, htime, ← hstart, ← hstop]

/-- One more frame passed on. -/
theorem Frames.snoc {k : Nat} {s s' : CSourceStream CMyOutputPin} {filled : CMediaSample} (h : Frames pin images k s)
    (hpin : s'.pin = pin.atFrame (k + 1)) (hdel : s'.delivered = s.delivered ++ [filled])
    (hshows : CMyOutputPin.Shows (images (Fin.ofNat 3 k)).bytes k filled) : Frames pin images (k + 1) s' where
  pin := hpin
  count := by rw [hdel, List.length_append, h.count]; rfl
  shows n pSample hn := by
    rw [hdel, List.getElem?_append] at hn
    split at hn
    · exact h.shows n pSample hn
    · rename_i hle
      obtain ⟨hlast, rfl⟩ := List.getElem?_eq_some_iff.1 hn
      have hnk : n = k := by
        have := h.count
        simp only [List.length_singleton] at hlast
        omega
      subst hnk
      simpa using hshows
  tiles := by
    rw [hdel, List.map_append, List.map_singleton, interval_of_shows hshows, Nat.cast_add, Nat.cast_one]
    refine h.tiles.snoc ?_
    have hunits : UNITS.toInt = 10000000 := by decide
    rw [hunits]
    omega

theorem frames_step (hl : Loaded pin images) {k : Nat} {s s' : CSourceStream CMyOutputPin} {e : Event}
    (h : Frames pin images k s) (hroom : Roomy pin.m_nImageSize s e) (hk : k < 2 ^ 31) (hstep : s.step e = some s') :
    Frames pin images (k + if e.isFill then 1 else 0) s' := by
  rcases step_cases hstep with ⟨pSample, filled, hr, rfl, hfill, hdel⟩ | ⟨hno, hpin, hdel⟩
  -- The counter of the pin is the number of fills so far.
  · obtain ⟨himage, hsize⟩ := hl (Fin.ofNat 3 k)
    obtain ⟨filled', hok, hshows⟩ := CMyOutputPin.FillBuffer_ok hk himage hsize hroom
    rw [h.pin] at hfill
    obtain ⟨hpin, rfl, rfl⟩ : pin.atFrame (k + 1) = s'.pin ∧ filled' = filled ∧ NOERROR = hr := by
      have := hok.symm.trans hfill
      simpa using this
    exact h.snoc hpin.symm hdel hshows
  · rw [hno]
    exact ⟨hpin.trans h.pin, by rw [hdel]; exact h.count, by rw [hdel]; exact h.shows, by rw [hdel]; exact h.tiles⟩

theorem frames_new (h0 : pin.m_nCount = 0) : Frames pin images 0 (new pin) where
  pin := by
    cases pin
    cases h0
    rfl
  count := rfl
  shows n pSample hn := by simp [new] at hn
  tiles := by simp [new, Tiles]

/-- After a run with fewer than `2 ^ 31` fills, the frames are those of its fills. -/
theorem frames_run (h0 : pin.m_nCount = 0) (hl : Loaded pin images) {es : List Event} {s : CSourceStream CMyOutputPin}
    (hrun : Runs step (Roomy pin.m_nImageSize) (new pin) es s) (hfills : es.countP Event.isFill < 2 ^ 31) :
    Frames pin images (es.countP Event.isFill) s := by
  refine hrun.inv_events (fun es s => es.countP Event.isFill < 2 ^ 31 → Frames pin images (es.countP Event.isFill) s)
    (fun _ => frames_new h0) ?_ hfills
  intro es t e u hinv hroom hstep hlt
  rw [List.countP_append, List.countP_singleton] at hlt ⊢
  exact frames_step hl (hinv (by omega)) hroom (by omega) hstep

/-- The images of a pin whose files have all been loaded, with one size. -/
theorem loaded_of_new {files : Fin 3 → LoadEnv} (hnew : CMyOutputPin.new files = some pin)
    (hload : ∀ i, ∃ bmp, (files i).LoadImage = some bmp ∧ bmp.size = pin.m_nImageSize) :
    ∃ images : Fin 3 → Block, Loaded pin images ∧
      ∀ i, ∃ bmp, (files i).LoadImage = some bmp ∧ (images i).bytes = (files i).bits bmp := by
  obtain ⟨-, -, himages, hpos⟩ := CMyOutputPin.new_ok hnew
  have hone : ∀ i : Fin 3, ∃ image : Block, pin.image i = some image ∧ pin.m_nImageSize = image.size ∧
      ∃ bmp, (files i).LoadImage = some bmp ∧ image.bytes = (files i).bits bmp := by
    intro i
    obtain ⟨bmp, hbmp, hsize⟩ := hload i
    have hmap := himages i
    rw [hbmp] at hmap
    obtain ⟨image, hdata, hbits⟩ := Option.map_eq_some_iff.1 hmap
    refine ⟨image, hdata, ?_, bmp, hbmp, hbits⟩
    rw [← hsize, ← Int32.toInt_inj, Block.size_toInt, hbits, LoadEnv.bits_length]
    exact (Int.toNat_of_nonneg (hpos i bmp hbmp)).symm
  choose images hdata hsize hbits using hone
  exact ⟨images, fun i => ⟨hdata i, hsize i⟩, hbits⟩

/-- No fill fails on the way: a buffer with room is filled and passed on. -/
theorem fill_returns (h0 : pin.m_nCount = 0) (hl : Loaded pin images) {es : List Event}
    {s : CSourceStream CMyOutputPin} (hrun : Runs step (Roomy pin.m_nImageSize) (new pin) es s)
    (hfills : es.countP Event.isFill < 2 ^ 31) {pSample : CMediaSample}
    (hroom : pin.m_nImageSize ≤ pSample.m_cbBuffer) :
    ∃ s', s.fill pSample = some s' ∧ s'.m_hThread = some .Deliver := by
  obtain ⟨himage, hsize⟩ := hl (Fin.ofNat 3 (es.countP Event.isFill))
  obtain ⟨filled, hok, -⟩ := CMyOutputPin.FillBuffer_ok hfills himage hsize hroom
  have hfill : SourceStream.FillBuffer s.pin pSample =
      some (pin.atFrame (es.countP Event.isFill + 1), filled, NOERROR) := by
    rw [(frames_run h0 hl hrun hfills).pin]
    exact hok
  unfold fill
  rw [hfill]
  exact ⟨_, rfl, rfl⟩

/-- In any run of the thread with fewer than `2 ^ 31` fills, every fill was
passed on, the `n`-th of them shows image `n` modulo three in the `n`-th unit of
time, and the units tile the time since zero. -/
theorem delivered_frames {files : Fin 3 → LoadEnv} {es : List Event} {s : CSourceStream CMyOutputPin}
    (hnew : CMyOutputPin.new files = some pin)
    (hload : ∀ i, ∃ bmp, (files i).LoadImage = some bmp ∧ bmp.size = pin.m_nImageSize)
    (hrun : Runs step (Roomy pin.m_nImageSize) (new pin) es s) (hfills : es.countP Event.isFill < 2 ^ 31) :
    s.delivered.length = es.countP Event.isFill ∧
      (∀ n (pSample : CMediaSample), s.delivered[n]? = some pSample →
        ∃ bmp, (files (Fin.ofNat 3 n)).LoadImage = some bmp ∧
          CMyOutputPin.Shows ((files (Fin.ofNat 3 n)).bits bmp) n pSample) ∧
      Tiles 0 (s.delivered.map interval) (s.delivered.length * UNITS.toInt) := by
  obtain ⟨h0, -, -, -⟩ := CMyOutputPin.new_ok hnew
  obtain ⟨images, hl, hbits⟩ := loaded_of_new hnew hload
  have hframes := frames_run h0 hl hrun hfills
  refine ⟨hframes.count, fun n pSample hn => ?_, ?_⟩
  · obtain ⟨bmp, hbmp, hbytes⟩ := hbits (Fin.ofNat 3 n)
    exact ⟨bmp, hbmp, hbytes ▸ hframes.shows n pSample hn⟩
  · rw [hframes.count]
    exact hframes.tiles

/-- At every moment up to the end of the last frame, exactly one frame is shown. -/
theorem one_frame_at_a_time (h0 : pin.m_nCount = 0) (hl : Loaded pin images) {es : List Event}
    {s : CSourceStream CMyOutputPin} (hrun : Runs step (Roomy pin.m_nImageSize) (new pin) es s)
    (hfills : es.countP Event.isFill < 2 ^ 31) {t : Int} (ht : 0 ≤ t)
    (hend : t < es.countP Event.isFill * UNITS.toInt) :
    ∃! n : Nat, ∃ i, (s.delivered.map interval)[n]? = some i ∧ i.1 ≤ t ∧ t < i.2 :=
  (frames_run h0 hl hrun hfills).tiles.covers ht hend

/-- Three bitmaps of two pixels each. -/
def threeFiles (i : Fin 3) : LoadEnv :=
  { CMyOutputPin.row32 2 with GetDIBits := fun _ _ _ _ => UInt8.ofNat (i + 1) }

def threePin : CMyOutputPin := (CMyOutputPin.new threeFiles).get (by decide)

/-- A buffer with one byte more than an image. -/
def buffer : CMediaSample := .new ⟨0, 0, 0, 0⟩ (.filled 9 7 (by decide))

/-- Two frames with a failed `GetDeliveryBuffer` between them, a stop, an exit. -/
def session : List Event :=
  [.Create true, .CallWorker .CMD_INIT, .request, .CallWorker .CMD_PAUSE, .request, .request,
    .GetDeliveryBuffer (.ok buffer), .Deliver S_OK, .request, .GetDeliveryBuffer (.error VFW_E_TIMEOUT), .request,
    .GetDeliveryBuffer (.ok buffer), .CallWorker .CMD_STOP, .Deliver S_OK, .request, .request,
    .CallWorker .CMD_EXIT, .request, .Close]

/-- The stream after it has been started and stopped twice. -/
def afterRestart : CSourceStream CMyOutputPin :=
  (evalRun step Any (session ++ session) (new threePin)).get (by decide)

theorem delivered_frames_restart :
    afterRestart.delivered.length = 4 ∧
      (∀ n (pSample : CMediaSample), afterRestart.delivered[n]? = some pSample →
        ∃ bmp, (threeFiles (Fin.ofNat 3 n)).LoadImage = some bmp ∧
          CMyOutputPin.Shows ((threeFiles (Fin.ofNat 3 n)).bits bmp) n pSample) ∧
      Tiles 0 (afterRestart.delivered.map interval) (afterRestart.delivered.length * UNITS.toInt) := by
  -- The clients and the system answer anything; only the buffers must have room.
  have hrun : Runs step (Roomy threePin.m_nImageSize) (new threePin) (session ++ session) afterRestart := by
    refine (Runs.of_isSome (C := Any) (by decide)).of_forall fun e he s => ?_
    cases e with
    | GetDeliveryBuffer r =>
      cases r with
      | error hr => trivial
      | ok pSample =>
        have hbuf : pSample = buffer := by simpa [session] using he
        subst hbuf
        exact (by decide : threePin.m_nImageSize ≤ buffer.m_cbBuffer)
    | _ => trivial
  exact delivered_frames (Option.some_get _).symm (fun i => ⟨_, rfl, by decide⟩) hrun (by decide)

end CSourceStream

end FilterSln
