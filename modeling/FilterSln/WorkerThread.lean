import FilterSln.SourceThread
import FilterSln.Lib.Simulation
/-!
# How a command gets to the worker thread and its reply back

`CAMThread` of `wxutil.cpp`, step by step: a client takes `m_AccessLock`, writes
`m_dwParam`, sets `m_EventSend` and waits for `m_EventComplete`; the thread sees
`m_EventSend`, reads `m_dwParam` and, when it replies, writes `m_dwReturnVal`,
resets the one event and sets the other. Each of these is an event of its own, so
the two sides interleave in every way that the events and the lock allow.

Every call gets the reply to its own command, exactly once (`calls_answered`).
`CSourceStream` takes the whole exchange as two steps, the command and the
reply. That is what a run of the single steps amounts to (`refines`), so what holds of the
frames there holds here (`frames_interleaved`).
-/

namespace FilterSln

open HRESULT Lib

/-- What `ThreadProc` and `DoBufferProcessingLoop` do with a command at the places
where they look for one: the reply, if there is one, and where they go on. -/
def ThreadProc.answer : ThreadProc → Command → Option (Option HRESULT × ThreadProc)
  | .GetInit, com =>
    if com ≠ .CMD_INIT then some (some E_UNEXPECTED, .GetInit)
    else if CSourceStream.OnThreadCreate.FAILED then some (some CSourceStream.OnThreadCreate, .exited 1)
    else some (some NOERROR, .GetRequest)
  | .GetRequest, .CMD_EXIT =>
    some (some NOERROR, .exited (if CSourceStream.OnThreadDestroy.FAILED then 1 else 0))
  | .GetRequest, .CMD_RUN => some (some NOERROR, .CheckRequest)
  | .GetRequest, .CMD_PAUSE => some (some NOERROR, .CheckRequest)
  | .GetRequest, .CMD_STOP => some (some NOERROR, .GetRequest)
  | .GetRequest, _ => some (some E_NOTIMPL, .GetRequest)
  | .CheckRequest, com =>
    if com = .CMD_RUN ∨ com = .CMD_PAUSE then some (some NOERROR, .CheckRequest)
    else if com ≠ .CMD_STOP then some (some E_UNEXPECTED, .CheckRequest)
    else some (none, .GetRequest)
  | _, _ => none

/-- Where a client is in `CallWorker`, while it holds `m_AccessLock`. -/
inductive Client where
  | entered (dwParam : Command)
  | checked (dwParam : Command)
  | stored (dwParam : Command)
  | waiting (dwParam : Command)
  | woken (dwParam : Command)
  deriving DecidableEq

/-- Where the thread is between a request and the end of its `Reply`. -/
inductive Serving where
  | no
  /-- `m_EventSend` was set when the thread looked. -/
  | signalled
  | replying (com : Command) (dw : HRESULT) (next : ThreadProc)
  | stored (com : Command) (dw : HRESULT) (next : ThreadProc)
  | reset
  deriving DecidableEq

structure CAMThread (π : Type) where
  m_EventSend : Bool
  m_EventComplete : Bool
  m_dwParam : Option Command
  m_dwReturnVal : Option HRESULT
  m_AccessLock : Option Client
  pin : π
  m_hThread : Option ThreadProc
  serving : Serving
  delivered : List CMediaSample
  /-- The commands that the thread has read and replied to, with its replies. -/
  replies : List (Command × HRESULT)
  /-- The commands of the calls that have returned, with what they returned. -/
  answers : List (Command × HRESULT)

namespace CAMThread

variable {π : Type}

def new (pin : π) : CAMThread π := ⟨false, false, none, none, none, pin, none, .no, [], [], []⟩

inductive Event where
  | Create (CreateThread : Bool)
  | Close
  /-- A client takes the lock. -/
  | CallWorker (dwParam : Command)
  /-- The client that has the lock goes on. -/
  | client
  /-- The thread looks for a request or goes on serving one. -/
  | thread
  | GetDeliveryBuffer (r : Except HRESULT CMediaSample)
  | Deliver (hr : HRESULT)

def Create (t : CAMThread π) (CreateThread : Bool) : Option (CAMThread π) :=
  if t.m_AccessLock.isSome then none
  else if t.m_hThread.isSome ∨ !CreateThread then some t
  else some { t with m_hThread := some .GetInit }

/-- Whoever closes the thread has told it to exit. The source takes the handle out of
`m_hThread` and then waits for the thread; here both are one step once it has ended,
so a call that comes in between, and would return `E_FAIL`, is left out. -/
def Close (t : CAMThread π) : Option (CAMThread π) :=
  match t.m_hThread, t.serving with
  | none, _ => some t
  | some (.exited _), .no => some { t with m_hThread := none }
  | some _, _ => none

def CallWorker (t : CAMThread π) (dwParam : Command) : Option (CAMThread π) :=
  if t.m_AccessLock.isSome then none else some { t with m_AccessLock := some (.entered dwParam) }

/-- One step of `CallWorker` under the lock. -/
def client (t : CAMThread π) : Option (CAMThread π) :=
  match t.m_AccessLock with
  | none => none
  | some (.entered dwParam) =>
    -- Without a thread the call returns `E_FAIL` at once.
    if t.m_hThread.isNone then some { t with m_AccessLock := none }
    else some { t with m_AccessLock := some (.checked dwParam) }
  | some (.checked dwParam) => some { t with m_dwParam := some dwParam, m_AccessLock := some (.stored dwParam) }
  | some (.stored dwParam) => some { t with m_EventSend := true, m_AccessLock := some (.waiting dwParam) }
  | some (.waiting dwParam) =>
    -- `m_EventComplete` resets itself.
    if t.m_EventComplete then some { t with m_EventComplete := false, m_AccessLock := some (.woken dwParam) }
    else none
  | some (.woken dwParam) =>
    t.m_dwReturnVal.map fun dw => { t with m_AccessLock := none, answers := t.answers ++ [(dwParam, dw)] }

/-- One step of `GetRequest`, `CheckRequest` or `Reply`. -/
def thread (t : CAMThread π) : Option (CAMThread π) :=
  match t.serving with
  | .no =>
    if t.m_hThread = some .GetInit ∨ t.m_hThread = some .GetRequest then
      if t.m_EventSend then some { t with serving := .signalled } else none
    else if t.m_hThread = some .CheckRequest then
      if t.m_EventSend then some { t with serving := .signalled }
      else some { t with m_hThread := some .GetDeliveryBuffer }
    else none
  | .signalled => do
    let com ← t.m_dwParam
    let place ← t.m_hThread
    let (reply, next) ← place.answer com
    match reply with
    | some dw => some { t with serving := .replying com dw next }
    | none => some { t with serving := .no, m_hThread := some next }
  | .replying com dw next => some { t with m_dwReturnVal := some dw, serving := .stored com dw next }
  | .stored com dw next =>
    some { t with
      m_EventSend := false, m_hThread := some next, serving := .reset, replies := t.replies ++ [(com, dw)] }
  | .reset => some { t with m_EventComplete := true, serving := .no }

/-- The stream as `CSourceStream` has it: a request is there while `m_EventSend`
is set. -/
def stream (t : CAMThread π) : CSourceStream π where
  pin := t.pin
  m_hThread := t.m_hThread
  m_dwParam := if t.m_EventSend then t.m_dwParam else none
  m_dwReturnVal := t.m_dwReturnVal
  delivered := t.delivered

/-- The loop goes on, apart from the requests. -/
def loop (t : CAMThread π) (s : CSourceStream π) : CAMThread π :=
  { t with pin := s.pin, m_hThread := s.m_hThread, delivered := s.delivered }

variable [SourceStream π]

def step (t : CAMThread π) : Event → Option (CAMThread π)
  | .Create CreateThread => t.Create CreateThread
  | .Close => t.Close
  | .CallWorker dwParam => t.CallWorker dwParam
  | .client => t.client
  | .thread => t.thread
  | .GetDeliveryBuffer r => (t.stream.step (.GetDeliveryBuffer r)).map t.loop
  | .Deliver hr => (t.stream.step (.Deliver hr)).map t.loop

/-! ## Every call gets the reply to its command -/

/-- The two events and the thread are at rest. -/
structure Idle (t : CAMThread π) : Prop where
  send : t.m_EventSend = false
  complete : t.m_EventComplete = false
  serving : t.serving = .no
  answers : t.replies = t.answers

/-- The phases of a call, from the lock to the answer. -/
inductive Phase (t : CAMThread π) : Prop
  | idle (lock : ∀ com, t.m_AccessLock ≠ some (.stored com) ∧ t.m_AccessLock ≠ some (.waiting com) ∧
      t.m_AccessLock ≠ some (.woken com)) (idle : Idle t)
  | stored (com : Command) (lock : t.m_AccessLock = some (.stored com)) (param : t.m_dwParam = some com)
    (idle : Idle t)
  /-- The request has been sent, and not taken back. -/
  | sent (com : Command) (lock : t.m_AccessLock = some (.waiting com)) (param : t.m_dwParam = some com)
    (send : t.m_EventSend = true) (complete : t.m_EventComplete = false)
    (serving : t.serving = .no ∨ t.serving = .signalled ∨
      ∃ dw next, t.serving = .replying com dw next ∨ (t.serving = .stored com dw next ∧ t.m_dwReturnVal = some dw))
    (answers : t.replies = t.answers)
  /-- The reply is there, and the client is told. -/
  | replied (com : Command) (dw : HRESULT) (lock : t.m_AccessLock = some (.waiting com)) (send : t.m_EventSend = false)
    (tell : (t.serving = .reset ∧ t.m_EventComplete = false) ∨ (t.serving = .no ∧ t.m_EventComplete = true))
    (ret : t.m_dwReturnVal = some dw) (answers : t.replies = t.answers ++ [(com, dw)])
  | woken (com : Command) (dw : HRESULT) (lock : t.m_AccessLock = some (.woken com)) (send : t.m_EventSend = false)
    (complete : t.m_EventComplete = false) (serving : t.serving = .no) (ret : t.m_dwReturnVal = some dw)
    (answers : t.replies = t.answers ++ [(com, dw)])

omit [SourceStream π] in
theorem phase_new (pin : π) : Phase (new pin) := .idle (fun _ => ⟨nofun, nofun, nofun⟩) ⟨rfl, rfl, rfl, rfl⟩

variable {t t' : CAMThread π}

omit [SourceStream π] in
/-- The phase says nothing about the frames and the place of the thread. -/
theorem Phase.frame (h : t.Phase) (pin : π) (place : Option ThreadProc) (delivered : List CMediaSample) :
    Phase { t with pin := pin, m_hThread := place, delivered := delivered } := by
  cases h with
  | idle lock idle => exact .idle lock ⟨idle.send, idle.complete, idle.serving, idle.answers⟩
  | stored com lock param idle => exact .stored com lock param ⟨idle.send, idle.complete, idle.serving, idle.answers⟩
  | sent com lock param send complete serving answers => exact .sent com lock param send complete serving answers
  | replied com dw lock send tell ret answers => exact .replied com dw lock send tell ret answers
  | woken com dw lock send complete serving ret answers =>
    exact .woken com dw lock send complete serving ret answers

omit [SourceStream π] in
theorem phase_CallWorker (h : t.Phase) {dwParam : Command} (hs : t.CallWorker dwParam = some t') : t'.Phase := by
  unfold CallWorker at hs
  by_cases hlock : t.m_AccessLock.isSome
  · rw [if_pos hlock] at hs
    cases hs
  · rw [if_neg hlock] at hs
    cases hs
    have hnone : t.m_AccessLock = none := by simpa using hlock
    cases h with
    | idle lock idle =>
      exact .idle (fun _ => ⟨nofun, nofun, nofun⟩) ⟨idle.send, idle.complete, idle.serving, idle.answers⟩
    | stored com lock param idle => rw [hnone] at lock; cases lock
    | sent com lock param send complete serving answers => rw [hnone] at lock; cases lock
    | replied com dw lock send tell ret answers => rw [hnone] at lock; cases lock
    | woken com dw lock send complete serving ret answers => rw [hnone] at lock; cases lock

omit [SourceStream π] in
/-- The lock goes from one place of `CallWorker` to the next. -/
theorem phase_client (h : t.Phase) (hs : t.client = some t') : t'.Phase := by
  unfold client at hs
  cases h with
  | idle lock idle =>
    obtain ⟨hsend, hcomplete, hserving, hanswers⟩ := idle
    cases hl : t.m_AccessLock with
    | none => rw [hl] at hs; cases hs
    | some c =>
      rw [hl] at hs
      cases c with
      | entered com =>
        dsimp only at hs
        split at hs <;> cases hs <;> exact .idle (fun _ => ⟨nofun, nofun, nofun⟩) ⟨hsend, hcomplete, hserving, hanswers⟩
      | checked com => cases hs; exact .stored com rfl rfl ⟨hsend, hcomplete, hserving, hanswers⟩
      | stored com => exact absurd hl (lock com).1
      | waiting com => exact absurd hl (lock com).2.1
      | woken com => exact absurd hl (lock com).2.2
  | stored com lock param idle =>
    rw [lock] at hs
    cases hs
    exact .sent com rfl param rfl idle.complete (.inl idle.serving) idle.answers
  | sent com lock param send complete serving answers =>
    rw [lock] at hs
    dsimp only at hs
    rw [complete] at hs
    cases hs
  | replied com dw lock send tell ret answers =>
    rw [lock] at hs
    dsimp only at hs
    obtain ⟨-, hc⟩ | ⟨hserving, hc⟩ := tell
    · rw [hc] at hs
      cases hs
    · rw [hc] at hs
      cases hs
      exact .woken com dw rfl send rfl hserving ret answers
  | woken com dw lock send complete serving ret answers =>
    rw [lock, ret] at hs
    cases hs
    exact .idle (fun _ => ⟨nofun, nofun, nofun⟩) ⟨send, complete, serving, answers⟩

omit [SourceStream π] in
/-- The steps of the thread between a request and the end of its reply. -/
theorem thread_cases (h : t.thread = some t') :
    (t.serving = .no ∧ t.m_EventSend = true ∧ t' = { t with serving := .signalled }) ∨
    (t.serving = .no ∧ t.m_EventSend = false ∧ t.m_hThread = some .CheckRequest ∧
      t' = { t with m_hThread := some .GetDeliveryBuffer }) ∨
    (∃ com place next, t.serving = .signalled ∧ t.m_dwParam = some com ∧ t.m_hThread = some place ∧
      ((∃ dw, place.answer com = some (some dw, next) ∧ t' = { t with serving := .replying com dw next }) ∨
        (place.answer com = some (none, next) ∧ t' = { t with serving := .no, m_hThread := some next }))) ∨
    (∃ com dw next, t.serving = .replying com dw next ∧
      t' = { t with m_dwReturnVal := some dw, serving := .stored com dw next }) ∨
    (∃ com dw next, t.serving = .stored com dw next ∧
      t' = { t with
        m_EventSend := false, m_hThread := some next, serving := .reset, replies := t.replies ++ [(com, dw)] }) ∨
    (t.serving = .reset ∧ t' = { t with m_EventComplete := true, serving := .no }) := by
  unfold thread at h
  cases hserv : t.serving with
  | no =>
    simp only [hserv] at h
    by_cases hget : t.m_hThread = some .GetInit ∨ t.m_hThread = some .GetRequest
    · rw [if_pos hget] at h
      cases hsend : t.m_EventSend with
      | true => rw [hsend] at h; cases h; exact .inl ⟨rfl, rfl, rfl⟩
      | false => rw [hsend] at h; cases h
    · rw [if_neg hget] at h
      by_cases hcheck : t.m_hThread = some .CheckRequest
      · rw [if_pos hcheck] at h
        cases hsend : t.m_EventSend with
        | true => rw [hsend] at h; cases h; exact .inl ⟨rfl, rfl, rfl⟩
        | false => rw [hsend] at h; cases h; exact .inr (.inl ⟨rfl, rfl, hcheck, rfl⟩)
      · rw [if_neg hcheck] at h
        cases h
  | signalled =>
    simp only [hserv] at h
    obtain ⟨com, hcom, h⟩ := Option.bind_eq_some_iff.1 h
    obtain ⟨place, hplace, h⟩ := Option.bind_eq_some_iff.1 h
    obtain ⟨⟨reply, next⟩, hans, h⟩ := Option.bind_eq_some_iff.1 h
    refine .inr (.inr (.inl ⟨com, place, next, rfl, hcom, hplace, ?_⟩))
    cases reply with
    | some dw => cases h; exact .inl ⟨dw, hans, rfl⟩
    | none => cases h; exact .inr ⟨hans, rfl⟩
  | replying com dw next =>
    simp only [hserv] at h
    cases h
    exact .inr (.inr (.inr (.inl ⟨com, dw, next, rfl, rfl⟩)))
  | stored com dw next =>
    simp only [hserv] at h
    cases h
    exact .inr (.inr (.inr (.inr (.inl ⟨com, dw, next, rfl, rfl⟩))))
  | reset =>
    simp only [hserv] at h
    cases h
    exact .inr (.inr (.inr (.inr (.inr ⟨rfl, rfl⟩))))

omit [SourceStream π] in
/-- While nothing has been sent, the thread only goes on without a request. -/
theorem thread_idle (hsend : t.m_EventSend = false) (hserv : t.serving = .no) (hs : t.thread = some t') :
    t' = { t with m_hThread := some .GetDeliveryBuffer } := by
  rcases thread_cases hs with ⟨-, hs', -⟩ | ⟨-, -, -, rfl⟩ | ⟨com, place, next, hs', -⟩ | ⟨com, dw, next, hs', -⟩ |
    ⟨com, dw, next, hs', -⟩ | ⟨hs', -⟩
  · rw [hsend] at hs'; cases hs'
  · rfl
  · rw [hserv] at hs'; cases hs'
  · rw [hserv] at hs'; cases hs'
  · rw [hserv] at hs'; cases hs'
  · rw [hserv] at hs'; cases hs'

omit [SourceStream π] in
theorem phase_thread (h : t.Phase) (hs : t.thread = some t') : t'.Phase := by
  cases h with
  | idle lock idle =>
    rw [thread_idle idle.send idle.serving hs]
    exact (Phase.idle lock idle).frame _ _ _
  | stored com lock param idle =>
    rw [thread_idle idle.send idle.serving hs]
    exact (Phase.stored com lock param idle).frame _ _ _
  | woken com dw lock send complete serving ret answers =>
    rw [thread_idle send serving hs]
    exact (Phase.woken com dw lock send complete serving ret answers).frame _ _ _
  | replied com dw lock send tell ret answers =>
    obtain ⟨hserv, hc⟩ | ⟨hserv, hc⟩ := tell
    · unfold thread at hs
      simp only [hserv] at hs
      cases hs
      exact .replied com dw lock send (.inr ⟨rfl, rfl⟩) ret answers
    · rw [thread_idle send hserv hs]
      exact (Phase.replied com dw lock send (.inr ⟨hserv, hc⟩) ret answers).frame _ _ _
  | sent com lock param send complete serving answers =>
    rcases thread_cases hs with ⟨-, -, rfl⟩ | ⟨-, hs', -⟩ | ⟨com', place, next, -, hcom, -, hans⟩ |
      ⟨com', dw, next, hs', rfl⟩ | ⟨com', dw, next, hs', rfl⟩ | ⟨hs', -⟩
    · exact .sent com lock param send complete (.inr (.inl rfl)) answers
    · rw [send] at hs'; cases hs'
    · obtain rfl : com' = com := by
        rw [hcom] at param
        exact Option.some_inj.1 param
      obtain ⟨dw, -, rfl⟩ | ⟨-, rfl⟩ := hans
      · exact .sent com' lock hcom send complete (.inr (.inr ⟨dw, next, .inl rfl⟩)) answers
      · exact .sent com' lock hcom send complete (.inl rfl) answers
    · -- The thread replies to the command that it has read.
      obtain rfl : com' = com := by
        rcases serving with h | h | ⟨dw', next', h | ⟨h, -⟩⟩ <;> rw [hs'] at h <;> cases h
        rfl
      exact .sent com' lock param send complete (.inr (.inr ⟨dw, next, .inr ⟨rfl, rfl⟩⟩)) answers
    · obtain ⟨rfl, hret⟩ : com' = com ∧ t.m_dwReturnVal = some dw := by
        rcases serving with h | h | ⟨dw', next', h | ⟨h, hret⟩⟩ <;> rw [hs'] at h <;> cases h
        exact ⟨rfl, hret⟩
      exact .replied com' dw lock rfl (.inl ⟨rfl, complete⟩) hret (by rw [answers])
    · rcases serving with h | h | ⟨dw', next', h | ⟨h, -⟩⟩ <;> rw [hs'] at h <;> cases h

theorem phase_step (h : t.Phase) (e : Event) (hs : t.step e = some t') : t'.Phase := by
  cases e with
  | Create CreateThread =>
    simp only [step, Create] at hs
    split at hs
    · cases hs
    · split at hs <;> cases hs
      · exact h
      · exact h.frame _ _ _
  | Close =>
    simp only [step, Close] at hs
    split at hs <;> cases hs
    · exact h
    · exact h.frame _ _ _
  | CallWorker dwParam => exact phase_CallWorker h hs
  | client => exact phase_client h hs
  | thread => exact phase_thread h hs
  | GetDeliveryBuffer r =>
    obtain ⟨s, -, rfl⟩ := Option.map_eq_some_iff.1 hs
    exact h.frame _ _ _
  | Deliver hr =>
    obtain ⟨s, -, rfl⟩ := Option.map_eq_some_iff.1 hs
    exact h.frame _ _ _

theorem runs_phase {C : CAMThread π → Event → Prop} {pin : π} {es : List Event} (h : Runs step C (new pin) es t) :
    t.Phase :=
  h.inv Phase (phase_new pin) fun _ e _ hp _ hs => phase_step hp e hs

/-- A client closes the thread only while no call is under way. `Close` does not
take the lock. -/
def Orderly (t : CAMThread π) (e : Event) : Prop := e = .Close → t.m_AccessLock = none

omit [SourceStream π] in
/-- `request` is what `ThreadProc` does with the command that is there. -/
theorem request_eq {s : CSourceStream π} {place : ThreadProc} {com : Command} (hp : s.m_hThread = some place)
    (hc : s.m_dwParam = some com) :
    s.request = (place.answer com).map fun r => (r.1.elim s s.Reply).goto r.2 := by
  have hgoto : ∀ (u : CSourceStream π) (q : ThreadProc), u.m_hThread = some q → u = u.goto q := by
    rintro u q hq
    simp only [CSourceStream.goto, ← hq]
  unfold CSourceStream.request
  rw [hp, hc]
  cases place with
  | GetInit =>
    simp only [ThreadProc.answer]
    split
    · exact congrArg some (hgoto (s.Reply E_UNEXPECTED) .GetInit hp)
    · split <;> rfl
  | GetRequest =>
    cases com with
    | CMD_INIT => exact congrArg some (hgoto (s.Reply E_NOTIMPL) .GetRequest hp)
    | CMD_STOP => exact congrArg some (hgoto (s.Reply NOERROR) .GetRequest hp)
    | other dw => exact congrArg some (hgoto (s.Reply E_NOTIMPL) .GetRequest hp)
    | CMD_PAUSE => rfl
    | CMD_RUN => rfl
    | CMD_EXIT => rfl
  | CheckRequest =>
    simp only [ThreadProc.answer]
    split
    · exact congrArg some (hgoto (s.Reply NOERROR) .CheckRequest hp)
    · split
      · exact congrArg some (hgoto (s.Reply E_UNEXPECTED) .CheckRequest hp)
      · rfl
  | GetDeliveryBuffer => rfl
  | Deliver => rfl
  | exited code => rfl

/-- The state of the coarser machine that belongs to a state of this one. A
reply that is written counts only when the request is taken back. -/
structure Rel (t : CAMThread π) (s : CSourceStream π) : Prop where
  pin : s.pin = t.pin
  place : s.m_hThread = t.m_hThread
  delivered : s.delivered = t.delivered
  param : s.m_dwParam = if t.m_EventSend then t.m_dwParam else none
  ret : (∀ com dw next, t.serving ≠ .stored com dw next) → s.m_dwReturnVal = t.m_dwReturnVal
  answer : ∀ com dw next, t.serving = .replying com dw next ∨ t.serving = .stored com dw next →
    ∃ place, t.m_hThread = some place ∧ place.answer com = some (some dw, next)
  alive : ∀ com, t.m_AccessLock = some (.checked com) ∨ t.m_AccessLock = some (.stored com) → t.m_hThread.isSome

/-- What can be seen of a run: the buffers that come and what becomes of them. -/
def Event.frames : Event → Option CSourceStream.Event
  | .GetDeliveryBuffer r => some (.GetDeliveryBuffer r)
  | .Deliver hr => some (.Deliver hr)
  | _ => none

def framesOf : CSourceStream.Event → Option CSourceStream.Event
  | .GetDeliveryBuffer r => some (.GetDeliveryBuffer r)
  | .Deliver hr => some (.Deliver hr)
  | _ => none

/-- The loop neither looks at the exchange nor changes it. -/
theorem loop_step {v : CSourceStream π} {e : CSourceStream.Event} (he : (framesOf e).isSome)
    (com : Option Command) (dw : Option HRESULT) :
    ({ v with m_dwParam := com, m_dwReturnVal := dw } : CSourceStream π).step e =
      (v.step e).map fun u => { u with m_dwParam := com, m_dwReturnVal := dw } := by
  cases e with
  | GetDeliveryBuffer r =>
    simp only [CSourceStream.step]
    by_cases hp : v.m_hThread = some .GetDeliveryBuffer
    · rw [if_pos hp, if_pos hp]
      cases r with
      | error hr =>
        dsimp only
        split <;> rfl
      | ok pSample =>
        simp only [CSourceStream.fill]
        cases SourceStream.FillBuffer v.pin pSample with
        | none => rfl
        | some r =>
          dsimp only [Option.bind_eq_bind, Option.bind_some]
          split <;> rfl
    · rw [if_neg hp, if_neg hp]
      rfl
  | Deliver hr =>
    simp only [CSourceStream.step]
    by_cases hp : v.m_hThread = some .Deliver
    · rw [if_pos hp, if_pos hp]
      split <;> rfl
    · rw [if_neg hp, if_neg hp]
      rfl
  | Create b => cases he
  | CallWorker com => cases he
  | Close => cases he
  | request => cases he

/-- The thread is at none of the places where it looks for a request. -/
theorem loop_place {v u : CSourceStream π} {e : CSourceStream.Event} (he : (framesOf e).isSome)
    (h : v.step e = some u) : v.m_hThread = some .GetDeliveryBuffer ∨ v.m_hThread = some .Deliver := by
  cases e with
  | GetDeliveryBuffer r =>
    by_contra hp
    have hnone : v.step (.GetDeliveryBuffer r) = none := if_neg fun h' => hp (.inl h')
    rw [hnone] at h
    cases h
  | Deliver hr =>
    by_contra hp
    have hnone : v.step (.Deliver hr) = none := if_neg fun h' => hp (.inr h')
    rw [hnone] at h
    cases h
  | Create b => cases he
  | CallWorker com => cases he
  | Close => cases he
  | request => cases he

theorem loop_alive {v u : CSourceStream π} {e : CSourceStream.Event} (he : (framesOf e).isSome)
    (h : v.step e = some u) : u.m_hThread.isSome := by
  cases e with
  | GetDeliveryBuffer r =>
    simp only [CSourceStream.step] at h
    split at h
    · cases r with
      | error hr =>
        dsimp only at h
        split at h <;> cases h
        rfl
      | ok pSample =>
        simp only [CSourceStream.fill] at h
        obtain ⟨r, -, h⟩ := Option.bind_eq_some_iff.1 h
        split at h <;> cases h <;> rfl
    · cases h
  | Deliver hr =>
    simp only [CSourceStream.step] at h
    split at h
    · split at h <;> cases h <;> rfl
    · cases h
  | Create b => cases he
  | CallWorker com => cases he
  | Close => cases he
  | request => cases he

variable {s : CSourceStream π}

/-- A step of the loop is the same step of the coarser machine. -/
theorem rel_loop (h : Rel t s) {e : CSourceStream.Event} (he : (framesOf e).isSome) {u : CSourceStream π}
    (hs : t.stream.step e = some u) : ∃ s', s.step e = some s' ∧ Rel (t.loop u) s' := by
  have hsame : s = { t.stream with m_dwParam := s.m_dwParam, m_dwReturnVal := s.m_dwReturnVal } := by
    have h1 := h.pin
    have h2 := h.place
    have h3 := h.delivered
    cases s
    simp only [stream] at h1 h2 h3 ⊢
    rw [h1, h2, h3]
  refine ⟨{ u with m_dwParam := s.m_dwParam, m_dwReturnVal := s.m_dwReturnVal }, ?_, ?_⟩
  · conv_lhs => rw [hsame]
    rw [loop_step he, hs]
    rfl
  · refine ⟨rfl, rfl, rfl, h.param, h.ret, ?_, fun _ _ => loop_alive he hs⟩
    intro com dw next hserv
    obtain ⟨place, hplace, hans⟩ := h.answer com dw next hserv
    have hp := loop_place he hs
    simp only [stream, hplace] at hp
    rcases hp with hp | hp <;> cases hp <;> cases hans

/-- A step of `CallWorker` is no step of the coarser machine, or the whole call up to the
wait. -/
theorem rel_client (hp : t.Phase) (h : Rel t s) (hs : t.client = some t') :
    Rel t' s ∨ ∃ com s', s.step (.CallWorker com) = some s' ∧ Rel t' s' := by
  unfold client at hs
  cases hl : t.m_AccessLock with
  | none => rw [hl] at hs; cases hs
  | some c =>
    rw [hl] at hs
    cases c with
    | entered com =>
      left
      dsimp only at hs
      split at hs
      · cases hs
        exact ⟨h.pin, h.place, h.delivered, h.param, h.ret, h.answer, fun _ hc => by rcases hc with hc | hc <;> cases hc⟩
      · rename_i hsome
        cases hs
        refine ⟨h.pin, h.place, h.delivered, h.param, h.ret, h.answer, fun _ _ => ?_⟩
        simpa [Option.isSome_iff_ne_none] using hsome
    | checked com =>
      left
      cases hs
      have hsend : t.m_EventSend = false := by
        cases hp with
        | idle lock idle => exact idle.send
        | stored com' lock param idle => exact idle.send
        | sent com' lock _ send => rw [hl] at lock; cases lock
        | replied com' dw lock send => exact send
        | woken com' dw lock send => exact send
      refine ⟨h.pin, h.place, h.delivered, ?_, h.ret, h.answer, fun _ _ => h.alive com (.inl hl)⟩
      rw [h.param, hsend]
      rfl
    | stored com =>
      right
      cases hs
      have hsome := h.alive com (.inr hl)
      obtain ⟨hparam, hidle⟩ : t.m_dwParam = some com ∧ t.Idle := by
        cases hp with
        | idle lock idle => exact absurd hl (lock com).1
        | stored com' lock param idle => rw [hl] at lock; cases lock; exact ⟨param, idle⟩
        | sent com' lock => rw [hl] at lock; cases lock
        | replied com' dw lock => rw [hl] at lock; cases lock
        | woken com' dw lock => rw [hl] at lock; cases lock
      have hnone : s.m_dwParam = none := by rw [h.param, hidle.send]; rfl
      refine ⟨com, { s with m_dwParam := some com }, ?_, ?_⟩
      · simp only [CSourceStream.step, CSourceStream.CallWorker, hnone, h.place]
        cases hth : t.m_hThread with
        | none => rw [hth] at hsome; cases hsome
        | some place => rfl
      · exact ⟨h.pin, h.place, h.delivered, hparam.symm, h.ret, h.answer, fun _ hc => by rcases hc with hc | hc <;> cases hc⟩
    | waiting com =>
      left
      dsimp only at hs
      split at hs <;> cases hs
      exact ⟨h.pin, h.place, h.delivered, h.param, h.ret, h.answer, fun _ hc => by rcases hc with hc | hc <;> cases hc⟩
    | woken com =>
      left
      obtain ⟨dw, -, rfl⟩ := Option.map_eq_some_iff.1 hs
      exact ⟨h.pin, h.place, h.delivered, h.param, h.ret, h.answer, fun _ hc => by rcases hc with hc | hc <;> cases hc⟩

omit [SourceStream π] in
/-- While the thread serves a request, the request stands. -/
theorem Phase.send_of_serving (h : t.Phase) (hserv : t.serving ≠ .no) (hreset : t.serving ≠ .reset) :
    t.m_EventSend = true := by
  cases h with
  | idle lock idle => exact absurd idle.serving hserv
  | stored com lock param idle => exact absurd idle.serving hserv
  | sent com lock param send => exact send
  | replied com dw lock send tell =>
    obtain ⟨hr, -⟩ | ⟨hn, -⟩ := tell
    · exact absurd hr hreset
    · exact absurd hn hserv
  | woken com dw lock send complete serving => exact absurd serving hserv

/-- A step of the thread is no step of the coarser machine, or the whole of what it does with
the request. -/
theorem rel_thread (hp : t.Phase) (h : Rel t s) (hs : t.thread = some t') :
    Rel t' s ∨ ∃ s', s.step .request = some s' ∧ Rel t' s' := by
  rcases thread_cases hs with ⟨hserv, -, rfl⟩ | ⟨hserv, hsend, hplace, rfl⟩ |
    ⟨com, place, next, hserv, hcom, hplace, ⟨dw, hans, rfl⟩ | ⟨hans, rfl⟩⟩ | ⟨com, dw, next, hserv, rfl⟩ |
    ⟨com, dw, next, hserv, rfl⟩ | ⟨hserv, rfl⟩
  · left
    exact ⟨h.pin, h.place, h.delivered, h.param, fun _ => h.ret fun _ _ _ hc => (by rw [hserv] at hc; cases hc),
      fun _ _ _ hc => (by rcases hc with hc | hc <;> cases hc), h.alive⟩
  · right
    have hnone : s.m_dwParam = none := by rw [h.param, hsend]; rfl
    have hp' : s.m_hThread = some .CheckRequest := h.place.trans hplace
    refine ⟨s.goto .GetDeliveryBuffer, ?_, ?_⟩
    · simp only [CSourceStream.step, CSourceStream.request, hp', hnone]
    · exact ⟨h.pin, rfl, h.delivered, h.param, h.ret,
        fun _ _ _ hc => (by rw [hserv] at hc; rcases hc with hc | hc <;> cases hc), fun _ _ => rfl⟩
  · left
    refine ⟨h.pin, h.place, h.delivered, h.param, fun _ => h.ret fun _ _ _ hc => (by rw [hserv] at hc; cases hc), ?_,
      h.alive⟩
    rintro com' dw' next' (hc | hc)
    · cases hc
      exact ⟨place, hplace, hans⟩
    · cases hc
  · -- The request stays for `ThreadProc`.
    right
    have hsend : t.m_EventSend = true := hp.send_of_serving (by rw [hserv]; decide) (by rw [hserv]; decide)
    have hparam : s.m_dwParam = some com := by rw [h.param, hsend]; exact hcom
    refine ⟨s.goto next, ?_, ?_⟩
    · rw [CSourceStream.step, request_eq (h.place.trans hplace) hparam, hans]
      rfl
    · exact ⟨h.pin, rfl, h.delivered, h.param, fun _ => h.ret fun _ _ _ hc => (by rw [hserv] at hc; cases hc),
        fun _ _ _ hc => (by rcases hc with hc | hc <;> cases hc), fun _ _ => rfl⟩
  · left
    refine ⟨h.pin, h.place, h.delivered, h.param, fun hc => absurd rfl (hc com dw next), ?_, h.alive⟩
    rintro com' dw' next' (hc | hc)
    · cases hc
    · cases hc
      exact h.answer com dw next (.inl hserv)
  · right
    obtain ⟨place, hplace, hans⟩ := h.answer com dw next (.inr hserv)
    have hsend : t.m_EventSend = true := hp.send_of_serving (by rw [hserv]; rintro ⟨⟩) (by rw [hserv]; rintro ⟨⟩)
    obtain ⟨hcom, hret⟩ : t.m_dwParam = some com ∧ t.m_dwReturnVal = some dw := by
      cases hp with
      | idle lock idle => rw [idle.send] at hsend; cases hsend
      | stored com' lock param idle => rw [idle.send] at hsend; cases hsend
      | sent com' lock param send complete serving =>
        rcases serving with hc | hc | ⟨dw', next', hc | ⟨hc, hret⟩⟩ <;> rw [hserv] at hc <;> cases hc
        exact ⟨param, hret⟩
      | replied com' dw' lock send => rw [send] at hsend; cases hsend
      | woken com' dw' lock send => rw [send] at hsend; cases hsend
    have hparam : s.m_dwParam = some com := by rw [h.param, hsend]; exact hcom
    refine ⟨(s.Reply dw).goto next, ?_, ?_⟩
    · rw [CSourceStream.step, request_eq (h.place.trans hplace) hparam, hans]
      rfl
    · exact ⟨h.pin, rfl, h.delivered, rfl, fun _ => hret.symm, fun _ _ _ hc => (by rcases hc with hc | hc <;> cases hc),
        fun _ _ => rfl⟩
  · left
    exact ⟨h.pin, h.place, h.delivered, h.param, fun _ => h.ret fun _ _ _ hc => (by rw [hserv] at hc; cases hc),
      fun _ _ _ hc => (by rcases hc with hc | hc <;> cases hc), h.alive⟩

theorem rel_step (hp : t.Phase) (h : Rel t s) {e : Event} (he : Orderly t e) (hs : t.step e = some t') :
    (e.frames = none ∧ Rel t' s) ∨ ∃ e' s', s.step e' = some s' ∧ e.frames = framesOf e' ∧ Rel t' s' := by
  cases e with
  | Create CreateThread =>
    right
    simp only [step, Create] at hs
    by_cases hlock : t.m_AccessLock.isSome
    · rw [if_pos hlock] at hs
      cases hs
    · rw [if_neg hlock] at hs
      have hsend : t.m_EventSend = false := by
        cases hp with
        | idle lock idle => exact idle.send
        | stored com lock => simp [lock] at hlock
        | sent com lock => simp [lock] at hlock
        | replied com dw lock send => exact send
        | woken com dw lock send => exact send
      have hnone : s.m_dwParam = none := by rw [h.param, hsend]; rfl
      by_cases hth : t.m_hThread.isSome ∨ !CreateThread
      · rw [if_pos hth] at hs
        cases hs
        refine ⟨.Create CreateThread, s, ?_, rfl, h⟩
        simp only [CSourceStream.step, CSourceStream.Create, hnone, h.place, if_pos hth]
        rfl
      · rw [if_neg hth] at hs
        cases hs
        refine ⟨.Create CreateThread, s.goto .GetInit, ?_, rfl, ?_⟩
        · simp only [CSourceStream.step, CSourceStream.Create, hnone, h.place, if_neg hth]
          rfl
        · refine ⟨h.pin, rfl, h.delivered, h.param, h.ret, fun com dw next hc => ?_, fun _ _ => rfl⟩
          obtain ⟨place, hplace, -⟩ := h.answer com dw next hc
          simp [hplace] at hth
  | Close =>
    right
    have hlock := he rfl
    simp only [step, Close] at hs
    have halive : ∀ (u : CAMThread π) (com : Command), u.m_AccessLock = none →
        u.m_AccessLock = some (.checked com) ∨ u.m_AccessLock = some (.stored com) → u.m_hThread.isSome := by
      rintro u com hu (hc | hc) <;> rw [hu] at hc <;> cases hc
    split at hs
    · rename_i hth
      cases hs
      exact ⟨.Close, s, by simp only [CSourceStream.step, CSourceStream.Close, h.place, hth], rfl, h⟩
    · rename_i code hth hserv
      cases hs
      refine ⟨.Close, { s with m_hThread := none }, ?_, rfl, ?_⟩
      · simp only [CSourceStream.step, CSourceStream.Close, h.place, hth]
      · exact ⟨h.pin, rfl, h.delivered, h.param, h.ret,
          fun _ _ _ hc => (by rw [hserv] at hc; rcases hc with hc | hc <;> cases hc), fun com => halive _ com hlock⟩
    · cases hs
  | CallWorker dwParam =>
    left
    simp only [step, CallWorker] at hs
    split at hs
    · cases hs
    · cases hs
      exact ⟨rfl, h.pin, h.place, h.delivered, h.param, h.ret, h.answer, fun _ hc => by rcases hc with hc | hc <;> cases hc⟩
  | client =>
    rcases rel_client hp h hs with h' | ⟨com, s', hs', h'⟩
    · exact .inl ⟨rfl, h'⟩
    · exact .inr ⟨.CallWorker com, s', hs', rfl, h'⟩
  | thread =>
    rcases rel_thread hp h hs with h' | ⟨s', hs', h'⟩
    · exact .inl ⟨rfl, h'⟩
    · exact .inr ⟨.request, s', hs', rfl, h'⟩
  | GetDeliveryBuffer r =>
    obtain ⟨u, hu, rfl⟩ := Option.map_eq_some_iff.1 hs
    obtain ⟨s', hs', h'⟩ := rel_loop h rfl hu
    exact .inr ⟨.GetDeliveryBuffer r, s', hs', rfl, h'⟩
  | Deliver hr =>
    obtain ⟨u, hu, rfl⟩ := Option.map_eq_some_iff.1 hs
    obtain ⟨s', hs', h'⟩ := rel_loop h rfl hu
    exact .inr ⟨.Deliver hr, s', hs', rfl, h'⟩

/-- Every orderly run of the single steps is a run in which each command and each
reply is one step, with the same buffers in the same order and the same frames
delivered. -/
theorem refines {pin : π} {es : List Event} (h : Runs step Orderly (new pin) es t) :
    ∃ (es' : List CSourceStream.Event) (s : CSourceStream π),
      Runs CSourceStream.step Any (CSourceStream.new pin) es' s ∧
      es.filterMap Event.frames = es'.filterMap framesOf ∧
      s.pin = t.pin ∧ s.m_hThread = t.m_hThread ∧ s.delivered = t.delivered ∧
      s.m_dwParam = if t.m_EventSend then t.m_dwParam else none := by
  have hnew : Rel (new pin) (CSourceStream.new pin) :=
    ⟨rfl, rfl, rfl, rfl, fun _ => rfl, fun _ _ _ hc => (by rcases hc with hc | hc <;> cases hc),
      fun _ hc => by rcases hc with hc | hc <;> cases hc⟩
  have hstep : ∀ (t : CAMThread π) (s : CSourceStream π) (e : Event) (u : CAMThread π), (t.Phase ∧ Rel t s) →
      Orderly t e → t.step e = some u →
      Matched CSourceStream.step Any Event.frames framesOf (fun t s => t.Phase ∧ Rel t s) s e u := by
    rintro t s e u ⟨hp, hr⟩ he hs
    have hp' := phase_step hp e hs
    rcases rel_step hp hr he hs with ⟨hnone, hr'⟩ | ⟨e', s', hs', hobs, hr'⟩
    · exact .inl ⟨hnone, hp', hr'⟩
    · exact .inr ⟨e', s', trivial, hs', hobs, hp', hr'⟩
  obtain ⟨es', s, hrun, hobs, -, hr⟩ := h.simulate (fun t s => t.Phase ∧ Rel t s) ⟨phase_new pin, hnew⟩ hstep
  exact ⟨es', s, hrun, hobs, hr.pin, hr.place, hr.delivered, hr.param⟩

/-! ## The frames in every interleaving -/

theorem countP_isFill {es : List Event} {es' : List CSourceStream.Event}
    (h : es.filterMap Event.frames = es'.filterMap framesOf) :
    es'.countP CSourceStream.Event.isFill = (es.filterMap Event.frames).countP CSourceStream.Event.isFill := by
  rw [h, List.countP_filterMap]
  refine List.countP_congr fun e _ => ?_
  cases e <;> simp [framesOf, CSourceStream.Event.isFill]

/-- The single steps deliver the frames of the source filter: whatever the
interleaving, the `n`-th frame shows image `n` modulo three in the `n`-th unit of
time. -/
theorem frames_interleaved {pin : CMyOutputPin} {images : Fin 3 → Block} {es : List Event} {t : CAMThread CMyOutputPin}
    (h0 : pin.m_nCount = 0) (hl : CSourceStream.Loaded pin images) (h : Runs step Orderly (new pin) es t)
    (hroom : ∀ pSample, .GetDeliveryBuffer (.ok pSample) ∈ es → pin.m_nImageSize ≤ pSample.m_cbBuffer)
    (hfills : (es.filterMap Event.frames).countP CSourceStream.Event.isFill < 2 ^ 31) :
    t.delivered.length = (es.filterMap Event.frames).countP CSourceStream.Event.isFill ∧
    (∀ n (pSample : CMediaSample), t.delivered[n]? = some pSample →
      CMyOutputPin.Shows (images (Fin.ofNat 3 n)).bytes n pSample) ∧
    Tiles 0 (t.delivered.map CSourceStream.interval) (t.delivered.length * UNITS.toInt) := by
  obtain ⟨es', s, hrun, hobs, -, -, hdel, -⟩ := refines h
  -- The buffers of the coarser run are the buffers of this one.
  have hroom' : ∀ e ∈ es', ∀ v : CSourceStream CMyOutputPin, CSourceStream.Roomy pin.m_nImageSize v e := by
    intro e he v
    cases e with
    | GetDeliveryBuffer r =>
      cases r with
      | error hr => trivial
      | ok pSample =>
        have hmem : CSourceStream.Event.GetDeliveryBuffer (.ok pSample) ∈ es.filterMap Event.frames := by
          rw [hobs]
          exact List.mem_filterMap.2 ⟨_, he, rfl⟩
        obtain ⟨e', he', hf⟩ := List.mem_filterMap.1 hmem
        cases e' <;> cases hf
        exact hroom pSample he'
    | _ => trivial
  have hcount := countP_isFill hobs
  have hframes := CSourceStream.frames_run h0 hl (hrun.of_forall hroom') (by rw [hcount]; exact hfills)
  rw [← hdel, ← hcount]
  refine ⟨hframes.count, hframes.shows, ?_⟩
  rw [hframes.count]
  exact hframes.tiles

/-- One command, from the lock to its answer. -/
def oneCall (com : Command) : List Event :=
  [.CallWorker com, .client, .client, .client, .thread, .thread, .thread, .thread, .thread, .client, .client]

/-- The thread starts, one frame is delivered while the client that wants it to
stop is on its way, and the thread sees its command twice. -/
def interleaved : List Event :=
  [.Create true] ++ oneCall .CMD_INIT ++ oneCall .CMD_PAUSE ++
    [.thread, .CallWorker .CMD_STOP, .client, .GetDeliveryBuffer (.ok CSourceStream.buffer), .client,
      .Deliver S_OK, .client, .thread, .thread, .thread, .thread, .thread, .thread, .thread]

/-- The reply to the stop is there, and the client does not know yet. -/
def afterInterleaved : CAMThread CMyOutputPin :=
  (evalRun step Any interleaved (new CSourceStream.threePin)).get (by decide)

theorem orderly_interleaved : Runs step Orderly (new CSourceStream.threePin) interleaved afterInterleaved := by
  have hrun : Runs step Any (new CSourceStream.threePin) interleaved afterInterleaved := .of_isSome _
  refine hrun.of_forall fun e he s hclose => ?_
  subst hclose
  simp [interleaved, oneCall] at he

theorem refines_interleaved :
    ∃ (es' : List CSourceStream.Event) (s : CSourceStream CMyOutputPin),
      Runs CSourceStream.step Any (CSourceStream.new CSourceStream.threePin) es' s ∧
      interleaved.filterMap Event.frames = es'.filterMap framesOf ∧ s.pin = afterInterleaved.pin ∧
      s.m_hThread = afterInterleaved.m_hThread ∧ s.delivered = afterInterleaved.delivered ∧
      s.m_dwParam = if afterInterleaved.m_EventSend then afterInterleaved.m_dwParam else none :=
  refines orderly_interleaved

theorem frames_interleaved_once : ∃ images : Fin 3 → Block,
    afterInterleaved.delivered.length = 1 ∧
    ∀ n (pSample : CMediaSample), afterInterleaved.delivered[n]? = some pSample →
      CMyOutputPin.Shows (images (Fin.ofNat 3 n)).bytes n pSample := by
  have hnew : CMyOutputPin.new CSourceStream.threeFiles = some CSourceStream.threePin := (Option.some_get _).symm
  obtain ⟨images, hl, -⟩ := CSourceStream.loaded_of_new hnew fun i => ⟨_, rfl, by decide⟩
  have hframes := frames_interleaved (by decide) hl orderly_interleaved (by
    intro pSample hmem
    have hbuf : pSample = CSourceStream.buffer := by simpa [interleaved, oneCall] using hmem
    subst hbuf
    exact (by decide : CSourceStream.threePin.m_nImageSize ≤ CSourceStream.buffer.m_cbBuffer)) (by decide)
  exact ⟨images, hframes.1.trans (by decide), hframes.2.1⟩

end CAMThread

end FilterSln
