import FilterSln.SourceCounter
/-!
# Starting and stopping the source filter

`CBaseFilter::Pause`, `Run` and `Stop` for the source filter with its one pin
connected, over the worker thread of `CSourceStream`. A call that leaves or enters
the stopped state sends commands to the thread and waits for each reply, holding
the filter's lock: such a call is one event that starts it and one for every time
its client goes on. The thread runs in between.

The thread is created anew for every active period, the counter of its pin is not:
`OnThreadCreate` and `OnThreadStartPlay` are those of the base class, which do
nothing. So the times of a period go on where those of the last one ended
(`times_restart_iff`), while stream time starts from zero.
-/

namespace FilterSln

open HRESULT Lib

/-- Where the client is that has called `Pause`, `Run` or `Stop`: in `Init` or
`Pause` of `CSourceStream::Active`, with the state to reach, or in `Stop`, `Exit`
or `Close` of `Inactive`. -/
inductive Call where
  | Init (target : FILTER_STATE)
  | Pause (target : FILTER_STATE)
  | Stop
  | Exit
  | Close
  deriving DecidableEq

structure CMySourceFilter where
  m_State : FILTER_STATE
  stream : CSourceStream CMyOutputPin
  /-- The call in progress. -/
  call : Option Call
  /-- The samples filled in each active period so far, the last period first. A
  `Stop` that cannot decommit the allocator leaves the thread running: what it
  fills then still counts to its period. -/
  periods : List (List CMediaSample)

namespace CMySourceFilter

def new (pin : CMyOutputPin) : CMySourceFilter := ⟨.State_Stopped, .new pin, none, []⟩

inductive Event where
  | Pause (Commit : HRESULT) (CreateThread : Bool)
  | Run (Commit : HRESULT) (CreateThread : Bool)
  | Stop (Decommit : HRESULT)
  /-- The client goes on. -/
  | resume
  /-- The worker thread does something. -/
  | thread (e : CSourceStream.Event)

/-! ## The machine -/

/-- The answer to the last command, once there is one. -/
def reply (f : CMySourceFilter) : Option HRESULT :=
  if f.stream.m_dwParam.isSome then none else f.stream.m_dwReturnVal

/-- The client sends a command and waits. -/
def send (f : CMySourceFilter) (dwParam : Command) (call : Call) : Option CMySourceFilter := do
  let stream ← f.stream.CallWorker dwParam
  some { f with stream, call := some call }

/-- The call returns, with the filter in this state. -/
def done (f : CMySourceFilter) (m_State : FILTER_STATE) : CMySourceFilter := { f with m_State, call := none }

/-- `CSourceStream::Active`, from the stopped state, up to the wait in `Init`. -/
def Active (f : CMySourceFilter) (Commit : HRESULT) (CreateThread : Bool) (target : FILTER_STATE) :
    Option CMySourceFilter :=
  if Commit.FAILED then some f
  -- `Create` refuses to create a second thread.
  else if f.stream.m_hThread.isSome ∨ !CreateThread then some f
  else do
    let stream ← f.stream.Create CreateThread
    { f with stream, periods := [] :: f.periods }.send .CMD_INIT (.Init target)

/-- `CSourceStream::Inactive` up to the wait in `Stop`. -/
def Inactive (f : CMySourceFilter) (Decommit : HRESULT) : Option CMySourceFilter :=
  if Decommit.FAILED ∨ f.stream.m_hThread.isNone then some (f.done .State_Stopped)
  else f.send .CMD_STOP .Stop

/-- `Pause` and `Run`, which differ in the state they reach: the pin's `Run` does
nothing. -/
def start (f : CMySourceFilter) (Commit : HRESULT) (CreateThread : Bool) (target : FILTER_STATE) :
    Option CMySourceFilter :=
  if f.call.isSome then none
  else if f.m_State = .State_Stopped then f.Active Commit CreateThread target
  else some (f.done target)

/-- The client after the reply it has waited for. `Stop` ignores errors. -/
def resume (f : CMySourceFilter) : Option CMySourceFilter :=
  match f.call with
  | none => none
  | some (.Init target) => do
    let hr ← f.reply
    if hr.FAILED then some (f.done f.m_State) else f.send .CMD_PAUSE (.Pause target)
  | some (.Pause target) => do
    let hr ← f.reply
    if hr.FAILED then some (f.done f.m_State) else some (f.done target)
  | some .Stop => do
    let hr ← f.reply
    if hr.FAILED then some (f.done .State_Stopped) else f.send .CMD_EXIT .Exit
  | some .Exit => do
    let hr ← f.reply
    if hr.FAILED then some (f.done .State_Stopped) else some { f with call := some .Close }
  | some .Close => do
    let stream ← f.stream.Close
    some ({ f with stream }.done .State_Stopped)

/-- The events of the thread itself. -/
def isWorker : CSourceStream.Event → Bool
  | .request | .GetDeliveryBuffer _ | .Deliver _ => true
  | _ => false

/-- The samples added to the last period. -/
def record (periods : List (List CMediaSample)) (samples : List CMediaSample) : List (List CMediaSample) :=
  match periods with
  | [] => []
  | period :: rest => (period ++ samples) :: rest

def step (f : CMySourceFilter) : Event → Option CMySourceFilter
  | .Pause Commit CreateThread => f.start Commit CreateThread .State_Paused
  | .Run Commit CreateThread => f.start Commit CreateThread .State_Running
  | .Stop Decommit =>
    if f.call.isSome then none
    else if f.m_State = .State_Stopped then some f
    else f.Inactive Decommit
  | .resume => f.resume
  | .thread e =>
    if isWorker e then do
      let stream ← f.stream.step e
      some { f with stream, periods := record f.periods (stream.delivered.drop f.stream.delivered.length) }
    else none

/-! ## What a step does -/

/-- A buffer arrives and is filled. -/
def Event.isFill : Event → Bool
  | .thread e => e.isFill
  | _ => false

/-- Between the fills: the stream has been sent commands, and a period was opened
if there is a thread now that was not there before. -/
structure Quiet (f f' : CMySourceFilter) : Prop where
  run : ∃ es, Runs CSourceStream.step Any f.stream es f'.stream ∧ es.countP CSourceStream.Event.isFill = 0
  periods : (f'.periods = f.periods ∧ (f'.stream.m_hThread.isSome → f.stream.m_hThread.isSome)) ∨
    f'.periods = [] :: f.periods

variable {f f' : CMySourceFilter} {e : Event}

theorem Quiet.of_stream (hs : f'.stream = f.stream) (hp : f'.periods = f.periods) : Quiet f f' where
  run := ⟨[], by rw [hs]; exact .nil, rfl⟩
  periods := .inl ⟨hp, by rw [hs]; exact id⟩

/-- A command that is sent is one step of the stream. -/
theorem send_ok {dwParam : Command} {call : Call} (h : f.send dwParam call = some f') :
    f.stream.step (.CallWorker dwParam) = some f'.stream ∧ f'.stream.m_hThread = f.stream.m_hThread ∧
      f'.periods = f.periods := by
  simp only [send, Option.bind_eq_bind, Option.bind_eq_some_iff] at h
  obtain ⟨stream, hcall, h⟩ := h
  cases h
  refine ⟨hcall, ?_, rfl⟩
  unfold CSourceStream.CallWorker at hcall
  split at hcall
  · cases hcall
  · split at hcall <;> cases hcall <;> rfl

theorem send_quiet {dwParam : Command} {call : Call} (h : f.send dwParam call = some f') : Quiet f f' := by
  obtain ⟨hstep, hthread, hp⟩ := send_ok h
  exact ⟨⟨_, .single trivial hstep, rfl⟩, .inl ⟨hp, by rw [hthread]; exact id⟩⟩

theorem Active_quiet {Commit : HRESULT} {CreateThread : Bool} {target : FILTER_STATE}
    (h : f.Active Commit CreateThread target = some f') : Quiet f f' := by
  unfold Active at h
  split at h
  · cases h
    exact .of_stream rfl rfl
  · split at h
    · cases h
      exact .of_stream rfl rfl
    · simp only [Option.bind_eq_bind, Option.bind_eq_some_iff] at h
      obtain ⟨stream, hcreate, h⟩ := h
      obtain ⟨hstep, -, hp⟩ := send_ok h
      have hcreate' : f.stream.step (.Create CreateThread) = some stream := hcreate
      exact ⟨⟨_, .cons trivial hcreate' (.single trivial hstep), rfl⟩, .inr hp⟩

theorem start_quiet {Commit : HRESULT} {CreateThread : Bool} {target : FILTER_STATE}
    (h : f.start Commit CreateThread target = some f') : Quiet f f' := by
  unfold start at h
  split at h
  · cases h
  · split at h
    · exact Active_quiet h
    · cases h
      exact .of_stream rfl rfl

theorem Inactive_quiet {Decommit : HRESULT} (h : f.Inactive Decommit = some f') : Quiet f f' := by
  unfold Inactive at h
  split at h
  · cases h
    exact .of_stream rfl rfl
  · exact send_quiet h

/-- After a reply, the call returns or sends the next command. -/
theorem reply_quiet {m_State : FILTER_STATE} {next : Option CMySourceFilter}
    (h : (do
      let hr ← f.reply
      if hr.FAILED then some (f.done m_State) else next) = some f')
    (hnext : next = some f' → Quiet f f') : Quiet f f' := by
  simp only [Option.bind_eq_bind, Option.bind_eq_some_iff] at h
  obtain ⟨hr, -, h⟩ := h
  split at h
  · cases h
    exact .of_stream rfl rfl
  · exact hnext h

theorem resume_quiet (h : f.resume = some f') : Quiet f f' := by
  unfold resume at h
  split at h
  · cases h
  · exact reply_quiet h send_quiet
  · refine reply_quiet h fun hdone => ?_
    cases hdone
    exact .of_stream rfl rfl
  · exact reply_quiet h send_quiet
  · refine reply_quiet h fun hdone => ?_
    cases hdone
    exact .of_stream rfl rfl
  · simp only [Option.bind_eq_bind, Option.bind_eq_some_iff] at h
    obtain ⟨stream, hclose, h⟩ := h
    cases h
    have hstep : f.stream.step .Close = some stream := hclose
    refine ⟨⟨_, .single trivial hstep, rfl⟩, .inl ⟨rfl, fun hsome => ?_⟩⟩
    unfold CSourceStream.Close at hclose
    split at hclose
    · cases hclose
      exact hsome
    · cases hclose
      cases hsome
    · cases hclose

/-- A step of the thread needs the thread. -/
theorem worker_thread {s s' : CSourceStream CMyOutputPin} {e : CSourceStream.Event} (he : isWorker e = true)
    (h : s.step e = some s') : s.m_hThread.isSome = true := by
  by_contra hnone
  rw [Bool.not_eq_true, Option.isSome_eq_false_iff, Option.isNone_iff_eq_none] at hnone
  cases e with
  | request => simp [CSourceStream.step, CSourceStream.request, hnone] at h
  | GetDeliveryBuffer r => simp [CSourceStream.step, hnone] at h
  | Deliver hr => simp [CSourceStream.step, hnone] at h
  | _ => cases he

/-- Either the thread does a step, or the stream is only sent commands. -/
theorem step_cases (h : f.step e = some f') :
    (∃ te, e = .thread te ∧ f.stream.m_hThread.isSome = true ∧ f.stream.step te = some f'.stream ∧
      f'.periods = record f.periods (f'.stream.delivered.drop f.stream.delivered.length)) ∨
    (e.isFill = false ∧ Quiet f f') := by
  cases e with
  | Pause Commit CreateThread => exact .inr ⟨rfl, start_quiet h⟩
  | Run Commit CreateThread => exact .inr ⟨rfl, start_quiet h⟩
  | Stop Decommit =>
    right
    simp only [step] at h
    split at h
    · cases h
    · split at h
      · cases h
        exact ⟨rfl, .of_stream rfl rfl⟩
      · exact ⟨rfl, Inactive_quiet h⟩
  | resume => exact .inr ⟨rfl, resume_quiet h⟩
  | thread te =>
    left
    simp only [step] at h
    split at h
    · rename_i hw
      simp only [Option.bind_eq_bind, Option.bind_eq_some_iff] at h
      obtain ⟨stream, hstep, h⟩ := h
      cases h
      exact ⟨te, rfl, worker_thread hw hstep, hstep, rfl⟩
    · cases h

/-! ## The periods hold what the thread has passed on -/

/-- A step of the stream passes on one more sample if it fills one. -/
theorem delivered_append {s s' : CSourceStream CMyOutputPin} {e : CSourceStream.Event} (h : s.step e = some s') :
    ∃ samples, s'.delivered = s.delivered ++ samples ∧ (samples = [] ↔ e.isFill = false) := by
  rcases CSourceStream.step_cases h with ⟨pSample, filled, hr, rfl, hfill, hdel⟩ | ⟨hno, -, hdel⟩
  · obtain ⟨rfl, -⟩ := CMyOutputPin.FillBuffer_returns hfill
    exact ⟨[filled], hdel, by simp [CSourceStream.Event.isFill]⟩
  · exact ⟨[], by rw [hdel, List.append_nil], by simp [hno]⟩

theorem Quiet.delivered (h : Quiet f f') : f'.stream.delivered = f.stream.delivered := by
  obtain ⟨es, hrun, hfills⟩ := h.run
  refine hrun.inv_events (fun es s => es.countP CSourceStream.Event.isFill = 0 → s.delivered = f.stream.delivered)
    (fun _ => rfl) ?_ hfills
  intro es t e u ih _ hstep hnone
  rw [List.countP_append, List.countP_singleton, Nat.add_eq_zero_iff] at hnone
  obtain ⟨samples, hdel, hempty⟩ := delivered_append hstep
  have hno : e.isFill = false := by
    by_contra hfill
    simp [hfill] at hnone
  rw [hdel, hempty.2 hno, List.append_nil, ih hnone.1]

/-- The samples passed on, period by period; and no thread without a period. -/
structure Recorded (f : CMySourceFilter) : Prop where
  samples : f.periods.reverse.flatten = f.stream.delivered
  period : f.stream.m_hThread.isSome = true → f.periods ≠ []

theorem recorded_step (h : Recorded f) (hstep : f.step e = some f') : Recorded f' := by
  rcases step_cases hstep with ⟨te, -, hthread, hstream, hp⟩ | ⟨-, hquiet⟩
  · obtain ⟨samples, hdel, -⟩ := delivered_append hstream
    rw [hdel, List.drop_left] at hp
    obtain ⟨period, rest, hperiods⟩ := List.exists_cons_of_ne_nil (h.period hthread)
    have hsamples := h.samples
    rw [hperiods] at hp hsamples
    refine ⟨?_, fun _ => by rw [hp]; nofun⟩
    rw [hp, hdel, ← hsamples]
    simp [record]
  · rcases hquiet.periods with ⟨hp, hthread⟩ | hp
    · exact ⟨by rw [hp, hquiet.delivered]; exact h.samples, fun hsome => by rw [hp]; exact h.period (hthread hsome)⟩
    · refine ⟨?_, fun _ => by rw [hp]; nofun⟩
      rw [hp, hquiet.delivered, ← h.samples]
      simp

/-- After a run: the stream has done as many fills, and the periods hold its samples. -/
theorem recorded_run {pin : CMyOutputPin} (h0 : pin.m_nCount = 0) {es : List Event}
    (hrun : Runs step Any (new pin) es f) :
    CSourceStream.Counted (es.countP Event.isFill) f.stream ∧ Recorded f := by
  refine hrun.inv_events (fun es f => CSourceStream.Counted (es.countP Event.isFill) f.stream ∧ Recorded f) ?_ ?_
  · exact ⟨CSourceStream.counted_new h0, rfl, fun h => absurd h Bool.false_ne_true⟩
  intro es t e u hinv _ hstep
  refine ⟨?_, recorded_step hinv.2 hstep⟩
  rw [List.countP_append, List.countP_singleton]
  rcases step_cases hstep with ⟨te, rfl, -, hstream, -⟩ | ⟨hno, hquiet⟩
  · exact CSourceStream.counted_step hinv.1 hstream
  · obtain ⟨es', hrun', hfills⟩ := hquiet.run
    have hcounted := CSourceStream.counted_run hinv.1 hrun'
    rw [hfills] at hcounted
    rw [hno]
    exact hcounted

/-! ## The times of a period -/

/-- In every period the `k`-th sample starts at `k` units of time. -/
def TimesRestart (f : CMySourceFilter) : Prop :=
  ∀ period ∈ f.periods, ∀ (k : Nat) (pSample : CMediaSample), period[k]? = some pSample →
    CSourceStream.startTime pSample = k * UNITS.toInt

theorem period_times {period : List CMediaSample} :
    (∀ (k : Nat) (pSample : CMediaSample), period[k]? = some pSample →
      CSourceStream.startTime pSample = k * UNITS.toInt) ↔
      period.map CSourceStream.startTime = (List.range period.length).map fun k : Nat => k * UNITS.toInt := by
  constructor
  · intro h
    refine List.ext_getElem (by simp) fun k hk _ => ?_
    rw [List.length_map] at hk
    simp [h k _ (List.getElem?_eq_getElem hk)]
  · intro h k pSample hk
    obtain ⟨hlt, rfl⟩ := List.getElem?_eq_some_iff.1 hk
    have := congrArg (·[k]?) h
    simpa [hlt] using this

/-- At most one period has any samples. -/
def OnePeriod (f : CMySourceFilter) : Prop := f.periods.Pairwise fun a b => a = [] ∨ b = []

theorem times_restart_onePeriod {pin : CMyOutputPin} (h0 : pin.m_nCount = 0) {es : List Event}
    (hrun : Runs step Any (new pin) es f) : TimesRestart f ↔ OnePeriod f := by
  obtain ⟨hcounted, hrec⟩ := recorded_run h0 hrun
  have hunits : UNITS.toInt = 10000000 := by decide
  have hinj : Function.Injective fun k : Nat => (k : Int) * UNITS.toInt := by
    intro a b hab
    dsimp only at hab
    rw [hunits] at hab
    omega
  have hflat : (f.periods.reverse.map (List.map CSourceStream.startTime)).flatten =
      (List.range (es.countP Event.isFill)).map fun k : Nat => (k : Int) * UNITS.toInt := by
    rw [← List.map_flatten, hrec.samples]
    exact hcounted.starts
  have hiff := restarts_iff hinj hflat
  simp only [List.forall_mem_map, List.mem_reverse, List.length_map, List.pairwise_map, List.pairwise_reverse,
    List.map_eq_nil_iff] at hiff
  constructor
  · intro h
    exact (hiff.1 fun period hp => period_times.1 (h period hp)).imp Or.symm
  · intro h period hp
    exact period_times.2 (hiff.2 (h.imp Or.symm) period hp)

/-- A frame is filled only in a period before which none was filled. -/
def FirstPeriod (f : CMySourceFilter) (e : Event) : Prop := e.isFill = true → ∀ period ∈ f.periods.tail, period = []

theorem onePeriod_step (h : f.step e = some f') : OnePeriod f' ↔ OnePeriod f ∧ FirstPeriod f e := by
  rcases step_cases h with ⟨te, rfl, -, hstream, hp⟩ | ⟨hno, hquiet⟩
  · obtain ⟨samples, hdel, hempty⟩ := delivered_append hstream
    rw [hdel, List.drop_left] at hp
    unfold OnePeriod FirstPeriod
    rw [hp]
    cases hperiods : f.periods with
    | nil => simp [record]
    | cons period rest =>
      simp only [record, List.pairwise_cons, List.append_eq_nil_iff, hempty, List.tail_cons, Event.isFill]
      cases hfill : te.isFill with
      | false => simp
      -- The last period has a sample now, so the others must have none.
      | true =>
        simp only [Bool.true_eq_false, and_false, false_or, true_implies]
        exact ⟨fun ⟨hrest, hpair⟩ => ⟨⟨fun b hb => .inr (hrest b hb), hpair⟩, hrest⟩,
          fun ⟨⟨_, hpair⟩, hrest⟩ => ⟨hrest, hpair⟩⟩
  · have hfirst : FirstPeriod f e := fun hfill => absurd (hno.symm.trans hfill) Bool.false_ne_true
    have hsame : OnePeriod f' ↔ OnePeriod f := by
      unfold OnePeriod
      rcases hquiet.periods with ⟨hp, -⟩ | hp <;> simp [hp]
    rw [hsame, iff_self_and]
    exact fun _ => hfirst

/-- The times restart with every period exactly when the filter fills no frame
after it has been restarted since an earlier one. -/
theorem times_restart_iff {pin : CMyOutputPin} {files : Fin 3 → LoadEnv} {es : List Event}
    (hnew : CMyOutputPin.new files = some pin) (hrun : Runs step Any (new pin) es f) :
    TimesRestart f ↔ Runs step FirstPeriod (new pin) es f := by
  obtain ⟨h0, -, -, -⟩ := CMyOutputPin.new_ok hnew
  have hone : OnePeriod (new pin) := List.Pairwise.nil
  rw [times_restart_onePeriod h0 hrun, hrun.inv_iff OnePeriod hone fun t e u _ => onePeriod_step]
  exact ⟨fun h => h.mono fun _ _ hc => hc.2, fun h => h.mono fun _ _ hc => ⟨trivial, hc⟩⟩

open CSourceStream (threePin threeFiles buffer)

instance (f : CMySourceFilter) (e : Event) : Decidable (FirstPeriod f e) := inferInstanceAs (Decidable (_ → _))

/-- From the stopped state: the thread takes up `CMD_INIT` and `CMD_PAUSE`. -/
def starts : List Event := [.Pause S_OK true, .thread .request, .resume, .thread .request, .resume]

def frame : List Event :=
  [.thread .request, .thread (.GetDeliveryBuffer (.ok buffer)), .thread (.Deliver S_OK)]

/-- The thread leaves its loop for `CMD_STOP`, and ends. -/
def stops : List Event :=
  [.Stop S_OK, .thread .request, .thread .request, .resume, .thread .request, .resume, .resume]

/-- The filter after a stop before the first frame, and two frames then. -/
def afterShow : CMySourceFilter :=
  (evalRun step FirstPeriod (starts ++ stops ++ starts ++ frame ++ frame ++ stops) (new threePin)).get (by decide)

theorem times_restart_afterShow : TimesRestart afterShow :=
  have hrun : Runs step FirstPeriod (new threePin) _ afterShow := .of_isSome (by decide)
  (times_restart_iff (Option.some_get _).symm hrun.weaken).2 hrun

/-- The filter after one frame, a stop, and one frame more. -/
def afterSecondShow : CMySourceFilter :=
  (evalRun step Any (starts ++ frame ++ stops ++ starts ++ frame) (new threePin)).get (by decide)

/-- The first frame after the restart starts at one unit of time. -/
theorem times_go_on :
    CMyOutputPin.new threeFiles = some threePin ∧
      Runs step Any (new threePin) (starts ++ frame ++ stops ++ starts ++ frame) afterSecondShow ∧
      afterSecondShow.periods.map (List.map CSourceStream.startTime) = [[UNITS.toInt], [0]] ∧
      ¬ TimesRestart afterSecondShow := by
  have htimes : afterSecondShow.periods.map (List.map CSourceStream.startTime) = [[UNITS.toInt], [0]] := by decide
  refine ⟨(Option.some_get _).symm, .of_isSome (by decide), htimes, fun h => ?_⟩
  obtain ⟨period, rest, hperiods, hperiod, -⟩ := List.map_eq_cons_iff.1 htimes
  obtain ⟨pSample, rfl, hstart⟩ := List.map_eq_singleton_iff.1 hperiod
  have hzero := h [pSample] (by simp [hperiods]) 0 pSample rfl
  rw [hstart] at hzero
  exact absurd hzero (by decide)

end CMySourceFilter

end FilterSln
