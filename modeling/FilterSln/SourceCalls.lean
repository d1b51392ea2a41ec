import FilterSln.SourceFilter
import FilterSln.WorkerThread
/-!
# The calls on the source filter come to an end

The client of `CMySourceFilter` and its worker thread wait for each other in
turn. `Coupled` says at which place the thread is while the client is at one of
its own: every command finds the thread where it answers it, and answers it with
success. So `Pause`, `Run` and `Stop` reach the state they are called for after a
bounded number of steps (`calls_complete`), and between the calls the thread is
there exactly while the filter is not stopped (`state_agrees`).

`Stop` ignores its pin's failure. When the allocator cannot be decommitted the
filter counts as stopped with its thread running, and no later call changes that
(`left_running`).
-/

namespace FilterSln

open HRESULT Lib

/-- The thread answers `CMD_INIT` no more, and has not been told to exit. -/
def ThreadProc.InLoop (place : ThreadProc) : Prop :=
  place = .GetRequest ∨ place = .CheckRequest ∨ place = .GetDeliveryBuffer ∨ place = .Deliver

/-- The steps of the thread until it replies to the command it is there for. -/
def ThreadProc.steps : ThreadProc → Nat
  | .GetInit => 1
  | .GetRequest => 1
  | .CheckRequest => 2
  | .Deliver => 3
  | .GetDeliveryBuffer => 4
  | .exited _ => 0

/-- The state that the call is to reach. -/
def Call.goal : Call → FILTER_STATE
  | .Init target => target
  | .Pause target => target
  | .Stop => .State_Stopped
  | .Exit => .State_Stopped
  | .Close => .State_Stopped

namespace CMySourceFilter

/-- The command has been sent, and the thread is at such a place. -/
def Asked (s : CSourceStream CMyOutputPin) (com : Command) (place : ThreadProc → Prop) : Prop :=
  s.m_dwParam = some com ∧ ∃ p, s.m_hThread = some p ∧ place p

/-- The last command has been answered with success. -/
def Answered (s : CSourceStream CMyOutputPin) (place : ThreadProc → Prop) : Prop :=
  s.m_dwParam = none ∧ s.m_dwReturnVal = some NOERROR ∧ ∃ p, s.m_hThread = some p ∧ place p

/-- The client and the thread, by the call in progress. -/
inductive Coupled (f : CMySourceFilter) : Prop
  | stopped (call : f.call = none) (state : f.m_State = .State_Stopped) (param : f.stream.m_dwParam = none)
    (thread : f.stream.m_hThread = none)
  | active (call : f.call = none) (state : f.m_State ≠ .State_Stopped) (param : f.stream.m_dwParam = none)
    (place : ThreadProc) (thread : f.stream.m_hThread = some place) (loop : place.InLoop)
  | init (target : FILTER_STATE) (call : f.call = some (.Init target)) (state : target ≠ .State_Stopped)
    (asked : Asked f.stream .CMD_INIT (· = .GetInit) ∨ Answered f.stream (· = .GetRequest))
  | pause (target : FILTER_STATE) (call : f.call = some (.Pause target)) (state : target ≠ .State_Stopped)
    (asked : Asked f.stream .CMD_PAUSE (· = .GetRequest) ∨ Answered f.stream ThreadProc.InLoop)
  | stop (call : f.call = some .Stop)
    (asked : Asked f.stream .CMD_STOP ThreadProc.InLoop ∨ Answered f.stream (· = .GetRequest))
  | exit (call : f.call = some .Exit)
    (asked : Asked f.stream .CMD_EXIT (· = .GetRequest) ∨ Answered f.stream (· = .exited 0))
  | close (call : f.call = some .Close) (answered : Answered f.stream (· = .exited 0))

/-- The steps until the thread has replied. -/
def awaited (f : CMySourceFilter) : Nat :=
  if f.stream.m_dwParam.isSome then (f.stream.m_hThread.map ThreadProc.steps).getD 0 else 0

/-- The steps until the call has returned, when the client always goes on as soon
as it can. -/
def rank (f : CMySourceFilter) : Nat :=
  match f.call with
  | none => 0
  | some (.Init _) => f.awaited + 3
  | some (.Pause _) => f.awaited + 1
  | some .Stop => f.awaited + 4
  | some .Exit => f.awaited + 2
  | some .Close => 1

/-! ## The steps of the thread -/

variable {s s' : CSourceStream CMyOutputPin} {place : ThreadProc} {f f' : CMySourceFilter}

/-- A step of the thread, with its place before. -/
theorem worker_cases {e : CSourceStream.Event} (hw : isWorker e = true) (hp : s.m_hThread = some place)
    (h : s.step e = some s') :
    (∃ com r, s.m_dwParam = some com ∧ place.answer com = some r ∧ s' = (r.1.elim s s.Reply).goto r.2) ∨
    (s.m_dwParam = none ∧ place = .CheckRequest ∧ s' = s.goto .GetDeliveryBuffer) ∨
    ((place = .GetDeliveryBuffer ∨ place = .Deliver) ∧ s'.m_dwParam = s.m_dwParam ∧
      s'.m_dwReturnVal = s.m_dwReturnVal ∧
      ∃ next, s'.m_hThread = some next ∧ next.InLoop ∧ next.steps < place.steps) := by
  cases e with
  | Create b => cases hw
  | CallWorker com => cases hw
  | Close => cases hw
  | request =>
    cases hcom : s.m_dwParam with
    | some com =>
      left
      rw [CSourceStream.step, CAMThread.request_eq hp hcom] at h
      obtain ⟨r, hr, rfl⟩ := Option.map_eq_some_iff.1 h
      exact ⟨com, r, rfl, hr, rfl⟩
    | none =>
      right
      left
      simp only [CSourceStream.step, CSourceStream.request, hp, hcom] at h
      cases place <;> cases h
      exact ⟨rfl, rfl, rfl⟩
  | GetDeliveryBuffer r =>
    right
    right
    simp only [CSourceStream.step, hp] at h
    split at h
    · rename_i hgdb
      cases hgdb
      cases r with
      | error hr =>
        dsimp only at h
        split at h <;> cases h
        exact ⟨.inl rfl, rfl, rfl, .CheckRequest, rfl, .inr (.inl rfl), by decide⟩
      | ok pSample =>
        obtain ⟨⟨pin, filled, hr⟩, -, h⟩ := Option.bind_eq_some_iff.1 h
        dsimp only at h
        split at h <;> cases h
        · exact ⟨.inl rfl, rfl, rfl, .Deliver, rfl, .inr (.inr (.inr rfl)), by decide⟩
        · exact ⟨.inl rfl, rfl, rfl, .GetRequest, rfl, .inl rfl, by decide⟩
    · cases h
  | Deliver hr =>
    right
    right
    simp only [CSourceStream.step, hp] at h
    split at h
    · rename_i hdel
      cases hdel
      split at h <;> cases h
      · exact ⟨.inr rfl, rfl, rfl, .GetRequest, rfl, .inl rfl, by decide⟩
      · exact ⟨.inr rfl, rfl, rfl, .CheckRequest, rfl, .inr (.inl rfl), by decide⟩
    · cases h

/-- With no request the thread stays in its loop. -/
theorem worker_loop {e : CSourceStream.Event} (hw : isWorker e = true) (hparam : s.m_dwParam = none)
    (hp : s.m_hThread = some place) (h : s.step e = some s') :
    s'.m_dwParam = none ∧ s'.m_dwReturnVal = s.m_dwReturnVal ∧ ∃ p, s'.m_hThread = some p ∧ p.InLoop := by
  rcases worker_cases hw hp h with ⟨com, r, hcom, -⟩ | ⟨-, -, rfl⟩ | ⟨-, hparam', hret, next, hn, hl, -⟩
  · rw [hparam] at hcom; cases hcom
  · exact ⟨hparam, rfl, .GetDeliveryBuffer, rfl, .inr (.inr (.inl rfl))⟩
  · exact ⟨hparam'.trans hparam, hret, next, hn, hl⟩

/-- With no request the thread cannot leave the places where it only waits for
one. -/
theorem worker_waits {e : CSourceStream.Event} (hw : isWorker e = true) (hparam : s.m_dwParam = none)
    (hp : s.m_hThread = some place) (h1 : place ≠ .CheckRequest) (h2 : place ≠ .GetDeliveryBuffer)
    (h3 : place ≠ .Deliver) : s.step e = none := by
  cases h : s.step e with
  | none => rfl
  | some s' =>
    rcases worker_cases hw hp h with ⟨com, r, hcom, -⟩ | ⟨-, hc, -⟩ | ⟨hc | hc, -⟩
    · rw [hparam] at hcom; cases hcom
    · exact absurd hc h1
    · exact absurd hc h2
    · exact absurd hc h3

/-- At a place with one answer, the thread gives it. -/
theorem worker_answers {e : CSourceStream.Event} {com : Command} {dw : HRESULT} {next : ThreadProc}
    (hw : isWorker e = true) (hcom : s.m_dwParam = some com) (hp : s.m_hThread = some place)
    (hans : place.answer com = some (some dw, next)) (h : s.step e = some s') : s' = (s.Reply dw).goto next := by
  rcases worker_cases hw hp h with ⟨com', r, hcom', hr, rfl⟩ | ⟨hn, -⟩ | ⟨hc | hc, -⟩
  · rw [hcom] at hcom'
    cases hcom'
    rw [hans] at hr
    cases hr
    rfl
  · rw [hcom] at hn; cases hn
  · subst hc; cases hans
  · subst hc; cases hans

/-- While `CMD_STOP` waits, a step of the thread answers it or brings it nearer. -/
theorem worker_stop {e : CSourceStream.Event} (hw : isWorker e = true) (hcom : s.m_dwParam = some .CMD_STOP)
    (hp : s.m_hThread = some place) (hloop : place.InLoop) (h : s.step e = some s') :
    Answered s' (· = .GetRequest) ∨
    (s'.m_dwParam = some .CMD_STOP ∧ ∃ next, s'.m_hThread = some next ∧ next.InLoop ∧ next.steps < place.steps) := by
  rcases worker_cases hw hp h with ⟨com, r, hcom', hr, rfl⟩ | ⟨hn, -⟩ | ⟨-, hparam, -, next, hn, hl, hlt⟩
  · rw [hcom] at hcom'
    cases hcom'
    rcases hloop with rfl | rfl | rfl | rfl <;> cases hr
    · exact .inl ⟨rfl, rfl, _, rfl, rfl⟩
    · exact .inr ⟨hcom, .GetRequest, rfl, .inl rfl, by decide⟩
  · rw [hcom] at hn; cases hn
  · exact .inr ⟨hparam.trans hcom, next, hn, hl, hlt⟩

theorem awaited_answered (h : f.stream.m_dwParam = none) : f.awaited = 0 := by simp [awaited, h]

theorem awaited_asked {com : Command} (h : f.stream.m_dwParam = some com) (hp : f.stream.m_hThread = some place) :
    f.awaited = place.steps := by simp [awaited, h, hp]

/-- The rank follows the steps awaited, until the client only waits for the end
of the thread. -/
theorem rank_lt {call : Call} (hcall' : f'.call = f.call) (hcall : f.call = some call) (hne : call ≠ .Close)
    (h : f'.awaited < f.awaited) : f'.rank < f.rank := by
  simp only [rank, hcall', hcall]
  cases call with
  | Close => exact absurd rfl hne
  | _ => exact Nat.add_lt_add_right h _

/-- An answer ends the wait. -/
theorem rank_lt_answered {call : Call} {com : Command} (hcall' : f'.call = f.call) (hcall : f.call = some call)
    (hne : call ≠ .Close) (hcom : f.stream.m_dwParam = some com) (hp : f.stream.m_hThread = some place)
    (hpos : 0 < place.steps) (h : f'.stream.m_dwParam = none) : f'.rank < f.rank := by
  apply rank_lt hcall' hcall hne
  rw [awaited_answered h, awaited_asked hcom hp]
  exact hpos

/-- The thread keeps the two sides coupled, and every step of it while the client
waits counts. -/
theorem coupled_worker (h : Coupled f) {e : CSourceStream.Event} (hw : isWorker e = true)
    (hs : f.stream.step e = some s') (hstream : f'.stream = s') (hcall : f'.call = f.call)
    (hstate : f'.m_State = f.m_State) : Coupled f' ∧ (f.stream.m_dwParam.isSome → f'.rank < f.rank) := by
  rw [← hstream] at hs
  cases h with
  | stopped call state param thread =>
    have hth := worker_thread hw hs
    rw [thread] at hth
    cases hth
  | active call state param place thread loop =>
    obtain ⟨hparam, -, p, hp, hl⟩ := worker_loop hw param thread hs
    exact ⟨.active (hcall.trans call) (by rw [hstate]; exact state) hparam p hp hl, by rw [param]; nofun⟩
  | init target call state asked =>
    rcases asked with ⟨hcom, p, hp, rfl⟩ | ⟨hparam, -, p, hp, rfl⟩
    · have hs' := worker_answers hw hcom hp rfl hs
      refine ⟨.init target (hcall.trans call) state (.inr ?_), fun _ => ?_⟩
      · rw [hs']
        exact ⟨rfl, rfl, _, rfl, rfl⟩
      · exact rank_lt_answered hcall call nofun hcom hp (by decide) (by rw [hs']; rfl)
    · rw [worker_waits hw hparam hp nofun nofun nofun] at hs
      cases hs
  | pause target call state asked =>
    rcases asked with ⟨hcom, p, hp, rfl⟩ | ⟨hparam, hret, p, hp, hl⟩
    · have hs' := worker_answers hw hcom hp rfl hs
      refine ⟨.pause target (hcall.trans call) state (.inr ?_), fun _ => ?_⟩
      · rw [hs']
        exact ⟨rfl, rfl, _, rfl, .inr (.inl rfl)⟩
      · exact rank_lt_answered hcall call nofun hcom hp (by decide) (by rw [hs']; rfl)
    · obtain ⟨hparam', hret', p', hp', hl'⟩ := worker_loop hw hparam hp hs
      exact ⟨.pause target (hcall.trans call) state (.inr ⟨hparam', hret'.trans hret, p', hp', hl'⟩),
        by rw [hparam]; nofun⟩
  | stop call asked =>
    rcases asked with ⟨hcom, p, hp, hl⟩ | ⟨hparam, -, p, hp, rfl⟩
    · rcases worker_stop hw hcom hp hl hs with hans | ⟨hcom', next, hn, hl', hlt⟩
      · have hpos : 0 < p.steps := by
          rcases hl with rfl | rfl | rfl | rfl <;> decide
        exact ⟨.stop (hcall.trans call) (.inr hans),
          fun _ => rank_lt_answered hcall call nofun hcom hp hpos hans.1⟩
      · refine ⟨.stop (hcall.trans call) (.inl ⟨hcom', next, hn, hl'⟩), fun _ => ?_⟩
        apply rank_lt hcall call nofun
        rw [awaited_asked hcom' hn, awaited_asked hcom hp]
        exact hlt
    · rw [worker_waits hw hparam hp nofun nofun nofun] at hs
      cases hs
  | exit call asked =>
    rcases asked with ⟨hcom, p, hp, rfl⟩ | ⟨hparam, -, p, hp, rfl⟩
    · have hs' := worker_answers hw hcom hp rfl hs
      refine ⟨.exit (hcall.trans call) (.inr ?_), fun _ => ?_⟩
      · rw [hs']
        exact ⟨rfl, rfl, _, rfl, rfl⟩
      · exact rank_lt_answered hcall call nofun hcom hp (by decide) (by rw [hs']; rfl)
    · rw [worker_waits hw hparam hp nofun nofun nofun] at hs
      cases hs
  | close call answered =>
    obtain ⟨hparam, -, p, hp, rfl⟩ := answered
    rw [worker_waits hw hparam hp nofun nofun nofun] at hs
    cases hs

/-! ## The steps of the client -/

/-- A command to a thread that is there and has none. -/
theorem send_eq {com : Command} {call : Call} (hparam : f.stream.m_dwParam = none)
    (hp : f.stream.m_hThread = some place) :
    f.send com call = some { f with stream := { f.stream with m_dwParam := some com }, call := some call } := by
  simp [send, CSourceStream.CallWorker, hparam, hp]

theorem reply_answered {P : ThreadProc → Prop} (h : Answered f.stream P) : f.reply = some NOERROR := by
  simp [reply, h.1, h.2.1]

theorem reply_asked {com : Command} {P : ThreadProc → Prop} (h : Asked f.stream com P) : f.reply = none := by
  simp [reply, h.1]

/-- The client has heard of a success. -/
theorem reply_bind {P : ThreadProc → Prop} (h : Asked f.stream com Q ∨ Answered f.stream P) {m_State : FILTER_STATE}
    {next : Option CMySourceFilter}
    (hs : (f.reply >>= fun hr => if hr.FAILED then some (f.done m_State) else next) = some f') :
    Answered f.stream P ∧ next = some f' := by
  rcases h with hasked | hans
  · rw [reply_asked hasked] at hs
    cases hs
  · rw [reply_answered hans] at hs
    exact ⟨hans, hs⟩

/-- What a step of the client comes to: the call goes on towards the same state,
or it returns there. -/
structure Nearer (f f' : CMySourceFilter) (call : Call) : Prop where
  coupled : Coupled f'
  rank : f'.rank < f.rank
  returned : f'.call = none → f'.m_State = call.goal
  goal : ∀ call', f'.call = some call' → call'.goal = call.goal

/-- The client goes on to the next command or returns in the state it was called
for. -/
theorem nearer_resume (h : Coupled f) {call : Call} (hcall : f.call = some call) (hs : f.resume = some f') :
    Nearer f f' call := by
  unfold resume at hs
  rw [hcall] at hs
  cases h with
  | stopped call' => rw [hcall] at call'; cases call'
  | active call' => rw [hcall] at call'; cases call'
  | init target call' state asked =>
    rw [hcall] at call'
    cases call'
    obtain ⟨⟨hparam, hret, p, hp, rfl⟩, hs⟩ := reply_bind asked hs
    rw [send_eq hparam hp] at hs
    cases hs
    refine ⟨.pause target rfl state (.inl ⟨rfl, _, hp, rfl⟩), ?_, by rintro ⟨⟩, ?_⟩
    · simp [rank, hcall, awaited, hparam, hp, ThreadProc.steps]
    · rintro call' hc
      cases hc
      rfl
  | pause target call' state asked =>
    rw [hcall] at call'
    cases call'
    obtain ⟨⟨hparam, hret, p, hp, hl⟩, hs⟩ := reply_bind asked hs
    cases hs
    refine ⟨.active rfl state hparam p hp hl, ?_, fun _ => rfl, by rintro _ ⟨⟩⟩
    simp [rank, hcall, done]
  | stop call' asked =>
    rw [hcall] at call'
    cases call'
    obtain ⟨⟨hparam, hret, p, hp, rfl⟩, hs⟩ := reply_bind asked hs
    rw [send_eq hparam hp] at hs
    cases hs
    refine ⟨.exit rfl (.inl ⟨rfl, _, hp, rfl⟩), ?_, by rintro ⟨⟩, ?_⟩
    · simp [rank, hcall, awaited, hparam, hp, ThreadProc.steps]
    · rintro call' hc
      cases hc
      rfl
  | exit call' asked =>
    rw [hcall] at call'
    cases call'
    obtain ⟨⟨hparam, hret, p, hp, rfl⟩, hs⟩ := reply_bind asked hs
    cases hs
    refine ⟨.close rfl ⟨hparam, hret, _, hp, rfl⟩, ?_, by rintro ⟨⟩, ?_⟩
    · simp [rank, hcall, awaited, hparam]
    · rintro call' hc
      cases hc
      rfl
  | close call' answered =>
    rw [hcall] at call'
    cases call'
    obtain ⟨hparam, hret, p, hp, rfl⟩ := answered
    simp only [CSourceStream.Close, hp] at hs
    cases hs
    refine ⟨.stopped rfl rfl hparam rfl, ?_, fun _ => rfl, by rintro _ ⟨⟩⟩
    simp [rank, hcall, done]

/-! ## Every run is coupled -/

/-- The pin can decommit its allocator. -/
def Decommits (_ : CMySourceFilter) : Event → Prop
  | .Stop Decommit => Decommit.FAILED = false
  | _ => True

theorem coupled_new (pin : CMyOutputPin) : Coupled (new pin) := .stopped rfl rfl rfl rfl

theorem coupled_start (h : Coupled f) {Commit : HRESULT} {CreateThread : Bool} {target : FILTER_STATE}
    (hs : f.start Commit CreateThread target = some f') (htarget : target ≠ .State_Stopped) : Coupled f' := by
  unfold start at hs
  by_cases hcall : f.call.isSome
  · rw [if_pos hcall] at hs
    cases hs
  · rw [if_neg hcall] at hs
    cases h with
    | stopped call state param thread =>
      rw [if_pos state] at hs
      unfold Active at hs
      split at hs
      · cases hs
        exact .stopped call state param thread
      · split at hs
        · cases hs
          exact .stopped call state param thread
        · rename_i hcreate
          obtain ⟨stream, hstream, hs⟩ := Option.bind_eq_some_iff.1 hs
          simp only [CSourceStream.Create, param, if_neg hcreate] at hstream
          cases hstream
          rw [send_eq (f := { f with stream := f.stream.goto .GetInit, periods := [] :: f.periods }) param rfl] at hs
          cases hs
          exact .init target rfl htarget (.inl ⟨rfl, _, rfl, rfl⟩)
    | active call state param place thread loop =>
      rw [if_neg state] at hs
      cases hs
      exact .active rfl htarget param place thread loop
    | init target call => simp [call] at hcall
    | pause target call => simp [call] at hcall
    | stop call => simp [call] at hcall
    | exit call => simp [call] at hcall
    | close call => simp [call] at hcall

theorem coupled_Stop (h : Coupled f) {Decommit : HRESULT} (hok : Decommit.FAILED = false)
    (hs : f.step (.Stop Decommit) = some f') : Coupled f' := by
  simp only [step] at hs
  by_cases hcall : f.call.isSome
  · rw [if_pos hcall] at hs
    cases hs
  · rw [if_neg hcall] at hs
    cases h with
    | stopped call state param thread =>
      rw [if_pos state] at hs
      cases hs
      exact .stopped call state param thread
    | active call state param place thread loop =>
      rw [if_neg state] at hs
      unfold Inactive at hs
      rw [if_neg (by simp [hok, thread]), send_eq param thread] at hs
      cases hs
      exact .stop rfl (.inl ⟨rfl, place, thread, loop⟩)
    | init target call => simp [call] at hcall
    | pause target call => simp [call] at hcall
    | stop call => simp [call] at hcall
    | exit call => simp [call] at hcall
    | close call => simp [call] at hcall

theorem coupled_step (h : Coupled f) {e : Event} (he : Decommits f e) (hs : f.step e = some f') : Coupled f' := by
  cases e with
  | Pause Commit CreateThread =>
    have hs' : f.start Commit CreateThread .State_Paused = some f' := hs
    exact coupled_start h hs' nofun
  | Run Commit CreateThread =>
    have hs' : f.start Commit CreateThread .State_Running = some f' := hs
    exact coupled_start h hs' nofun
  | Stop Decommit => exact coupled_Stop h he hs
  | resume =>
    cases hcall : f.call with
    | none => simp [step, resume, hcall] at hs
    | some call => exact (nearer_resume h hcall hs).coupled
  | thread te =>
    simp only [step] at hs
    split at hs
    · rename_i hw
      obtain ⟨stream, hstep, hs⟩ := Option.bind_eq_some_iff.1 hs
      cases hs
      refine (coupled_worker h hw hstep ?_ ?_ ?_).1 <;> rfl
    · cases hs

variable {pin : CMyOutputPin} {es es' : List Event}

theorem runs_coupled (h : Runs step Decommits (new pin) es f) : Coupled f :=
  h.inv Coupled (coupled_new pin) fun _ _ _ hc he hs => coupled_step hc he hs

/-- Between the calls, the thread is there exactly while the filter is not
stopped; it stands in its loop with no command waiting. In a stopped filter
nothing happens, so no frame is filled. -/
theorem state_agrees (h : Runs step Decommits (new pin) es f) (hcall : f.call = none) :
    f.stream.m_dwParam = none ∧
    (f.m_State ≠ .State_Stopped ↔ ∃ place, f.stream.m_hThread = some place ∧ place.InLoop) ∧
    (f.m_State = .State_Stopped → f.stream.m_hThread = none ∧ ∀ te, f.step (.thread te) = none) := by
  cases runs_coupled h with
  | stopped call state param thread =>
    refine ⟨param, ⟨fun hne => absurd state hne, ?_⟩, fun _ => ⟨thread, fun te => ?_⟩⟩
    · rintro ⟨place, hp, -⟩
      rw [thread] at hp
      cases hp
    · cases hs : f.step (.thread te) with
      | none => rfl
      | some f' =>
        rcases step_cases hs with ⟨te', -, hth, -⟩ | ⟨-, -⟩
        · rw [thread] at hth
          cases hth
        · simp only [step] at hs
          split at hs
          · rename_i hw
            obtain ⟨stream, hstep, -⟩ := Option.bind_eq_some_iff.1 hs
            have hth := worker_thread hw hstep
            rw [thread] at hth
            cases hth
          · cases hs
  | active call state param place thread loop =>
    exact ⟨param, ⟨fun _ => ⟨place, thread, loop⟩, fun _ => state⟩, fun hst => absurd hst state⟩
  | init target call => rw [hcall] at call; cases call
  | pause target call => rw [hcall] at call; cases call
  | stop call => rw [hcall] at call; cases call
  | exit call => rw [hcall] at call; cases call
  | close call => rw [hcall] at call; cases call

/-! ## Every call comes back -/

/-- The client goes on as soon as it has its reply: the thread moves only while
the client waits for it. -/
def Prompt (f : CMySourceFilter) : Event → Prop
  | .resume => True
  | .thread _ => f.stream.m_dwParam.isSome = true
  | _ => False

/-- The call is in progress towards the state, or has reached it. -/
def Towards (f : CMySourceFilter) (goal : FILTER_STATE) : Prop :=
  (f.call = none → f.m_State = goal) ∧ ∀ call, f.call = some call → call.goal = goal

theorem prompt_step {goal : FILTER_STATE} (h : Coupled f) (ht : Towards f goal) {e : Event} (he : Prompt f e)
    (hs : f.step e = some f') : Coupled f' ∧ Towards f' goal ∧ f'.rank < f.rank := by
  cases e with
  | Pause Commit CreateThread => cases he
  | Run Commit CreateThread => cases he
  | Stop Decommit => cases he
  | resume =>
    cases hcall : f.call with
    | none => simp [step, resume, hcall] at hs
    | some call =>
      have hn := nearer_resume h hcall hs
      rw [← ht.2 call hcall]
      exact ⟨hn.coupled, ⟨hn.returned, hn.goal⟩, hn.rank⟩
  | thread te =>
    simp only [step] at hs
    split at hs
    · rename_i hw
      obtain ⟨stream, hstep, hs⟩ := Option.bind_eq_some_iff.1 hs
      obtain ⟨hc, hr⟩ : Coupled f' ∧ (f.stream.m_dwParam.isSome → f'.rank < f.rank) := by
        cases hs
        refine coupled_worker h hw hstep ?_ ?_ ?_ <;> rfl
      cases hs
      exact ⟨hc, ht, hr he⟩
    · cases hs

/-- A request finds the thread at a place from which it can do a step. -/
theorem asked_step {com : Command} (hcom : s.m_dwParam = some com) (hp : s.m_hThread = some place)
    (h : (place.answer com).isSome ∨ place = .GetDeliveryBuffer ∨ place = .Deliver) :
    ∃ te, isWorker te = true ∧ (s.step te).isSome := by
  rcases h with h | rfl | rfl
  · refine ⟨.request, rfl, ?_⟩
    rw [CSourceStream.step, CAMThread.request_eq hp hcom, Option.isSome_map]
    exact h
  · refine ⟨.GetDeliveryBuffer (.error VFW_E_NOT_COMMITTED), rfl, ?_⟩
    simp only [CSourceStream.step, hp, if_true]
    rfl
  · refine ⟨.Deliver S_OK, rfl, ?_⟩
    simp only [CSourceStream.step, hp, if_true]
    rfl

/-- Somebody can always go on while a call is in progress. -/
theorem prompt_progress (h : Coupled f) (hcall : f.call.isSome) : ∃ e, Prompt f e ∧ (f.step e).isSome := by
  have hthread : ∀ com p, f.stream.m_dwParam = some com → f.stream.m_hThread = some p →
      (p.answer com).isSome ∨ p = .GetDeliveryBuffer ∨ p = .Deliver → ∃ e, Prompt f e ∧ (f.step e).isSome := by
    intro com p hcom hp hplace
    obtain ⟨te, hw, hstep⟩ := asked_step hcom hp hplace
    refine ⟨.thread te, by simp [Prompt, hcom], ?_⟩
    obtain ⟨stream, hstream⟩ := Option.isSome_iff_exists.1 hstep
    simp [step, hw, hstream]
  cases h with
  | stopped call => simp [call] at hcall
  | active call => simp [call] at hcall
  | init target call state asked =>
    rcases asked with ⟨hcom, p, hp, rfl⟩ | ⟨hparam, hret, p, hp, rfl⟩
    · exact hthread _ _ hcom hp (.inl rfl)
    · refine ⟨.resume, trivial, ?_⟩
      simp only [step, resume, call, reply_answered ⟨hparam, hret, _, hp, rfl⟩, send_eq hparam hp]
      rfl
  | pause target call state asked =>
    rcases asked with ⟨hcom, p, hp, rfl⟩ | hans
    · exact hthread _ _ hcom hp (.inl rfl)
    · refine ⟨.resume, trivial, ?_⟩
      simp only [step, resume, call, reply_answered hans]
      rfl
  | stop call asked =>
    rcases asked with ⟨hcom, p, hp, hl⟩ | ⟨hparam, hret, p, hp, rfl⟩
    · apply hthread _ _ hcom hp
      rcases hl with rfl | rfl | rfl | rfl
      · exact .inl rfl
      · exact .inl rfl
      · exact .inr (.inl rfl)
      · exact .inr (.inr rfl)
    · refine ⟨.resume, trivial, ?_⟩
      simp only [step, resume, call, reply_answered ⟨hparam, hret, _, hp, rfl⟩, send_eq hparam hp]
      rfl
  | exit call asked =>
    rcases asked with ⟨hcom, p, hp, rfl⟩ | hans
    · exact hthread _ _ hcom hp (.inl rfl)
    · refine ⟨.resume, trivial, ?_⟩
      simp only [step, resume, call, reply_answered hans]
      rfl
  | close call answered =>
    obtain ⟨-, -, p, hp, rfl⟩ := answered
    refine ⟨.resume, trivial, ?_⟩
    simp only [step, resume, call, CSourceStream.Close, hp]
    rfl

theorem rank_le (f : CMySourceFilter) : f.rank ≤ 8 := by
  have hsteps : ∀ p : ThreadProc, p.steps ≤ 4 := by
    intro p
    cases p <;> simp [ThreadProc.steps]
  have hawaited : f.awaited ≤ 4 := by
    unfold awaited
    split
    · cases hp : f.stream.m_hThread with
      | none => simp
      | some p => exact hsteps p
    · exact Nat.zero_le _
  unfold rank
  split <;> omega

open CSourceStream (threePin)

/-- The filter runs, and is told to stop while its thread waits for a buffer. -/
def stopCalled : List Event := starts ++ [.thread .request, .Stop S_OK]

def afterStopCalled : CMySourceFilter := (evalRun step Any stopCalled (new threePin)).get (by decide)

theorem decommits_stopCalled : Runs step Decommits (new threePin) stopCalled afterStopCalled := by
  have hrun : Runs step Any (new threePin) stopCalled afterStopCalled := .of_isSome _
  refine hrun.of_forall fun e he s => ?_
  cases e with
  | Stop Decommit =>
    have hok : Decommit = S_OK := by simpa [stopCalled, starts] using he
    subst hok
    exact FAILED_S_OK
  | _ => trivial

/-- The eight steps of the call. -/
def stopReturns : List Event :=
  [.thread (.GetDeliveryBuffer (.ok CSourceStream.buffer)), .thread (.Deliver S_OK), .thread .request, .thread .request,
    .resume, .thread .request, .resume, .resume]

instance (f : CMySourceFilter) : ∀ e, Decidable (Prompt f e)
  | .resume => inferInstanceAs (Decidable True)
  | .thread _ => inferInstanceAs (Decidable (_ = true))
  | .Pause _ _ => inferInstanceAs (Decidable False)
  | .Run _ _ => inferInstanceAs (Decidable False)
  | .Stop _ => inferInstanceAs (Decidable False)

def afterStopReturns : CMySourceFilter := (evalRun step Prompt stopReturns afterStopCalled).get (by decide)

def afterStarts : CMySourceFilter := (evalRun step Any starts (new threePin)).get (by decide)

theorem decommits_starts : Runs step Decommits (new threePin) starts afterStarts := by
  have hrun : Runs step Any (new threePin) starts afterStarts := .of_isSome _
  refine hrun.of_forall fun e he s => ?_
  cases e with
  | Stop Decommit => simp [starts] at he
  | _ => trivial

theorem state_agrees_running :
    afterStarts.m_State = .State_Paused ∧ afterStarts.stream.m_dwParam = none ∧
      (afterStarts.m_State ≠ .State_Stopped ↔ ∃ place, afterStarts.stream.m_hThread = some place ∧ place.InLoop) := by
  have hagrees := state_agrees decommits_starts (by decide)
  exact ⟨by decide, hagrees.1, hagrees.2.1⟩

/-! ## A stop that cannot decommit -/

/-- The filter counts as stopped and has its thread. -/
def LeftRunning (f : CMySourceFilter) : Prop :=
  f.call = none ∧ f.m_State = .State_Stopped ∧ f.stream.m_dwParam = none ∧
    ∃ place, f.stream.m_hThread = some place ∧ place.InLoop

theorem left_running_step (h : LeftRunning f) {e : Event} (hs : f.step e = some f') : LeftRunning f' := by
  obtain ⟨hcall, hstate, hparam, place, hp, hl⟩ := h
  -- `Create` refuses a second thread, so `Pause` and `Run` fail.
  have hstart : ∀ (Commit : HRESULT) (CreateThread : Bool) (target : FILTER_STATE),
      f.start Commit CreateThread target = some f' → f' = f := by
    intro Commit CreateThread target hs
    rw [start, if_neg (by simp [hcall]), if_pos hstate, Active] at hs
    by_cases hcommit : Commit.FAILED
    · rw [if_pos hcommit] at hs
      exact (Option.some_inj.1 hs).symm
    · rw [if_neg hcommit, if_pos (.inl (by simp [hp]))] at hs
      exact (Option.some_inj.1 hs).symm
  cases e with
  | Pause Commit CreateThread =>
    rw [hstart Commit CreateThread .State_Paused hs]
    exact ⟨hcall, hstate, hparam, place, hp, hl⟩
  | Run Commit CreateThread =>
    rw [hstart Commit CreateThread .State_Running hs]
    exact ⟨hcall, hstate, hparam, place, hp, hl⟩
  | Stop Decommit =>
    simp only [step, hcall, hstate] at hs
    cases hs
    exact ⟨hcall, hstate, hparam, place, hp, hl⟩
  | resume => simp [step, resume, hcall] at hs
  | thread te =>
    simp only [step] at hs
    split at hs
    · rename_i hw
      obtain ⟨stream, hstep, hs⟩ := Option.bind_eq_some_iff.1 hs
      obtain ⟨hparam', -, p', hp', hl'⟩ := worker_loop hw hparam hp hstep
      cases hs
      exact ⟨hcall, hstate, hparam', p', hp', hl'⟩
    · cases hs

/-- After a `Stop` that could not decommit the allocator, the filter says that it
is stopped, its thread goes on, and no later call starts the filter again or ends
the thread. -/
theorem left_running {Decommit : HRESULT} {g : CMySourceFilter} (h : Runs step Decommits (new pin) es f)
    (hcall : f.call = none) (hactive : f.m_State ≠ .State_Stopped) (hfail : Decommit.FAILED = true)
    (hs : f.step (.Stop Decommit) = some g) (h' : Runs step Any g es' f') :
    f'.call = none ∧ f'.m_State = .State_Stopped ∧ ∃ place, f'.stream.m_hThread = some place ∧ place.InLoop := by
  obtain ⟨hparam, hplace, -⟩ := state_agrees h hcall
  have hg : LeftRunning g := by
    simp only [step, hcall, Inactive, hfail, if_neg hactive] at hs
    cases hs
    exact ⟨rfl, rfl, hparam, hplace.1 hactive⟩
  obtain ⟨hcall', hstate', -, hplace'⟩ := h'.inv LeftRunning hg fun _ _ _ ht _ hs => left_running_step ht hs
  exact ⟨hcall', hstate', hplace'⟩

/-- The stop of a started filter fails. -/
def failedStop : CMySourceFilter := (afterStarts.step (.Stop VFW_E_NO_ALLOCATOR)).get (by decide)

/-- Then it is stopped again and started again. -/
def restarted : CMySourceFilter := (evalRun step Any [.Stop S_OK, .Pause S_OK true] failedStop).get (by decide)

theorem left_running_restarted :
    restarted.call = none ∧ restarted.m_State = .State_Stopped ∧
      ∃ place, restarted.stream.m_hThread = some place ∧ place.InLoop := by
  have hrun : Runs step Any failedStop [.Stop S_OK, .Pause S_OK true] restarted := .of_isSome _
  exact left_running decommits_starts (by decide) (by decide) (by decide) (Option.some_get _).symm hrun

end CMySourceFilter

end FilterSln
