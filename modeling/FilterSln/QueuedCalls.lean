import FilterSln.OutputQueue
/-!
# Runs of the output queue

What holds of `COutputQueue` and its thread in every order of their steps. The
thread sleeps only when there is nothing to do for it (`Awake`). During a flush
`m_hr` is not `S_OK`, so that no sample and no end of stream comes in, and the
event that `EndFlush` waits for says that none is left (`Flushing`).

A flush is followed without calls of `Reset`: `Reset` waits for the same event
and makes `m_hr` `S_OK`.
-/

namespace FilterSln

open HRESULT Lib

/-- A flush waits for the thread, now or later; not if it has been optimized away. -/
def Flush.waits (opt : Bool) : Flush → Bool
  | .begun | .ending => true
  | .flushing => !opt
  | _ => false

namespace COutputQueue

variable {q q' s u : COutputQueue} {C : COutputQueue → Event → Prop} {es : List Event} {n : Nat} {hn : 0 < n}
  {be fo : Bool}

/-! ## What a run adds -/

/-- A run adds to the logs what its steps add. -/
theorem flow_run (hrun : Runs step C s es u) : ∃ cs ps gs rs,
    u.calls = s.calls ++ cs ∧ u.queued = s.queued ++ ps ∧ u.given = s.given ++ gs ∧ u.released = s.released ++ rs ∧
      (cs.flatMap passes ++ sent u.contents).Sublist (sent s.contents ++ sent ps) ∧
      ∀ x, s.held.count x + gs.count x = u.held.count x + rs.count x := by
  induction hrun with
  | nil => exact ⟨[], [], [], [], by simp, by simp, by simp, by simp, by simp, by simp⟩
  | @snoc es t e u _ _ ht ih =>
    obtain ⟨cs, ps, gs, rs, hcalls, hqueued, hgiven, hreleased, horder, hbal⟩ := ih
    obtain ⟨cs', ps', gs', rs', hf⟩ := flow_step ht
    refine ⟨cs ++ cs', ps ++ ps', gs ++ gs', rs ++ rs', by simp [hf.calls, hcalls], by simp [hf.queued, hqueued],
      by simp [hf.given, hgiven], by simp [hf.released, hreleased], ?_, fun x => ?_⟩
    · rw [List.flatMap_append, List.append_assoc, sent_append, ← List.append_assoc (sent s.contents)]
      refine (hf.order.append_left _).trans ?_
      rw [← List.append_assoc]
      exact horder.append_right _
    · have h1 := hbal x
      have h2 := hf.balance x
      simp only [List.count_append]
      omega

/-! ## What a step does -/

theorem collect_cases (q : COutputQueue) :
    (q.m_bTerminate = true ∧ q.collect = { q.FreeSamples with thread := .done }) ∨
    (q.m_bTerminate = false ∧ q.m_bFlushing = true ∧
      q.collect = { q.FreeSamples with m_evFlushComplete := true, room := q.room.enter, thread := .wait }) ∨
    (q.m_bTerminate = false ∧ q.m_bFlushing = false ∧ ∃ b,
      q.collect = { q with m_List := [], m_ppSamples := b, room := q.room.enter, thread := .wait } ∧
      (q.m_bBatchExact ∨ b = []) ∧ (q.m_ppSamples.length < q.m_lBatchSize → b.length < q.m_lBatchSize)) ∨
    (q.m_bTerminate = false ∧ q.m_bFlushing = false ∧ ∃ b p l,
      q.collect = { q with m_List := l, m_ppSamples := [], thread := .send b p }) := by
  unfold collect
  by_cases hterm : q.m_bTerminate = true
  · rw [if_pos hterm]
    exact .inl ⟨hterm, rfl⟩
  · rw [if_neg hterm]
    have hterm : q.m_bTerminate = false := by simpa using hterm
    by_cases hf : q.m_bFlushing = true
    · rw [if_pos hf]
      exact .inr (.inl ⟨hterm, hf, by simp [FreeSamples, gather]⟩)
    · rw [if_neg hf]
      have hf : q.m_bFlushing = false := by simpa using hf
      rcases q.gather_cases q.m_List q.m_ppSamples with ⟨b, he, -, hw, hlen⟩ | ⟨b, p, l, he, -⟩
      · exact .inr (.inr (.inl ⟨hterm, hf, b, he, hw, hlen⟩))
      · exact .inr (.inr (.inr ⟨hterm, hf, b, p, l, he⟩))

/-- A step of the thread: under the lock, out of its wait, or with a batch. -/
theorem thread_cases {e : Event} (hs : q.thread? e = some q') :
    (q.thread = .lock ∧ q' = q.collect) ∨
    (q.thread = .wait ∧ ∃ room, q.room.take = some room ∧ q' = { q with room, thread := .lock }) ∨
    (q.thread ≠ .wait ∧ q'.thread ≠ .wait ∧ q'.thread ≠ .done ∧
      (q'.thread = .signal → q.thread = .control (some .RESET_PACKET)) ∧ ∃ calls released ev hr,
        q' = { q with calls, released, m_evFlushComplete := ev, m_hr := hr, thread := q'.thread } ∧
        (ev = q.m_evFlushComplete ∨ q.thread = .signal) ∧
        (q.m_hr ≠ S_OK → q.thread ≠ .control (some .RESET_PACKET) → hr ≠ S_OK) ∧
        (q.m_hr = S_OK → (∀ r, e = .received r → r = S_OK) → hr = S_OK)) := by
  cases e with
  | collect =>
    obtain ⟨hl, ⟨⟩⟩ := Option.ite_none_right_eq_some.1 hs
    exact .inl ⟨hl, rfl⟩
  | wake =>
    obtain ⟨hw, hs⟩ := Option.ite_none_right_eq_some.1 hs
    obtain ⟨room, hr, hs⟩ := Option.bind_eq_some_iff.1 hs
    cases hs
    exact .inr (.inl ⟨hw, room, hr, rfl⟩)
  | send =>
    refine .inr (.inr ?_)
    cases ht : q.thread with
    | send b p =>
      simp only [thread?, ht] at hs
      by_cases hb : b = []
      · rw [if_pos hb] at hs
        cases hs
        exact ⟨by rintro ⟨⟩, by rintro ⟨⟩, by rintro ⟨⟩, by rintro ⟨⟩, _, _, _, _, rfl, .inl rfl, fun h _ => h, fun h _ => h⟩
      · rw [if_neg hb] at hs
        by_cases hr : q.m_hr = S_OK
        · rw [if_pos hr] at hs
          cases hs
          exact ⟨by rintro ⟨⟩, by rintro ⟨⟩, by rintro ⟨⟩, by rintro ⟨⟩, _, _, _, _, rfl, .inl rfl, fun h _ => h, fun h _ => h⟩
        · rw [if_neg hr] at hs
          cases hs
          exact ⟨by rintro ⟨⟩, by rintro ⟨⟩, by rintro ⟨⟩, by rintro ⟨⟩, _, _, _, _, rfl, .inl rfl, fun h _ => h, fun h _ => h⟩
    | _ => simp [thread?, ht] at hs
  | received hr =>
    refine .inr (.inr ?_)
    cases ht : q.thread with
    | receive b p =>
      simp only [thread?, ht] at hs
      cases hs
      exact ⟨by rintro ⟨⟩, by rintro ⟨⟩, by rintro ⟨⟩, by rintro ⟨⟩, _, _, _, _, rfl, .inl rfl, fun h _ => by rwa [if_neg h],
        fun h hr => by rw [if_pos h, hr _ rfl]⟩
    | _ => simp [thread?, ht] at hs
  | control =>
    refine .inr (.inr ?_)
    cases ht : q.thread with
    | control p =>
      rcases p with - | p
      · simp only [thread?, ht] at hs
        cases hs
        exact ⟨by rintro ⟨⟩, by rintro ⟨⟩, by rintro ⟨⟩, by rintro ⟨⟩, _, _, _, _, rfl, .inl rfl, fun h _ => h, fun h _ => h⟩
      cases p with
      | RESET_PACKET =>
        simp only [thread?, ht] at hs
        cases hs
        exact ⟨by rintro ⟨⟩, by rintro ⟨⟩, by rintro ⟨⟩, fun _ => rfl, _, _, _, _, rfl, .inl rfl, fun _ h => absurd rfl h, fun _ _ => rfl⟩
      | _ =>
        simp only [thread?, ht] at hs
        cases hs
        exact ⟨by rintro ⟨⟩, by rintro ⟨⟩, by rintro ⟨⟩, by rintro ⟨⟩, _, _, _, _, rfl, .inl rfl, fun h _ => h, fun h _ => h⟩
    | _ => simp [thread?, ht] at hs
  | signal =>
    obtain ⟨hl, ⟨⟩⟩ := Option.ite_none_right_eq_some.1 hs
    refine .inr (.inr ?_)
    rw [hl]
    exact ⟨by rintro ⟨⟩, by rintro ⟨⟩, by rintro ⟨⟩, by rintro ⟨⟩, _, _, _, _, rfl, .inr rfl, fun h _ => h, fun h _ => h⟩
  | _ => simp [thread?] at hs

/-- What a call leaves alone. It wakes the thread, or it leaves a list that the
thread need not see. -/
structure Called (q q' : COutputQueue) : Prop where
  thread : q'.thread = q.thread
  batch : q'.m_ppSamples = q.m_ppSamples
  size : q'.m_lBatchSize = q.m_lBatchSize
  exact : q'.m_bBatchExact = q.m_bBatchExact
  room : q'.room = q.room.release ∨ q'.room = q.room ∧ q'.m_bTerminate = q.m_bTerminate ∧
    (q'.m_List = q.m_List ∨ q.m_bBatchExact = true ∧ (∃ b : List Nat, q'.m_List = q.m_List ++ b.map .sample) ∧
      q.m_ppSamples.length + GetCount q'.m_List < q.m_lBatchSize)

theorem call_cases {e : Event} (hs : q.call? e = some q') : Called q q' := by
  have hsame : ∀ q' : COutputQueue, q'.thread = q.thread → q'.m_ppSamples = q.m_ppSamples →
      q'.m_lBatchSize = q.m_lBatchSize → q'.m_bBatchExact = q.m_bBatchExact → q'.room = q.room →
      q'.m_bTerminate = q.m_bTerminate → q'.m_List = q.m_List → Called q q' :=
    fun q' h1 h2 h3 h4 h5 h6 h7 => ⟨h1, h2, h3, h4, .inr ⟨h5, h6, .inl h7⟩⟩
  cases e with
  | ReceiveMultiple ppSamples =>
    cases hs
    unfold ReceiveMultiple
    by_cases hr : q.m_hr ≠ S_OK
    · rw [if_pos hr]
      exact hsame _ rfl rfl rfl rfl rfl rfl rfl
    · rw [if_neg hr]
      simp only [foldl_QueueSample]
      split
      · exact ⟨rfl, rfl, rfl, rfl, .inl rfl⟩
      · rename_i hn
        rw [not_or, not_le] at hn
        exact ⟨rfl, rfl, rfl, rfl, .inr ⟨rfl, rfl, .inr ⟨by simpa using hn.1, ⟨_, rfl⟩, hn.2⟩⟩⟩
  | SendAnyway => cases hs; exact ⟨rfl, rfl, rfl, rfl, .inl rfl⟩
  | EOS =>
    cases hs
    unfold EOS
    split
    · exact ⟨rfl, rfl, rfl, rfl, .inl rfl⟩
    · exact hsame _ rfl rfl rfl rfl rfl rfl rfl
  | NewSegment ppacket =>
    cases hs
    split
    · exact hsame _ rfl rfl rfl rfl rfl rfl rfl
    · exact hsame _ rfl rfl rfl rfl rfl rfl rfl
  | QueueSegment ppacket =>
    obtain ⟨-, ⟨⟩⟩ := Option.ite_none_right_eq_some.1 hs
    exact ⟨rfl, rfl, rfl, rfl, .inl rfl⟩
  | BeginFlush =>
    obtain ⟨-, ⟨⟩⟩ := Option.ite_none_right_eq_some.1 hs
    by_cases ho : q.m_bFlushed ∧ q.m_bFlushingOpt
    · rw [BeginFlush, if_pos ho]
      exact hsame _ rfl rfl rfl rfl rfl rfl rfl
    · rw [BeginFlush, if_neg ho]
      exact ⟨rfl, rfl, rfl, rfl, .inl rfl⟩
  | EndFlush =>
    obtain ⟨-, ⟨⟩⟩ := Option.ite_none_right_eq_some.1 hs
    unfold EndFlush
    split
    · exact hsame _ rfl rfl rfl rfl rfl rfl rfl
    · exact hsame _ rfl rfl rfl rfl rfl rfl rfl
  | Reset => cases hs; exact ⟨rfl, rfl, rfl, rfl, .inl rfl⟩
  | Terminate => cases hs; exact ⟨rfl, rfl, rfl, rfl, .inl rfl⟩
  | passBeginFlush | flushComplete | clear | passEndFlush | resume | resetComplete =>
    obtain ⟨-, ⟨⟩⟩ := Option.ite_none_right_eq_some.1 hs
    exact hsame _ rfl rfl rfl rfl rfl rfl rfl
  | _ => simp [call?] at hs

/-! ## The thread sleeps only when there is nothing to do -/

/-- There is nothing to take out, or a batch that is not full. -/
def Quiet (q : COutputQueue) : Prop :=
  q.m_bTerminate = false ∧ (q.m_List = [] ∧ q.m_ppSamples = [] ∨
    q.m_bBatchExact = true ∧ ∃ b : List Nat, q.m_List = b.map .sample ∧ q.m_ppSamples.length + b.length < q.m_lBatchSize)

structure Awake (q : COutputQueue) : Prop where
  batch : q.m_bBatchExact = true → q.m_ppSamples.length < q.m_lBatchSize
  visitors : q.room.visitors = if q.thread = .wait then 1 else 0
  quiet : q.room.newcomers ≠ 0 → q.Quiet

theorem awake_new (n : Nat) (hn : 0 < n) (be fo : Bool) : Awake (new n hn be fo) where
  batch h := by
    simp only [new, Bool.and_eq_true, decide_eq_true_eq] at h ⊢
    exact h.2.trans' Nat.zero_lt_one
  visitors := rfl
  quiet h := absurd rfl h

@[simp] theorem GetCount_samples (b : List Nat) : GetCount (b.map .sample) = b.length := by
  induction b with
  | nil => rfl
  | cons s b ih =>
    simp only [GetCount, List.map_cons, List.sum_cons, List.length_cons] at ih ⊢
    omega

theorem newcomers_of_visitors (hv : q.room.visitors = 0) : q.room.newcomers = 0 := by
  simp only [WaitRoom.visitors] at hv
  omega

/-- The thread counts itself. -/
theorem awake_wait (hb : q'.m_bBatchExact = true → q'.m_ppSamples.length < q'.m_lBatchSize) (hv : q.room.visitors = 0)
    (hr : q'.room = q.room.enter) (ht : q'.thread = .wait) (hq : q'.Quiet) : Awake q' := by
  refine ⟨hb, ?_, fun _ => hq⟩
  have hlim : q.room.visitors < WaitRoom.limit := by rw [hv]; decide
  rw [hr, WaitRoom.visitors_enter hlim, hv, if_pos ht]

theorem awake_thread {e : Event} (h : Awake q) (hs : q.thread? e = some q') : Awake q' := by
  have hv := h.visitors
  rcases thread_cases hs with ⟨hl, rfl⟩ | ⟨hw, room, hr, rfl⟩ | ⟨hw, hw', -, -, calls, rel, ev, hr, he, -⟩
  · rw [hl, if_neg nofun] at hv
    rcases q.collect_cases with ⟨-, he⟩ | ⟨hterm, -, he⟩ | ⟨hterm, -, b, he, hwait, hlen⟩ | ⟨-, -, b, p, l, he⟩
    · rw [he]
      exact ⟨fun hx => (Nat.zero_le _).trans_lt (h.batch hx), hv, fun h0 => absurd (newcomers_of_visitors hv) h0⟩
    · rw [he]
      exact awake_wait (fun hx => (Nat.zero_le _).trans_lt (h.batch hx)) hv rfl rfl ⟨hterm, .inl ⟨rfl, rfl⟩⟩
    · rw [he]
      refine awake_wait (fun hx => hlen (h.batch hx)) hv rfl rfl ⟨hterm, ?_⟩
      rcases hwait with hx | rfl
      · exact .inr ⟨hx, [], rfl, hlen (h.batch hx)⟩
      · exact .inl ⟨rfl, rfl⟩
    · rw [he]
      exact ⟨fun hx => (Nat.zero_le _).trans_lt (h.batch hx), hv, fun h0 => absurd (newcomers_of_visitors hv) h0⟩
  · rw [if_pos hw] at hv
    obtain ⟨hvis, -⟩ := WaitRoom.visitors_take hr
    have hv' : room.visitors = 0 := by omega
    refine ⟨h.batch, hv', fun h0 => absurd ?_ h0⟩
    simp only [WaitRoom.visitors] at hv'
    show room.newcomers = 0
    omega
  · rw [if_neg hw] at hv
    rw [he]
    refine ⟨h.batch, ?_, fun h0 => absurd (newcomers_of_visitors hv) h0⟩
    rw [if_neg hw']
    exact hv

theorem awake_call {e : Event} (h : Awake q) (hs : q.call? e = some q') : Awake q' := by
  obtain ⟨ht, hb, hn, hx, hroom⟩ := call_cases hs
  have hv := h.visitors
  have hvle : q.room.visitors ≤ WaitRoom.limit := by
    rw [hv]
    split <;> decide
  have hbatch : q'.m_bBatchExact = true → q'.m_ppSamples.length < q'.m_lBatchSize := by
    rw [hb, hn, hx]
    exact h.batch
  rcases hroom with hr | ⟨hr, hterm, hlist⟩
  · refine ⟨hbatch, by rw [hr, ht, WaitRoom.visitors_release hvle, hv], fun h0 => ?_⟩
    rw [hr, WaitRoom.newcomers_release] at h0
    exact absurd rfl h0
  · refine ⟨hbatch, by rw [hr, ht, hv], fun h0 => ?_⟩
    rw [hr] at h0
    obtain ⟨hterm', hquiet⟩ := h.quiet h0
    refine ⟨hterm.trans hterm', ?_⟩
    rw [hb, hn, hx]
    rcases hlist with hl | ⟨hexact, ⟨b, hl⟩, hcount⟩
    · rw [hl]
      exact hquiet
    · obtain ⟨b', hb'⟩ : ∃ b', q'.m_List = List.map Packet.sample b' := by
        rcases hquiet with ⟨hnil, -⟩ | ⟨-, b₀, hb₀, -⟩
        · exact ⟨b, by rw [hl, hnil, List.nil_append]⟩
        · exact ⟨b₀ ++ b, by rw [hl, hb₀, List.map_append]⟩
      refine .inr ⟨hexact, b', hb', ?_⟩
      rwa [hb', GetCount_samples] at hcount

theorem awake (hrun : Runs step C (new n hn be fo) es q) : Awake q := by
  refine hrun.inv Awake (awake_new n hn be fo) fun t e u ht _ hs => ?_
  rcases thread_eq hs with hw | ⟨-, hc⟩
  · exact awake_thread ht hw
  · exact awake_call ht hc

/-- A thread that waits, and has not been woken, has nothing to do. -/
theorem quiet_of_wait (hrun : Runs step C (new n hn be fo) es q) (hw : q.thread = .wait) (ht : q.room.tokens = 0) :
    q.Quiet := by
  have h := awake hrun
  refine h.quiet fun h0 => ?_
  have hv := h.visitors
  rw [if_pos hw] at hv
  simp only [WaitRoom.visitors] at hv
  omega

/-! ## Flushes -/

/-- No calls of `Reset`. -/
def NoReset (_ : COutputQueue) : Event → Prop
  | .Reset => False
  | _ => True

/-- No sample and no end of stream is on its way. -/
def Clean (q : COutputQueue) : Prop := q.held = [] ∧ .special .EOS_PACKET ∉ q.contents

/-- The flush has got rid of what was there. -/
def Past (q : COutputQueue) : Prop :=
  q.m_bFlushed = true ∨
  match q.flush with
  | .idle => False
  | .begun | .flushing | .ending => q.m_evFlushComplete = true
  | .waited | .cleared | .passed => True

structure Flushing (q : COutputQueue) : Prop where
  noReset : .special .RESET_PACKET ∉ q.contents ∧ q.thread ≠ .signal ∧ q.resets = 0
  sticky : q.flush ≠ .idle → q.m_hr ≠ S_OK
  flag : q.flush.waits false = true → q.m_bFlushing = true
  clean : q.Past → q.Clean
  signalled : q.room.newcomers ≠ 0 → q.flush.waits (q.m_bFlushingOpt && q.m_bFlushed) = true → q.m_evFlushComplete = true

theorem flushing_new (n : Nat) (hn : 0 < n) (be fo : Bool) : Flushing (new n hn be fo) where
  noReset := ⟨List.not_mem_nil, nofun, rfl⟩
  sticky h := absurd rfl h
  flag h := by cases h
  clean _ := ⟨rfl, List.not_mem_nil⟩
  signalled h := absurd rfl h

theorem Clean.flow {cs : List PinCall} {ps : List Packet} {rs : List Nat} (h : q.Clean) (hf : Flow q q' cs ps [] rs)
    (hp : .special .EOS_PACKET ∉ ps) : q'.Clean := by
  refine ⟨List.eq_nil_iff_forall_not_mem.2 fun x hx => ?_, fun hx => ?_⟩
  · have hb := hf.balance x
    have hc := List.count_pos_iff.2 hx
    rw [h.1] at hb
    simp only [List.count_nil] at hb
    omega
  · rcases hf.subset _ hx with hx | hx
    · exact h.2 hx
    · exact hp hx

/-- What has been emptied is clean. -/
theorem clean_empty (ht : q.thread = .wait ∨ q.thread = .done) (hb : q.m_ppSamples = []) (hl : q.m_List = []) :
    q.contents = [] ∧ q.Clean := by
  have hc : q.contents = [] := by
    rcases ht with ht | ht <;> simp [contents, ht, hb, hl, hand]
  refine ⟨hc, ?_, by rw [hc]; exact List.not_mem_nil⟩
  rcases ht with ht | ht <;> simp [held, ht, hc, inCall, samples]

theorem flushing_thread {e : Event} (h : Flushing q) (ha : Awake q) (hs : q.thread? e = some q') : Flushing q' := by
  obtain ⟨cs, rs, hflow⟩ := flow_thread hs
  have hreset : .special .RESET_PACKET ∉ q'.contents := by
    intro hx
    rcases hflow.subset _ hx with hx | hx
    · exact h.noReset.1 hx
    · cases hx
  have hkeep : q.Past → q'.Clean := fun hp => (h.clean hp).flow hflow List.not_mem_nil
  have hv := ha.visitors
  rcases thread_cases hs with ⟨hl, rfl⟩ | ⟨hw, room, hr, rfl⟩ | ⟨hw, hw', -, hsig, calls, rel, ev, hr, he, hev, hhr, -⟩
  · rw [hl, if_neg nofun] at hv
    have h0 := newcomers_of_visitors hv
    rcases q.collect_cases with ⟨-, he⟩ | ⟨-, -, he⟩ | ⟨-, hflag, b, he, -⟩ | ⟨-, -, b, p, l, he⟩
    · rw [he] at hreset hkeep ⊢
      exact ⟨⟨hreset, nofun, h.noReset.2.2⟩, h.sticky, h.flag, hkeep, fun h1 => absurd h0 h1⟩
    · -- The flush.
      rw [he] at hreset ⊢
      exact ⟨⟨hreset, nofun, h.noReset.2.2⟩, h.sticky, h.flag, fun _ => (clean_empty (.inl rfl) rfl rfl).2, fun _ _ => rfl⟩
    · rw [he] at hreset hkeep ⊢
      refine ⟨⟨hreset, nofun, h.noReset.2.2⟩, h.sticky, h.flag, hkeep, fun _ hwaits => ?_⟩
      have hwaits' : q.flush.waits false = true := by
        revert hwaits
        show q.flush.waits (q.m_bFlushingOpt && q.m_bFlushed) = true → _
        cases q.flush <;> simp [Flush.waits]
      rw [h.flag hwaits'] at hflag
      cases hflag
    · rw [he] at hreset hkeep ⊢
      exact ⟨⟨hreset, nofun, h.noReset.2.2⟩, h.sticky, h.flag, hkeep, fun h1 => absurd h0 h1⟩
  · rw [if_pos hw] at hv
    obtain ⟨hvis, hnew⟩ := WaitRoom.visitors_take hr
    refine ⟨⟨hreset, nofun, h.noReset.2.2⟩, h.sticky, h.flag, hkeep, fun h1 => h.signalled ?_⟩
    rw [← hnew]
    exact h1
  · have hnot : q.thread ≠ .control (some .RESET_PACKET) := by
      intro hc
      refine h.noReset.1 ?_
      rw [contents, hc]
      simp [hand]
    have hev : ev = q.m_evFlushComplete := hev.resolve_right h.noReset.2.1
    rw [if_neg hw] at hv
    refine ⟨⟨hreset, fun hx => hnot (hsig hx), ?_⟩, ?_, ?_, ?_, ?_⟩
    · rw [he]
      exact h.noReset.2.2
    · rw [he]
      exact fun hf => hhr (h.sticky hf) hnot
    · rw [he]
      exact h.flag
    · intro hp
      refine hkeep ?_
      rw [he, Past, hev] at hp
      exact hp
    · rw [he]
      exact fun h1 => absurd (newcomers_of_visitors hv) h1

/-- A call that puts nothing into the list. -/
theorem Clean.same (h : q.Clean) (ht : q'.thread = q.thread) (hb : q'.m_ppSamples = q.m_ppSamples)
    (hl : q'.m_List = q.m_List) : q'.Clean := by
  have hc : q'.contents = q.contents := by rw [contents, contents, ht, hb, hl]
  rw [Clean, held, hc, ht]
  exact h

theorem noReset_push {ps : List Packet} (h : Flushing q) (hps : .special .RESET_PACKET ∉ ps)
    (hc : q'.contents = q.contents ++ ps) (ht : q'.thread = q.thread) (hr : q'.resets = q.resets) :
    .special .RESET_PACKET ∉ q'.contents ∧ q'.thread ≠ .signal ∧ q'.resets = 0 := by
  obtain ⟨hreset, hsig, hres⟩ := h.noReset
  refine ⟨fun hx => ?_, by rwa [ht], hr.trans hres⟩
  rw [hc] at hx
  exact (List.mem_append.1 hx).elim hreset hps

/-- Samples and ends of stream come in only when no flush is under way. -/
theorem Flushing.enter (h : Flushing q) (ps : List Packet) (hok : q.m_hr = S_OK) (hps : .special .RESET_PACKET ∉ ps)
    (hc : q'.contents = q.contents ++ ps) (ht : q'.thread = q.thread) (hr : q'.resets = q.resets)
    (hf : q'.flush = q.flush) (hfl : q'.m_bFlushed = false) : Flushing q' := by
  have hidle : q'.flush = .idle := by
    rw [hf]
    by_contra hne
    exact h.sticky hne hok
  refine ⟨noReset_push h hps hc ht hr, fun hne => absurd hidle hne, ?_, ?_, ?_⟩
  · rw [hidle]
    exact nofun
  · rw [Past, hfl, hidle]
    rintro (⟨⟨⟩⟩ | ⟨⟨⟩⟩)
  · rw [hidle]
    exact fun _ => nofun

/-- What else is put into the list, with a signal to the thread. -/
theorem Flushing.notify (h : Flushing q) (segments : List NewSegmentPacket) (p : Special) (hr : p ≠ .RESET_PACKET)
    (he : p ≠ .EOS_PACKET) : Flushing ({ q with segments }.QueueSample (.special p)).NotifyThread := by
  have hc : ({ q with segments }.QueueSample (.special p)).NotifyThread.contents = q.contents ++ [.special p] := by
    simp [contents, NotifyThread, QueueSample]
  refine ⟨noReset_push h (by simp [hr.symm]) hc rfl rfl, h.sticky, h.flag, fun hpast => ?_,
    fun h0 => absurd WaitRoom.newcomers_release h0⟩
  have hflow : Flow q ({ q with segments }.QueueSample (.special p)).NotifyThread [] [.special p] [] [] :=
    .push rfl rfl rfl rfl rfl (List.append_nil _).symm rfl
  exact (h.clean hpast).flow hflow (by simp [he.symm])

theorem flushing_BeginFlush (h : Flushing q) : Flushing q.BeginFlush := by
  have hno : (if q.m_hr = S_OK then S_FALSE else q.m_hr) ≠ S_OK := by
    split
    · exact nofun
    · assumption
  by_cases ho : q.m_bFlushed ∧ q.m_bFlushingOpt
  · rw [BeginFlush, if_pos ho]
    refine ⟨h.noReset, fun _ => hno, fun _ => rfl, fun _ => (h.clean (.inl ho.1)).same rfl rfl rfl, fun _ hw => ?_⟩
    simp [Flush.waits, ho.1, ho.2] at hw
  · rw [BeginFlush, if_neg ho]
    refine ⟨h.noReset, fun _ => hno, fun _ => rfl, fun hp => ?_, fun h0 => absurd WaitRoom.newcomers_release h0⟩
    refine (h.clean ?_).same rfl rfl rfl
    rcases hp with hp | ⟨⟨⟩⟩
    exact .inl hp

theorem flushing_EndFlush (h : Flushing q) (hf : q.flush = .flushing) : Flushing q.EndFlush := by
  by_cases ho : q.m_bFlushingOpt ∧ q.m_bFlushed
  · rw [EndFlush, if_pos ho]
    exact ⟨h.noReset, fun hne => absurd rfl hne, by rintro ⟨⟩, fun _ => (h.clean (.inl ho.2)).same rfl rfl rfl, fun _ => by rintro ⟨⟩⟩
  · rw [EndFlush, if_neg ho]
    refine ⟨h.noReset, fun _ => h.sticky (by rw [hf]; rintro ⟨⟩), fun _ => h.flag (by rw [hf]; rfl), fun hp => ?_,
      fun h0 _ => h.signalled h0 ?_⟩
    · refine (h.clean (hp.imp id fun hev => ?_)).same rfl rfl rfl
      rw [hf]
      exact hev
    · rw [hf]
      cases hopt : q.m_bFlushingOpt <;> cases hfl : q.m_bFlushed <;> simp [Flush.waits, hopt, hfl] at ho ⊢

theorem flushing_call {e : Event} (h : Flushing q) (he : NoReset q e) (hs : q.call? e = some q') : Flushing q' := by
  cases e with
  | ReceiveMultiple ppSamples =>
    cases hs
    unfold ReceiveMultiple
    by_cases hr : q.m_hr ≠ S_OK
    · rw [if_pos hr]
      exact ⟨h.noReset, h.sticky, h.flag, h.clean, h.signalled⟩
    · rw [if_neg hr]
      simp only [foldl_QueueSample]
      split
      · exact h.enter (ppSamples.map .sample) (not_not.1 hr) (by simp) (by simp [contents, NotifyThread]) rfl rfl rfl rfl
      · exact h.enter (ppSamples.map .sample) (not_not.1 hr) (by simp) (by simp [contents]) rfl rfl rfl rfl
  | SendAnyway =>
    cases hs
    exact h.notify q.segments .SEND_PACKET (by rintro ⟨⟩) (by rintro ⟨⟩)
  | EOS =>
    cases hs
    by_cases hr : q.m_hr = S_OK
    · rw [EOS, if_pos hr]
      exact h.enter [.special .EOS_PACKET] hr (by simp) (by simp [contents, NotifyThread, QueueSample]) rfl rfl rfl rfl
    · rw [EOS, if_neg hr]
      exact h
  | NewSegment ppacket =>
    cases hs
    split
    · exact ⟨h.noReset, h.sticky, h.flag, h.clean, h.signalled⟩
    · exact h
  | QueueSegment ppacket =>
    obtain ⟨-, ⟨⟩⟩ := Option.ite_none_right_eq_some.1 hs
    exact h.notify _ (.NEW_SEGMENT ppacket) (by rintro ⟨⟩) (by rintro ⟨⟩)
  | BeginFlush =>
    obtain ⟨-, ⟨⟩⟩ := Option.ite_none_right_eq_some.1 hs
    exact flushing_BeginFlush h
  | passBeginFlush =>
    obtain ⟨hf, ⟨⟩⟩ := Option.ite_none_right_eq_some.1 hs
    refine ⟨h.noReset, fun _ => h.sticky (by rw [hf]; rintro ⟨⟩), fun _ => h.flag (by rw [hf]; rfl), fun hp => ?_,
      fun h0 _ => h.signalled h0 (by rw [hf]; rfl)⟩
    refine (h.clean (hp.imp id fun hev => ?_)).same rfl rfl rfl
    rw [hf]
    exact hev
  | EndFlush =>
    obtain ⟨hf, ⟨⟩⟩ := Option.ite_none_right_eq_some.1 hs
    exact flushing_EndFlush h hf
  | flushComplete =>
    obtain ⟨⟨hf, hev⟩, ⟨⟩⟩ := Option.ite_none_right_eq_some.1 hs
    refine ⟨h.noReset, fun _ => h.sticky (by rw [hf]; rintro ⟨⟩), fun _ => h.flag (by rw [hf]; rfl), fun _ => ?_, fun _ => by rintro ⟨⟩⟩
    refine (h.clean (.inr ?_)).same rfl rfl rfl
    rw [hf]
    exact hev
  | clear =>
    obtain ⟨hf, ⟨⟩⟩ := Option.ite_none_right_eq_some.1 hs
    refine ⟨h.noReset, fun _ => h.sticky (by rw [hf]; rintro ⟨⟩), by rintro ⟨⟩, fun _ => ?_, fun _ => by rintro ⟨⟩⟩
    refine (h.clean (.inr ?_)).same rfl rfl rfl
    rw [hf]
    trivial
  | passEndFlush =>
    obtain ⟨hf, ⟨⟩⟩ := Option.ite_none_right_eq_some.1 hs
    refine ⟨h.noReset, fun _ => h.sticky (by rw [hf]; rintro ⟨⟩), by rintro ⟨⟩, fun _ => ?_, fun _ => by rintro ⟨⟩⟩
    refine (h.clean (.inr ?_)).same rfl rfl rfl
    rw [hf]
    trivial
  | resume =>
    obtain ⟨hf, ⟨⟩⟩ := Option.ite_none_right_eq_some.1 hs
    refine ⟨h.noReset, fun hne => absurd rfl hne, by rintro ⟨⟩, fun hp => ?_, fun _ => by rintro ⟨⟩⟩
    refine (h.clean (.inr ?_)).same rfl rfl rfl
    rw [hf]
    trivial
  | Reset => exact he.elim
  | resetComplete =>
    obtain ⟨⟨hpos, -⟩, ⟨⟩⟩ := Option.ite_none_right_eq_some.1 hs
    rw [h.noReset.2.2] at hpos
    exact absurd hpos (lt_irrefl 0)
  | Terminate =>
    cases hs
    exact ⟨h.noReset, fun _ => by rintro ⟨⟩, h.flag, fun hp => (h.clean hp).same rfl rfl rfl,
      fun h0 => absurd WaitRoom.newcomers_release h0⟩
  | _ => simp [call?] at hs

theorem flushing (hrun : Runs step NoReset (new n hn be fo) es q) : Flushing q := by
  have hboth : Awake q ∧ Flushing q := by
    refine hrun.inv (fun q => Awake q ∧ Flushing q) ⟨awake_new n hn be fo, flushing_new n hn be fo⟩ ?_
    rintro t e u ⟨ha, hf⟩ he hs
    rcases thread_eq hs with hw | ⟨-, hc⟩
    · exact ⟨awake_thread ha hw, flushing_thread hf ha hw⟩
    · exact ⟨awake_call ha hc, flushing_call hf he hc⟩
  exact hboth.2

/-- After the end of the thread nothing is left. -/
theorem held_done (hrun : Runs step C (new n hn be fo) es q) (hd : q.thread = .done) : q.held = [] := by
  have hinv : q.thread = .done → q.m_bTerminate = true ∧ q.m_List = [] ∧ q.m_ppSamples = [] := by
    refine hrun.inv (fun q => q.thread = .done → q.m_bTerminate = true ∧ q.m_List = [] ∧ q.m_ppSamples = []) (fun h => by cases h) ?_
    intro t e u ht _ hs hd
    rcases thread_eq hs with hw | ⟨hterm, hc⟩
    · rcases thread_cases hw with ⟨-, rfl⟩ | ⟨-, room, -, rfl⟩ | ⟨-, -, hno, -⟩
      · rcases t.collect_cases with ⟨hterm, he⟩ | ⟨-, -, he⟩ | ⟨-, -, b, he, -⟩ | ⟨-, -, b, p, l, he⟩
        · rw [he]
          exact ⟨hterm, rfl, rfl⟩
        · rw [he] at hd
          cases hd
        · rw [he] at hd
          cases hd
        · rw [he] at hd
          cases hd
      · cases hd
      · exact absurd hd hno
    · rw [(call_cases hc).thread] at hd
      rw [(ht hd).1] at hterm
      cases hterm
  obtain ⟨-, hl, hb⟩ := hinv hd
  exact (clean_empty (.inr hd) hb hl).2.1

/-! ## The queue in use -/

/-- Three samples in batches of two, and the end of the stream. -/
def playing : List Event :=
  [.ReceiveMultiple [1, 2, 3], .EOS, .collect, .send, .received S_OK, .control, .collect, .send, .received S_OK, .control,
    .collect]

def played : COutputQueue := (evalRun step Any playing (new 2 (by decide) false false)).get (by decide)

theorem played_run : Runs step Any (new 2 (by decide) false false) playing played := .of_isSome _

/-- A flush with a sample in the list, and another sample after it. -/
def seeking : List Event := [.ReceiveMultiple [1], .BeginFlush, .passBeginFlush, .EndFlush, .collect, .flushComplete, .clear]

def sought : COutputQueue := (evalRun step Any seeking (new 1 (by decide) false false)).get (by decide)

theorem sought_run : Runs step NoReset (new 1 (by decide) false false) seeking sought :=
  (Runs.of_isSome (C := Any) (by decide)).of_forall (by simp [seeking, NoReset])

def resuming : List Event := [.passEndFlush, .resume, .ReceiveMultiple [2], .wake, .collect, .send, .received S_OK]

def resumed : COutputQueue := (evalRun step Any resuming sought).get (by decide)

theorem resumed_run : Runs step NoReset sought resuming resumed :=
  (Runs.of_isSome (C := Any) (by decide)).of_forall (by simp [resuming, NoReset])

/-- In any order of calls and steps, what the pin has got, and then what is on
its way, is part of what was put in, in the same order. -/
theorem delivered_in_order (hrun : Runs step Any (new n hn be fo) es q) :
    (q.calls.flatMap passes ++ sent q.contents).Sublist (sent q.queued) := by
  obtain ⟨cs, ps, gs, rs, hcalls, hqueued, -, -, horder, -⟩ := flow_run hrun
  have hempty : sent (new n hn be fo).contents = [] := rfl
  rw [hempty, List.nil_append] at horder
  have hc : q.calls = cs := hcalls
  have hq : q.queued = ps := hqueued
  rw [hc, hq]
  exact horder

theorem delivered_in_order_played : (played.calls.flatMap passes ++ sent played.contents).Sublist (sent played.queued) :=
  delivered_in_order played_run

/-- Every sample that was handed in is released once, or still in the queue; and
when the thread has ended, none is. -/
theorem released_once (hrun : Runs step Any (new n hn be fo) es q) :
    (q.released ++ q.held).Perm q.given ∧ (q.thread = .done → q.released.Perm q.given) := by
  obtain ⟨cs, ps, gs, rs, -, -, hgiven, hreleased, -, hbal⟩ := flow_run hrun
  have hg : q.given = gs := hgiven
  have hr : q.released = rs := hreleased
  have hperm : (q.released ++ q.held).Perm q.given := by
    rw [List.perm_iff_count]
    intro x
    have hb : ([] : List Nat).count x + gs.count x = q.held.count x + rs.count x := hbal x
    rw [hg, hr, List.count_append]
    simp only [List.count_nil] at hb
    omega
  refine ⟨hperm, fun hd => ?_⟩
  rw [held_done hrun hd, List.append_nil] at hperm
  exact hperm

theorem released_once_played : (played.released ++ played.held).Perm [1, 2, 3] := (released_once played_run).1

/-- No flush, no end, and a pin that takes everything. -/
def Smooth (_ : COutputQueue) : Event → Prop
  | .BeginFlush | .Terminate => False
  | .received hr => hr = S_OK
  | _ => True

/-- What a run without trouble keeps. -/
structure Whole (q : COutputQueue) : Prop where
  ok : q.m_hr = S_OK
  flush : q.flush = .idle
  flushing : q.m_bFlushing = false
  terminate : q.m_bTerminate = false
  order : q.calls.flatMap passes ++ sent q.contents = sent q.queued
  given : samples q.queued = q.given

theorem Whole.step {e : Event} (h : Whole q) (he : Smooth q e) (hs : q.step e = some q') : Whole q' := by
  obtain ⟨cs, ps, gs, rs, hf⟩ := flow_step hs
  have horder : q'.calls.flatMap passes ++ sent q'.contents = sent q'.queued := by
    rw [hf.calls, List.flatMap_append, List.append_assoc, hf.whole h.ok h.flushing h.terminate, hf.queued, sent_append,
      ← h.order, List.append_assoc]
  have hgiven : samples q'.queued = q'.given := by
    rw [hf.queued, hf.given, samples_append, h.given, hf.taken h.ok]
  have hkeep : q'.m_hr = S_OK → q'.flush = q.flush → q'.m_bFlushing = q.m_bFlushing →
      q'.m_bTerminate = q.m_bTerminate → Whole q' :=
    fun h1 h2 h3 h4 => ⟨h1, h2.trans h.flush, h3.trans h.flushing, h4.trans h.terminate, horder, hgiven⟩
  rcases thread_eq hs with hw | ⟨-, hc⟩
  · rcases thread_cases hw with ⟨-, rfl⟩ | ⟨-, room, -, rfl⟩ | ⟨-, -, -, -, calls, rel, ev, hr, heq, -, -, hok⟩
    · rcases q.collect_cases with ⟨hterm, -⟩ | ⟨-, hflag, -⟩ | ⟨-, -, b, he, -⟩ | ⟨-, -, b, p, l, he⟩
      · rw [h.terminate] at hterm
        cases hterm
      · rw [h.flushing] at hflag
        cases hflag
      · rw [he] at hkeep ⊢
        exact hkeep h.ok rfl rfl rfl
      · rw [he] at hkeep ⊢
        exact hkeep h.ok rfl rfl rfl
    · exact hkeep h.ok rfl rfl rfl
    · have hr' : hr = S_OK := by
        refine hok h.ok fun r her => ?_
        rw [her] at he
        exact he
      rw [heq] at hkeep ⊢
      exact hkeep hr' rfl rfl rfl
  · cases e with
    | ReceiveMultiple ppSamples =>
      cases hc
      unfold ReceiveMultiple at hkeep ⊢
      rw [if_neg (not_not.2 h.ok)] at hkeep ⊢
      simp only [foldl_QueueSample] at hkeep ⊢
      split at hkeep
      · rename_i hn
        rw [if_pos hn]
        exact hkeep h.ok rfl rfl rfl
      · rename_i hn
        rw [if_neg hn]
        exact hkeep h.ok rfl rfl rfl
    | EOS =>
      cases hc
      rw [EOS, if_pos h.ok] at hkeep ⊢
      exact hkeep h.ok rfl rfl rfl
    | NewSegment ppacket =>
      cases hc
      rw [if_pos h.ok] at hkeep ⊢
      exact hkeep h.ok rfl rfl rfl
    | SendAnyway | Reset =>
      cases hc
      exact hkeep h.ok rfl rfl rfl
    | QueueSegment | resetComplete =>
      obtain ⟨-, ⟨⟩⟩ := Option.ite_none_right_eq_some.1 hc
      exact hkeep h.ok rfl rfl rfl
    | BeginFlush | Terminate => exact he.elim
    | passBeginFlush | EndFlush | flushComplete | clear | passEndFlush | resume =>
      simp [call?, h.flush] at hc
    | _ => simp [call?] at hc

/-- Without flushes and errors the pin gets all that was put in, in order, once
the thread has gone to sleep; a queue with exact batches may keep the start of the
next batch. -/
theorem all_delivered (hrun : Runs step Smooth (new n hn be fo) es q) (hw : q.thread = .wait) (ht : q.room.tokens = 0) :
    samples q.queued = q.given ∧ ∃ b : List Nat, q.calls.flatMap passes ++ b.map .sample = sent q.queued ∧
      (b = [] ∨ q.m_bBatchExact = true ∧ b.length < q.m_lBatchSize) := by
  have hwhole : Whole q := by
    refine hrun.inv Whole ⟨rfl, rfl, rfl, rfl, rfl, rfl⟩ fun t e u h he hs => h.step he hs
  refine ⟨hwhole.given, ?_⟩
  have hcontents : q.contents = q.m_ppSamples.map .sample ++ q.m_List := by simp [contents, hw, hand]
  have horder := hwhole.order
  rw [hcontents] at horder
  obtain ⟨-, ⟨hl, hb⟩ | ⟨hx, b, hl, hlen⟩⟩ := quiet_of_wait hrun hw ht
  · refine ⟨[], ?_, .inl rfl⟩
    rw [← horder, hl, hb]
    rfl
  · refine ⟨q.m_ppSamples ++ b, ?_, .inr ⟨hx, by rw [List.length_append]; exact hlen⟩⟩
    rw [← horder, hl, ← List.map_append, sent_samples]

theorem all_delivered_played : ∃ b : List Nat, played.calls.flatMap passes ++ b.map .sample = sent played.queued ∧
    (b = [] ∨ played.m_bBatchExact = true ∧ b.length < played.m_lBatchSize) :=
  (all_delivered (played_run.of_forall (by simp [playing, Smooth])) (by decide) (by decide)).2

/-- A thread that sleeps has nothing to do, and a flush is not waiting for it. -/
theorem never_stuck (hrun : Runs step NoReset (new n hn be fo) es q) (hw : q.thread = .wait) (ht : q.room.tokens = 0) :
    q.Quiet ∧ (q.flush = .ending → q.m_evFlushComplete = true) := by
  have ha := awake hrun
  have hv := ha.visitors
  rw [if_pos hw] at hv
  have h0 : q.room.newcomers ≠ 0 := by
    intro h0
    simp only [WaitRoom.visitors] at hv
    omega
  refine ⟨ha.quiet h0, fun hf => (flushing hrun).signalled h0 ?_⟩
  rw [hf]
  rfl

theorem never_stuck_sought : sought.Quiet := (never_stuck sought_run (by decide) (by decide)).1

/-- The samples and ends of stream. -/
def media (l : List Packet) : List Packet :=
  l.filter fun
    | .sample _ => true
    | .special .EOS_PACKET => true
    | _ => false

theorem media_sent (l : List Packet) : media (sent l) = media l := by
  induction l with
  | nil => rfl
  | cons p l ih =>
    cases p with
    | sample s => simpa [sent, media] using ih
    | special p => cases p <;> simpa [sent, media] using ih

theorem Clean.media (h : q.Clean) : media q.contents = [] := by
  refine List.filter_eq_nil_iff.2 fun p hp => ?_
  cases p with
  | sample s =>
    have hs : s ∈ q.held := List.mem_append_right _ (List.mem_filterMap.2 ⟨_, hp, rfl⟩)
    rw [h.1] at hs
    cases hs
  | special p =>
    cases p with
    | EOS_PACKET => exact absurd hp h.2
    | _ => simp

/-- When a flush is ended, be it passed on or optimized away, the pin is in no
call with samples, and the samples and ends of stream it gets from then on are
ones that are put in from then on. -/
theorem flush_discards (hrun : Runs step NoReset (new n hn be fo) es s)
    (hf : s.flush = .cleared ∨ s.flush = .flushing ∧ s.m_bFlushingOpt = true ∧ s.m_bFlushed = true) {es' : List Event}
    (hrun' : Runs step NoReset s es' u) : s.held = [] ∧ ∃ cs ps, u.calls = s.calls ++ cs ∧ u.queued = s.queued ++ ps ∧
      (media (cs.flatMap passes)).Sublist (media ps) := by
  have hclean : s.Clean := by
    refine (flushing hrun).clean ?_
    rcases hf with hf | ⟨-, -, hfl⟩
    · refine .inr ?_
      rw [hf]
      trivial
    · exact .inl hfl
  obtain ⟨cs, ps, gs, rs, hcalls, hqueued, -, -, horder, -⟩ := flow_run hrun'
  refine ⟨hclean.1, cs, ps, hcalls, hqueued, ?_⟩
  have hsub := ((List.sublist_append_left _ _).trans horder).filter fun
    | .sample _ => true
    | .special .EOS_PACKET => true
    | _ => false
  have hright : media (sent s.contents ++ sent ps) = media ps := by
    rw [media, List.filter_append]
    show media (sent s.contents) ++ media (sent ps) = _
    rw [media_sent, media_sent, hclean.media, List.nil_append]
  rw [← hright]
  exact hsub

theorem flush_discards_sought : ∃ cs ps, resumed.calls = sought.calls ++ cs ∧ resumed.queued = sought.queued ++ ps ∧
    (media (cs.flatMap passes)).Sublist (media ps) :=
  (flush_discards sought_run (.inl (by decide)) resumed_run).2

/-- A queue without exact batches that is idle has nothing in it. -/
theorem idle_empty (hrun : Runs step Any (new n hn be fo) es q) (hx : q.m_bBatchExact = false) (hi : q.IsIdle = true) :
    q.contents = [] ∧ q.thread = .wait := by
  have ha := awake hrun
  obtain ⟨h0, hb⟩ : q.room.newcomers ≠ 0 ∧ q.m_ppSamples = [] := by simpa [IsIdle] using hi
  have hw : q.thread = .wait := by
    by_contra hw
    have hv := ha.visitors
    rw [if_neg hw] at hv
    exact h0 (newcomers_of_visitors hv)
  obtain ⟨-, ⟨hl, -⟩ | ⟨hexact, -⟩⟩ := ha.quiet h0
  · exact ⟨(clean_empty (.inl hw) hb hl).1, hw⟩
  · rw [hx] at hexact
    cases hexact

theorem idle_empty_played : played.contents = [] := (idle_empty played_run (by decide) (by decide)).1

end COutputQueue

end FilterSln
