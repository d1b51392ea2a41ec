import FilterSln.Types
import FilterSln.Lib.Runs
import FilterSln.Lib.WaitRoom
import Mathlib.Data.List.Basic
/-!
# The output queue

`COutputQueue` of `outputq.cpp` with its thread: samples, ends of stream and new
segments are put into a list, and `ThreadProc` takes them out in batches and
calls the input pin downstream. What happens under the lock is one event; what
happens without it is an event for each access, so the calls of the filter and
the thread come in any order.

In every run the pin gets what was put in, in order and never twice
(`delivered_in_order`), and each sample is released once (`released_once`).
Nothing is left in the list while the thread sleeps (`never_stuck`), so without
flushes and errors everything arrives (`all_delivered`). After a flush nothing
from before it arrives (`flush_discards`).

The list gets memory for its nodes: a `new` that finds none throws, so `AddTail`
returns no null position.
-/

namespace FilterSln

open HRESULT Lib

structure NewSegmentPacket where
  tStart : REFERENCE_TIME
  tStop : REFERENCE_TIME
  /-- The bits of the `double`. -/
  dRate : BitVec 64
  deriving DecidableEq

/-- The special samples. `NEW_SEGMENT` stands for itself and the packet behind
it. -/
inductive Special where
  | SEND_PACKET
  | EOS_PACKET
  | RESET_PACKET
  | NEW_SEGMENT (ppacket : NewSegmentPacket)
  deriving DecidableEq

/-- What the list holds. A regular sample is known by a number. -/
inductive Packet where
  | sample (pSample : Nat)
  | special (pSample : Special)
  deriving DecidableEq

/-- A call on the pin downstream. -/
inductive PinCall where
  | ReceiveMultiple (ppSamples : List Nat)
  | EndOfStream
  | NewSegment (ppacket : NewSegmentPacket)
  | BeginFlush
  | EndFlush
  deriving DecidableEq

/-- Where `ThreadProc` is. -/
inductive Place where
  /-- Before it takes the lock. -/
  | lock
  /-- At the wait for `m_hSem`. -/
  | wait
  /-- It has left the lock with a batch, and with the packet behind the batch. -/
  | send (ppSamples : List Nat) (pSample : Option Special)
  /-- In `ReceiveMultiple` of the pin. -/
  | receive (ppSamples : List Nat) (pSample : Option Special)
  /-- The batch is done with. -/
  | control (pSample : Option Special)
  /-- After a reset, at `SetEvent`. -/
  | signal
  /-- It has returned. -/
  | done
  deriving DecidableEq

/-- Where the caller of `BeginFlush` and `EndFlush` is, who calls them in turn. -/
inductive Flush where
  | idle
  /-- In `BeginFlush`, before it is passed on. -/
  | begun
  /-- Between the two calls. -/
  | flushing
  /-- In `EndFlush`, at the wait. -/
  | ending
  /-- After the wait. -/
  | waited
  /-- Before `EndFlush` is passed on. -/
  | cleared
  /-- After that. -/
  | passed
  deriving DecidableEq

structure COutputQueue where
  m_lBatchSize : Nat
  /-- The constructor asserts it. -/
  positive : 0 < m_lBatchSize
  m_bBatchExact : Bool
  m_bFlushingOpt : Bool
  m_List : List Packet
  /-- The first `m_nBatched` of them. -/
  m_ppSamples : List Nat
  /-- `m_lWaiting` and `m_hSem`. -/
  room : WaitRoom
  m_evFlushComplete : Bool
  m_bFlushing : Bool
  m_bFlushed : Bool
  m_bTerminate : Bool
  m_hr : HRESULT
  thread : Place
  flush : Flush
  /-- The calls of `NewSegment` that have seen `S_OK`. -/
  segments : List NewSegmentPacket
  /-- The calls of `Reset` that wait. -/
  resets : Nat
  /-- All that was put into the list. -/
  queued : List Packet
  /-- The calls on the pin. -/
  calls : List PinCall
  /-- The samples that were handed in, and those released. -/
  given : List Nat
  released : List Nat

/-- The samples among the packets. -/
def samples (l : List Packet) : List Nat :=
  l.filterMap fun
    | .sample pSample => some pSample
    | _ => none

namespace COutputQueue

def new (lBatchSize : Nat) (positive : 0 < lBatchSize) (bBatchExact bFlushingOpt : Bool) : COutputQueue where
  m_lBatchSize := lBatchSize
  positive := positive
  m_bBatchExact := bBatchExact && decide (lBatchSize > 1)
  m_bFlushingOpt := bFlushingOpt
  m_List := []
  m_ppSamples := []
  room := .empty
  m_evFlushComplete := false
  m_bFlushing := false
  m_bFlushed := true
  m_bTerminate := false
  m_hr := S_OK
  thread := .lock
  flush := .idle
  segments := []
  resets := 0
  queued := []
  calls := []
  given := []
  released := []

/-! ## Under the lock -/

/-- Without the release of a sample for which `AddTail` has no memory. -/
def QueueSample (q : COutputQueue) (p : Packet) : COutputQueue :=
  { q with m_List := q.m_List ++ [p], queued := q.queued ++ [p] }

def NotifyThread (q : COutputQueue) : COutputQueue := { q with room := q.room.release }

def FreeSamples (q : COutputQueue) : COutputQueue :=
  { q with m_List := [], m_ppSamples := [], released := q.released ++ samples q.m_List ++ q.m_ppSamples }

/-- `m_List->GetCount()`. -/
def GetCount (l : List Packet) : Nat :=
  (l.map fun
    | .special (.NEW_SEGMENT _) => 2
    | _ => 1).sum

/-- The inner loop of `ThreadProc`, from a list and a batch. -/
def gather (q : COutputQueue) : List Packet → List Nat → COutputQueue
  | [], b =>
    if q.m_bBatchExact ∨ b = [] then { q with m_List := [], m_ppSamples := b, room := q.room.enter, thread := .wait }
    else { q with m_List := [], m_ppSamples := [], thread := .send b none }
  | .sample pSample :: l, b =>
    if (b ++ [pSample]).length = q.m_lBatchSize then
      { q with m_List := l, m_ppSamples := [], thread := .send (b ++ [pSample]) none }
    else q.gather l (b ++ [pSample])
  | .special .SEND_PACKET :: l, b =>
    if b = [] then q.gather l b
    else { q with m_List := l, m_ppSamples := [], thread := .send b (some .SEND_PACKET) }
  | .special p :: l, b => { q with m_List := l, m_ppSamples := [], thread := .send b (some p) }

/-- `ThreadProc` with the lock. `m_bTerminate` and `m_bFlushing` do not change
there, so the inner loop looks at them once. -/
def collect (q : COutputQueue) : COutputQueue :=
  if q.m_bTerminate then { q.FreeSamples with thread := .done }
  else
    let q := if q.m_bFlushing then { q.FreeSamples with m_evFlushComplete := true } else q
    q.gather q.m_List q.m_ppSamples

def ReceiveMultiple (q : COutputQueue) (ppSamples : List Nat) : COutputQueue :=
  let q := { q with given := q.given ++ ppSamples }
  if q.m_hr ≠ S_OK then { q with released := q.released ++ ppSamples }
  else
    let q := (ppSamples.map .sample).foldl QueueSample { q with m_bFlushed := false }
    if !q.m_bBatchExact ∨ q.m_lBatchSize ≤ q.m_ppSamples.length + GetCount q.m_List then q.NotifyThread else q

def SendAnyway (q : COutputQueue) : COutputQueue := (q.QueueSample (.special .SEND_PACKET)).NotifyThread

def EOS (q : COutputQueue) : COutputQueue :=
  if q.m_hr = S_OK then ({ q with m_bFlushed := false }.QueueSample (.special .EOS_PACKET)).NotifyThread else q

def BeginFlush (q : COutputQueue) : COutputQueue :=
  let q := { q with m_bFlushing := true, m_hr := if q.m_hr = S_OK then S_FALSE else q.m_hr }
  if q.m_bFlushed ∧ q.m_bFlushingOpt then { q with flush := .flushing }
  else { q with m_evFlushComplete := false, flush := .begun }.NotifyThread

def EndFlush (q : COutputQueue) : COutputQueue :=
  if q.m_bFlushingOpt ∧ q.m_bFlushed then { q with m_bFlushing := false, m_hr := S_OK, flush := .idle }
  else { q with flush := .ending }

def IsIdle (q : COutputQueue) : Bool := !(q.room.newcomers = 0 || q.m_ppSamples ≠ [])

/-! ## Events -/

inductive Event where
  | ReceiveMultiple (ppSamples : List Nat)
  | SendAnyway
  | EOS
  /-- `NewSegment` looks at `m_hr`. -/
  | NewSegment (ppacket : NewSegmentPacket)
  /-- The rest of it. -/
  | QueueSegment (ppacket : NewSegmentPacket)
  | BeginFlush
  | passBeginFlush
  | EndFlush
  | flushComplete
  | clear
  | passEndFlush
  | resume
  | Reset
  | resetComplete
  /-- The destructor. No other call follows. -/
  | Terminate
  /-- The thread takes the lock. -/
  | collect
  | wake
  | send
  /-- The pin returns from `ReceiveMultiple`. -/
  | received (hr : HRESULT)
  | control
  | signal

/-- The events of the thread. -/
def thread? (q : COutputQueue) : Event → Option COutputQueue
  | .collect => if q.thread = .lock then some q.collect else none
  | .wake =>
    if q.thread = .wait then do
      let room ← q.room.take
      some { q with room, thread := .lock }
    else none
  | .send =>
    match q.thread with
    | .send b p =>
      if b = [] then some { q with thread := .control p }
      else if q.m_hr = S_OK then some { q with calls := q.calls ++ [.ReceiveMultiple b], thread := .receive b p }
      else some { q with released := q.released ++ b.reverse, thread := .control p }
    | _ => none
  | .received hr =>
    match q.thread with
    | .receive b p =>
      some { q with
        m_hr := if q.m_hr = S_OK then hr else q.m_hr, released := q.released ++ b.reverse, thread := .control p }
    | _ => none
  | .control =>
    match q.thread with
    | .control (some .EOS_PACKET) =>
      some { q with calls := if q.m_hr = S_OK then q.calls ++ [.EndOfStream] else q.calls, thread := .lock }
    | .control (some .RESET_PACKET) => some { q with m_hr := S_OK, thread := .signal }
    | .control (some (.NEW_SEGMENT ppacket)) => some { q with calls := q.calls ++ [.NewSegment ppacket], thread := .lock }
    | .control _ => some { q with thread := .lock }
    | _ => none
  | .signal => if q.thread = .signal then some { q with m_evFlushComplete := true, thread := .lock } else none
  | _ => none

/-- The calls of the filter. -/
def call? (q : COutputQueue) : Event → Option COutputQueue
  | .ReceiveMultiple ppSamples => some (q.ReceiveMultiple ppSamples)
  | .SendAnyway => some q.SendAnyway
  | .EOS => some q.EOS
  | .NewSegment ppacket => some (if q.m_hr = S_OK then { q with segments := ppacket :: q.segments } else q)
  | .QueueSegment ppacket =>
    if ppacket ∈ q.segments then
      some ({ q with segments := q.segments.erase ppacket }.QueueSample (.special (.NEW_SEGMENT ppacket))).NotifyThread
    else none
  | .BeginFlush => if q.flush = .idle then some q.BeginFlush else none
  | .passBeginFlush =>
    if q.flush = .begun then some { q with calls := q.calls ++ [.BeginFlush], flush := .flushing } else none
  | .EndFlush => if q.flush = .flushing then some q.EndFlush else none
  | .flushComplete =>
    if q.flush = .ending ∧ q.m_evFlushComplete then some { q with m_evFlushComplete := false, flush := .waited } else none
  | .clear =>
    if q.flush = .waited then some { q with m_bFlushing := false, m_bFlushed := true, flush := .cleared } else none
  | .passEndFlush =>
    if q.flush = .cleared then some { q with calls := q.calls ++ [.EndFlush], flush := .passed } else none
  | .resume => if q.flush = .passed then some { q with m_hr := S_OK, flush := .idle } else none
  | .Reset => some ({ q with resets := q.resets + 1 }.QueueSample (.special .RESET_PACKET)).NotifyThread
  | .resetComplete =>
    if 0 < q.resets ∧ q.m_evFlushComplete then some { q with m_evFlushComplete := false, resets := q.resets - 1 } else none
  | .Terminate => some { q with m_bTerminate := true, m_hr := S_FALSE }.NotifyThread
  | _ => none

def step (q : COutputQueue) (e : Event) : Option COutputQueue :=
  match q.thread? e with
  | some q' => some q'
  | none => if q.m_bTerminate then none else q.call? e

/-! ## What is on its way -/

/-- What the thread has in hand and the pin has not got. -/
def hand : Place → List Packet
  | .send b p => b.map .sample ++ p.toList.map .special
  | .receive _ p => p.toList.map .special
  | .control p => p.toList.map .special
  | _ => []

def contents (q : COutputQueue) : List Packet := hand q.thread ++ (q.m_ppSamples.map .sample ++ q.m_List)

/-- The packets that end up as calls on the pin. -/
def sent (l : List Packet) : List Packet :=
  l.filter fun
    | .sample _ => true
    | .special .EOS_PACKET => true
    | .special (.NEW_SEGMENT _) => true
    | _ => false

/-- What a call brings to the pin. -/
def passes : PinCall → List Packet
  | .ReceiveMultiple ppSamples => ppSamples.map .sample
  | .EndOfStream => [.special .EOS_PACKET]
  | .NewSegment ppacket => [.special (.NEW_SEGMENT ppacket)]
  | .BeginFlush => []
  | .EndFlush => []

@[simp] theorem sent_nil : sent [] = [] := rfl

@[simp] theorem sent_append (l m : List Packet) : sent (l ++ m) = sent l ++ sent m := List.filter_append ..

@[simp] theorem sent_samples (b : List Nat) : sent (b.map .sample) = b.map .sample := by
  simp [sent, List.filter_eq_self]

@[simp] theorem samples_append (l m : List Packet) : samples (l ++ m) = samples l ++ samples m := List.filterMap_append

@[simp] theorem samples_map (b : List Nat) : samples (b.map .sample) = b := by
  simp [samples, List.filterMap_map]

variable {q q' : COutputQueue}

/-- The ways out of the inner loop: to the wait, with only samples left, or with
a batch in hand. Nothing gets lost on the way. -/
theorem gather_cases (q : COutputQueue) (l : List Packet) (b : List Nat) :
    (∃ b', q.gather l b = { q with m_List := [], m_ppSamples := b', room := q.room.enter, thread := .wait } ∧
      sent (b.map .sample ++ l) = b'.map .sample ∧ (q.m_bBatchExact ∨ b' = []) ∧
      (b.length < q.m_lBatchSize → b'.length < q.m_lBatchSize)) ∨
    ∃ b' p l', q.gather l b = { q with m_List := l', m_ppSamples := [], thread := .send b' p } ∧
      sent (b.map .sample ++ l) = sent (b'.map .sample ++ (p.toList.map .special ++ l')) ∧
      (∀ x ∈ p.toList.map .special ++ l', x ∈ l) := by
  induction l generalizing b with
  | nil =>
    by_cases hw : q.m_bBatchExact ∨ b = []
    · exact .inl ⟨b, by rw [gather, if_pos hw], by simp, hw, id⟩
    · exact .inr ⟨b, none, [], by rw [gather, if_neg hw], by simp, by simp⟩
  | cons p l ih =>
    cases p with
    | sample s =>
      have hmove : sent (b.map .sample ++ .sample s :: l) = sent ((b ++ [s]).map .sample ++ l) := by simp
      by_cases hf : (b ++ [s]).length = q.m_lBatchSize
      · exact .inr ⟨b ++ [s], none, l, by rw [gather, if_pos hf], by simp, fun x hx => by simpa using .inr hx⟩
      · rw [gather, if_neg hf, hmove]
        rcases ih (b ++ [s]) with ⟨b', he, hs, hw, hlen⟩ | ⟨b', p, l', he, hs, hmem⟩
        · refine .inl ⟨b', he, hs, hw, fun hb => hlen ?_⟩
          rw [List.length_append, List.length_singleton] at hf ⊢
          omega
        · exact .inr ⟨b', p, l', he, hs, fun x hx => List.mem_cons_of_mem _ (hmem x hx)⟩
    | special p =>
      have hleave : ∀ b, q.gather (.special p :: l) b = { q with m_List := l, m_ppSamples := [], thread := .send b (some p) } →
          ∃ b' p' l', q.gather (.special p :: l) b = { q with m_List := l', m_ppSamples := [], thread := .send b' p' } ∧
            sent (b.map .sample ++ .special p :: l) = sent (b'.map .sample ++ (p'.toList.map .special ++ l')) ∧
            (∀ x ∈ p'.toList.map .special ++ l', x ∈ .special p :: l) :=
        fun b he => ⟨b, some p, l, he, by simp, by simp⟩
      cases p with
      | SEND_PACKET =>
        by_cases hb : b = []
        · have hdrop : sent (b.map .sample ++ .special .SEND_PACKET :: l) = sent (b.map .sample ++ l) := by simp [sent]
          rw [gather, if_pos hb, hdrop]
          rcases ih b with ⟨b', he, hs⟩ | ⟨b', p, l', he, hs, hmem⟩
          · exact .inl ⟨b', he, hs⟩
          · exact .inr ⟨b', p, l', he, hs, fun x hx => List.mem_cons_of_mem _ (hmem x hx)⟩
        · exact .inr (hleave b (by rw [gather, if_neg hb]))
      | EOS_PACKET => exact .inr (hleave b rfl)
      | RESET_PACKET => exact .inr (hleave b rfl)
      | NEW_SEGMENT ppacket => exact .inr (hleave b rfl)

/-! ## Where the samples go -/

theorem samples_sent (l : List Packet) : samples (sent l) = samples l := by
  induction l with
  | nil => rfl
  | cons p l ih =>
    cases p with
    | sample s => simpa [sent, samples] using ih
    | special p => cases p <;> simpa [sent, samples] using ih

/-- The samples of a call that has not returned. -/
def inCall : Place → List Nat
  | .receive b _ => b
  | _ => []

/-- The samples that are not released yet. -/
def held (q : COutputQueue) : List Nat := inCall q.thread ++ samples q.contents

/-- What one step adds to the logs. What it takes from the contents goes to the
pin, in order, or is dropped; and it is dropped only after an error, in a flush
or at the end. -/
structure Flow (q q' : COutputQueue) (cs : List PinCall) (ps : List Packet) (gs rs : List Nat) : Prop where
  calls : q'.calls = q.calls ++ cs
  queued : q'.queued = q.queued ++ ps
  given : q'.given = q.given ++ gs
  released : q'.released = q.released ++ rs
  order : (cs.flatMap passes ++ sent q'.contents).Sublist (sent q.contents ++ sent ps)
  whole : q.m_hr = S_OK → q.m_bFlushing = false → q.m_bTerminate = false →
    cs.flatMap passes ++ sent q'.contents = sent q.contents ++ sent ps
  balance : ∀ x, q.held.count x + gs.count x = q'.held.count x + rs.count x
  subset : ∀ x ∈ q'.contents, x ∈ q.contents ∨ x ∈ ps
  taken : q.m_hr = S_OK → gs = samples ps

/-- Neither the contents nor the logs change. -/
theorem Flow.same (ht : q'.thread = q.thread) (hb : q'.m_ppSamples = q.m_ppSamples) (hl : q'.m_List = q.m_List)
    (hc : q'.calls = q.calls) (hq : q'.queued = q.queued) (hg : q'.given = q.given) (hr : q'.released = q.released) :
    Flow q q' [] [] [] [] := by
  have hcontents : q'.contents = q.contents := by rw [contents, contents, ht, hb, hl]
  have hheld : q'.held = q.held := by rw [held, held, ht, hcontents]
  refine ⟨by simp [hc], by simp [hq], by simp [hg], by simp [hr], ?_, fun _ _ _ => ?_, fun x => ?_, fun x hx => .inl ?_,
    fun _ => rfl⟩
  · simp [hcontents]
  · simp [hcontents]
  · simp [hheld]
  · rwa [← hcontents]

/-- Something is put into the list. -/
theorem Flow.push {l : List Packet} (ht : q'.thread = q.thread) (hb : q'.m_ppSamples = q.m_ppSamples)
    (hl : q'.m_List = q.m_List ++ l) (hc : q'.calls = q.calls) (hq : q'.queued = q.queued ++ l)
    (hg : q'.given = q.given ++ samples l) (hr : q'.released = q.released) : Flow q q' [] l (samples l) [] := by
  have hcontents : q'.contents = q.contents ++ l := by simp [contents, ht, hb, hl]
  refine ⟨by simp [hc], hq, hg, by simp [hr], ?_, fun _ _ _ => ?_, fun x => ?_, fun x hx => ?_, fun _ => rfl⟩
  · simp [hcontents]
  · simp [hcontents]
  · simp only [held, ht, hcontents, samples_append, List.count_append, List.count_nil]
    omega
  · rw [hcontents] at hx
    exact List.mem_append.1 hx

/-- The contents are rearranged. -/
theorem Flow.move (hs : sent q'.contents = sent q.contents) (hm : ∀ x ∈ q'.contents, x ∈ q.contents)
    (ht : inCall q'.thread = inCall q.thread) (hc : q'.calls = q.calls) (hq : q'.queued = q.queued) (hg : q'.given = q.given) (hr : q'.released = q.released) :
    Flow q q' [] [] [] [] := by
  have hheld : q'.held = q.held := by
    rw [held, held, ht, ← samples_sent, hs, samples_sent]
  refine ⟨by simp [hc], by simp [hq], by simp [hg], by simp [hr], ?_, fun _ _ _ => ?_, fun x => ?_,
    fun x hx => .inl (hm x hx), fun _ => rfl⟩
  · simp [hs]
  · simp [hs]
  · simp [hheld]

theorem mem_of_sent {l m : List Packet} (hs : sent l = sent m) {x : Packet} (hx : x ∈ sent l) : x ∈ m := by
  rw [hs] at hx
  exact List.mem_of_mem_filter hx

theorem flow_gather (hl : q.thread = .lock) : Flow q (q.gather q.m_List q.m_ppSamples) [] [] [] [] := by
  have hcontents : q.contents = q.m_ppSamples.map .sample ++ q.m_List := by simp [contents, hl, hand]
  rcases q.gather_cases q.m_List q.m_ppSamples with ⟨b', he, hs, -⟩ | ⟨b', p, l', he, hs, hmem⟩
  · have hs' : sent (b'.map .sample) = sent q.contents := by rw [hcontents, hs, sent_samples]
    rw [he]
    refine .move ?_ (fun x hx => ?_) (by rw [hl]; rfl) rfl rfl rfl rfl
    · simpa [contents, hand] using hs'
    · refine mem_of_sent hs' ?_
      simpa [contents, hand] using hx
  · rw [he]
    refine .move ?_ (fun x hx => ?_) (by rw [hl]; rfl) rfl rfl rfl rfl
    · rw [hcontents, hs]
      simp [contents, hand]
    · rw [hcontents]
      simp only [contents, hand, List.map_nil, List.nil_append, List.append_assoc] at hx
      rcases List.mem_append.1 hx with hb | hx
      · refine mem_of_sent hs.symm ?_
        rw [sent_append, sent_samples]
        exact List.mem_append_left _ hb
      · exact List.mem_append_right _ (hmem x hx)

/-- In a flush and at the end everything is dropped. -/
theorem flow_drop (hl : q.thread = .lock) (hd : q.m_bFlushing ∨ q.m_bTerminate)
    (ht : q'.thread = .wait ∨ q'.thread = .done) (hb : q'.m_ppSamples = []) (hm : q'.m_List = [])
    (hc : q'.calls = q.calls) (hq : q'.queued = q.queued) (hg : q'.given = q.given)
    (hr : q'.released = q.released ++ (samples q.m_List ++ q.m_ppSamples)) :
    Flow q q' [] [] [] (samples q.m_List ++ q.m_ppSamples) := by
  have hcontents : q'.contents = [] := by
    rcases ht with ht | ht <;> simp [contents, ht, hb, hm, hand]
  have hheld : q'.held = [] := by
    rcases ht with ht | ht <;> simp [held, ht, hcontents, inCall, samples]
  refine ⟨by simp [hc], by simp [hq], by simp [hg], hr, ?_, fun _ hf hm => ?_, fun x => ?_, fun x hx => ?_, fun _ => rfl⟩
  · simp [hcontents]
  · rw [hf, hm] at hd
    simp at hd
  · rw [hheld]
    simp only [held, contents, hl, inCall, hand, List.nil_append, samples_append, samples_map, List.count_append,
      List.count_nil]
    omega
  · rw [hcontents] at hx
    cases hx

theorem flow_collect (hl : q.thread = .lock) : ∃ rs, Flow q q.collect [] [] [] rs := by
  unfold collect
  by_cases hterm : q.m_bTerminate = true
  · rw [if_pos hterm]
    refine ⟨_, flow_drop hl (.inr hterm) (.inr rfl) rfl rfl rfl rfl rfl ?_⟩
    simp [FreeSamples]
  · rw [if_neg hterm]
    by_cases hf : q.m_bFlushing = true
    · rw [if_pos hf]
      refine ⟨_, flow_drop hl (.inl hf) (.inl ?_) ?_ ?_ ?_ ?_ ?_ ?_⟩ <;> simp [FreeSamples, gather]
    · rw [if_neg hf]
      exact ⟨_, flow_gather hl⟩

/-- What is queued in a loop. -/
theorem foldl_QueueSample (l : List Packet) (q : COutputQueue) :
    l.foldl QueueSample q = { q with m_List := q.m_List ++ l, queued := q.queued ++ l } := by
  induction l generalizing q with
  | nil => simp
  | cons p l ih => simp [ih, QueueSample]

theorem flow_ReceiveMultiple (q : COutputQueue) (ppSamples : List Nat) :
    ∃ ps rs, Flow q (q.ReceiveMultiple ppSamples) [] ps ppSamples rs := by
  unfold ReceiveMultiple
  by_cases hr : q.m_hr ≠ S_OK
  · rw [if_pos hr]
    refine ⟨[], ppSamples, by simp, by simp, rfl, rfl, ?_, fun h => absurd h hr, fun x => ?_, fun _ hx => .inl hx,
      fun h => absurd h hr⟩
    · simp [contents]
    · simp [held, contents]
  · rw [if_neg hr]
    simp only [foldl_QueueSample]
    have hpush : ∀ q' : COutputQueue, q'.thread = q.thread → q'.m_ppSamples = q.m_ppSamples →
        q'.m_List = q.m_List ++ ppSamples.map .sample → q'.calls = q.calls →
        q'.queued = q.queued ++ ppSamples.map .sample → q'.given = q.given ++ ppSamples → q'.released = q.released →
        Flow q q' [] (ppSamples.map .sample) ppSamples [] := by
      intro q' ht hb hm hc hq hg hrel
      have := Flow.push ht hb hm hc hq (by rw [samples_map]; exact hg) hrel
      rwa [samples_map] at this
    split
    · exact ⟨_, _, hpush _ rfl rfl rfl rfl rfl rfl rfl⟩
    · exact ⟨_, _, hpush _ rfl rfl rfl rfl rfl rfl rfl⟩

theorem flow_send {b : List Nat} {p : Option Special} (ht : q.thread = .send b p) (hs : q.thread? .send = some q') :
    ∃ cs rs, Flow q q' cs [] [] rs := by
  have hcontents : q.contents = b.map .sample ++ (p.toList.map .special ++ (q.m_ppSamples.map .sample ++ q.m_List)) := by
    simp [contents, ht, hand]
  simp only [thread?, ht] at hs
  by_cases hb : b = []
  · rw [if_pos hb] at hs
    cases hs
    have hsame : ({ q with thread := .control p } : COutputQueue).contents = q.contents := by
      rw [hcontents, hb]
      rfl
    exact ⟨_, _, .move (by rw [hsame]) (fun x hx => hsame ▸ hx) (by simp [ht, inCall]) rfl rfl rfl rfl⟩
  · rw [if_neg hb] at hs
    have hsub : ∀ x ∈ p.toList.map .special ++ (q.m_ppSamples.map .sample ++ q.m_List), x ∈ q.contents ∨ x ∈ [] :=
      fun x hx => .inl (by rw [hcontents]; exact List.mem_append_right _ hx)
    by_cases hr : q.m_hr = S_OK
    · rw [if_pos hr] at hs
      cases hs
      refine ⟨[.ReceiveMultiple b], [], rfl, by simp, by simp, by simp, ?_, fun _ _ _ => ?_, fun x => ?_, hsub, fun _ => rfl⟩
      · simp [contents, ht, hand, passes]
      · simp [contents, ht, hand, passes]
      · simp [held, contents, ht, hand, inCall]
    · rw [if_neg hr] at hs
      cases hs
      refine ⟨[], b.reverse, by simp, by simp, by simp, rfl, ?_, fun h => absurd h hr, fun x => ?_, hsub, fun _ => rfl⟩
      · simp [contents, ht, hand]
      · simp only [held, contents, ht, hand, inCall, List.nil_append, samples_append, samples_map, List.count_append,
          List.count_nil, List.count_reverse]
        omega

theorem flow_received {b : List Nat} {p : Option Special} (ht : q.thread = .receive b p) (hr : HRESULT) :
    Flow q { q with
      m_hr := if q.m_hr = S_OK then hr else q.m_hr, released := q.released ++ b.reverse, thread := .control p }
      [] [] [] b.reverse := by
  refine ⟨by simp, by simp, by simp, rfl, ?_, fun _ _ _ => ?_, fun x => ?_, fun x hx => .inl ?_,
    fun _ => rfl⟩
  · simp [contents, ht, hand]
  · simp [contents, ht, hand]
  · simp only [held, contents, ht, hand, inCall, List.nil_append, samples_append, List.count_append,
      List.count_nil, List.count_reverse]
    omega
  · simpa [contents, ht, hand] using hx

@[simp] theorem samples_special (l : List Special) : samples (l.map .special) = [] := by
  simp [samples, List.filterMap_map]

/-- The thread has dealt with the packet in its hand: it has passed it on, or it
had nothing to pass on. -/
theorem Flow.dealt {p : Option Special} {cs : List PinCall} (ht : q.thread = .control p) (hh : hand q'.thread = [])
    (hi : inCall q'.thread = []) (hb : q'.m_ppSamples = q.m_ppSamples) (hl : q'.m_List = q.m_List)
    (hc : q'.calls = q.calls ++ cs) (hq : q'.queued = q.queued) (hg : q'.given = q.given) (hr : q'.released = q.released)
    (hp : cs.flatMap passes = sent (p.toList.map .special) ∨ q.m_hr ≠ S_OK ∧ cs = []) : Flow q q' cs [] [] [] := by
  have hcontents : q.contents = p.toList.map .special ++ (q.m_ppSamples.map .sample ++ q.m_List) := by
    simp [contents, ht, hand]
  have hcontents' : q'.contents = q.m_ppSamples.map .sample ++ q.m_List := by rw [contents, hh, hb, hl, List.nil_append]
  refine ⟨hc, by simp [hq], by simp [hg], by simp [hr], ?_, fun hok _ _ => ?_, fun x => ?_, fun x hx => .inl ?_,
    fun _ => rfl⟩
  · rcases hp with hp | ⟨-, rfl⟩
    · simp [hcontents, hcontents', hp]
    · simp [hcontents, hcontents']
  · rcases hp with hp | ⟨hno, -⟩
    · simp [hcontents, hcontents', hp]
    · exact absurd hok hno
  · rw [held, held, hi, ht, hcontents, hcontents']
    simp [inCall]
  · rw [hcontents'] at hx
    rw [hcontents]
    exact List.mem_append_right _ hx

theorem flow_control {p : Option Special} (ht : q.thread = .control p) (hs : q.thread? .control = some q') :
    ∃ cs, Flow q q' cs [] [] [] := by
  rcases p with - | p
  · simp only [thread?, ht] at hs
    cases hs
    exact ⟨[], .dealt ht rfl rfl rfl rfl (by simp) rfl rfl rfl (.inl rfl)⟩
  cases p with
  | SEND_PACKET =>
    simp only [thread?, ht] at hs
    cases hs
    exact ⟨[], .dealt ht rfl rfl rfl rfl (by simp) rfl rfl rfl (.inl rfl)⟩
  | EOS_PACKET =>
    simp only [thread?, ht] at hs
    by_cases hr : q.m_hr = S_OK
    · rw [if_pos hr] at hs
      cases hs
      exact ⟨[.EndOfStream], .dealt ht rfl rfl rfl rfl rfl rfl rfl rfl (.inl rfl)⟩
    · rw [if_neg hr] at hs
      cases hs
      exact ⟨[], .dealt ht rfl rfl rfl rfl (by simp) rfl rfl rfl (.inr ⟨hr, rfl⟩)⟩
  | RESET_PACKET =>
    simp only [thread?, ht] at hs
    cases hs
    exact ⟨[], .dealt ht rfl rfl rfl rfl (by simp) rfl rfl rfl (.inl rfl)⟩
  | NEW_SEGMENT ppacket =>
    simp only [thread?, ht] at hs
    cases hs
    exact ⟨[.NewSegment ppacket], .dealt ht rfl rfl rfl rfl rfl rfl rfl rfl (.inl rfl)⟩

theorem thread_eq {e : Event} (hs : q.step e = some q') :
    q.thread? e = some q' ∨ q.m_bTerminate = false ∧ q.call? e = some q' := by
  unfold step at hs
  cases ht : q.thread? e with
  | some q₁ =>
    rw [ht] at hs
    exact .inl hs
  | none =>
    rw [ht] at hs
    by_cases hm : q.m_bTerminate = true
    · simp [hm] at hs
    · rw [if_neg hm] at hs
      exact .inr ⟨Bool.not_eq_true _ ▸ hm, hs⟩

theorem flow_thread {e : Event} (hs : q.thread? e = some q') : ∃ cs rs, Flow q q' cs [] [] rs := by
  cases e with
  | collect =>
    obtain ⟨hl, ⟨⟩⟩ := Option.ite_none_right_eq_some.1 hs
    exact ⟨_, flow_collect hl⟩
  | wake =>
    by_cases hw : q.thread = .wait
    · rw [thread?, if_pos hw] at hs
      obtain ⟨room, -, hs⟩ := Option.bind_eq_some_iff.1 hs
      cases hs
      have hsame : ({ q with room, thread := .lock } : COutputQueue).contents = q.contents := by simp [contents, hw, hand]
      exact ⟨_, _, .move (by rw [hsame]) (fun x hx => hsame ▸ hx) (by simp [hw, inCall]) rfl rfl rfl rfl⟩
    · rw [thread?, if_neg hw] at hs
      cases hs
  | send =>
    cases ht : q.thread with
    | send b p => exact flow_send ht hs
    | _ => simp [thread?, ht] at hs
  | received hr =>
    cases ht : q.thread with
    | receive b p =>
      simp only [thread?, ht] at hs
      cases hs
      exact ⟨_, _, flow_received ht hr⟩
    | _ => simp [thread?, ht] at hs
  | control =>
    cases ht : q.thread with
    | control p =>
      obtain ⟨cs, hf⟩ := flow_control ht hs
      exact ⟨cs, _, hf⟩
    | _ => simp [thread?, ht] at hs
  | signal =>
    obtain ⟨hl, ⟨⟩⟩ := Option.ite_none_right_eq_some.1 hs
    have hsame : ({ q with m_evFlushComplete := true, thread := .lock } : COutputQueue).contents = q.contents := by
      simp [contents, hl, hand]
    exact ⟨_, _, .move (by rw [hsame]) (fun x hx => hsame ▸ hx) (by simp [hl, inCall]) rfl rfl rfl rfl⟩
  | _ => simp [thread?] at hs

/-- A call on the pin that takes nothing from the contents. -/
theorem Flow.call {c : PinCall} (hc : q'.calls = q.calls ++ [c]) (hp : passes c = []) (ht : q'.thread = q.thread)
    (hb : q'.m_ppSamples = q.m_ppSamples) (hl : q'.m_List = q.m_List) (hq : q'.queued = q.queued)
    (hg : q'.given = q.given) (hr : q'.released = q.released) : Flow q q' [c] [] [] [] := by
  have hcontents : q'.contents = q.contents := by rw [contents, contents, ht, hb, hl]
  have hheld : q'.held = q.held := by rw [held, held, ht, hcontents]
  refine ⟨hc, by simp [hq], by simp [hg], by simp [hr], ?_, fun _ _ _ => ?_, fun x => ?_, fun x hx => .inl ?_,
    fun _ => rfl⟩
  · simp [hcontents, hp]
  · simp [hcontents, hp]
  · simp [hheld]
  · rwa [← hcontents]

theorem flow_call {e : Event} (hs : q.call? e = some q') : ∃ cs ps gs rs, Flow q q' cs ps gs rs := by
  have hsame : ∀ q' : COutputQueue, q'.thread = q.thread → q'.m_ppSamples = q.m_ppSamples → q'.m_List = q.m_List →
      q'.calls = q.calls → q'.queued = q.queued → q'.given = q.given → q'.released = q.released →
      ∃ cs ps gs rs, Flow q q' cs ps gs rs :=
    fun q' h1 h2 h3 h4 h5 h6 h7 => ⟨_, _, _, _, .same h1 h2 h3 h4 h5 h6 h7⟩
  have hpush : ∀ q' : COutputQueue, ∀ p : Special, q'.thread = q.thread → q'.m_ppSamples = q.m_ppSamples →
      q'.m_List = q.m_List ++ [.special p] → q'.calls = q.calls → q'.queued = q.queued ++ [.special p] →
      q'.given = q.given → q'.released = q.released → ∃ cs ps gs rs, Flow q q' cs ps gs rs := by
    intro q' p h1 h2 h3 h4 h5 h6 h7
    exact ⟨_, _, _, _, .push h1 h2 h3 h4 h5 (by simp [h6, samples]) h7⟩
  cases e with
  | ReceiveMultiple ppSamples =>
    cases hs
    obtain ⟨ps, rs, hf⟩ := flow_ReceiveMultiple q ppSamples
    exact ⟨_, ps, _, rs, hf⟩
  | SendAnyway =>
    cases hs
    exact hpush _ .SEND_PACKET rfl rfl rfl rfl rfl rfl rfl
  | EOS =>
    cases hs
    by_cases hr : q.m_hr = S_OK
    · rw [EOS, if_pos hr]
      exact hpush _ .EOS_PACKET rfl rfl rfl rfl rfl rfl rfl
    · rw [EOS, if_neg hr]
      exact hsame _ rfl rfl rfl rfl rfl rfl rfl
  | NewSegment ppacket =>
    cases hs
    by_cases hr : q.m_hr = S_OK
    · rw [if_pos hr]
      exact hsame _ rfl rfl rfl rfl rfl rfl rfl
    · rw [if_neg hr]
      exact hsame _ rfl rfl rfl rfl rfl rfl rfl
  | QueueSegment ppacket =>
    obtain ⟨-, ⟨⟩⟩ := Option.ite_none_right_eq_some.1 hs
    exact hpush _ (.NEW_SEGMENT ppacket) rfl rfl rfl rfl rfl rfl rfl
  | BeginFlush =>
    obtain ⟨-, ⟨⟩⟩ := Option.ite_none_right_eq_some.1 hs
    by_cases ho : q.m_bFlushed ∧ q.m_bFlushingOpt
    · rw [BeginFlush, if_pos ho]
      exact hsame _ rfl rfl rfl rfl rfl rfl rfl
    · rw [BeginFlush, if_neg ho]
      exact hsame _ rfl rfl rfl rfl rfl rfl rfl
  | passBeginFlush =>
    obtain ⟨-, ⟨⟩⟩ := Option.ite_none_right_eq_some.1 hs
    exact ⟨_, _, _, _, .call rfl rfl rfl rfl rfl rfl rfl rfl⟩
  | EndFlush =>
    obtain ⟨-, ⟨⟩⟩ := Option.ite_none_right_eq_some.1 hs
    by_cases ho : q.m_bFlushingOpt ∧ q.m_bFlushed
    · rw [EndFlush, if_pos ho]
      exact hsame _ rfl rfl rfl rfl rfl rfl rfl
    · rw [EndFlush, if_neg ho]
      exact hsame _ rfl rfl rfl rfl rfl rfl rfl
  | flushComplete =>
    obtain ⟨-, ⟨⟩⟩ := Option.ite_none_right_eq_some.1 hs
    exact hsame _ rfl rfl rfl rfl rfl rfl rfl
  | clear =>
    obtain ⟨-, ⟨⟩⟩ := Option.ite_none_right_eq_some.1 hs
    exact hsame _ rfl rfl rfl rfl rfl rfl rfl
  | passEndFlush =>
    obtain ⟨-, ⟨⟩⟩ := Option.ite_none_right_eq_some.1 hs
    exact ⟨_, _, _, _, .call rfl rfl rfl rfl rfl rfl rfl rfl⟩
  | resume =>
    obtain ⟨-, ⟨⟩⟩ := Option.ite_none_right_eq_some.1 hs
    exact hsame _ rfl rfl rfl rfl rfl rfl rfl
  | Reset =>
    cases hs
    exact hpush _ .RESET_PACKET rfl rfl rfl rfl rfl rfl rfl
  | resetComplete =>
    obtain ⟨-, ⟨⟩⟩ := Option.ite_none_right_eq_some.1 hs
    exact hsame _ rfl rfl rfl rfl rfl rfl rfl
  | Terminate =>
    cases hs
    exact hsame _ rfl rfl rfl rfl rfl rfl rfl
  | _ => simp [call?] at hs

theorem flow_step {e : Event} (hs : q.step e = some q') : ∃ cs ps gs rs, Flow q q' cs ps gs rs := by
  rcases thread_eq hs with ht | ⟨-, hc⟩
  · obtain ⟨cs, rs, hf⟩ := flow_thread ht
    exact ⟨cs, _, _, rs, hf⟩
  · exact flow_call hc

end COutputQueue

end FilterSln
