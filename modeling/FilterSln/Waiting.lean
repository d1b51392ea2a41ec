import FilterSln.Allocator
import FilterSln.Lib.Simulation
import FilterSln.Lib.WaitRoom
import Mathlib.Data.List.Basic
/-!
# Threads that wait for a sample

`CBaseAllocator::GetBuffer` of `amfilter.cpp` with the calls that have to wait:
a call that finds no sample counts itself in `m_lWaiting` under the lock, leaves
the lock, waits on `m_hSem` and starts again. The samples and the lock are those
of `Pool`; every event here is what one thread does while it holds the lock, or
the return of one wait.

The header says why no call waits for ever while a sample is free. Its second
fact, that `m_lWaiting` and the semaphore together count the waiting calls,
leaves out a call with `AM_GBF_NOWAIT`, which counts itself and does not wait.
`Inv.visitors` has those calls as well, and the conclusion of the header still
holds (`Inv.covered`).
-/

namespace FilterSln

open HRESULT Lib

/-- One call of `GetBuffer` by a thread. -/
structure Caller where
  thread : Nat
  dwFlags : DWORD
  deriving DecidableEq

/-- An allocator of which many threads take samples. -/
structure Waiting where
  pool : Pool
  /-- `m_lWaiting` and `m_hSem`. -/
  room : WaitRoom
  /-- The calls about to wait or waiting. -/
  nWaiting : List Caller
  /-- The calls whose wait has returned, before they take the lock again. -/
  woken : List Caller
  /-- The calls that have returned, the last one first. -/
  returned : List (Caller × HRESULT)

namespace Waiting

def new (dwAllocationGranularity : DWORD) : Waiting := ⟨⟨.new dwAllocationGranularity, []⟩, .empty, [], [], []⟩

def SetWaiting (w : Waiting) : Waiting := { w with room := w.room.enter }

def NotifySample (w : Waiting) : Waiting := { w with room := w.room.release }

/-- The body of the loop of `GetBuffer`: up to its return, or to the wait. -/
def GetBuffer (w : Waiting) (c : Caller) : Waiting :=
  if !w.pool.alloc.m_bCommitted then { w with returned := (c, VFW_E_NOT_COMMITTED) :: w.returned }
  else
    match w.pool.alloc.m_lFree with
    | pSample :: m_lFree =>
      { w with
          pool := ⟨{ w.pool.alloc with m_lFree }, pSample.1.AddRef :: w.pool.held⟩
          returned := (c, NOERROR) :: w.returned }
    | [] =>
      let w := w.SetWaiting
      if c.dwFlags &&& AM_GBF_NOWAIT ≠ 0 then { w with returned := (c, VFW_E_TIMEOUT) :: w.returned }
      else { w with nWaiting := c :: w.nWaiting }

/-- `WaitForSingleObject` returns to the call. -/
def wake (w : Waiting) (c : Caller) : Option Waiting :=
  if c ∈ w.nWaiting then do
    let room ← w.room.take
    some { w with room, nWaiting := w.nWaiting.erase c, woken := c :: w.woken }
  else none

/-- The call goes round the loop. -/
def retry (w : Waiting) (c : Caller) : Option Waiting :=
  if c ∈ w.woken then some ({ w with woken := w.woken.erase c }.GetBuffer c) else none

def Decommit (w : Waiting) : Waiting :=
  if !w.pool.alloc.m_bCommitted ∧ !w.pool.alloc.m_bDecommitInProgress then w
  else { w with pool := { w.pool with alloc := w.pool.alloc.Decommit.1 } }.NotifySample

/-- The holder of sample `i` releases it; `ReleaseBuffer` follows the last
release. -/
def Release (w : Waiting) (i : Nat) : Option Waiting := do
  let s ← w.pool.held[i]?
  match s.Release with
  | .held s => some { w with pool := { w.pool with held := w.pool.held.set i s } }
  | .final s =>
    let w := { w with pool := ⟨w.pool.alloc.ReleaseBuffer s, w.pool.held.eraseIdx i⟩ }
    some (if w.room.newcomers ≠ 0 then w.NotifySample else w)

inductive Event where
  | SetProperties (pRequest : ALLOCATOR_PROPERTIES)
  | Commit (env : AllocEnv)
  | Decommit
  | GetBuffer (c : Caller)
  | wake (c : Caller)
  | retry (c : Caller)
  | use (i : Nat) (u : Use)
  | Release (i : Nat)

def step (w : Waiting) : Event → Option Waiting
  | .SetProperties req => some { w with pool := { w.pool with alloc := (w.pool.alloc.SetProperties req).1 } }
  | .Commit env => some { w with pool := { w.pool with alloc := (w.pool.alloc.Commit env).1 } }
  | .Decommit => some w.Decommit
  | .GetBuffer c => some (w.GetBuffer c)
  | .wake c => w.wake c
  | .retry c => w.retry c
  | .use i u => do
    let s ← w.pool.held[i]?
    some { w with pool := { w.pool with held := w.pool.held.set i (u.apply s) } }
  | .Release i => w.Release i

/-- The calls that gave up at once. -/
def timeouts (w : Waiting) : Nat := w.returned.countP fun r => r.2 = VFW_E_TIMEOUT

/-- One more call fits into `m_lWaiting` and into the semaphore. -/
def Fits (w : Waiting) (_ : Event) : Prop := w.room.visitors < WaitRoom.limit

instance (w : Waiting) (e : Event) : Decidable (w.Fits e) := inferInstanceAs (Decidable (_ < _))

/-- A call has to wait. -/
def Dry (p : Pool) : Prop := p.alloc.m_bCommitted = true ∧ p.alloc.m_lFree = []

theorem not_dry {p : Pool} (h : p.alloc.m_bCommitted = false) : ¬Dry p := by
  intro hdry
  have := hdry.1
  rw [h] at this
  cases this

/-- The two facts of the header. -/
structure Inv (w : Waiting) : Prop where
  dry : w.room.newcomers ≠ 0 → Dry w.pool
  visitors : w.room.visitors = w.nWaiting.length + w.timeouts

theorem inv_new (g : DWORD) : Inv (new g) where
  dry h := absurd rfl h
  visitors := rfl

variable {w w' : Waiting}

/-- The four ways through the body of the loop. -/
theorem GetBuffer_cases (w : Waiting) (c : Caller) :
    (w.pool.alloc.m_bCommitted = false ∧
      w.GetBuffer c = { w with returned := (c, VFW_E_NOT_COMMITTED) :: w.returned }) ∨
    (∃ pSample m_lFree, w.pool.alloc.m_bCommitted = true ∧ w.pool.alloc.m_lFree = pSample :: m_lFree ∧
      w.GetBuffer c = { w with
        pool := ⟨{ w.pool.alloc with m_lFree }, pSample.1.AddRef :: w.pool.held⟩
        returned := (c, NOERROR) :: w.returned }) ∨
    (Dry w.pool ∧ c.dwFlags &&& AM_GBF_NOWAIT ≠ 0 ∧
      w.GetBuffer c = { w with room := w.room.enter, returned := (c, VFW_E_TIMEOUT) :: w.returned }) ∨
    (Dry w.pool ∧ c.dwFlags &&& AM_GBF_NOWAIT = 0 ∧
      w.GetBuffer c = { w with room := w.room.enter, nWaiting := c :: w.nWaiting }) := by
  unfold GetBuffer
  cases hc : w.pool.alloc.m_bCommitted with
  | false => exact .inl ⟨rfl, rfl⟩
  | true =>
    right
    cases hf : w.pool.alloc.m_lFree with
    | cons pSample m_lFree => exact .inl ⟨pSample, m_lFree, rfl, rfl, rfl⟩
    | nil =>
      right
      by_cases hn : c.dwFlags &&& AM_GBF_NOWAIT ≠ 0
      · exact .inl ⟨⟨hc, hf⟩, hn, if_pos hn⟩
      · exact .inr ⟨⟨hc, hf⟩, not_not.1 hn, if_neg hn⟩

theorem inv_GetBuffer (h : w.Inv) (hfit : Dry w.pool → w.room.visitors < WaitRoom.limit) (c : Caller) :
    (w.GetBuffer c).Inv := by
  have hv := h.visitors
  rcases w.GetBuffer_cases c with ⟨-, he⟩ | ⟨pSample, rest, -, hf, he⟩ | ⟨hdry, -, he⟩ | ⟨hdry, -, he⟩
  · rw [he]
    exact ⟨h.dry, by rw [hv]; simp [timeouts]⟩
  · rw [he]
    refine ⟨fun hn => ?_, by rw [hv]; simp [timeouts]⟩
    have := (h.dry hn).2
    rw [hf] at this
    cases this
  · rw [he]
    refine ⟨fun _ => hdry, ?_⟩
    rw [WaitRoom.visitors_enter (hfit hdry), hv]
    simp [timeouts, Nat.add_assoc]
  · rw [he]
    refine ⟨fun _ => hdry, ?_⟩
    rw [WaitRoom.visitors_enter (hfit hdry), hv]
    simp only [List.length_cons, timeouts]
    omega

theorem wake_eq {c : Caller} (h : w.wake c = some w') :
    c ∈ w.nWaiting ∧ ∃ room, w.room.take = some room ∧
      w' = { w with room, nWaiting := w.nWaiting.erase c, woken := c :: w.woken } := by
  unfold wake at h
  by_cases hc : c ∈ w.nWaiting
  · rw [if_pos hc] at h
    obtain ⟨room, hr, hw⟩ := Option.bind_eq_some_iff.1 h
    cases hw
    exact ⟨hc, room, hr, rfl⟩
  · rw [if_neg hc] at h
    cases h

theorem retry_eq {c : Caller} (h : w.retry c = some w') :
    c ∈ w.woken ∧ w' = { w with woken := w.woken.erase c }.GetBuffer c := by
  unfold retry at h
  by_cases hc : c ∈ w.woken
  · rw [if_pos hc] at h
    cases h
    exact ⟨hc, rfl⟩
  · rw [if_neg hc] at h
    cases h

/-- Without newcomers `NotifySample` does nothing, so the test before it makes no
difference. -/
theorem Release_eq {i : Nat} (h : w.Release i = some w') :
    ∃ s, w.pool.held[i]? = some s ∧
      ((∃ t, s.Release = .held t ∧ w' = { w with pool := { w.pool with held := w.pool.held.set i t } }) ∨
      (∃ f, s.Release = .final f ∧
        w' = ({ w with pool := ⟨w.pool.alloc.ReleaseBuffer f, w.pool.held.eraseIdx i⟩ } : Waiting).NotifySample)) := by
  obtain ⟨s, hi, h⟩ := Option.bind_eq_some_iff.1 h
  refine ⟨s, hi, ?_⟩
  rcases s.Release_cases with ⟨t, ht, -⟩ | ⟨f, hf, -⟩
  · rw [ht] at h
    cases h
    exact .inl ⟨t, ht, rfl⟩
  · rw [hf] at h
    cases h
    refine .inr ⟨f, hf, ?_⟩
    by_cases h0 : w.room.newcomers ≠ 0
    · rw [if_pos h0]
    · rw [if_neg h0]
      simp only [NotifySample, WaitRoom.release]
      rw [if_neg h0]

theorem inv_wake (h : w.Inv) {c : Caller} (hs : w.wake c = some w') : w'.Inv := by
  obtain ⟨hc, room, hr, rfl⟩ := wake_eq hs
  obtain ⟨hv, hn⟩ := WaitRoom.visitors_take hr
  have hlen := List.length_erase_of_mem hc
  have hpos := List.length_pos_of_mem hc
  refine ⟨fun h0 => h.dry (by rw [← hn]; exact h0), ?_⟩
  have := h.visitors
  simp only [timeouts] at this ⊢
  omega

/-- What happens to the samples while there are newcomers, or with a signal to
them. -/
theorem inv_pool (h : w.Inv) (p : Pool) (hp : w.room.newcomers ≠ 0 → Dry p) : Inv { w with pool := p } :=
  ⟨hp, h.visitors⟩

theorem inv_NotifySample (h : w.Inv) (hfit : w.room.newcomers ≠ 0 → w.room.visitors < WaitRoom.limit) (p : Pool) :
    ({ w with pool := p } : Waiting).NotifySample.Inv := by
  refine ⟨fun h0 => absurd WaitRoom.newcomers_release h0, ?_⟩
  have hv : w.room.release.visitors = w.room.visitors := by
    by_cases h0 : w.room.newcomers ≠ 0
    · exact WaitRoom.visitors_release (hfit h0).le
    · rw [WaitRoom.release, if_neg h0]
  exact hv.trans h.visitors

/-- The two calls that come between the commit of an allocator and its decommit
without effect. -/
theorem Dry.SetProperties {p : Pool} (h : Dry p) (req : ALLOCATOR_PROPERTIES) :
    Dry { p with alloc := (p.alloc.SetProperties req).1 } := by
  rcases hres : p.alloc.SetProperties req with ⟨a', hr, act⟩
  cases hs : hr.SUCCEEDED with
  | false => rw [CMemAllocator.SetProperties_failed hres hs]; exact h
  | true =>
    have := (CMemAllocator.SetProperties_ok hres hs).1
    rw [h.1] at this
    cases this

theorem Dry.Commit {p : Pool} (h : Dry p) (env : AllocEnv) : Dry { p with alloc := (p.alloc.Commit env).1 } := by
  rw [CMemAllocator.Commit, if_pos h.1]
  exact h

theorem inv_step (h : w.Inv) (hfit : Dry w.pool → w.room.visitors < WaitRoom.limit) (e : Event)
    (hs : w.step e = some w') : w'.Inv := by
  have hfit' : w.room.newcomers ≠ 0 → w.room.visitors < WaitRoom.limit := fun h0 => hfit (h.dry h0)
  cases e with
  | SetProperties req => cases hs; exact inv_pool h _ fun h0 => (h.dry h0).SetProperties req
  | Commit env => cases hs; exact inv_pool h _ fun h0 => (h.dry h0).Commit env
  | Decommit =>
    cases hs
    unfold Decommit
    by_cases hd : !w.pool.alloc.m_bCommitted ∧ !w.pool.alloc.m_bDecommitInProgress
    · rw [if_pos hd]; exact h
    · rw [if_neg hd]; exact inv_NotifySample h hfit' _
  | GetBuffer c => cases hs; exact inv_GetBuffer h hfit c
  | wake c => exact inv_wake h hs
  | retry c =>
    obtain ⟨-, rfl⟩ := retry_eq hs
    exact inv_GetBuffer (w := { w with woken := w.woken.erase c }) ⟨h.dry, h.visitors⟩ hfit c
  | use i u =>
    obtain ⟨s, -, hs⟩ := Option.bind_eq_some_iff.1 hs
    cases hs
    exact inv_pool h _ h.dry
  | Release i =>
    obtain ⟨s, -, ⟨t, -, rfl⟩ | ⟨f, -, rfl⟩⟩ := Release_eq hs
    · exact inv_pool h _ h.dry
    · exact inv_NotifySample h hfit' _

/-- The samples go through the steps of a pool: a call that waits does nothing to
them. -/
theorem step_pool {e : Event} (hs : w.step e = some w') :
    w'.pool = w.pool ∨ ∃ o, w.pool.step o = some w'.pool := by
  have hget : ∀ (v : Waiting) (c : Caller), (v.GetBuffer c).pool = v.pool ∨
      ∃ o, v.pool.step o = some (v.GetBuffer c).pool := by
    intro v c
    rcases v.GetBuffer_cases c with ⟨-, he⟩ | ⟨pSample, rest, hc, hf, he⟩ | ⟨-, -, he⟩ | ⟨-, -, he⟩
    · rw [he]; exact .inl rfl
    · rw [he]
      exact .inr ⟨.GetBuffer c.dwFlags, by simp [Pool.step, CMemAllocator.GetBuffer, hc, hf]⟩
    · rw [he]; exact .inl rfl
    · rw [he]; exact .inl rfl
  cases e with
  | SetProperties req => cases hs; exact .inr ⟨.SetProperties req, rfl⟩
  | Commit env => cases hs; exact .inr ⟨.Commit env, rfl⟩
  | Decommit =>
    cases hs
    unfold Decommit
    by_cases hd : !w.pool.alloc.m_bCommitted ∧ !w.pool.alloc.m_bDecommitInProgress
    · rw [if_pos hd]; exact .inl rfl
    · rw [if_neg hd]; exact .inr ⟨.Decommit, rfl⟩
  | GetBuffer c => cases hs; exact hget w c
  | wake c => obtain ⟨-, room, -, rfl⟩ := wake_eq hs; exact .inl rfl
  | retry c => obtain ⟨-, rfl⟩ := retry_eq hs; exact hget _ c
  | use i u =>
    obtain ⟨s, hi, hs⟩ := Option.bind_eq_some_iff.1 hs
    cases hs
    exact .inr ⟨.use i u, by simp [Pool.step, hi]⟩
  | Release i =>
    obtain ⟨s, hi, hr⟩ := Release_eq hs
    refine .inr ⟨.Release i, ?_⟩
    simp only [Pool.step, Pool.release, hi, Option.bind_eq_bind, Option.bind_some]
    obtain ⟨t, ht, rfl⟩ | ⟨f, hf, rfl⟩ := hr
    · rw [ht]
    · rw [hf]
      rfl

/-! ## No call waits for nothing -/

variable {g : DWORD} {es : List Event}

theorem runs_inv (h : Runs step Fits (new g) es w) : w.Inv :=
  h.inv Inv (inv_new g) fun _ e _ hi hfit hs => inv_step hi (fun _ => hfit) e hs

/-- Any run of the threads is a run of the pool. -/
theorem runs_pool {C : Waiting → Event → Prop} (h : Runs step C w es w') :
    ∃ os, Runs Pool.step Any w.pool os w'.pool := by
  have hstep : ∀ (v : Waiting) (p : Pool) (e : Event) (v' : Waiting), v.pool = p → C v e → v.step e = some v' →
      v'.pool = p ∨ ∃ o q, Any p o ∧ p.step o = some q ∧ v'.pool = q := by
    rintro v p e v' rfl - hs
    rcases step_pool hs with hp | ⟨o, ho⟩
    · exact .inl hp
    · exact .inr ⟨o, _, trivial, ho, rfl⟩
  obtain ⟨os, p, hos, rfl⟩ := h.simulate_run (fun v p => v.pool = p) rfl hstep
  exact ⟨os, hos⟩

/-- As soon as a call need not wait there is a token for every call that waits. -/
theorem Inv.covered (h : w.Inv) (hdry : ¬Dry w.pool) : w.nWaiting.length ≤ w.room.tokens := by
  have h0 : w.room.newcomers = 0 := by
    by_contra h0
    exact hdry (h.dry h0)
  rw [WaitRoom.covered h0, h.visitors]
  exact Nat.le_add_right _ _

theorem wake_isSome {c : Caller} (hc : c ∈ w.nWaiting) (h : 0 < w.room.tokens) : (w.wake c).isSome := by
  rw [wake, if_pos hc, WaitRoom.take_isSome h]
  rfl

/-- In every run that counts right, `m_lWaiting` and the semaphore together are
the waiting calls and the calls that timed out. So no wake-up is lost: a call can
be left without a token only while the allocator is committed and all its
samples are out. -/
theorem no_lost_wakeup (h : Runs step Fits (new g) es w) :
    w.room.newcomers + w.room.tokens = w.nWaiting.length + w.timeouts ∧
    ∀ c ∈ w.nWaiting, (w.step (.wake c)).isSome ∨
      (w.pool.alloc.m_bCommitted = true ∧ w.pool.held.length = w.pool.alloc.m_lAllocated) := by
  have hi := runs_inv h
  refine ⟨hi.visitors, ?_⟩
  intro c hc
  by_cases hdry : Dry w.pool
  · right
    obtain ⟨os, hos⟩ := runs_pool h
    have hcount := (Pool.Reachable.inv ⟨g, os, hos⟩).count
    rw [hdry.2] at hcount
    exact ⟨hdry.1, by simpa using hcount⟩
  · left
    have hpos := List.length_pos_of_mem hc
    have hle := hi.covered hdry
    exact wake_isSome hc (by omega)

/-- One thread waits for the only sample, another one asks without waiting, and
the sample comes back. -/
def oneSample : List Event :=
  [.SetProperties ⟨1, 16, 1, 0⟩, .Commit someMemory, .GetBuffer ⟨0, 0⟩, .GetBuffer ⟨1, 0⟩,
    .GetBuffer ⟨2, AM_GBF_NOWAIT⟩, .Release 0]

def afterOneSample : Waiting := (evalRun step Fits oneSample (new 0x10000)).get (by decide)

theorem no_lost_wakeup_oneSample :
    afterOneSample.room.newcomers + afterOneSample.room.tokens =
      afterOneSample.nWaiting.length + afterOneSample.timeouts ∧
    afterOneSample.nWaiting = [⟨1, 0⟩] ∧ afterOneSample.timeouts = 1 ∧
    (afterOneSample.step (.wake ⟨1, 0⟩)).isSome := by
  have hrun : Runs step Fits (new 0x10000) oneSample afterOneSample := .of_isSome _
  obtain ⟨hcount, hwake⟩ := no_lost_wakeup hrun
  refine ⟨hcount, by decide, by decide, ?_⟩
  rcases hwake ⟨1, 0⟩ (by decide) with hgo | ⟨-, hout⟩
  · exact hgo
  · exact absurd hout (by decide)

/-! ## A decommit lets every call go -/

/-- A step of a call that had to wait. -/
def Event.ofWaiter : Event → Bool
  | .wake _ | .retry _ => true
  | _ => false

def Event.isCommit : Event → Bool
  | .Commit _ => true
  | _ => false

/-- The steps until the calls that had to wait are back, when none waits again. -/
def pending (w : Waiting) : Nat := 2 * w.nWaiting.length + w.woken.length

/-- The call has not come back, or it has with this answer. -/
def ComesBack (w : Waiting) (hr : HRESULT) (c : Caller) : Prop :=
  c ∈ w.nWaiting ∨ c ∈ w.woken ∨ (c, hr) ∈ w.returned

/-- What a step does while the allocator is not committed: it stays so, and a
step of a call that had to wait brings it nearer to its return. -/
structure Nearer (w w' : Waiting) (e : Event) : Prop where
  decommitted : w'.pool.alloc.m_bCommitted = false
  pending : w'.pending + (if e.ofWaiter then 1 else 0) = w.pending
  back : ∀ c, w.ComesBack VFW_E_NOT_COMMITTED c → w'.ComesBack VFW_E_NOT_COMMITTED c

theorem mem_erase_or {c d : Caller} {l : List Caller} (h : c ∈ l) : c = d ∨ c ∈ l.erase d := by
  by_cases hcd : c = d
  · exact .inl hcd
  · exact .inr ((List.mem_erase_of_ne hcd).2 h)

theorem nearer_step {e : Event} (hd : w.pool.alloc.m_bCommitted = false) (he : e.isCommit = false)
    (hs : w.step e = some w') : Nearer w w' e := by
  have hget : ∀ (v : Waiting) (c : Caller), v.pool.alloc.m_bCommitted = false →
      v.GetBuffer c = { v with returned := (c, VFW_E_NOT_COMMITTED) :: v.returned } := by
    intro v c hv
    simp [GetBuffer, hv]
  cases e with
  | Commit env => cases he
  | SetProperties req =>
    cases hs
    refine ⟨?_, rfl, fun _ h => h⟩
    rcases hres : w.pool.alloc.SetProperties req with ⟨a', hr, act⟩
    cases hok : hr.SUCCEEDED with
    | false => rw [CMemAllocator.SetProperties_failed hres hok]; exact hd
    | true => rw [(CMemAllocator.SetProperties_ok hres hok).2.2.2.2]; exact hd
  | Decommit =>
    cases hs
    unfold Decommit CMemAllocator.Decommit
    split
    · exact ⟨hd, rfl, fun _ h => h⟩
    · exact ⟨rfl, rfl, fun _ h => h⟩
  | GetBuffer c =>
    cases hs
    rw [hget w c hd]
    refine ⟨hd, rfl, ?_⟩
    rintro d (h | h | h)
    · exact .inl h
    · exact .inr (.inl h)
    · exact .inr (.inr (List.mem_cons_of_mem _ h))
  | wake c =>
    obtain ⟨hc, room, -, rfl⟩ := wake_eq hs
    refine ⟨hd, ?_, ?_⟩
    · have hlen := List.length_erase_of_mem hc
      have hpos := List.length_pos_of_mem hc
      simp only [Waiting.pending, Event.ofWaiter, List.length_cons, if_true]
      omega
    · rintro d (h | h | h)
      · rcases mem_erase_or (d := c) h with rfl | h
        · exact .inr (.inl List.mem_cons_self)
        · exact .inl h
      · exact .inr (.inl (List.mem_cons_of_mem _ h))
      · exact .inr (.inr h)
  | retry c =>
    obtain ⟨hc, rfl⟩ := retry_eq hs
    rw [hget { w with woken := w.woken.erase c } c hd]
    refine ⟨hd, ?_, ?_⟩
    · have hlen := List.length_erase_of_mem hc
      have hpos := List.length_pos_of_mem hc
      simp only [Waiting.pending, Event.ofWaiter, if_true]
      omega
    · rintro d (h | h | h)
      · exact .inl h
      · rcases mem_erase_or (d := c) h with rfl | h
        · exact .inr (.inr List.mem_cons_self)
        · exact .inr (.inl h)
      · exact .inr (.inr (List.mem_cons_of_mem _ h))
  | use i u =>
    obtain ⟨s, -, hs⟩ := Option.bind_eq_some_iff.1 hs
    cases hs
    exact ⟨hd, rfl, fun _ h => h⟩
  | Release i =>
    obtain ⟨s, -, ⟨t, -, rfl⟩ | ⟨f, -, rfl⟩⟩ := Release_eq hs
    · exact ⟨hd, rfl, fun _ h => h⟩
    · refine ⟨?_, rfl, fun _ h => h⟩
      simp only [NotifySample, CMemAllocator.ReleaseBuffer]
      split <;> exact hd

/-- Every call that waits when the allocator is decommitted, and every one woken
before, comes back with `VFW_E_NOT_COMMITTED` as long as nobody commits again: it
can always go on, and the waiting calls need no more than two steps each. -/
theorem decommitted_returns {es' : List Event} (h : Runs step Fits (new g) es w)
    (hd : w.pool.alloc.m_bCommitted = false) (h' : Runs step (fun _ e => e.isCommit = false) w es' w') :
    es'.countP Event.ofWaiter + w'.pending = 2 * w.nWaiting.length + w.woken.length ∧
    (∀ c ∈ w'.nWaiting, (w'.step (.wake c)).isSome) ∧ (∀ c ∈ w'.woken, (w'.step (.retry c)).isSome) ∧
    ∀ c, c ∈ w.nWaiting ∨ c ∈ w.woken → w'.ComesBack VFW_E_NOT_COMMITTED c := by
  obtain ⟨hi, hd', hp, hb⟩ : w'.Inv ∧ w'.pool.alloc.m_bCommitted = false ∧
      es'.countP Event.ofWaiter + w'.pending = w.pending ∧
      ∀ c, w.ComesBack VFW_E_NOT_COMMITTED c → w'.ComesBack VFW_E_NOT_COMMITTED c := by
    refine h'.inv_events (fun es' v => v.Inv ∧ v.pool.alloc.m_bCommitted = false ∧
      es'.countP Event.ofWaiter + v.pending = w.pending ∧
      ∀ c, w.ComesBack VFW_E_NOT_COMMITTED c → v.ComesBack VFW_E_NOT_COMMITTED c)
      ⟨runs_inv h, hd, by simp, fun _ h => h⟩ ?_
    rintro es' t e u ⟨hi, hd, hp, hb⟩ he hs
    have hn := nearer_step hd he hs
    -- No call counts itself, so the counts need no bound.
    refine ⟨inv_step hi (fun hdry => absurd hdry (not_dry hd)) e hs, hn.decommitted, ?_, fun c hc => hn.back c (hb c hc)⟩
    have := hn.pending
    rw [List.countP_append, List.countP_singleton]
    omega
  have hcov := hi.covered (not_dry hd')
  refine ⟨hp, ?_, ?_, ?_⟩
  · intro c hc
    have hpos := List.length_pos_of_mem hc
    exact wake_isSome hc (by omega)
  · intro c hc
    simp [step, retry, hc]
  · rintro c (hc | hc)
    · exact hb c (.inl hc)
    · exact hb c (.inr (.inl hc))

/-- The allocator is decommitted before the sample of `oneSample` is back. -/
def decommitted : Waiting :=
  (evalRun step Fits (oneSample.take 5 ++ [.Decommit]) (new 0x10000)).get (by decide)

theorem decommitted_returns_oneSample :
    ∃ w' : Waiting, Runs step (fun _ e => e.isCommit = false) decommitted [.wake ⟨1, 0⟩, .retry ⟨1, 0⟩] w' ∧
      w'.pending = 0 ∧ w'.ComesBack VFW_E_NOT_COMMITTED ⟨1, 0⟩ := by
  have hrun : Runs step Fits (new 0x10000) _ decommitted := .of_isSome _
  refine ⟨(evalRun step (fun _ e => e.isCommit = false) [.wake ⟨1, 0⟩, .retry ⟨1, 0⟩] decommitted).get (by decide),
    .of_isSome _, by decide, ?_⟩
  exact (decommitted_returns hrun (by decide) (.of_isSome _)).2.2.2 _ (.inl (by decide))

end Waiting

end FilterSln
