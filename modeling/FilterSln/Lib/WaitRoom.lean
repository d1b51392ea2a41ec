import Mathlib.Algebra.Group.Nat.Defs
import Mathlib.Tactic.Common
/-!
# A semaphore with lazy signals

Threads that find nothing to take count themselves under a lock and then wait on
a semaphore; whoever puts something there releases the semaphore by that count
and starts it again at zero, so that nothing is signalled while nobody waits.

`WaitRoom` is the pair of the two counts. A visitor is a thread that has counted
itself and has not taken its token. What carries the argument is that the two
counts together are the visitors (`visitors`): every operation says what it does
to their sum. Where the count of newcomers is zero, each visitor finds a token
(`covered`).
-/

namespace Lib

/-- `newcomers` counts in a machine word, and `tokens` is what the semaphore
holds. -/
structure WaitRoom where
  newcomers : Nat
  tokens : Nat
  deriving DecidableEq

namespace WaitRoom

/-- The most tokens the semaphore takes. -/
def limit : Nat := 0x7FFFFFFF

def empty : WaitRoom := ⟨0, 0⟩

/-- A thread counts itself. -/
def enter (r : WaitRoom) : WaitRoom := { r with newcomers := (r.newcomers + 1) % 2 ^ 32 }

/-- A token for each newcomer. The semaphore refuses to go over its limit. -/
def release (r : WaitRoom) : WaitRoom :=
  if r.newcomers ≠ 0 then
    ⟨0, if r.tokens + r.newcomers ≤ limit then r.tokens + r.newcomers else r.tokens⟩
  else r

/-- A wait on the semaphore returns. -/
def take (r : WaitRoom) : Option WaitRoom :=
  if 0 < r.tokens then some { r with tokens := r.tokens - 1 } else none

def visitors (r : WaitRoom) : Nat := r.newcomers + r.tokens

variable {r r' : WaitRoom}

@[simp] theorem visitors_empty : empty.visitors = 0 := rfl

theorem visitors_enter (h : r.visitors < limit) : r.enter.visitors = r.visitors + 1 := by
  have hlt : r.newcomers + 1 < 2 ^ 32 := by
    simp only [visitors, limit] at h
    omega
  simp only [visitors, enter, Nat.mod_eq_of_lt hlt]
  omega

theorem visitors_release (h : r.visitors ≤ limit) : r.release.visitors = r.visitors := by
  unfold release
  by_cases h0 : r.newcomers ≠ 0
  · have hle : r.tokens + r.newcomers ≤ limit := by
      simp only [visitors] at h
      omega
    rw [if_pos h0, if_pos hle]
    simp only [visitors]
    omega
  · rw [if_neg h0]

@[simp] theorem newcomers_release : r.release.newcomers = 0 := by
  unfold release
  by_cases h0 : r.newcomers = 0 <;> simp [h0]

theorem visitors_take (h : r.take = some r') : r.visitors = r'.visitors + 1 ∧ r'.newcomers = r.newcomers := by
  unfold take at h
  by_cases h0 : 0 < r.tokens
  · rw [if_pos h0] at h
    cases h
    refine ⟨?_, rfl⟩
    simp only [visitors]
    omega
  · rw [if_neg h0] at h
    cases h

theorem take_isSome (h : 0 < r.tokens) : r.take = some { r with tokens := r.tokens - 1 } := if_pos h

/-- With no newcomers there is a token for every visitor. -/
theorem covered (h : r.newcomers = 0) : r.tokens = r.visitors := by simp [visitors, h]

end WaitRoom

end Lib
