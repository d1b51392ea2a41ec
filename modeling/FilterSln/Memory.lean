import FilterSln.Types
import FilterSln.Lib.Blocks
/-!
# Copies between memory blocks

What a list of copy calls leaves in a block, and when it stays inside the two
blocks it works on.
-/

namespace FilterSln

open Lib

/-- The target after the copies; `none` when one of them leaves a buffer. -/
def Block.copyFrom (dst src : Block) (calls : List CopyCall) : Option Block :=
  match h : runCopies src.bytes dst.bytes calls with
  | none => none
  | some bytes => some (dst.write bytes (runCopies_length h))

theorem Block.copyFrom_eq_some {dst src out : Block} {calls : List CopyCall}
    (h : dst.copyFrom src calls = some out) :
    runCopies src.bytes dst.bytes calls = some out.bytes ∧ out.addr = dst.addr ∧ out.size = dst.size := by
  unfold copyFrom at h
  split at h
  · cases h
  · rename_i bytes hr
    cases h
    exact ⟨hr, rfl, write_size _ _ _⟩

theorem Block.copyFrom_of_run {dst src : Block} {calls : List CopyCall} {bytes : List BYTE}
    (h : runCopies src.bytes dst.bytes calls = some bytes) :
    ∃ out, dst.copyFrom src calls = some out ∧ out.bytes = bytes := by
  unfold copyFrom
  split
  · rename_i hn
    rw [hn] at h
    cases h
  · rename_i b hr
    rw [hr] at h
    cases h
    exact ⟨_, rfl, rfl⟩

/-- The calls read and write only offsets inside buffers of these sizes. -/
def StayInside (calls : List CopyCall) (srcSize destSize : LONG) : Prop :=
  ∀ c ∈ calls, (∀ k, c.Reads k → 0 ≤ k ∧ k < srcSize.toInt) ∧ (∀ k, c.Writes k → 0 ≤ k ∧ k < destSize.toInt)

theorem stayInside_iff {calls : List CopyCall} {src dst : Block} :
    StayInside calls src.size dst.size ↔ ∀ c ∈ calls, c.InBounds src.bytes.length dst.bytes.length := by
  simp only [StayInside, Block.size_toInt, CopyCall.inBounds_iff]

/-- Copies have an effect exactly when they stay inside. -/
theorem Block.copyFrom_isSome {dst src : Block} {calls : List CopyCall} :
    (dst.copyFrom src calls).isSome = true ↔ StayInside calls src.size dst.size := by
  rw [stayInside_iff, ← runCopies_isSome]
  unfold copyFrom
  split
  · rename_i hn
    simp [hn]
  · rename_i hs
    simp [hs]

end FilterSln
