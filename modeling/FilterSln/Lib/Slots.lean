import Mathlib.Data.List.Perm.Basic
import Mathlib.Data.List.Range
import Mathlib.Data.Nat.Basic
import Mathlib.Tactic.Common
/-!
# Slots of one size, one after another

A block that is cut into `n` slots of `s` bytes: whatever order the slots are in
and whoever has them, no two overlap and none leaves the block.
-/

namespace Lib

/-- The starts of the slots from `b` on, in some order. -/
def Slots (b s n : Nat) (l : List Nat) : Prop := l.Perm ((List.range n).map fun i => b + i * s)

variable {b s n a c d : Nat} {l l' : List Nat}

theorem slot_le {i j : Nat} (h : i < j) : i * s + s ≤ j * s := by
  have hle : (i + 1) * s ≤ j * s := Nat.mul_le_mul_right s h
  rwa [Nat.add_mul, Nat.one_mul] at hle

theorem Slots.perm (h : Slots b s n l) (hp : l'.Perm l) : Slots b s n l' := List.Perm.trans hp h

theorem Slots.mem (h : Slots b s n l) (ha : a ∈ l) : ∃ i < n, a = b + i * s := by
  have hm := (List.Perm.mem_iff h).1 ha
  obtain ⟨i, hi, rfl⟩ := List.mem_map.1 hm
  exact ⟨i, List.mem_range.1 hi, rfl⟩

theorem Slots.within (h : Slots b s n l) (ha : a ∈ l) : b ≤ a ∧ a + s ≤ b + n * s := by
  obtain ⟨i, hi, rfl⟩ := h.mem ha
  have hle := slot_le (s := s) hi
  omega

/-- Slots that start at `c` behind multiples of `d`. -/
theorem Slots.dvd (h : Slots (b + c) s n l) (hb : d ∣ b) (hs : d ∣ s) (ha : a ∈ l) : c ≤ a ∧ d ∣ a - c := by
  obtain ⟨i, -, rfl⟩ := h.mem ha
  refine ⟨by omega, ?_⟩
  rw [show b + c + i * s - c = b + i * s by omega]
  exact Nat.dvd_add hb (Nat.dvd_mul_left_of_dvd hs i)

theorem Slots.apart (h : Slots b s n l) : l.Pairwise fun a c => a + s ≤ c ∨ c + s ≤ a := by
  have hsymm : ∀ {a c : Nat}, (a + s ≤ c ∨ c + s ≤ a) → (c + s ≤ a ∨ a + s ≤ c) := Or.symm
  rw [List.Perm.pairwise_iff hsymm h, List.pairwise_map]
  refine List.Pairwise.imp ?_ (List.pairwise_lt_range (n := n))
  intro i j hij
  left
  have hle := slot_le (s := s) hij
  omega

end Lib
