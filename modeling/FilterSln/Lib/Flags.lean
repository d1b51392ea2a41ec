import Mathlib.Data.BitVec
/-!
# Flag words

A word of `w` bits whose flags are named by a type `F`, each at a bit of its
own. `has` is the test `x & mask` of C; the simp lemmas push it through the
bitwise operators, so that a statement about flags becomes one about booleans.
-/

namespace Lib

/-- Names for bits of a `w`-bit word. -/
class FlagNames (F : Type) (w : outParam Nat) where
  bit : F → Nat
  bit_lt : ∀ a, bit a < w
  bit_inj : ∀ a b, bit a = bit b → a = b

namespace Flags

variable {F : Type} {w : Nat} [FlagNames F w]

/-- The word with the one bit of `a`. -/
def mask (a : F) : BitVec w := BitVec.twoPow w (FlagNames.bit a)

/-- `x & mask a`, as a condition. -/
def has (x : BitVec w) (a : F) : Bool := x &&& mask a != 0#w

theorem has_eq_bit (x : BitVec w) (a : F) : has x a = x.getLsbD (FlagNames.bit a) := by
  have hne : BitVec.twoPow w (FlagNames.bit a) ≠ 0#w := by
    intro h
    have := congrArg (·.getLsbD (FlagNames.bit a)) h
    simp [FlagNames.bit_lt a] at this
  unfold has mask
  rw [BitVec.and_twoPow]
  cases x.getLsbD (FlagNames.bit a) <;> simp [hne]

@[simp] theorem has_or (x y : BitVec w) (a : F) : has (x ||| y) a = (has x a || has y a) := by
  simp [has_eq_bit]

@[simp] theorem has_and (x y : BitVec w) (a : F) : has (x &&& y) a = (has x a && has y a) := by
  simp [has_eq_bit]

@[simp] theorem has_not (x : BitVec w) (a : F) : has (~~~x) a = !has x a := by
  simp [has_eq_bit, FlagNames.bit_lt a]

@[simp] theorem has_zero (a : F) : has (0#w) a = false := by
  simp [has_eq_bit]

@[simp] theorem has_mask [DecidableEq F] (a b : F) : has (mask b : BitVec w) a = decide (a = b) := by
  have hiff : FlagNames.bit b = FlagNames.bit a ↔ a = b :=
    ⟨fun h => (FlagNames.bit_inj b a h).symm, fun h => h ▸ rfl⟩
  simp [has_eq_bit, mask, FlagNames.bit_lt b, hiff]

end Flags

end Lib
