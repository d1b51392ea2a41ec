import Mathlib.Data.Nat.Basic
import Mathlib.Tactic.GCongr
import Mathlib.Tactic.Positivity
import Mathlib.Tactic.Ring
/-!
# Division bit by bit

Shift and subtract: the dividend is taken from the top, one bit at a time, into
a remainder, which loses the divisor when it can. `Dividing` says what has been
divided so far. `div_digits` divides a number of two digits by a small divisor.
-/

namespace Lib

/-- Of the dividend `D` the last `n` bits are to come. They are the top bits of
the word `lo`, which has been shifted `i` times; what came before them is divided
into `q` and `r`. -/
def Dividing (c D n i r q lo : Nat) : Prop :=
  r < c ∧ ∃ rest < 2 ^ n, lo = rest * 2 ^ i ∧ D = (q * c + r) * 2 ^ n + rest

namespace Dividing

variable {c D n i r q lo : Nat}

theorem start {hi : Nat} (hlo : lo < 2 ^ n) (hhi : hi < c) : Dividing c (hi * 2 ^ n + lo) n 0 hi 0 lo :=
  ⟨hhi, lo, hlo, by simp, by simp⟩

theorem remainder_lt (h : Dividing c D n i r q lo) : r < c := h.1

/-- The quotient has no more bits than have been taken. -/
theorem quotient_lt (h : Dividing c D n i r q lo) (hD : D < c * 2 ^ (n + i)) : q < 2 ^ i := by
  obtain ⟨-, rest, -, -, rfl⟩ := h
  by_contra hq
  have hle : c * 2 ^ (n + i) ≤ (q * c + r) * 2 ^ n := by
    calc c * 2 ^ (n + i) = 2 ^ i * c * 2 ^ n := by ring
      _ ≤ q * c * 2 ^ n := by gcongr; omega
      _ ≤ (q * c + r) * 2 ^ n := by gcongr; omega
  omega

theorem step (h : Dividing c D (n + 1) i r q lo) :
    Dividing c D n (i + 1)
      (if c ≤ 2 * r + lo / 2 ^ (n + i) then 2 * r + lo / 2 ^ (n + i) - c else 2 * r + lo / 2 ^ (n + i))
      (if c ≤ 2 * r + lo / 2 ^ (n + i) then 2 * q + 1 else 2 * q) (2 * lo % 2 ^ (n + 1 + i)) := by
  obtain ⟨hr, rest, hrest, rfl, rfl⟩ := h
  have hbit : rest * 2 ^ i / 2 ^ (n + i) = rest / 2 ^ n := by
    rw [pow_add, Nat.mul_div_mul_right _ _ (by positivity)]
  have hbit_le : rest / 2 ^ n ≤ 1 := by
    have : rest / 2 ^ n < 2 := Nat.div_lt_of_lt_mul (by rwa [pow_succ] at hrest)
    omega
  have hlo : 2 * (rest * 2 ^ i) % 2 ^ (n + 1 + i) = rest % 2 ^ n * 2 ^ (i + 1) := by
    rw [show 2 * (rest * 2 ^ i) = rest * 2 ^ (i + 1) by ring, show n + 1 + i = n + (i + 1) by omega,
      pow_add 2 n (i + 1), Nat.mul_mod_mul_right]
  have hsplit : rest = rest / 2 ^ n * 2 ^ n + rest % 2 ^ n := (Nat.div_add_mod' rest (2 ^ n)).symm
  rw [hbit, hlo]
  generalize hb : rest / 2 ^ n = bit at hbit_le hsplit ⊢
  have hD : (q * c + r) * 2 ^ (n + 1) + rest = (2 * (q * c + r) + bit) * 2 ^ n + rest % 2 ^ n := by
    calc (q * c + r) * 2 ^ (n + 1) + rest = (q * c + r) * 2 ^ (n + 1) + (bit * 2 ^ n + rest % 2 ^ n) := by
          rw [← hsplit]
      _ = (2 * (q * c + r) + bit) * 2 ^ n + rest % 2 ^ n := by ring
  by_cases hc : c ≤ 2 * r + bit
  · rw [if_pos hc, if_pos hc]
    refine ⟨by omega, rest % 2 ^ n, Nat.mod_lt _ (by positivity), rfl, ?_⟩
    rw [hD]
    congr 2
    have h1 : (2 * q + 1) * c = 2 * (q * c) + c := by ring
    omega
  · rw [if_neg hc, if_neg hc]
    refine ⟨by omega, rest % 2 ^ n, Nat.mod_lt _ (by positivity), rfl, ?_⟩
    rw [hD]
    congr 2
    have h1 : 2 * q * c = 2 * (q * c) := by ring
    omega

theorem finish (h : Dividing c D 0 i r q lo) : q = D / c := by
  obtain ⟨hr, rest, hrest, -, rfl⟩ := h
  have h0 : rest = 0 := by simpa using hrest
  rw [h0, pow_zero, mul_one, add_zero, mul_comm, Nat.mul_add_div (by omega), Nat.div_eq_of_lt hr, add_zero]

end Dividing

/-- Two digits: the first is divided, and its remainder goes in front of the
second. -/
theorem div_digits {c : Nat} (B h l : Nat) (hc : 0 < c) : (h * B + l) / c = h / c * B + (h % c * B + l) / c := by
  have hsplit : h * B + l = c * (h / c * B) + (h % c * B + l) := by
    calc h * B + l = (c * (h / c) + h % c) * B + l := by rw [Nat.div_add_mod]
      _ = c * (h / c * B) + (h % c * B + l) := by ring
  rw [hsplit, Nat.mul_add_div hc]

end Lib
