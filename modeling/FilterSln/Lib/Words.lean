import Mathlib.Data.BitVec
/-!
# Machine arithmetic

`Int32`, `Int64` and `BitVec` wrap around like the machine's integers. The lemmas
say when an operation is exact, and what clearing the low bits of a word does.
-/

namespace Lib.Word

theorem bmod_exact {x : Int} (h1 : -2 ^ 31 ≤ x) (h2 : x < 2 ^ 31) : x.bmod (2 ^ 32) = x :=
  Int.bmod_eq_of_le (by simpa using h1) (by simpa using h2)

theorem sub_exact {a b : Int32} (h1 : -2 ^ 31 ≤ a.toInt - b.toInt) (h2 : a.toInt - b.toInt < 2 ^ 31) :
    (a - b).toInt = a.toInt - b.toInt := by
  rw [Int32.toInt_sub, bmod_exact h1 h2]

theorem mul_exact {a b : Int32} (h1 : -2 ^ 31 ≤ a.toInt * b.toInt) (h2 : a.toInt * b.toInt < 2 ^ 31) :
    (a * b).toInt = a.toInt * b.toInt := by
  rw [Int32.toInt_mul, bmod_exact h1 h2]

theorem add_exact64 {a b : Int64} (h1 : -2 ^ 63 ≤ a.toInt + b.toInt) (h2 : a.toInt + b.toInt < 2 ^ 63) :
    (a + b).toInt = a.toInt + b.toInt := by
  rw [Int64.toInt_add]
  exact Int.bmod_eq_of_le (by simpa using h1) (by simpa using h2)

theorem sub_exact64 {a b : Int64} (h1 : -2 ^ 63 ≤ a.toInt - b.toInt) (h2 : a.toInt - b.toInt < 2 ^ 63) :
    (a - b).toInt = a.toInt - b.toInt := by
  rw [Int64.toInt_sub]
  exact Int.bmod_eq_of_le (by simpa using h1) (by simpa using h2)

theorem mul_exact64 {a b : Int64} (h1 : -2 ^ 63 ≤ a.toInt * b.toInt) (h2 : a.toInt * b.toInt < 2 ^ 63) :
    (a * b).toInt = a.toInt * b.toInt := by
  rw [Int64.toInt_mul]
  exact Int.bmod_eq_of_le (by simpa using h1) (by simpa using h2)

/-- A nonnegative machine integer read as an unsigned word. -/
theorem toNat_toBitVec {a : Int32} (h : 0 ≤ a.toInt) : (a.toBitVec.toNat : Int) = a.toInt := by
  have hd : a.toInt = a.toBitVec.toInt := rfl
  rw [hd, BitVec.toInt_eq_toNat_cond] at h ⊢
  have := a.toBitVec.isLt
  split <;> split at h <;> omega

/-- Clearing the low `k` bits of a word rounds it down to a multiple of `2 ^ k`. -/
theorem and_not_low {w : Nat} (x : BitVec w) (k : Nat) :
    (x &&& ~~~(BitVec.allOnes w >>> (w - k))).toNat = x.toNat / 2 ^ k * 2 ^ k := by
  have h : x &&& ~~~(BitVec.allOnes w >>> (w - k)) = (x >>> k) <<< k := by
    apply BitVec.eq_of_getLsbD_eq
    intro i hi
    by_cases hk : i < k
    · simp only [BitVec.getLsbD_and, BitVec.getLsbD_not, BitVec.getLsbD_ushiftRight,
        BitVec.getLsbD_allOnes, BitVec.getLsbD_shiftLeft]
      simp [hk, show w - k + i < w by omega]
    · simp only [BitVec.getLsbD_and, BitVec.getLsbD_not, BitVec.getLsbD_ushiftRight,
        BitVec.getLsbD_allOnes, BitVec.getLsbD_shiftLeft]
      simp [hi, hk, show k + (i - k) = i by omega, show ¬ w - k + i < w by omega]
  rw [h, BitVec.toNat_shiftLeft, BitVec.toNat_ushiftRight, Nat.shiftRight_eq_div_pow, Nat.shiftLeft_eq]
  apply Nat.mod_eq_of_lt
  have := Nat.div_mul_le_self x.toNat (2 ^ k)
  have := x.isLt
  omega

/-- A power of two less one is a mask of its low bits. -/
theorem toNat_mask {l : Int32} {k : Nat} (hl : l.toInt = (2 ^ k : Nat)) : (l - 1).toBitVec.toNat = 2 ^ k - 1 := by
  have hlt := l.toInt_lt
  have hpos : 0 < 2 ^ k := Nat.two_pow_pos k
  have hone : (1 : Int32).toInt = 1 := rfl
  have hsub : (l - 1).toInt = l.toInt - 1 := by
    rw [Int32.toInt_sub, hone, Int.bmod_eq_of_le (by omega) (by omega)]
  have h := toNat_toBitVec (a := l - 1) (by omega)
  omega

theorem toNat_toBitVec64 {a : Int64} (h : 0 ≤ a.toInt) : (a.toBitVec.toNat : Int) = a.toInt := by
  have hd : a.toInt = a.toBitVec.toInt := rfl
  rw [hd, BitVec.toInt_eq_toNat_cond] at h ⊢
  have := a.toBitVec.isLt
  split <;> split at h <;> omega

/-- Rounding down to a multiple of a power of two. -/
theorem and_not_mask {x : Int64} {l : Int32} {k : Nat} (hl : l.toInt = (2 ^ k : Nat)) (hx : 0 ≤ x.toInt) :
    (x &&& (~~~(l - 1)).toInt64).toInt = x.toInt / (2 ^ k : Nat) * (2 ^ k : Nat) := by
  have hk : k < 31 := by
    have hlt := l.toInt_lt
    rw [hl] at hlt
    exact (Nat.pow_lt_pow_iff_right (a := 2) (by omega)).1 (by omega)
  have hmask := toNat_mask hl
  have hword : (~~~(l - 1)).toInt64.toBitVec = ~~~(BitVec.allOnes 64 >>> (64 - k)) := by
    have hmsb : (l - 1).toBitVec.msb = false := by
      rw [BitVec.msb_eq_decide, hmask]
      have := Nat.pow_le_pow_right (n := 2) (by omega) (show k ≤ 30 by omega)
      simp
      omega
    rw [Int32.toBitVec_toInt64, Int32.toBitVec_not, BitVec.signExtend_not (by omega),
      BitVec.signExtend_eq_setWidth_of_msb_false hmsb]
    congr 1
    apply BitVec.eq_of_toNat_eq
    rw [BitVec.toNat_setWidth, hmask, BitVec.toNat_ushiftRight, BitVec.toNat_allOnes, Nat.shiftRight_eq_div_pow]
    have hsplit : 2 ^ 64 = 2 ^ k * 2 ^ (64 - k) := by
      rw [← Nat.pow_add, show k + (64 - k) = 64 by omega]
    have hpos := Nat.two_pow_pos (64 - k)
    have hle := Nat.pow_le_pow_right (n := 2) (by omega) (show k ≤ 30 by omega)
    rw [Nat.mod_eq_of_lt (by omega), hsplit]
    refine (Nat.div_eq_of_lt_le ?_ ?_).symm
    · rw [Nat.sub_mul, Nat.one_mul]
      omega
    · rw [Nat.sub_add_cancel (Nat.two_pow_pos k)]
      have := Nat.two_pow_pos 64
      omega
  have hnat := and_not_low x.toBitVec k
  rw [← hword, ← Int64.toBitVec_and] at hnat
  have hx' := toNat_toBitVec64 hx
  have hle : x.toBitVec.toNat / 2 ^ k * 2 ^ k ≤ x.toBitVec.toNat := Nat.div_mul_le_self _ _
  have hlt := x.toInt_lt
  have hres : 0 ≤ (x &&& (~~~(l - 1)).toInt64).toInt := by
    have hd : (x &&& (~~~(l - 1)).toInt64).toInt = (x &&& (~~~(l - 1)).toInt64).toBitVec.toInt := rfl
    rw [hd, BitVec.toInt_eq_toNat_cond, if_pos (by omega)]
    exact Int.natCast_nonneg _
  rw [← toNat_toBitVec64 hres, hnat, ← hx']
  push_cast
  rfl
end Lib.Word
