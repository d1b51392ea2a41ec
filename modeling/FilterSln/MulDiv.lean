import FilterSln.Types
import FilterSln.Lib.Division
import FilterSln.Lib.Words
import Mathlib.Data.Int.Order.Basic
/-!
# Multiplying and dividing times

`llMulDiv` and `Int64x32Div32` of `arithutil.cpp` compute `(a * b + d) / c` with
a product of two words. `llMulDiv` divides in three ways: by the compiler's
division, in two steps, or bit by bit. `Int64x32Div32` is the fast one for small
`b`, `c` and `d`.

The words are unsigned, the upper word of the product in two's complement after
the addition.
-/

namespace FilterSln

open Lib

abbrev DWORDLONG := BitVec 64

namespace ULARGE_INTEGER

def LowPart (x : DWORDLONG) : DWORD := x.setWidth 32

def HighPart (x : DWORDLONG) : DWORD := (x >>> 32).setWidth 32

/-- The number with these parts. -/
def ofParts (low high : DWORD) : DWORDLONG := BitVec.ofNat 64 (low.toNat + high.toNat * 2 ^ 32)

@[simp] theorem toNat_LowPart (x : DWORDLONG) : (LowPart x).toNat = x.toNat % 2 ^ 32 := by simp [LowPart]

@[simp] theorem toNat_HighPart (x : DWORDLONG) : (HighPart x).toNat = x.toNat / 2 ^ 32 := by
  have := x.isLt
  simp only [HighPart, BitVec.toNat_setWidth, BitVec.toNat_ushiftRight, Nat.shiftRight_eq_div_pow]
  omega

@[simp] theorem toNat_ofParts (low high : DWORD) : (ofParts low high).toNat = low.toNat + high.toNat * 2 ^ 32 := by
  have := low.isLt
  have := high.isLt
  simp only [ofParts, BitVec.toNat_ofNat]
  omega

end ULARGE_INTEGER

open ULARGE_INTEGER

def UInt32x32To64 (a b : DWORD) : DWORDLONG := a.setWidth 64 * b.setWidth 64

@[simp] theorem toNat_UInt32x32To64 (a b : DWORD) : (UInt32x32To64 a b).toNat = a.toNat * b.toNat := by
  have ha := a.isLt
  have hb := b.isLt
  have hab : a.toNat * b.toNat < 2 ^ 32 * 2 ^ 32 := Nat.mul_lt_mul'' ha hb
  simp only [UInt32x32To64, BitVec.toNat_mul, BitVec.toNat_setWidth]
  rw [Nat.mod_eq_of_lt (by omega : a.toNat < 2 ^ 64), Nat.mod_eq_of_lt (by omega : b.toNat < 2 ^ 64)]
  exact Nat.mod_eq_of_lt hab

/-- `(DWORDLONG)(a >= 0 ? a : -a)`. -/
def magnitude (a : LONGLONG) : DWORDLONG := (if 0 ≤ a then a else -a).toBitVec

/-- The long multiplication: the words `p[0]` and `p[1]`. -/
def multiply (ua ub : DWORDLONG) : DWORDLONG × DWORDLONG :=
  let p0 := UInt32x32To64 (LowPart ua) (LowPart ub)
  let x := UInt32x32To64 (LowPart ua) (HighPart ub) + UInt32x32To64 (HighPart ua) (LowPart ub) + (HighPart p0).setWidth 64
  (ofParts (LowPart p0) (LowPart x), UInt32x32To64 (HighPart ua) (HighPart ub) + (HighPart x).setWidth 64)

/-- `d`, or `-d`, in two words. -/
def extend (bSign : Bool) (d : LONGLONG) : DWORDLONG × DWORDLONG :=
  if bSign then ((-d).toBitVec, if 0 < d then -1#64 else 0#64) else (d.toBitVec, if d < 0 then -1#64 else 0#64)

/-- The extended addition. -/
def add (p ud : DWORDLONG × DWORDLONG) : DWORDLONG × DWORDLONG :=
  -- Add the low parts, and carry.
  let low := (LowPart ud.1).setWidth 64 + (LowPart p.1).setWidth 64
  let total := (HighPart low).setWidth 64
  let mid := total + ((HighPart ud.1).setWidth 64 + (HighPart p.1).setWidth 64)
  let total := (HighPart mid).setWidth 64
  (ofParts (LowPart low) (LowPart mid), p.2 + (ud.2 + total))

def negate (p : DWORDLONG × DWORDLONG) : DWORDLONG × DWORDLONG :=
  let p0 := ~~~p.1 + 1#64
  (p0, ~~~p.2 + if p0 = 0#64 then 1#64 else 0#64)

/-- Adding `d`: the magnitude of the sum, and whether it is negative. -/
def addSigned (p : DWORDLONG × DWORDLONG) (bSign : Bool) (d : LONGLONG) : (DWORDLONG × DWORDLONG) × Bool :=
  if d ≠ 0 then
    let p := add p (extend bSign d)
    if (HighPart p.2).toInt < 0 then (negate p, !bSign) else (p, bSign)
  else (p, bSign)

/-- The division by a `DWORD`. -/
def divideDword (p : DWORDLONG × DWORDLONG) (dwDivisor : DWORD) : DWORDLONG :=
  let uliDividend := ofParts (HighPart p.1) (LowPart p.2)
  let high : DWORD := (uliDividend / dwDivisor.setWidth 64).setWidth 32
  let p0 := ofParts (LowPart p.1) ((uliDividend % dwDivisor.setWidth 64).setWidth 32)
  p0 / dwDivisor.setWidth 64 + ofParts 0#32 high

/-- The long division, for the last `n` of its 64 rounds. -/
def divideLong (uc : DWORDLONG) : Nat → DWORDLONG × DWORDLONG → DWORDLONG → DWORDLONG
  | 0, _, ullResult => ullResult
  | n + 1, p, ullResult =>
    let ullResult := ullResult <<< 1
    let p1 := p.2 <<< 1
    let p1 := if HighPart p.1 &&& 0x80000000#32 ≠ 0#32 then ofParts (LowPart p1 + 1#32) (HighPart p1) else p1
    let p0 := p.1 <<< 1
    if uc ≤ p1 then divideLong uc n (p0, p1 - uc) (ullResult + 1#64) else divideLong uc n (p0, p1) ullResult

/-- `bSign ? -(LONGLONG)ull : (LONGLONG)ull`. -/
def signed (bSign : Bool) (ull : DWORDLONG) : LONGLONG := if bSign then -Int64.ofBitVec ull else Int64.ofBitVec ull

def saturated (bSign : Bool) : LONGLONG := if bSign then Int64.minValue else Int64.maxValue

def llMulDiv (a b c d : LONGLONG) : LONGLONG :=
  let uc := magnitude c
  let bSign := decide (a < 0) != decide (b < 0)
  let (p, bSign) := addSigned (multiply (magnitude a) (magnitude b)) bSign d
  let bSign := if c < 0 then !bSign else bSign
  if uc ≤ p.2 then saturated bSign
  else if p.2 = 0#64 then signed bSign (p.1 / uc)
  else if HighPart uc = 0#32 then signed bSign (divideDword p (LowPart uc))
  else signed bSign (divideLong uc 64 p 0#64)

/-! ## The fast one -/

def magnitude32 (b : LONG) : DWORD := (if 0 ≤ b then b else -b).toBitVec

/-- The words `p0` and `p1`. -/
def multiply32 (ua : DWORDLONG) (ub : DWORD) : DWORDLONG × DWORD :=
  let p0 := UInt32x32To64 (LowPart ua) ub
  if HighPart ua ≠ 0#32 then
    let x := UInt32x32To64 (HighPart ua) ub + (HighPart p0).setWidth 64
    (ofParts (LowPart p0) (LowPart x), HighPart x)
  else (p0, 0#32)

def extend32 (bSign : Bool) (d : LONG) : DWORDLONG × DWORD :=
  -- `d` becomes a `LONGLONG` before its sign is changed.
  if bSign then ((-d.toInt64).toBitVec, if 0 < d then -1#32 else 0#32)
  else (d.toInt64.toBitVec, if d < 0 then -1#32 else 0#32)

def add32 (p ud : DWORDLONG × DWORD) : DWORDLONG × DWORD :=
  let low := (LowPart ud.1).setWidth 64 + (LowPart p.1).setWidth 64
  let total := (HighPart low).setWidth 64
  let mid := total + ((HighPart ud.1).setWidth 64 + (HighPart p.1).setWidth 64)
  (ofParts (LowPart low) (LowPart mid), p.2 + (ud.2 + HighPart mid))

def negate32 (p : DWORDLONG × DWORD) : DWORDLONG × DWORD :=
  let p0 := ~~~p.1 + 1#64
  (p0, ~~~p.2 + if p0 = 0#64 then 1#32 else 0#32)

def addSigned32 (p : DWORDLONG × DWORD) (bSign : Bool) (d : LONG) : (DWORDLONG × DWORD) × Bool :=
  if d ≠ 0 then
    let p := add32 p (extend32 bSign d)
    if p.2.toInt < 0 then (negate32 p, !bSign) else (p, bSign)
  else (p, bSign)

/-- Quotient and remainder. -/
def EnlargedUnsignedDivide (Dividend : DWORDLONG) (Divisor : DWORD) : DWORD × DWORD :=
  ((Dividend / Divisor.setWidth 64).setWidth 32, (Dividend % Divisor.setWidth 64).setWidth 32)

def divide32 (p : DWORDLONG × DWORD) (dwDivisor : DWORD) : DWORDLONG :=
  let uliDividend := ofParts (HighPart p.1) p.2
  if dwDivisor.setWidth 64 ≤ uliDividend then
    let high := EnlargedUnsignedDivide uliDividend dwDivisor
    let p0 := ofParts (LowPart p.1) high.2
    ofParts (EnlargedUnsignedDivide p0 dwDivisor).1 high.1
  else ofParts (EnlargedUnsignedDivide p.1 dwDivisor).1 0#32

def Int64x32Div32 (a : LONGLONG) (b c d : LONG) : LONGLONG :=
  let uc := magnitude32 c
  let bSign := decide (a < 0) != decide (b < 0)
  let (p, bSign) := addSigned32 (multiply32 (magnitude a) (magnitude32 b)) bSign d
  let bSign := if c < 0 then !bSign else bSign
  if uc ≤ p.2 then saturated bSign else signed bSign (divide32 p uc)

/-! ## Words and numbers -/

/-- A number in two words. -/
def value (p : DWORDLONG × DWORDLONG) : Nat := p.1.toNat + p.2.toNat * 2 ^ 64

theorem toInt_eq (a : LONGLONG) :
    a.toInt = if a.toBitVec.toNat < 2 ^ 63 then (a.toBitVec.toNat : Int) else a.toBitVec.toNat - 2 ^ 64 := by
  have hd : a.toInt = a.toBitVec.toInt := rfl
  rw [hd, BitVec.toInt_eq_toNat_cond]
  split <;> split <;> omega

theorem toNat_neg (a : LONGLONG) : (-a).toBitVec.toNat = (2 ^ 64 - a.toBitVec.toNat) % 2 ^ 64 := by
  rw [Int64.toBitVec_neg, BitVec.toNat_neg]

/-- The magnitude is right for the least number too. -/
@[simp] theorem toNat_magnitude (a : LONGLONG) : (magnitude a).toNat = a.toInt.natAbs := by
  have hlt := a.toBitVec.isLt
  have he := toInt_eq a
  unfold magnitude
  by_cases h0 : 0 ≤ a
  · rw [if_pos h0]
    have h0' : 0 ≤ a.toInt := by simpa using Int64.le_iff_toInt_le.1 h0
    split at he <;> omega
  · rw [if_neg h0, toNat_neg]
    have h0' : a.toInt < 0 := by simpa using mt Int64.le_iff_toInt_le.2 h0
    split at he <;> omega

theorem natAbs_le (a : LONGLONG) : a.toInt.natAbs ≤ 2 ^ 63 := by
  have h1 := a.toInt_lt
  have h2 := a.le_toInt
  omega

/-- The parts of a word. -/
theorem halves (x : Nat) : ∃ x0 x1, x % 2 ^ 32 = x0 ∧ x / 2 ^ 32 = x1 ∧ x = x1 * 2 ^ 32 + x0 :=
  ⟨_, _, rfl, rfl, (Nat.div_add_mod' _ _).symm⟩

theorem value_multiply {ua ub : DWORDLONG} (ha : ua.toNat ≤ 2 ^ 63) (hb : ub.toNat ≤ 2 ^ 63) :
    value (multiply ua ub) = ua.toNat * ub.toNat := by
  have ha' := ua.isLt
  have hb' := ub.isLt
  obtain ⟨a0, a1, hal, hah, hae⟩ := halves ua.toNat
  obtain ⟨b0, b1, hbl, hbh, hbe⟩ := halves ub.toNat
  have h00 : a0 * b0 ≤ (2 ^ 32 - 1) * (2 ^ 32 - 1) := Nat.mul_le_mul (by omega) (by omega)
  have h01 : a0 * b1 ≤ (2 ^ 32 - 1) * 2 ^ 31 := Nat.mul_le_mul (by omega) (by omega)
  have h10 : a1 * b0 ≤ 2 ^ 31 * (2 ^ 32 - 1) := Nat.mul_le_mul (by omega) (by omega)
  have h11 : a1 * b1 ≤ 2 ^ 31 * 2 ^ 31 := Nat.mul_le_mul (by omega) (by omega)
  have hprod : ua.toNat * ub.toNat = a0 * b0 + (a0 * b1 + a1 * b0) * 2 ^ 32 + a1 * b1 * 2 ^ 64 := by
    rw [hae, hbe]
    ring
  rw [hprod]
  simp only [value, multiply, toNat_ofParts, toNat_LowPart, toNat_HighPart, toNat_UInt32x32To64, BitVec.toNat_add,
    BitVec.toNat_setWidth, hal, hah, hbl, hbh]
  omega

theorem value_add (p ud : DWORDLONG × DWORDLONG) : value (add p ud) = (value p + value ud) % 2 ^ 128 := by
  have h1 := p.1.isLt
  have h2 := p.2.isLt
  have h3 := ud.1.isLt
  have h4 := ud.2.isLt
  simp only [value, add, toNat_ofParts, toNat_LowPart, toNat_HighPart, BitVec.toNat_add, BitVec.toNat_setWidth]
  omega

theorem value_negate (p : DWORDLONG × DWORDLONG) : value (negate p) = (2 ^ 128 - value p) % 2 ^ 128 := by
  have h1 := p.1.isLt
  have h2 := p.2.isLt
  have h0 : (~~~p.1 + 1#64 = 0#64) ↔ p.1.toNat = 0 := by
    rw [← BitVec.toNat_inj]
    simp only [BitVec.toNat_add, BitVec.toNat_not, BitVec.toNat_ofNat]
    omega
  simp only [value, negate, BitVec.toNat_add, BitVec.toNat_not, BitVec.toNat_ofNat]
  by_cases hz : ~~~p.1 + 1#64 = 0#64
  · have := h0.1 hz
    rw [if_pos hz]
    simp only [BitVec.toNat_ofNat]
    omega
  · have := mt h0.2 hz
    rw [if_neg hz]
    simp only [BitVec.toNat_ofNat]
    omega

theorem lt_zero_iff (d : LONGLONG) : d < 0 ↔ d.toInt < 0 := by simpa using Int64.lt_iff_toInt_lt (x := d) (y := 0)

theorem zero_lt_iff (d : LONGLONG) : 0 < d ↔ 0 < d.toInt := by simpa using Int64.lt_iff_toInt_lt (x := 0) (y := d)

/-- Two's complement, also of the negative of the least number. -/
theorem value_extend (bSign : Bool) (d : LONGLONG) :
    (value (extend bSign d) : Int) = (if bSign then -d.toInt else d.toInt) % 2 ^ 128 := by
  have hlt := d.toBitVec.isLt
  have he := toInt_eq d
  have hn := toNat_neg d
  cases bSign with
  | true =>
    simp only [extend, value, if_true, hn, zero_lt_iff]
    by_cases hd : 0 < d.toInt
    · rw [if_pos hd]
      simp only [BitVec.toNat_neg, BitVec.toNat_ofNat]
      split at he <;> omega
    · rw [if_neg hd]
      simp only [BitVec.toNat_ofNat]
      split at he <;> omega
  | false =>
    simp only [extend, value, Bool.false_eq_true, if_false, lt_zero_iff]
    by_cases hd : d.toInt < 0
    · rw [if_pos hd]
      simp only [BitVec.toNat_neg, BitVec.toNat_ofNat]
      split at he <;> omega
    · rw [if_neg hd]
      simp only [BitVec.toNat_ofNat]
      split at he <;> omega

theorem high_neg_iff (p : DWORDLONG × DWORDLONG) : (HighPart p.2).toInt < 0 ↔ 2 ^ 127 ≤ value p := by
  have h1 := p.1.isLt
  have h2 := p.2.isLt
  rw [BitVec.toInt_neg_iff, toNat_HighPart]
  simp only [value]
  omega

/-- The sum, by its sign and magnitude. -/
theorem addSigned_spec {p : DWORDLONG × DWORDLONG} (bSign : Bool) (d : LONGLONG) (hp : value p ≤ 2 ^ 126) :
    (value (addSigned p bSign d).1 : Int) = |(value p : Int) + if bSign then -d.toInt else d.toInt| ∧
      (addSigned p bSign d).2 = (bSign != decide ((value p : Int) + (if bSign then -d.toInt else d.toInt) < 0)) := by
  have h1 := d.toInt_lt
  have h2 := d.le_toInt
  have hx := value_extend bSign d
  have ha := value_add p (extend bSign d)
  obtain ⟨x, hxe, hxl, hxu⟩ : ∃ x : Int, (if bSign then -d.toInt else d.toInt) = x ∧ -2 ^ 63 ≤ x ∧ x ≤ 2 ^ 63 := by
    refine ⟨_, rfl, ?_, ?_⟩ <;> split <;> omega
  rw [hxe] at hx ⊢
  unfold addSigned
  by_cases hd : d ≠ 0
  · rw [if_pos hd]
    have hneg : 2 ^ 127 ≤ value (add p (extend bSign d)) ↔ (value p : Int) + x < 0 := by omega
    simp only [high_neg_iff, hneg]
    by_cases hs : (value p : Int) + x < 0
    · rw [if_pos hs, abs_of_neg hs, value_negate]
      refine ⟨by omega, by simp [hs]⟩
    · rw [if_neg hs, abs_of_nonneg (by omega)]
      refine ⟨?_, by simp [hs]⟩
      dsimp only
      omega
  · rw [if_neg hd]
    have hd0 : d.toInt = 0 := by simp [not_not.1 hd]
    have hx0 : x = 0 := by
      rw [← hxe, hd0]
      simp
    have hnot : ¬((value p : Int) < 0) := by omega
    rw [hx0, add_zero, Nat.abs_cast]
    simp [hnot]

/-! ## The division -/

/-- Division by a `DWORD`, first of the upper part `D`. Each step has a `DWORD` as
its quotient. -/
theorem div_steps {c p0 p1 D : Nat} (hc : c < 2 ^ 32) (hp : p1 < c) (hD : D = p0 / 2 ^ 32 + p1 * 2 ^ 32)
    (h0 : p0 < 2 ^ 64) : D / c < 2 ^ 32 ∧ (D % c * 2 ^ 32 + p0 % 2 ^ 32) / c < 2 ^ 32 ∧
      (p0 + p1 * 2 ^ 64) / c = D / c * 2 ^ 32 + (D % c * 2 ^ 32 + p0 % 2 ^ 32) / c := by
  have hc0 : 0 < c := by omega
  have hdigit : ∀ h l, h < c → l < 2 ^ 32 → (h * 2 ^ 32 + l) / c < 2 ^ 32 := by
    intro h l hh hl
    rw [Nat.div_lt_iff_lt_mul hc0]
    calc h * 2 ^ 32 + l < (h + 1) * 2 ^ 32 := by omega
      _ ≤ c * 2 ^ 32 := by gcongr; omega
      _ = 2 ^ 32 * c := Nat.mul_comm _ _
  refine ⟨?_, hdigit _ _ (Nat.mod_lt _ hc0) (Nat.mod_lt _ (by omega)), ?_⟩
  · rw [hD, Nat.add_comm]
    exact hdigit _ _ hp (by omega)
  · have hsplit : p0 + p1 * 2 ^ 64 = D * 2 ^ 32 + p0 % 2 ^ 32 := by omega
    rw [hsplit, div_digits _ _ _ hc0]

/-- In two steps: the remainder of the first is smaller than the divisor. -/
theorem divideDword_spec {p : DWORDLONG × DWORDLONG} {c : DWORD} (hp : p.2.toNat < c.toNat) :
    (divideDword p c).toNat = value p / c.toNat := by
  have h1 := p.1.isLt
  have hc := c.isLt
  have hcw : (c.setWidth 64).toNat = c.toNat := BitVec.toNat_setWidth_of_le (by omega)
  obtain ⟨D, hD⟩ : ∃ D, D = p.1.toNat / 2 ^ 32 + p.2.toNat * 2 ^ 32 := ⟨_, rfl⟩
  obtain ⟨hq, hl, htotal⟩ := div_steps hc hp hD h1
  have hdividend : (ofParts (HighPart p.1) (LowPart p.2)).toNat = D := by
    rw [toNat_ofParts, toNat_HighPart, toNat_LowPart]
    omega
  have hr := Nat.mod_lt D (by omega : 0 < c.toNat)
  have hquot : ((ofParts (HighPart p.1) (LowPart p.2) / c.setWidth 64).setWidth 32).toNat = D / c.toNat := by
    rw [BitVec.toNat_setWidth, BitVec.toNat_udiv, hdividend, hcw]
    exact Nat.mod_eq_of_lt hq
  have hrem : ((ofParts (HighPart p.1) (LowPart p.2) % c.setWidth 64).setWidth 32).toNat = D % c.toNat := by
    rw [BitVec.toNat_setWidth, BitVec.toNat_umod, hdividend, hcw]
    exact Nat.mod_eq_of_lt (by omega)
  have hzero : (0#32 : DWORD).toNat = 0 := rfl
  rw [value, htotal, divideDword, BitVec.toNat_add, BitVec.toNat_udiv, toNat_ofParts, toNat_ofParts, hquot, hrem, hcw,
    toNat_LowPart, Nat.add_comm (p.1.toNat % 2 ^ 32), hzero, Nat.zero_add, Nat.add_comm]
  exact Nat.mod_eq_of_lt (by omega)

theorem top_bit (x : DWORDLONG) : HighPart x &&& 0x80000000#32 ≠ 0#32 ↔ x.toNat / 2 ^ 63 = 1 := by
  have hx := x.isLt
  have hpow : (0x80000000#32 : DWORD) = BitVec.twoPow 32 31 := by decide
  have hbit : (HighPart x).getLsbD 31 = decide (x.toNat / 2 ^ 63 = 1) := by
    rw [BitVec.getLsbD, Nat.testBit_eq_decide_div_mod_eq, toNat_HighPart, decide_eq_decide]
    omega
  rw [hpow, BitVec.and_twoPow, hbit]
  by_cases h : x.toNat / 2 ^ 63 = 1
  · simp only [h, decide_true, if_true, iff_true]
    decide
  · simp

theorem toNat_double (x : DWORDLONG) : (x <<< 1).toNat = 2 * x.toNat % 2 ^ 64 := by
  rw [BitVec.toNat_shiftLeft, Nat.shiftLeft_eq, pow_one, Nat.mul_comm]

/-- The next bit goes into the remainder. -/
theorem toNat_shiftIn {x : DWORDLONG} (lo : DWORDLONG) (hx : x.toNat < 2 ^ 63) :
    (if HighPart lo &&& 0x80000000#32 ≠ 0#32 then ofParts (LowPart (x <<< 1) + 1#32) (HighPart (x <<< 1))
      else x <<< 1).toNat = 2 * x.toNat + lo.toNat / 2 ^ 63 := by
  have hlo := lo.isLt
  have hd := toNat_double x
  by_cases hb : HighPart lo &&& 0x80000000#32 ≠ 0#32
  · have htop := (top_bit lo).1 hb
    have hone : (1#32 : DWORD).toNat = 1 := rfl
    rw [if_pos hb, toNat_ofParts, BitVec.toNat_add, hone, toNat_LowPart, toNat_HighPart, hd, htop]
    omega
  · have htop := mt (top_bit lo).2 hb
    rw [if_neg hb, hd]
    omega

theorem divideLong_spec {D i : Nat} {uc : DWORDLONG} (hc : uc.toNat ≤ 2 ^ 63) (n : Nat) {p : DWORDLONG × DWORDLONG}
    {q : DWORDLONG} (hn : n + i = 64) (hD : D < uc.toNat * 2 ^ 64)
    (h : Dividing uc.toNat D n i p.2.toNat q.toNat p.1.toNat) : (divideLong uc n p q).toNat = D / uc.toNat := by
  induction n generalizing i p q with
  | zero => exact h.finish
  | succ n ih =>
    have hr := h.remainder_lt
    have hstep := h.step
    have hq : q.toNat < 2 ^ i := h.quotient_lt (by rwa [hn])
    have hi : 2 ^ i ≤ 2 ^ 63 := Nat.pow_le_pow_right (by omega) (by omega)
    have hq' : q.toNat < 2 ^ 63 := hq.trans_le hi
    have hshift := toNat_shiftIn (x := p.2) p.1 (by omega)
    have hq2 : (q <<< 1).toNat = 2 * q.toNat := by
      rw [toNat_double]
      omega
    have hone : (1#64 : DWORDLONG).toNat = 1 := rfl
    rw [show n + i = 63 by omega, show n + 1 + i = 64 by omega, ← toNat_double p.1, ← hshift, ← hq2] at hstep
    unfold divideLong
    dsimp only
    generalize (if HighPart p.1 &&& 0x80000000#32 ≠ 0#32 then ofParts (LowPart (p.2 <<< 1) + 1#32) (HighPart (p.2 <<< 1))
      else p.2 <<< 1) = x at hstep ⊢
    by_cases hle : uc ≤ x
    · have hle' : uc.toNat ≤ x.toNat := hle
      rw [if_pos hle', if_pos hle'] at hstep
      rw [if_pos hle]
      refine ih (i := i + 1) (by omega) ?_
      have hsub : (x - uc).toNat = x.toNat - uc.toNat := BitVec.toNat_sub_of_le hle
      have hadd : (q <<< 1 + 1#64).toNat = (q <<< 1).toNat + 1 := by
        rw [BitVec.toNat_add, hone, hq2]
        omega
      rw [hsub, hadd]
      exact hstep
    · have hle' : ¬uc.toNat ≤ x.toNat := hle
      rw [if_neg hle', if_neg hle'] at hstep
      rw [if_neg hle]
      exact ih (i := i + 1) (by omega) hstep

/-! ## The whole -/

/-- The result, from the sum with the sign of the product, `bSign`, taken out. -/
def result (bSign : Bool) (sum c : Int) : LONGLONG :=
  let bSign := (bSign != decide (sum < 0)) != decide (c < 0)
  if c.natAbs * 2 ^ 64 ≤ sum.natAbs then saturated bSign
  else Int64.ofInt (if bSign then -(sum.natAbs / c.natAbs : Nat) else (sum.natAbs / c.natAbs : Nat))

theorem signed_eq (bSign : Bool) (ull : DWORDLONG) :
    signed bSign ull = Int64.ofInt (if bSign then -(ull.toNat : Int) else ull.toNat) := by
  have hofInt : Int64.ofBitVec ull = Int64.ofInt ull.toNat := by
    refine Int64.toBitVec_inj.1 ?_
    simp
  cases bSign with
  | true => simp only [signed, if_true, hofInt, Int64.ofInt_neg]
  | false => simp only [signed, Bool.false_eq_true, if_false, hofInt]

/-- The three divisions agree. -/
theorem quotient_eq {p : DWORDLONG × DWORDLONG} {uc : DWORDLONG} (hc : uc.toNat ≤ 2 ^ 63) (hp : p.2.toNat < uc.toNat) :
    (p.2 = 0#64 → (p.1 / uc).toNat = value p / uc.toNat) ∧
    (HighPart uc = 0#32 → (divideDword p (LowPart uc)).toNat = value p / uc.toNat) ∧
    (divideLong uc 64 p 0#64).toNat = value p / uc.toNat := by
  refine ⟨fun h0 => ?_, fun h0 => ?_, ?_⟩
  · have hz : p.2.toNat = 0 := by rw [h0]; rfl
    rw [BitVec.toNat_udiv, value, hz, Nat.zero_mul, Nat.add_zero]
  · have hz : uc.toNat / 2 ^ 32 = 0 := by rw [← toNat_HighPart, h0]; rfl
    have hlow : (LowPart uc).toNat = uc.toNat := by
      rw [toNat_LowPart]
      omega
    rw [← hlow] at hp ⊢
    exact divideDword_spec hp
  · have h1 := p.1.isLt
    have hD : p.2.toNat * 2 ^ 64 + p.1.toNat = value p := Nat.add_comm _ _
    have hstart := Dividing.start (c := uc.toNat) h1 hp
    rw [hD] at hstart
    refine divideLong_spec hc 64 rfl ?_ hstart
    calc value p < (p.2.toNat + 1) * 2 ^ 64 := by
          simp only [value]
          omega
      _ ≤ uc.toNat * 2 ^ 64 := by gcongr; omega

theorem natCast_eq_natAbs {n : Nat} {x : Int} (h : (n : Int) = |x|) : n = x.natAbs := by
  rw [Int.abs_eq_natAbs] at h
  exact_mod_cast h

theorem llMulDiv_eq (a b c d : LONGLONG) :
    llMulDiv a b c d = result (decide (a < 0) != decide (b < 0))
      (a.toInt.natAbs * b.toInt.natAbs + if decide (a < 0) != decide (b < 0) then -d.toInt else d.toInt) c.toInt := by
  have ha := natAbs_le a
  have hb := natAbs_le b
  have hprod : value (multiply (magnitude a) (magnitude b)) = a.toInt.natAbs * b.toInt.natAbs := by
    rw [value_multiply (by rwa [toNat_magnitude]) (by rwa [toNat_magnitude]), toNat_magnitude, toNat_magnitude]
  have hle : value (multiply (magnitude a) (magnitude b)) ≤ 2 ^ 126 := by
    rw [hprod]
    calc a.toInt.natAbs * b.toInt.natAbs ≤ 2 ^ 63 * 2 ^ 63 := Nat.mul_le_mul ha hb
      _ = 2 ^ 126 := by norm_num
  simp only [llMulDiv]
  generalize (decide (a < 0) != decide (b < 0)) = s
  obtain ⟨hval, hsign⟩ := addSigned_spec s d hle
  rw [hprod, Nat.cast_mul] at hval hsign
  generalize (a.toInt.natAbs : Int) * b.toInt.natAbs + (if s then -d.toInt else d.toInt) = sum at hval hsign ⊢
  generalize addSigned (multiply (magnitude a) (magnitude b)) s d = r at hval hsign ⊢
  obtain ⟨p, t⟩ := r
  have hp : value p = sum.natAbs := natCast_eq_natAbs hval
  have ht : (if c < 0 then !t else t) = ((s != decide (sum < 0)) != decide (c.toInt < 0)) := by
    have ht : t = (s != decide (sum < 0)) := hsign
    rw [← ht]
    by_cases hc : c < 0
    · simp [hc, (lt_zero_iff c).1 hc]
    · simp [hc, mt (lt_zero_iff c).2 hc]
  have huc := toNat_magnitude c
  have hle : magnitude c ≤ p.2 ↔ c.toInt.natAbs * 2 ^ 64 ≤ sum.natAbs := by
    have hlt := p.1.isLt
    rw [BitVec.le_def, huc, ← hp, value]
    omega
  simp only [result, ht, hle]
  by_cases hover : c.toInt.natAbs * 2 ^ 64 ≤ sum.natAbs
  · rw [if_pos hover, if_pos hover]
  · rw [if_neg hover, if_neg hover]
    have hlt : p.2.toNat < (magnitude c).toNat := by
      have := mt hle.1 hover
      rwa [BitVec.le_def, not_le] at this
    obtain ⟨h1, h2, h3⟩ := quotient_eq (by rw [huc]; exact natAbs_le c) hlt
    rw [huc, hp] at h1 h2 h3
    by_cases hp0 : p.2 = 0#64
    · rw [if_pos hp0, signed_eq, h1 hp0]
    · rw [if_neg hp0]
      by_cases hc0 : HighPart (magnitude c) = 0#32
      · rw [if_pos hc0, signed_eq, h2 hc0]
      · rw [if_neg hc0, signed_eq, h3]

theorem result_sign {s : Bool} {P d R : Int} (hR : R = (if s then -P else P) + d) :
    (P + if s then -d else d) = if s then -R else R := by
  cases s with
  | true =>
    simp only [if_true] at hR ⊢
    omega
  | false =>
    simp only [Bool.false_eq_true, if_false] at hR ⊢
    omega

theorem mul_sign (a b : LONGLONG) : a.toInt * b.toInt = if decide (a < 0) != decide (b < 0) then
    -((a.toInt.natAbs : Int) * b.toInt.natAbs) else (a.toInt.natAbs : Int) * b.toInt.natAbs := by
  simp only [lt_zero_iff]
  by_cases ha : a.toInt < 0 <;> by_cases hb : b.toInt < 0
  · rw [Int.ofNat_natAbs_of_nonpos ha.le, Int.ofNat_natAbs_of_nonpos hb.le]
    simp [ha, hb]
  · rw [Int.ofNat_natAbs_of_nonpos ha.le, Int.natAbs_of_nonneg (by omega)]
    simp [ha, hb]
  · rw [Int.natAbs_of_nonneg (by omega), Int.ofNat_natAbs_of_nonpos hb.le]
    simp [ha, hb]
  · rw [Int.natAbs_of_nonneg (by omega), Int.natAbs_of_nonneg (by omega)]
    simp [ha, hb]

/-- The quotient by magnitudes and signs. -/
theorem tdiv_eq (x c : Int) : x.tdiv c = if decide (x < 0) != decide (c < 0) then
    -((x.natAbs / c.natAbs : Nat) : Int) else ((x.natAbs / c.natAbs : Nat) : Int) := by
  have hnat : ∀ n m : Nat, (n : Int).tdiv m = ((n / m : Nat) : Int) := fun n m => rfl
  by_cases hx : x < 0 <;> by_cases hc : c < 0
  · obtain ⟨n, rfl⟩ : ∃ n : Nat, x = -n := ⟨x.natAbs, by omega⟩
    obtain ⟨m, rfl⟩ : ∃ m : Nat, c = -m := ⟨c.natAbs, by omega⟩
    rw [Int.neg_tdiv, Int.tdiv_neg, hnat, decide_eq_true hx, decide_eq_true hc]
    simp
  · obtain ⟨n, rfl⟩ : ∃ n : Nat, x = -n := ⟨x.natAbs, by omega⟩
    obtain ⟨m, rfl⟩ : ∃ m : Nat, c = m := ⟨c.natAbs, by omega⟩
    rw [Int.neg_tdiv, hnat, decide_eq_true hx, decide_eq_false hc]
    simp
  · obtain ⟨n, rfl⟩ : ∃ n : Nat, x = n := ⟨x.natAbs, by omega⟩
    obtain ⟨m, rfl⟩ : ∃ m : Nat, c = -m := ⟨c.natAbs, by omega⟩
    rw [Int.tdiv_neg, hnat, decide_eq_false hx, decide_eq_true hc]
    simp
  · obtain ⟨n, rfl⟩ : ∃ n : Nat, x = n := ⟨x.natAbs, by omega⟩
    obtain ⟨m, rfl⟩ : ∃ m : Nat, c = m := ⟨c.natAbs, by omega⟩
    rw [hnat, decide_eq_false hx, decide_eq_false hc]
    simp

/-- `llMulDiv` computes `(a * b + d) / c`, rounded towards zero, and exactly: the
product does not overflow. From `2 ^ 64` on the quotient is replaced by the
greatest or the least number; below that, it wraps around. -/
theorem llMulDiv_spec (a b c d : LONGLONG) (h : a.toInt * b.toInt + d.toInt ≠ 0 ∨ c.toInt ≠ 0) :
    llMulDiv a b c d =
      if c.toInt.natAbs * 2 ^ 64 ≤ (a.toInt * b.toInt + d.toInt).natAbs then
        saturated (decide (a.toInt * b.toInt + d.toInt < 0) != decide (c.toInt < 0))
      else Int64.ofInt ((a.toInt * b.toInt + d.toInt).tdiv c.toInt) := by
  have hmul := mul_sign a b
  rw [llMulDiv_eq]
  generalize (decide (a < 0) != decide (b < 0)) = s at hmul ⊢
  rw [result_sign (congrArg (· + d.toInt) hmul)]
  generalize a.toInt * b.toInt + d.toInt = R at h ⊢
  have habs : (if s then -R else R).natAbs = R.natAbs := by cases s <;> simp
  have hsign : R ≠ 0 → (s != decide ((if s then -R else R) < 0)) = decide (R < 0) := by
    intro hR
    cases s with
    | true =>
      simp only [if_true, Bool.true_bne, ← decide_not, decide_eq_decide]
      omega
    | false => simp
  simp only [result, habs]
  by_cases hover : c.toInt.natAbs * 2 ^ 64 ≤ R.natAbs
  · have hR : R ≠ 0 := by omega
    rw [if_pos hover, if_pos hover, hsign hR]
  · rw [if_neg hover, if_neg hover]
    congr 1
    by_cases hR : R = 0
    · simp [hR]
    · rw [hsign hR, tdiv_eq]

theorem llMulDiv_spec_third : llMulDiv 10 (-7) 3 1 = Int64.ofInt (-23) :=
  (llMulDiv_spec 10 (-7) 3 1 (.inl (by decide))).trans (by decide)

/-! ## The fast one is right -/

def value32 (p : DWORDLONG × DWORD) : Nat := p.1.toNat + p.2.toNat * 2 ^ 64

theorem toInt32_eq (a : LONG) :
    a.toInt = if a.toBitVec.toNat < 2 ^ 31 then (a.toBitVec.toNat : Int) else a.toBitVec.toNat - 2 ^ 32 := by
  have hd : a.toInt = a.toBitVec.toInt := rfl
  rw [hd, BitVec.toInt_eq_toNat_cond]
  split <;> split <;> omega

theorem lt_zero_iff32 (d : LONG) : d < 0 ↔ d.toInt < 0 := by simpa using Int32.lt_iff_toInt_lt (x := d) (y := 0)

theorem zero_lt_iff32 (d : LONG) : 0 < d ↔ 0 < d.toInt := by simpa using Int32.lt_iff_toInt_lt (x := 0) (y := d)

@[simp] theorem toNat_magnitude32 (b : LONG) : (magnitude32 b).toNat = b.toInt.natAbs := by
  have hlt := b.toBitVec.isLt
  have he := toInt32_eq b
  unfold magnitude32
  by_cases h0 : 0 ≤ b
  · rw [if_pos h0]
    have h0' : 0 ≤ b.toInt := by simpa using Int32.le_iff_toInt_le.1 h0
    split at he <;> omega
  · rw [if_neg h0, Int32.toBitVec_neg, BitVec.toNat_neg]
    have h0' : b.toInt < 0 := by simpa using mt Int32.le_iff_toInt_le.2 h0
    split at he <;> omega

theorem natAbs_le32 (b : LONG) : b.toInt.natAbs ≤ 2 ^ 31 := by
  have h1 := b.toInt_lt
  have h2 := b.le_toInt
  omega

theorem value_multiply32 {ua : DWORDLONG} {ub : DWORD} (hb : ub.toNat ≤ 2 ^ 31) :
    value32 (multiply32 ua ub) = ua.toNat * ub.toNat := by
  have ha' := ua.isLt
  obtain ⟨a0, a1, hal, hah, hae⟩ := halves ua.toNat
  have h0 : a0 * ub.toNat ≤ (2 ^ 32 - 1) * 2 ^ 31 := Nat.mul_le_mul (by omega) hb
  have h1 : a1 * ub.toNat ≤ (2 ^ 32 - 1) * 2 ^ 31 := Nat.mul_le_mul (by omega) hb
  have hprod : ua.toNat * ub.toNat = a0 * ub.toNat + a1 * ub.toNat * 2 ^ 32 := by
    rw [hae]
    ring
  rw [hprod]
  unfold multiply32
  by_cases hz : HighPart ua ≠ 0#32
  · rw [if_pos hz]
    simp only [value32, toNat_ofParts, toNat_LowPart, toNat_HighPart, toNat_UInt32x32To64, BitVec.toNat_add,
      BitVec.toNat_setWidth, hal, hah]
    omega
  · have hz' : a1 = 0 := by
      rw [← hah, ← toNat_HighPart, not_not.1 hz]
      rfl
    rw [if_neg hz, hz', value32, toNat_UInt32x32To64, toNat_LowPart, hal]
    simp

theorem value_add32 (p ud : DWORDLONG × DWORD) : value32 (add32 p ud) = (value32 p + value32 ud) % 2 ^ 96 := by
  have h1 := p.1.isLt
  have h2 := p.2.isLt
  have h3 := ud.1.isLt
  have h4 := ud.2.isLt
  simp only [value32, add32, toNat_ofParts, toNat_LowPart, toNat_HighPart, BitVec.toNat_add, BitVec.toNat_setWidth]
  omega

theorem value_negate32 (p : DWORDLONG × DWORD) : value32 (negate32 p) = (2 ^ 96 - value32 p) % 2 ^ 96 := by
  have h1 := p.1.isLt
  have h2 := p.2.isLt
  have h0 : (~~~p.1 + 1#64 = 0#64) ↔ p.1.toNat = 0 := by
    rw [← BitVec.toNat_inj]
    simp only [BitVec.toNat_add, BitVec.toNat_not, BitVec.toNat_ofNat]
    omega
  simp only [value32, negate32, BitVec.toNat_add, BitVec.toNat_not, BitVec.toNat_ofNat]
  by_cases hz : ~~~p.1 + 1#64 = 0#64
  · have := h0.1 hz
    rw [if_pos hz]
    simp only [BitVec.toNat_ofNat]
    omega
  · have := mt h0.2 hz
    rw [if_neg hz]
    simp only [BitVec.toNat_ofNat]
    omega

theorem value_extend32 (bSign : Bool) (d : LONG) :
    (value32 (extend32 bSign d) : Int) = (if bSign then -d.toInt else d.toInt) % 2 ^ 96 := by
  have hlt := d.toInt64.toBitVec.isLt
  have he := toInt_eq d.toInt64
  have hn := toNat_neg d.toInt64
  rw [Int32.toInt_toInt64] at he
  cases bSign with
  | true =>
    simp only [extend32, value32, if_true, hn, zero_lt_iff32]
    by_cases hd : 0 < d.toInt
    · rw [if_pos hd]
      simp only [BitVec.toNat_neg, BitVec.toNat_ofNat]
      split at he <;> omega
    · rw [if_neg hd]
      simp only [BitVec.toNat_ofNat]
      split at he <;> omega
  | false =>
    simp only [extend32, value32, Bool.false_eq_true, if_false, lt_zero_iff32]
    by_cases hd : d.toInt < 0
    · rw [if_pos hd]
      simp only [BitVec.toNat_neg, BitVec.toNat_ofNat]
      split at he <;> omega
    · rw [if_neg hd]
      simp only [BitVec.toNat_ofNat]
      split at he <;> omega

theorem addSigned32_spec {p : DWORDLONG × DWORD} (bSign : Bool) (d : LONG) (hp : value32 p ≤ 2 ^ 94) :
    (value32 (addSigned32 p bSign d).1 : Int) = |(value32 p : Int) + if bSign then -d.toInt else d.toInt| ∧
      (addSigned32 p bSign d).2 = (bSign != decide ((value32 p : Int) + (if bSign then -d.toInt else d.toInt) < 0)) := by
  have h1 := d.toInt_lt
  have h2 := d.le_toInt
  have hx := value_extend32 bSign d
  have ha := value_add32 p (extend32 bSign d)
  obtain ⟨x, hxe, hxl, hxu⟩ : ∃ x : Int, (if bSign then -d.toInt else d.toInt) = x ∧ -2 ^ 31 ≤ x ∧ x ≤ 2 ^ 31 := by
    refine ⟨_, rfl, ?_, ?_⟩ <;> split <;> omega
  rw [hxe] at hx ⊢
  unfold addSigned32
  by_cases hd : d ≠ 0
  · rw [if_pos hd]
    have hhigh : (add32 p (extend32 bSign d)).2.toInt < 0 ↔ 2 ^ 95 ≤ value32 (add32 p (extend32 bSign d)) := by
      have h3 := (add32 p (extend32 bSign d)).1.isLt
      rw [BitVec.toInt_neg_iff, value32]
      omega
    have hneg : 2 ^ 95 ≤ value32 (add32 p (extend32 bSign d)) ↔ (value32 p : Int) + x < 0 := by omega
    simp only [hhigh, hneg]
    by_cases hs : (value32 p : Int) + x < 0
    · rw [if_pos hs, abs_of_neg hs, value_negate32]
      refine ⟨by omega, by simp [hs]⟩
    · rw [if_neg hs, abs_of_nonneg (by omega)]
      refine ⟨?_, by simp [hs]⟩
      dsimp only
      omega
  · rw [if_neg hd]
    have hd0 : d.toInt = 0 := by simp [not_not.1 hd]
    have hx0 : x = 0 := by
      rw [← hxe, hd0]
      simp
    have hnot : ¬((value32 p : Int) < 0) := by omega
    rw [hx0, add_zero, Nat.abs_cast]
    simp [hnot]

theorem divide32_spec {p : DWORDLONG × DWORD} {c : DWORD} (hp : p.2.toNat < c.toNat) :
    (divide32 p c).toNat = value32 p / c.toNat := by
  have h1 := p.1.isLt
  have hc := c.isLt
  have hcw : (c.setWidth 64).toNat = c.toNat := BitVec.toNat_setWidth_of_le (by omega)
  obtain ⟨D, hD⟩ : ∃ D, D = p.1.toNat / 2 ^ 32 + p.2.toNat * 2 ^ 32 := ⟨_, rfl⟩
  obtain ⟨hq, hl, htotal⟩ := div_steps hc hp hD h1
  have hdividend : (ofParts (HighPart p.1) p.2).toNat = D := by
    rw [toNat_ofParts, toNat_HighPart, hD]
  have hr := Nat.mod_lt D (by omega : 0 < c.toNat)
  have hdivide : ∀ x : DWORDLONG, x.toNat / c.toNat < 2 ^ 32 → (EnlargedUnsignedDivide x c).1.toNat = x.toNat / c.toNat := by
    intro x hx
    rw [EnlargedUnsignedDivide, BitVec.toNat_setWidth, BitVec.toNat_udiv, hcw]
    exact Nat.mod_eq_of_lt hx
  have hrem : (EnlargedUnsignedDivide (ofParts (HighPart p.1) p.2) c).2.toNat = D % c.toNat := by
    rw [EnlargedUnsignedDivide, BitVec.toNat_setWidth, BitVec.toNat_umod, hdividend, hcw]
    exact Nat.mod_eq_of_lt (by omega)
  have hquot := hdivide _ (by rwa [hdividend])
  rw [hdividend] at hquot
  have hle : c.setWidth 64 ≤ ofParts (HighPart p.1) p.2 ↔ c.toNat ≤ D := by rw [BitVec.le_def, hcw, hdividend]
  unfold divide32
  by_cases h : c.setWidth 64 ≤ ofParts (HighPart p.1) p.2
  · have hp0 : (ofParts (LowPart p.1) (EnlargedUnsignedDivide (ofParts (HighPart p.1) p.2) c).2).toNat =
        D % c.toNat * 2 ^ 32 + p.1.toNat % 2 ^ 32 := by
      rw [toNat_ofParts, hrem, toNat_LowPart, Nat.add_comm]
    have hlow := hdivide _ (by rwa [hp0])
    rw [hp0] at hlow
    rw [if_pos h]
    simp only []
    rw [toNat_ofParts, hlow, hquot, value32, htotal, Nat.add_comm]
  · -- The upper part is the remainder already.
    have hsmall : D < c.toNat := not_le.1 (mt hle.2 h)
    have hwhole : D % c.toNat * 2 ^ 32 + p.1.toNat % 2 ^ 32 = p.1.toNat := by
      rw [Nat.mod_eq_of_lt hsmall]
      omega
    rw [hwhole] at hl htotal
    have hzero : (0#32 : DWORD).toNat = 0 := rfl
    rw [if_neg h, toNat_ofParts, hdivide _ hl, value32, htotal, Nat.div_eq_of_lt hsmall, hzero]
    simp

theorem Int64x32Div32_result (a : LONGLONG) (b c d : LONG) :
    Int64x32Div32 a b c d = result (decide (a < 0) != decide (b < 0))
      (a.toInt.natAbs * b.toInt.natAbs + if decide (a < 0) != decide (b < 0) then -d.toInt else d.toInt) c.toInt := by
  have ha := natAbs_le a
  have hb := natAbs_le32 b
  have hprod : value32 (multiply32 (magnitude a) (magnitude32 b)) = a.toInt.natAbs * b.toInt.natAbs := by
    rw [value_multiply32 (by rwa [toNat_magnitude32]), toNat_magnitude, toNat_magnitude32]
  have hle : value32 (multiply32 (magnitude a) (magnitude32 b)) ≤ 2 ^ 94 := by
    rw [hprod]
    calc a.toInt.natAbs * b.toInt.natAbs ≤ 2 ^ 63 * 2 ^ 31 := Nat.mul_le_mul ha hb
      _ = 2 ^ 94 := by norm_num
  simp only [Int64x32Div32]
  generalize (decide (a < 0) != decide (b < 0)) = s
  obtain ⟨hval, hsign⟩ := addSigned32_spec s d hle
  rw [hprod, Nat.cast_mul] at hval hsign
  generalize (a.toInt.natAbs : Int) * b.toInt.natAbs + (if s then -d.toInt else d.toInt) = sum at hval hsign ⊢
  generalize addSigned32 (multiply32 (magnitude a) (magnitude32 b)) s d = r at hval hsign ⊢
  obtain ⟨p, t⟩ := r
  have hp : value32 p = sum.natAbs := natCast_eq_natAbs hval
  have ht : (if c < 0 then !t else t) = ((s != decide (sum < 0)) != decide (c.toInt < 0)) := by
    have ht : t = (s != decide (sum < 0)) := hsign
    rw [← ht]
    by_cases hc : c < 0
    · simp [hc, (lt_zero_iff32 c).1 hc]
    · simp [hc, mt (lt_zero_iff32 c).2 hc]
  have huc := toNat_magnitude32 c
  have hle : magnitude32 c ≤ p.2 ↔ c.toInt.natAbs * 2 ^ 64 ≤ sum.natAbs := by
    have hlt := p.1.isLt
    rw [BitVec.le_def, huc, ← hp, value32]
    omega
  simp only [result, ht, hle]
  by_cases hover : c.toInt.natAbs * 2 ^ 64 ≤ sum.natAbs
  · rw [if_pos hover, if_pos hover]
  · have hlt : p.2.toNat < (magnitude32 c).toNat := by
      have := mt hle.1 hover
      rwa [BitVec.le_def, not_le] at this
    rw [if_neg hover, if_neg hover, signed_eq, divide32_spec hlt, huc, hp]

/-- The fast one agrees with `llMulDiv`, whatever its arguments. -/
theorem Int64x32Div32_eq (a : LONGLONG) (b c d : LONG) :
    Int64x32Div32 a b c d = llMulDiv a b.toInt64 c.toInt64 d.toInt64 := by
  have hb : decide (b.toInt64 < 0) = decide (b < 0) := by
    rw [decide_eq_decide, lt_zero_iff, lt_zero_iff32, Int32.toInt_toInt64]
  rw [Int64x32Div32_result, llMulDiv_eq, hb, Int32.toInt_toInt64, Int32.toInt_toInt64, Int32.toInt_toInt64]

end FilterSln
