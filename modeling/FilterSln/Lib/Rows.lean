import FilterSln.Lib.Blocks
import Mathlib.Tactic.Ring
/-!
# Pictures with their rows in opposite order

A picture of `n` rows of `S` elements each is a list read row by row. Copying
row `n - 1 - r` of the source over row `r` of the target, for every `r`, leaves
the source's rows in opposite order in the target and everything behind the
last row as it was (`copyRows_mirrored`). Mirroring twice gives the picture
back (`Mirrored.twice`).
-/

namespace Lib

variable {β : Type}

/-- Where element `k` of the mirrored picture comes from. -/
def mirrorIdx (S n k : Nat) : Nat := S * (n - 1 - k / S) + k % S

/-- Element `k` of a picture lies in a row of it, at a position of that row. -/
theorem row_of_lt {S n k : Nat} (h : k < S * n) : 0 < S ∧ k / S < n ∧ k % S < S := by
  have hS : 0 < S := by
    rcases Nat.eq_zero_or_pos S with rfl | hS
    · simp at h
    · exact hS
  exact ⟨hS, Nat.div_lt_of_lt_mul h, Nat.mod_lt k hS⟩

theorem mirrorIdx_lt {S n k : Nat} (h : k < S * n) : mirrorIdx S n k < S * n := by
  obtain ⟨hS, hr, hc⟩ := row_of_lt h
  unfold mirrorIdx
  generalize k / S = r at hr
  have hle : S * (n - 1 - r + 1) ≤ S * n := Nat.mul_le_mul_left S (by omega)
  rw [Nat.mul_add, Nat.mul_one] at hle
  omega

theorem mirrorIdx_mirrorIdx {S n k : Nat} (h : k < S * n) : mirrorIdx S n (mirrorIdx S n k) = k := by
  obtain ⟨hS, hr, hc⟩ := row_of_lt h
  have hdiv : (S * (n - 1 - k / S) + k % S) / S = n - 1 - k / S := by
    rw [Nat.mul_add_div hS, Nat.div_eq_of_lt hc, Nat.add_zero]
  have hmod : (S * (n - 1 - k / S) + k % S) % S = k % S := by
    rw [Nat.mul_add_mod, Nat.mod_eq_of_lt hc]
  have hrow : n - 1 - (n - 1 - k / S) = k / S := Nat.sub_sub_self (by exact Nat.le_sub_one_of_lt hr)
  simp only [mirrorIdx, hdiv, hmod, hrow]
  exact Nat.div_add_mod k S

/-- `out` is `dst` with the rows of `src` in opposite order over its front. -/
structure Mirrored (S n : Nat) (src dst out : List β) : Prop where
  length : out.length = dst.length
  rows : ∀ k < S * n, out[k]? = src[mirrorIdx S n k]?
  rest : ∀ k, S * n ≤ k → out[k]? = dst[k]?

/-- Row `r` of `dst` overwritten by row `n - 1 - r` of `src`. -/
def copyRow (S n : Nat) (src dst : List β) (r : Nat) : List β :=
  splice dst (S * r) (window src (S * (n - 1 - r)) S)

/-- The first `m` rows overwritten, in order. -/
def copyRows (S n : Nat) (src dst : List β) (m : Nat) : List β :=
  (List.range m).foldl (copyRow S n src) dst

theorem copyRows_succ (S n : Nat) (src dst : List β) (m : Nat) :
    copyRows S n src dst (m + 1) = copyRow S n src (copyRows S n src dst m) m := by
  simp [copyRows, List.range_succ]

theorem row_end_le {S n r : Nat} (h : r < n) : S * r + S ≤ S * n := by
  have := Nat.mul_le_mul_left S (show r + 1 ≤ n by omega)
  rwa [Nat.mul_add, Nat.mul_one] at this

/-- Element `j` of row `i` comes from the same place of the row that lies as far
from the other end. -/
theorem mirrorIdx_row {i j : Nat} (hi : i < n) (hj : j < S) :
    S * i + j < S * n ∧ mirrorIdx S n (S * i + j) = S * (n - 1 - i) + j := by
  have hend := row_end_le (S := S) hi
  have hdiv : (S * i + j) / S = i := by
    rw [Nat.mul_add_div (by omega), Nat.div_eq_of_lt hj, Nat.add_zero]
  refine ⟨by omega, ?_⟩
  rw [mirrorIdx, hdiv, Nat.mul_add_mod, Nat.mod_eq_of_lt hj]

/-- After `m` rows: the front is mirrored, the rest untouched. -/
theorem copyRows_spec {S n : Nat} {src dst : List β} (hs : S * n ≤ src.length) (hd : S * n ≤ dst.length)
    {m : Nat} (hm : m ≤ n) :
    (copyRows S n src dst m).length = dst.length ∧
      ∀ k, (copyRows S n src dst m)[k]? = if k < S * m then src[mirrorIdx S n k]? else dst[k]? := by
  induction m with
  | zero => simp [copyRows]
  | succ m ih =>
    obtain ⟨hlen, hget⟩ := ih (by omega)
    have hrow := row_end_le (S := S) (show m < n by omega)
    have hwin : (window src (S * (n - 1 - m)) S).length = S :=
      window_length _ _ _ (by have := row_end_le (S := S) (show n - 1 - m < n by omega); omega)
    have hin : S * m + (window src (S * (n - 1 - m)) S).length ≤ (copyRows S n src dst m).length := by omega
    rw [copyRows_succ]
    refine ⟨by rw [copyRow, splice_length _ _ _ hin, hlen], fun k => ?_⟩
    rw [copyRow, splice_getElem? _ _ _ hin, hwin, Nat.mul_add, Nat.mul_one]
    by_cases hk : S * m ≤ k ∧ k < S * m + S
    · -- `k` lies in row `m`, which was just copied.
      have hdiv : k / S = m := Nat.div_eq_of_lt_le (by rw [Nat.mul_comm]; omega)
        (by rw [Nat.add_mul, Nat.mul_comm m S]; omega)
      have hmod : k % S = k - S * m := by have := Nat.div_add_mod k S; rw [hdiv] at this; omega
      rw [if_pos hk, if_pos (by omega), window_getElem? _ _ _ _ (by omega), mirrorIdx, hdiv, hmod]
    · rw [if_neg hk, hget]
      by_cases hlt : k < S * m
      · rw [if_pos hlt, if_pos (by omega)]
      · rw [if_neg hlt, if_neg (by omega)]

theorem copyRows_mirrored {S n : Nat} {src dst : List β} (hs : S * n ≤ src.length)
    (hd : S * n ≤ dst.length) : Mirrored S n src dst (copyRows S n src dst n) := by
  obtain ⟨hlen, hget⟩ := copyRows_spec hs hd (Nat.le_refl n)
  refine ⟨hlen, fun k hk => ?_, fun k hk => ?_⟩
  · rw [hget, if_pos hk]
  · rw [hget, if_neg (by omega)]

/-! ## The copy calls that mirror a picture -/

/-- Row `n - 1 - r` over row `r`. -/
def mirrorCall (S n r : Nat) : CopyCall := ⟨(S * r : Nat), (S * (n - 1 - r) : Nat), S⟩

theorem copyMemory_mirrorCall {S n r : Nat} {src dst : List β} (hs : S * n ≤ src.length)
    (hd : S * n ≤ dst.length) (hr : r < n) : copyMemory src dst (mirrorCall S n r) = some (copyRow S n src dst r) := by
  have hdst := row_end_le (S := S) hr
  have hsrc := row_end_le (S := S) (show n - 1 - r < n by omega)
  have hin : (mirrorCall S n r).InBounds src.length dst.length := by
    unfold mirrorCall CopyCall.InBounds
    dsimp only
    omega
  rw [copyMemory, if_pos hin, copyRow]
  rfl

theorem runCopies_mirrorCalls {S n : Nat} {src dst : List β} (hs : S * n ≤ src.length)
    (hd : S * n ≤ dst.length) {m : Nat} (hm : m ≤ n) :
    runCopies src dst ((List.range m).map (mirrorCall S n)) = some (copyRows S n src dst m) := by
  induction m with
  | zero => rfl
  | succ m ih =>
    have hlen := (copyRows_spec hs hd (show m ≤ n by omega)).1
    have hrun : runCopies src dst ((List.range (m + 1)).map (mirrorCall S n)) =
        (runCopies src dst ((List.range m).map (mirrorCall S n))).bind
          fun out => copyMemory src out (mirrorCall S n m) := by
      simp [runCopies, List.range_succ, List.foldlM_append]
    rw [hrun, ih (by omega), Option.bind_some, copyMemory_mirrorCall hs (by omega) (by omega), copyRows_succ]

/-- Mirroring a mirrored picture gives the first picture back. -/
theorem Mirrored.twice {S n : Nat} {a b c d e : List β} (h1 : Mirrored S n a d b)
    (h2 : Mirrored S n b e c) : c.take (S * n) = a.take (S * n) := by
  apply List.ext_getElem?
  intro k
  by_cases hk : k < S * n
  · rw [List.getElem?_take_of_lt hk, List.getElem?_take_of_lt hk, h2.rows k hk,
      h1.rows _ (mirrorIdx_lt hk), mirrorIdx_mirrorIdx hk]
  · rw [List.getElem?_eq_none (by simp; omega), List.getElem?_eq_none (by simp; omega)]

/-- What a mirrored picture shows of its target's old content is exactly what
lies behind the last row. -/
theorem Mirrored.agree_iff {S n : Nat} {src d d' out out' : List β} (h : Mirrored S n src d out)
    (h' : Mirrored S n src d' out') (k : Nat) :
    out[k]? = out'[k]? ↔ k < S * n ∨ d[k]? = d'[k]? := by
  by_cases hk : k < S * n
  · simp [h.rows k hk, h'.rows k hk, hk]
  · simp [h.rest k (by omega), h'.rest k (by omega), hk]

end Lib
