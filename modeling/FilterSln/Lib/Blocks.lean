import Mathlib.Data.List.Basic
import Mathlib.Tactic.Common
/-!
# Copying between blocks of memory

`splice dst off seg` is a copy of `seg` over `dst` from position `off` on. A
`CopyCall` is a copy between two blocks as the machine makes it, with offsets
that may lie anywhere; it takes effect when it stays inside both blocks.
Blocks written one after the other are records; cutting them shows
(`flatMap_take_eq_iff`).
-/

namespace Lib

variable {β : Type}

/-- `seg` written over `dst` at `off`. -/
def splice (dst : List β) (off : Nat) (seg : List β) : List β :=
  dst.take off ++ seg ++ dst.drop (off + seg.length)

/-- `n` elements of `l` from `off` on. -/
def window (l : List β) (off n : Nat) : List β := (l.drop off).take n

@[simp] theorem window_length (l : List β) (off n : Nat) (h : off + n ≤ l.length) :
    (window l off n).length = n := by
  simp [window]; omega

theorem window_getElem? (l : List β) (off n k : Nat) (h : k < n) :
    (window l off n)[k]? = l[off + k]? := by
  simp [window, h]

@[simp] theorem window_zero (l : List β) (off : Nat) : window l off 0 = [] := by
  simp [window]

@[simp] theorem splice_nil (dst : List β) (off : Nat) : splice dst off [] = dst := by
  simp [splice]

@[simp] theorem splice_length (dst : List β) (off : Nat) (seg : List β)
    (h : off + seg.length ≤ dst.length) : (splice dst off seg).length = dst.length := by
  simp [splice]; omega

/-- Inside the copied range the new elements, outside it the old ones. -/
theorem splice_getElem? (dst : List β) (off : Nat) (seg : List β)
    (h : off + seg.length ≤ dst.length) (k : Nat) :
    (splice dst off seg)[k]? =
      if off ≤ k ∧ k < off + seg.length then seg[k - off]? else dst[k]? := by
  have hoff : (dst.take off).length = off := by simp; omega
  unfold splice
  rcases Nat.lt_or_ge k off with h1 | h1
  · rw [List.append_assoc, List.getElem?_append_left (by omega), List.getElem?_take]
    simp [h1, Nat.not_le.2 h1]
  · rcases Nat.lt_or_ge k (off + seg.length) with h2 | h2
    · rw [List.append_assoc, List.getElem?_append_right (by omega), hoff,
        List.getElem?_append_left (by omega)]
      simp [h1, h2]
    · rw [List.getElem?_append_right (by rw [List.length_append]; omega), List.length_append, hoff,
        List.getElem?_drop]
      simp only [Nat.not_lt.2 h2, and_false, if_false]
      congr 1; omega

/-! ## Copy calls -/

/-- `len` elements from offset `src` of one block to offset `dest` of another. -/
structure CopyCall where
  dest : Int
  src : Int
  len : Nat
  deriving DecidableEq

namespace CopyCall

def Reads (c : CopyCall) (k : Int) : Prop := c.src ≤ k ∧ k < c.src + c.len

def Writes (c : CopyCall) (k : Int) : Prop := c.dest ≤ k ∧ k < c.dest + c.len

/-- The call stays inside blocks of `n` and `m` elements. -/
def InBounds (n m : Nat) (c : CopyCall) : Prop :=
  c.len = 0 ∨ (0 ≤ c.src ∧ c.src + c.len ≤ n) ∧ (0 ≤ c.dest ∧ c.dest + c.len ≤ m)

instance (n m : Nat) (c : CopyCall) : Decidable (c.InBounds n m) :=
  inferInstanceAs (Decidable (_ ∨ _))

theorem inBounds_iff {n m : Nat} {c : CopyCall} :
    c.InBounds n m ↔ (∀ k, c.Reads k → 0 ≤ k ∧ k < n) ∧ (∀ k, c.Writes k → 0 ≤ k ∧ k < m) := by
  unfold InBounds Reads Writes
  constructor
  · rintro (h | ⟨hs, hd⟩)
    · refine ⟨fun k hk => ?_, fun k hk => ?_⟩ <;> omega
    · refine ⟨fun k hk => ?_, fun k hk => ?_⟩ <;> omega
  · rintro ⟨hr, hw⟩
    rcases Nat.eq_zero_or_pos c.len with h | h
    · exact .inl h
    · -- The first and the last element of the range show where it lies.
      have hr0 := hr c.src ⟨by omega, by omega⟩
      have hr1 := hr (c.src + c.len - 1) ⟨by omega, by omega⟩
      have hw0 := hw c.dest ⟨by omega, by omega⟩
      have hw1 := hw (c.dest + c.len - 1) ⟨by omega, by omega⟩
      exact .inr ⟨⟨hr0.1, by omega⟩, hw0.1, by omega⟩

end CopyCall

/-- The effect of a call on the target; `none` when it leaves one of the blocks. -/
def copyMemory (src dst : List β) (c : CopyCall) : Option (List β) :=
  if c.InBounds src.length dst.length then
    some (splice dst c.dest.toNat (window src c.src.toNat c.len))
  else none

/-- Several calls in order. -/
def runCopies (src dst : List β) (calls : List CopyCall) : Option (List β) := calls.foldlM (copyMemory src) dst

theorem copyMemory_length {src dst out : List β} {c : CopyCall} (h : copyMemory src dst c = some out) :
    out.length = dst.length := by
  unfold copyMemory at h
  split at h
  · rename_i hin
    cases h
    rcases hin with h0 | ⟨⟨h1, h2⟩, h3, h4⟩
    · simp [h0]
    · rw [splice_length]
      rw [window_length _ _ _ (by omega)]
      omega
  · cases h

theorem runCopies_cons {src dst out : List β} {c : CopyCall} {calls : List CopyCall} :
    runCopies src dst (c :: calls) = some out ↔
      ∃ mid, copyMemory src dst c = some mid ∧ runCopies src mid calls = some out := by
  simp [runCopies, List.foldlM_cons, Option.bind_eq_some_iff]

theorem runCopies_length {src : List β} {calls : List CopyCall} :
    ∀ {dst out : List β}, runCopies src dst calls = some out → out.length = dst.length := by
  induction calls with
  | nil => intro dst out h; cases h; rfl
  | cons c calls ih =>
    intro dst out h
    obtain ⟨mid, hc, hr⟩ := runCopies_cons.1 h
    rw [ih hr, copyMemory_length hc]

/-- Calls have an effect exactly when all of them stay inside the blocks. -/
theorem runCopies_isSome {src : List β} {calls : List CopyCall} :
    ∀ {dst : List β}, (runCopies src dst calls).isSome = true ↔
      ∀ c ∈ calls, c.InBounds src.length dst.length := by
  induction calls with
  | nil => intro dst; simp [runCopies]
  | cons c calls ih =>
    intro dst
    rw [List.forall_mem_cons]
    cases hc : copyMemory src dst c with
    | none =>
      have hout : ¬ c.InBounds src.length dst.length := by
        intro hin
        simp [copyMemory, hin] at hc
      simp [runCopies, List.foldlM_cons, hc, hout]
    | some mid =>
      have hin : c.InBounds src.length dst.length := by
        by_contra hout
        simp [copyMemory, hout] at hc
      have hstep : runCopies src dst (c :: calls) = runCopies src mid calls := by
        simp [runCopies, List.foldlM_cons, hc]
      rw [hstep, ih, copyMemory_length hc]
      exact ⟨fun h => ⟨hin, h⟩, fun h => h.2⟩

/-! ## A copy over the front of a list -/

theorem splice_zero_take (dst seg : List β) : (splice dst 0 seg).take seg.length = seg := by
  simp [splice]

theorem splice_zero_drop (dst seg : List β) :
    (splice dst 0 seg).drop seg.length = dst.drop seg.length := by
  simp [splice]

/-- A whole block copied to the start of one that is no shorter. -/
theorem runCopies_whole {src dst : List β} (h : src.length ≤ dst.length) :
    runCopies src dst [⟨0, 0, src.length⟩] = some (splice dst 0 src) := by
  have hin : CopyCall.InBounds src.length dst.length ⟨0, 0, src.length⟩ := by
    unfold CopyCall.InBounds
    dsimp only
    omega
  rw [runCopies_cons]
  refine ⟨_, ?_, rfl⟩
  rw [copyMemory, if_pos hin]
  simp [window]

/-! ## Records one after the other -/

section Records

variable {ι : Type} (rec : ι → List β) (len : ι → Nat)

theorem length_flatMap_take_le (l : List ι) :
    (l.flatMap fun i => (rec i).take (len i)).length ≤ (l.flatMap rec).length := by
  induction l with
  | nil => simp
  | cons i l ih =>
    simp only [List.flatMap_cons, List.length_append, List.length_take]
    omega

/-- Records cut to their lengths make up the same sequence as the whole records
only when nothing is cut off. -/
theorem flatMap_take_eq_iff (l : List ι) :
    l.flatMap rec = l.flatMap (fun i => (rec i).take (len i)) ↔ ∀ i ∈ l, (rec i).length ≤ len i := by
  induction l with
  | nil => simp
  | cons i l ih =>
    simp only [List.flatMap_cons, List.forall_mem_cons]
    constructor
    · intro h
      have hlen := congrArg List.length h
      have hrest := length_flatMap_take_le rec len l
      simp only [List.length_append, List.length_take] at hlen
      have hfirst : (rec i).length ≤ len i := by omega
      rw [List.take_of_length_le hfirst] at h
      exact ⟨hfirst, ih.1 (List.append_cancel_left h)⟩
    · rintro ⟨hfirst, hrest⟩
      rw [List.take_of_length_le hfirst, ih.2 hrest]

end Records

end Lib
