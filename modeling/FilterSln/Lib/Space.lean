import FilterSln.Lib.Blocks
/-!
# Blocks that lie in one memory

A `Space` is the content of every address, and `Space.copy` is a copy between two
places of it. Blocks given as lists are what a range of addresses holds
(`Space.block`).

Copies from one block to another are exact on lists as long as the two ranges are
`Apart`: the target then holds what `runCopies` says, and every address outside
it keeps its content, those of the source with it (`copyAll_block`).
-/

namespace Lib

variable {β : Type}

abbrev Space (β : Type) := Int → β

/-- No address lies in both ranges. -/
def Apart (p : Int) (a : Nat) (q : Int) (b : Nat) : Prop := p + a ≤ q ∨ q + b ≤ p

namespace Space

/-- `len` elements copied from `src` to `dest`. -/
def copy (m : Space β) (dest src : Int) (len : Nat) : Space β :=
  fun x => if dest ≤ x ∧ x < dest + len then m (src + (x - dest)) else m x

/-- The `n` elements from `base` on. -/
def block (m : Space β) (base : Int) (n : Nat) : List β := (List.range n).map fun k : Nat => m (base + k)

/-- The calls in order, between blocks at `dest` and `src`. -/
def copyAll (m : Space β) (dest src : Int) (calls : List CopyCall) : Space β :=
  calls.foldl (fun m c => m.copy (dest + c.dest) (src + c.src) c.len) m

variable {m m' : Space β} {dest src base : Int} {n a b : Nat}

@[simp] theorem block_length (m : Space β) (base : Int) (n : Nat) : (m.block base n).length = n := by
  simp [block]

theorem block_getElem? (m : Space β) (base : Int) {n k : Nat} (h : k < n) :
    (m.block base n)[k]? = some (m (base + k)) := by
  simp [block, h]

theorem copy_inside (m : Space β) (dest src : Int) {len k : Nat} (h : k < len) :
    m.copy dest src len (dest + k) = m (src + k) := by
  rw [copy, if_pos (by omega)]
  congr 1
  omega

theorem copy_outside (m : Space β) (src : Int) {len : Nat} {x : Int} (h : x < dest ∨ dest + len ≤ x) :
    m.copy dest src len x = m x := by
  rw [copy, if_neg (by omega)]

/-- Two memories with the same content at the addresses of a block hold the same block. -/
theorem block_congr (h : ∀ k < n, m' (base + k) = m (base + k)) : m'.block base n = m.block base n := by
  unfold block
  apply List.map_congr_left
  intro k hk
  exact h k (List.mem_range.1 hk)

/-- A range of a block is a smaller block. -/
theorem window_block {off k : Nat} (h : off + k ≤ n) : window (m.block base n) off k = m.block (base + off) k := by
  apply List.ext_getElem?
  intro i
  rcases Nat.lt_or_ge i k with hi | hi
  · rw [window_getElem? _ _ _ _ hi, block_getElem? m base (by omega), block_getElem? m _ hi]
    congr 2
    omega
  · rw [List.getElem?_eq_none (by rw [window_length _ _ _ (by simpa using h)]; omega),
      List.getElem?_eq_none (by simpa using hi)]

/-- One call: the target holds what `copyMemory` says, the rest is as before. -/
theorem copy_block {c : CopyCall} {out : List β}
    (h : copyMemory (m.block src a) (m.block dest b) c = some out) :
    (m.copy (dest + c.dest) (src + c.src) c.len).block dest b = out ∧
      ∀ x, x < dest ∨ dest + b ≤ x → m.copy (dest + c.dest) (src + c.src) c.len x = m x := by
  unfold copyMemory at h
  split at h
  · rename_i hin
    rw [block_length, block_length] at hin
    cases h
    rcases Nat.eq_zero_or_pos c.len with hlen | hlen
    · have hsame : ∀ x, m.copy (dest + c.dest) (src + c.src) c.len x = m x :=
        fun x => copy_outside m _ (by omega)
      refine ⟨?_, fun x _ => hsame x⟩
      rw [hlen, window_zero, splice_nil, ← hlen]
      exact block_congr fun k _ => hsame _
    · obtain ⟨⟨hs0, hs1⟩, hd0, hd1⟩ := hin.resolve_left (by omega)
      obtain ⟨off, hoff⟩ := Int.eq_ofNat_of_zero_le hd0
      obtain ⟨start, hstart⟩ := Int.eq_ofNat_of_zero_le hs0
      rw [hoff] at hd1 ⊢
      rw [hstart] at hs1 ⊢
      refine ⟨?_, fun x hx => copy_outside m _ (by omega)⟩
      have hwin : window (m.block src a) start c.len = m.block (src + start) c.len := window_block (by omega)
      simp only [Int.toNat_natCast, hwin]
      apply List.ext_getElem?
      intro k
      rw [splice_getElem? _ _ _ (by simp; omega), block_length]
      rcases Nat.lt_or_ge k b with hk | hk
      · rw [block_getElem? _ _ hk]
        split
        · rename_i hrange
          obtain ⟨i, rfl⟩ := Nat.exists_eq_add_of_le hrange.1
          rw [Nat.add_sub_cancel_left, block_getElem? m _ (by omega), Int.natCast_add, ← Int.add_assoc,
            copy_inside m _ _ (by omega)]
        · rename_i hrange
          rw [block_getElem? m _ hk, copy_outside m _ (by omega)]
      · rw [List.getElem?_eq_none (by simpa using hk), if_neg (by omega), List.getElem?_eq_none (by simpa using hk)]
  · cases h

/-- Copies between blocks that lie apart do in memory what they do on lists. -/
theorem copyAll_block (hap : Apart src a dest b) {calls : List CopyCall} : ∀ {m : Space β} {out : List β},
    runCopies (m.block src a) (m.block dest b) calls = some out →
      (m.copyAll dest src calls).block dest b = out ∧
        ∀ x, x < dest ∨ dest + b ≤ x → m.copyAll dest src calls x = m x := by
  induction calls with
  | nil =>
    intro m out h
    cases h
    exact ⟨rfl, fun _ _ => rfl⟩
  | cons c calls ih =>
    intro m out h
    obtain ⟨mid, hc, hr⟩ := runCopies_cons.1 h
    obtain ⟨hmid, hframe⟩ := copy_block hc
    -- The source lies outside the target, so the next call reads what was there at first.
    have hsrc : (m.copy (dest + c.dest) (src + c.src) c.len).block src a = m.block src a :=
      block_congr fun k hk => hframe _ (by unfold Apart at hap; omega)
    rw [← hsrc, ← hmid] at hr
    obtain ⟨hout, hrest⟩ := ih hr
    exact ⟨hout, fun x hx => (hrest x hx).trans (hframe x hx)⟩

end Space

end Lib
