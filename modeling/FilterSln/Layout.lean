import FilterSln.Allocator
import FilterSln.Lib.Slots
import FilterSln.Lib.Words
import Mathlib.Tactic.Linarith
/-!
# Where the samples of an allocator lie

`CMemAllocator::Alloc` of `amfilter.cpp` cuts one piece of memory into the
samples. The pieces of memory of all samples, free and handed out, are the
slots of that piece in some order, and stay so until the next `Alloc`
(`Layout`). So no holder of a sample can reach into another sample or into its
prefix (`Pool.buffers_apart`), and every prefix starts at a multiple of an
alignment that is a power of two (`Pool.buffers_aligned`).
-/

namespace FilterSln

open HRESULT Lib

namespace CMemAllocator

/-- `Alloc` rounds a sample with its prefix up to the alignment, in a `LONG`. -/
theorem alignedSize_spec {a : CMemAllocator} {l : LONG} (h : a.alignedSize = some l)
    (hs : 0 ≤ a.m_lSize.toInt) (hp : 0 ≤ a.m_lPrefix.toInt) (hal : 0 < a.m_lAlignment.toInt) :
    a.m_lSize.toInt + a.m_lPrefix.toInt ≤ l.toInt ∧ a.m_lAlignment.toInt ∣ l.toInt := by
  have hs' := a.m_lSize.toInt_lt
  have hp' := a.m_lPrefix.toInt_lt
  have hal' := a.m_lAlignment.toInt_lt
  simp only [alignedSize, Int32.lt_iff_toInt_lt, gt_iff_lt] at h
  by_cases hover : (a.m_lSize + a.m_lPrefix).toInt < a.m_lSize.toInt
  · rw [if_pos hover] at h
    cases h
  rw [if_neg hover] at h
  -- The sum did not wrap.
  have hsum : (a.m_lSize + a.m_lPrefix).toInt = a.m_lSize.toInt + a.m_lPrefix.toInt := by
    rw [Int32.toInt_add] at hover ⊢
    rw [Int.bmod_def] at hover ⊢
    omega
  generalize a.m_lSize + a.m_lPrefix = lAlignedSize at h hsum
  have hone : (1 : LONG).toInt = 1 := rfl
  rw [hone] at h
  by_cases hgt : 1 < a.m_lAlignment.toInt
  · rw [if_pos hgt] at h
    have hrem : (lAlignedSize % a.m_lAlignment).toInt = lAlignedSize.toInt % a.m_lAlignment.toInt := by
      rw [Int32.toInt_mod, Int.tmod_eq_emod_of_nonneg (by omega)]
    have hlt := Int.emod_lt_of_pos lAlignedSize.toInt hal
    have hnn := Int.emod_nonneg lAlignedSize.toInt (Int.ne_of_gt hal)
    have hdvd : a.m_lAlignment.toInt ∣ lAlignedSize.toInt - lAlignedSize.toInt % a.m_lAlignment.toInt :=
      Int.dvd_self_sub_emod
    by_cases h0 : lAlignedSize % a.m_lAlignment ≠ 0
    · rw [if_pos h0] at h
      split at h
      · cases h
      · rename_i hover'
        cases h
        have hnew : (lAlignedSize + a.m_lAlignment - lAlignedSize % a.m_lAlignment).toInt =
            lAlignedSize.toInt - lAlignedSize.toInt % a.m_lAlignment.toInt + a.m_lAlignment.toInt := by
          simp only [Int32.toInt_sub, Int32.toInt_add, hrem, Int.bmod_def] at hover' ⊢
          omega
        rw [hnew]
        exact ⟨by omega, Int.dvd_add hdvd (Int.dvd_refl _)⟩
    · rw [if_neg h0] at h
      rw [← Option.some_inj.1 h]
      have h0' : lAlignedSize.toInt % a.m_lAlignment.toInt = 0 := by
        rw [← hrem, not_not.1 h0]
        rfl
      exact ⟨by omega, Int.dvd_of_emod_eq_zero h0'⟩
  · rw [if_neg hgt] at h
    rw [← Option.some_inj.1 h]
    have h1 : a.m_lAlignment.toInt = 1 := by omega
    exact ⟨by omega, by rw [h1]; exact Int.one_dvd _⟩

/-- The piece of memory of `n` samples, computed in 64 bits. -/
theorem mul_toInt64_le {n l : LONG} (h : ¬n.toInt64 * l.toInt64 > (0x7FFFFFFF : LONGLONG)) :
    n.toInt * l.toInt < 2 ^ 31 := by
  have hn := n.toInt_lt
  have hn' := n.le_toInt
  have hl := l.toInt_lt
  have hl' := l.le_toInt
  have hle : n.toInt * l.toInt ≤ 2 ^ 62 := by nlinarith
  have hge : -(2 ^ 62) ≤ n.toInt * l.toInt := by nlinarith
  have hc : ((0x7FFFFFFF : LONGLONG)).toInt = 0x7FFFFFFF := rfl
  simp only [gt_iff_lt, Int64.lt_iff_toInt_lt, Int64.toInt_mul, Int32.toInt_toInt64, hc] at h
  rw [Int.bmod_eq_of_le (by omega) (by omega)] at h
  omega

/-- How the samples of an allocator lie after an `Alloc` that makes `n` new ones. -/
structure Made (a a' : CMemAllocator) (env : AllocEnv) (base : Nat) (stride : LONG) (n : Nat) (m_bChanged : Bool) :
    Prop where
  changed : a.m_bChanged = true
  memory : env.VirtualAlloc = some base
  aligned : a.alignedSize = some stride
  size : 0 < a.m_lSize.toInt
  alignment : 0 < a.m_lAlignment.toInt
  m_lPrefix : 0 ≤ a.m_lPrefix.toInt
  count : n ≤ a.m_lCount.toInt
  fits : a.m_lCount.toInt * stride.toInt < 2 ^ 31
  eq : a' = { a with
    m_lFree := ((List.range n).map (a.ReallyFree.newSample env base stride)).reverse
    m_lAllocated := n
    m_bChanged := m_bChanged }

theorem Alloc_made {a a' : CMemAllocator} {env : AllocEnv} {hr : HRESULT} (h : a.Alloc env = (a', hr)) :
    a' = a ∨ (a.m_bChanged = true ∧ a' = a.ReallyFree) ∨
      ∃ base stride n m_bChanged, Made a a' env base stride n m_bChanged := by
  unfold Alloc baseAlloc at h
  by_cases hpos : a.m_lCount ≤ 0 ∨ a.m_lSize ≤ 0 ∨ a.m_lAlignment ≤ 0
  · simp only [if_pos hpos] at h
    cases h
    exact .inl rfl
  · simp only [if_neg hpos] at h
    cases hch : a.m_bChanged with
    | false =>
      simp only [hch] at h
      cases h
      exact .inl rfl
    | true =>
      simp only [hch, FAILED, SUCCEEDED] at h
      rw [if_neg (by decide), if_neg (by decide)] at h
      -- The memory is laid out only after all checks.
      right
      by_cases hneg : a.ReallyFree.m_lSize < 0 ∨ a.ReallyFree.m_lPrefix < 0 ∨ a.ReallyFree.m_lCount < 0
      · rw [if_pos hneg] at h
        cases h
        exact .inl ⟨rfl, rfl⟩
      · rw [if_neg hneg] at h
        cases hal : a.ReallyFree.alignedSize with
        | none =>
          simp only [hal] at h
          cases h
          exact .inl ⟨rfl, rfl⟩
        | some stride =>
          simp only [hal] at h
          by_cases hbig : a.ReallyFree.m_lCount.toInt64 * stride.toInt64 > 0x7FFFFFFF
          · rw [if_pos hbig] at h
            cases h
            exact .inl ⟨rfl, rfl⟩
          · rw [if_neg hbig] at h
            cases hmem : env.VirtualAlloc with
            | none =>
              simp only [hmem] at h
              cases h
              exact .inl ⟨rfl, rfl⟩
            | some base =>
              simp only [hmem] at h
              simp only [not_or, Int32.lt_iff_toInt_lt, Int32.le_iff_toInt_le, Int.not_le, Int.not_lt] at hpos hneg
              have hcount : 0 < a.m_lCount.toInt := hpos.1
              have hmin : ((min env.newSamples a.m_lCount.toInt.toNat : Nat) : Int) ≤ a.m_lCount.toInt := by omega
              refine .inr ⟨base, stride, min env.newSamples a.m_lCount.toInt.toNat, a'.m_bChanged, hch, hmem, hal,
                hpos.2.1, hpos.2.2, hneg.2.1, hmin, mul_toInt64_le hbig, ?_⟩
              split at h <;> cases h <;> rfl

end CMemAllocator

namespace Pool

/-- The memory of every sample, free or handed out. -/
def blocks (p : Pool) : List Block := p.alloc.m_lFree.map (·.1.m_pBuffer) ++ p.held.map (·.m_pBuffer)

/-- The samples lie in slots of `stride` bytes from `base` on, each with `pre`
bytes before its own `len`. -/
structure Layout (base stride len pre : Nat) (p : Pool) : Prop where
  slots : Slots (base + pre) stride p.alloc.m_lAllocated (p.blocks.map (·.addr))
  length : ∀ b ∈ p.blocks, b.bytes.length = len
  len_pos : p.blocks ≠ [] → 0 < len
  room : pre + len ≤ stride
  fits : p.alloc.m_lAllocated * stride < 2 ^ 31

/-- `Layout`, with what is known of the numbers: the piece of memory satisfies
`D`, and until the next `SetProperties` the prefix and the alignment are the
agreed ones. -/
def Laid (D : Nat → Prop) (p : Pool) : Prop :=
  ∃ base stride len pre, Layout base stride len pre p ∧
    (p.alloc.m_bChanged = false → p.blocks ≠ [] →
      D base ∧ pre = p.alloc.m_lPrefix.toInt.toNat ∧ p.alloc.m_lAlignment.toInt ∣ stride)

variable {p q : Pool} {D : Nat → Prop}

/-- A pool with the same pieces of memory, in any order. -/
theorem Laid.perm (h : p.Laid D) (haddr : (q.blocks.map fun b => (b.addr, b.bytes.length)).Perm
      (p.blocks.map fun b => (b.addr, b.bytes.length)))
    (hn : q.alloc.m_lAllocated = p.alloc.m_lAllocated)
    (hch : q.alloc.m_bChanged = false → p.alloc.m_bChanged = false ∧
      q.alloc.m_lPrefix = p.alloc.m_lPrefix ∧ q.alloc.m_lAlignment = p.alloc.m_lAlignment) : q.Laid D := by
  obtain ⟨base, stride, len, pre, hl, hnum⟩ := h
  have haddr' := haddr.map Prod.fst
  simp only [List.map_map, Function.comp_def] at haddr'
  have hne : q.blocks ≠ [] → p.blocks ≠ [] := by
    intro hq hp
    rw [hp] at haddr
    exact hq (List.map_eq_nil_iff.1 (List.perm_nil.1 haddr))
  refine ⟨base, stride, len, pre, ⟨?_, ?_, fun hq => hl.len_pos (hne hq), hl.room, by rw [hn]; exact hl.fits⟩, ?_⟩
  · rw [hn]
    exact hl.slots.perm haddr'
  · intro b hb
    obtain ⟨c, hc, he⟩ := List.mem_map.1 (haddr.mem_iff.1 (List.mem_map_of_mem hb))
    rw [← (Prod.mk.inj he).2]
    exact hl.length c hc
  · intro hq hqb
    obtain ⟨hp, hpre, hal⟩ := hch hq
    rw [hpre, hal]
    exact hnum hp (hne hqb)

theorem Laid.of_empty (h : p.blocks = []) (hn : p.alloc.m_lAllocated = 0) : p.Laid D := by
  refine ⟨0, 0, 0, 0, ⟨?_, ?_, fun hne => absurd h hne, Nat.le_refl _, by rw [hn]; decide⟩, fun _ hne => absurd h hne⟩
  · rw [h, hn]
    exact .nil
  · rw [h]
    intro b hb
    cases hb

/-- The samples of a new `Alloc` lie in the order in which they were made. -/
theorem Laid.of_made {a a' : CMemAllocator} {env : AllocEnv} {base n : Nat} {stride : LONG} {m_bChanged : Bool}
    (h : CMemAllocator.Made a a' env base stride n m_bChanged) (hD : D base) : (⟨a', []⟩ : Pool).Laid D := by
  obtain ⟨hle, hdvd⟩ := CMemAllocator.alignedSize_spec h.aligned h.size.le h.m_lPrefix h.alignment
  have hsize := h.size
  have hpre := h.m_lPrefix
  have hcount := h.count
  have hstride : 0 ≤ stride.toInt := by omega
  have hblocks : (⟨a', []⟩ : Pool).blocks = ((List.range n).map fun i =>
      (a.ReallyFree.newSample env base stride i).1.m_pBuffer).reverse := by
    simp only [blocks, h.eq, List.map_reverse, List.map_map, List.map_nil, List.append_nil]
    rfl
  refine ⟨base, stride.toInt.toNat, a.m_lSize.toInt.toNat, a.m_lPrefix.toInt.toNat,
    ⟨?_, ?_, fun _ => by omega, by omega, ?_⟩, fun _ _ => ⟨hD, by rw [h.eq], ?_⟩⟩
  · rw [hblocks, h.eq, List.map_reverse, List.map_map]
    refine (List.reverse_perm _).trans (List.Perm.of_eq (List.map_congr_left fun i _ => ?_))
    simp only [Function.comp_apply, CMemAllocator.newSample, CMediaSample.new, CMemAllocator.ReallyFree]
    omega
  · intro b hb
    rw [hblocks, List.mem_reverse] at hb
    obtain ⟨i, -, rfl⟩ := List.mem_map.1 hb
    exact List.length_replicate
  · have hfits := h.fits
    rw [h.eq]
    change n * stride.toInt.toNat < 2 ^ 31
    have hcast : ((n * stride.toInt.toNat : Nat) : Int) = n * stride.toInt := by
      rw [Int.natCast_mul, Int.toNat_of_nonneg hstride]
    have hle : n * stride.toInt ≤ a.m_lCount.toInt * stride.toInt := Int.mul_le_mul_of_nonneg_right hcount hstride
    omega
  · rw [h.eq, Int.toNat_of_nonneg hstride]
    exact hdvd

theorem laid_Commit (h : p.Laid D) (hinv : p.Inv) (env : AllocEnv)
    (hD : ∀ base, env.VirtualAlloc = some base → D base) : Laid D { p with alloc := (p.alloc.Commit env).1 } := by
  unfold CMemAllocator.Commit
  split
  · exact h
  · split
    · exact h.perm (List.Perm.refl _) rfl fun hch => ⟨hch, rfl, rfl⟩
    · rcases hres : p.alloc.Alloc env with ⟨a', hr⟩
      dsimp only
      have hstay : Laid D { p with alloc := a' } := by
        rcases CMemAllocator.Alloc_made hres with rfl | ⟨hch, rfl⟩ | ⟨base, stride, n, m_bChanged, hm⟩
        · exact h
        · refine .of_empty ?_ rfl
          simp [blocks, CMemAllocator.ReallyFree, (hinv.changed hch).1]
        · rw [(hinv.changed hm.changed).1]
          exact .of_made hm (hD base hm.memory)
      split
      · exact hstay
      · exact hstay.perm (List.Perm.refl _) rfl fun hch => ⟨hch, rfl, rfl⟩

/-- A use of a sample leaves its memory where it is. -/
theorem set_blocks {i : Nat} {s t : CMediaSample} (hi : p.held[i]? = some s) (ha : t.m_pBuffer.addr = s.m_pBuffer.addr)
    (hl : t.m_pBuffer.bytes.length = s.m_pBuffer.bytes.length) :
    (({ p with held := p.held.set i t } : Pool).blocks.map fun b => (b.addr, b.bytes.length)) =
      p.blocks.map fun b => (b.addr, b.bytes.length) := by
  obtain ⟨hlt, hs⟩ := List.getElem?_eq_some_iff.1 hi
  simp only [blocks, List.map_append, List.map_map, List.map_set, ha, hl]
  congr 1
  rw [← hs]
  apply List.ext_getElem?
  intro j
  rw [List.getElem?_set]
  split
  · rename_i hij
    subst hij
    simp [hlt]
  · rfl

theorem laid_step (h : p.Laid D) (hinv : p.Inv) (e : Op)
    (hD : ∀ env base, e = .Commit env → env.VirtualAlloc = some base → D base) (hs : p.step e = some q) :
    q.Laid D := by
  cases e with
  | SetProperties req =>
    cases hs
    rcases hres : p.alloc.SetProperties req with ⟨a', hr, act⟩
    cases hok : hr.SUCCEEDED with
    | false => rw [CMemAllocator.SetProperties_failed hres hok]; exact h
    | true =>
      rw [(CMemAllocator.SetProperties_ok hres hok).2.2.2.2]
      exact h.perm (List.Perm.refl _) rfl nofun
  | Commit env => cases hs; exact laid_Commit h hinv env fun base => hD env base rfl
  | Decommit =>
    cases hs
    unfold CMemAllocator.Decommit
    split
    · exact h
    · exact h.perm (List.Perm.refl _) rfl fun hch => ⟨hch, rfl, rfl⟩
  | GetBuffer dwFlags =>
    obtain ⟨⟨a', r⟩, hg, hs⟩ := Option.bind_eq_some_iff.1 hs
    cases r with
    | error hr =>
      cases hs
      rw [(CMemAllocator.GetBuffer_error hg).1]
      exact h
    | ok s =>
      cases hs
      obtain ⟨f, rest, -, hfree, rfl, rfl⟩ := CMemAllocator.GetBuffer_ok hg
      refine h.perm (List.Perm.map _ ?_) rfl fun hch => ⟨hch, rfl, rfl⟩
      -- The sample goes from the head of one list to the head of the other.
      simp only [blocks, hfree, List.map_cons, List.cons_append]
      exact List.perm_middle
  | use i u =>
    obtain ⟨s, hi, hs⟩ := Option.bind_eq_some_iff.1 hs
    cases hs
    exact h.perm (List.Perm.of_eq (set_blocks hi (u.addr s) (u.length s))) rfl fun hch => ⟨hch, rfl, rfl⟩
  | Release i =>
    obtain ⟨s, hi, hs⟩ := Option.bind_eq_some_iff.1 hs
    rcases s.Release_cases with ⟨t, ht, hb⟩ | ⟨f, hf, hb⟩
    · rw [ht] at hs
      cases hs
      exact h.perm (List.Perm.of_eq (set_blocks hi (by rw [hb]) (by rw [hb]))) rfl fun hch => ⟨hch, rfl, rfl⟩
    · rw [hf] at hs
      cases hs
      obtain ⟨hlt, rfl⟩ := List.getElem?_eq_some_iff.1 hi
      have hperm : ((f :: p.alloc.m_lFree).map (·.1.m_pBuffer) ++ (p.held.eraseIdx i).map (·.m_pBuffer)).Perm
          p.blocks := by
        simp only [blocks, List.map_cons, List.cons_append, hb]
        refine List.perm_middle.symm.trans (List.Perm.append_left _ ?_)
        exact (List.getElem_cons_eraseIdx_perm hlt).map (·.m_pBuffer)
      unfold CMemAllocator.ReleaseBuffer
      dsimp only
      split <;> exact h.perm (hperm.map _) rfl fun hch => ⟨hch, rfl, rfl⟩

/-! ## No two samples overlap -/

theorem Reachable.laid (h : p.Reachable) : p.Laid fun _ => True := by
  obtain ⟨g, es, h⟩ := h
  refine (h.inv (fun t => t.Inv ∧ t.Laid fun _ => True) ⟨inv_new g, .of_empty rfl rfl⟩ ?_).2
  rintro t e u ⟨hi, hl⟩ - hs
  exact ⟨inv_step hi e hs, laid_step hl hi e (fun _ _ _ _ => trivial) hs⟩

/-- All samples of an allocator, free and handed out, lie apart from each other
in less than two gigabytes, each with the agreed prefix before it, and no sample
is empty. -/
theorem buffers_apart (h : p.Reachable) : ∃ base pre : Nat,
    (p.alloc.m_bChanged = false → p.blocks ≠ [] → pre = p.alloc.m_lPrefix.toInt.toNat) ∧
    (∀ b ∈ p.blocks, base + pre ≤ b.addr ∧ b.addr + b.bytes.length < base + 2 ^ 31 ∧ 0 < b.bytes.length) ∧
    p.blocks.Pairwise fun b c => b.addr + b.bytes.length + pre ≤ c.addr ∨ c.addr + c.bytes.length + pre ≤ b.addr := by
  obtain ⟨base, stride, len, pre, hl, hnum⟩ := h.laid
  have hroom := hl.room
  have hfits := hl.fits
  refine ⟨base, pre, fun hch hne => (hnum hch hne).2.1, ?_, ?_⟩
  · intro b hb
    obtain ⟨hlo, hhi⟩ := hl.slots.within (List.mem_map_of_mem hb)
    have hlen := hl.length b hb
    have hpos := hl.len_pos (List.ne_nil_of_mem hb)
    omega
  · have hp := List.pairwise_map.1 hl.slots.apart
    refine hp.imp_of_mem ?_
    intro b c hb hc hbc
    have hlb := hl.length b hb
    have hlc := hl.length c hc
    omega

/-- Two samples with a prefix of four bytes, one of them handed out. -/
def twoPrefixed : List Op := [.SetProperties ⟨2, 20, 8, 4⟩, .Commit someMemory, .GetBuffer 0]

def afterTwoPrefixed : Pool := (evalRun step Any twoPrefixed ⟨.new 0x10000, []⟩).get (by decide)

theorem buffers_apart_twoPrefixed : ∃ base pre : Nat,
    (afterTwoPrefixed.alloc.m_bChanged = false → afterTwoPrefixed.blocks ≠ [] →
      pre = afterTwoPrefixed.alloc.m_lPrefix.toInt.toNat) ∧
    (∀ b ∈ afterTwoPrefixed.blocks, base + pre ≤ b.addr ∧ b.addr + b.bytes.length < base + 2 ^ 31 ∧
      0 < b.bytes.length) ∧
    afterTwoPrefixed.blocks.Pairwise fun b c =>
      b.addr + b.bytes.length + pre ≤ c.addr ∨ c.addr + c.bytes.length + pre ≤ b.addr :=
  buffers_apart ⟨0x10000, twoPrefixed, .of_isSome _⟩

example : afterTwoPrefixed.blocks.map (·.addr) = [0x10004, 0x1001C] := by decide

/-! ## Alignment -/

/-- Memory comes in multiples of the granularity of the machine. -/
def Granular (dwAllocationGranularity : DWORD) (_ : Pool) : Op → Prop
  | .Commit env => ∀ base, env.VirtualAlloc = some base → dwAllocationGranularity.toNat ∣ base
  | _ => True

/-- The alignment has passed the check of `SetProperties`, unless there has been
none. -/
def AlignChecked (a : CMemAllocator) : Prop :=
  a.m_lAlignment ≠ 0 → a.dwAllocationGranularity &&& (a.m_lAlignment - 1).toBitVec = 0

theorem and_mask_eq_zero {g : DWORD} {l : LONG} {k : Nat} (hl : l.toInt = (2 ^ k : Nat))
    (h : g &&& (l - 1).toBitVec = 0) : 2 ^ k ∣ g.toNat := by
  have hand := congrArg BitVec.toNat h
  rw [BitVec.toNat_and, Lib.Word.toNat_mask hl, Nat.and_two_pow_sub_one_eq_mod] at hand
  exact Nat.dvd_of_mod_eq_zero hand

theorem alignChecked_step (h : AlignChecked p.alloc) (e : Op) (hs : p.step e = some q) :
    AlignChecked q.alloc ∧ q.alloc.dwAllocationGranularity = p.alloc.dwAllocationGranularity := by
  cases e with
  | SetProperties req =>
    cases hs
    unfold CMemAllocator.SetProperties
    split
    · exact ⟨h, rfl⟩
    · rename_i hok
      split
      · exact ⟨h, rfl⟩
      · split
        · exact ⟨h, rfl⟩
        · refine ⟨fun _ => ?_, rfl⟩
          by_contra hne
          exact hok (.inr hne)
  | Commit env =>
    cases hs
    unfold CMemAllocator.Commit
    split
    · exact ⟨h, rfl⟩
    · split
      · exact ⟨h, rfl⟩
      · rcases hres : p.alloc.Alloc env with ⟨a', hr⟩
        dsimp only
        have ha : AlignChecked a' ∧ a'.dwAllocationGranularity = p.alloc.dwAllocationGranularity := by
          rcases CMemAllocator.Alloc_made hres with rfl | ⟨-, rfl⟩ | ⟨base, stride, n, m_bChanged, hm⟩
          · exact ⟨h, rfl⟩
          · exact ⟨h, rfl⟩
          · rw [hm.eq]
            exact ⟨h, rfl⟩
        split
        · exact ha
        · exact ha
  | Decommit =>
    cases hs
    unfold CMemAllocator.Decommit
    split <;> exact ⟨h, rfl⟩
  | GetBuffer dwFlags =>
    obtain ⟨⟨a', r⟩, hg, hs⟩ := Option.bind_eq_some_iff.1 hs
    cases r with
    | error hr =>
      cases hs
      rw [(CMemAllocator.GetBuffer_error hg).1]
      exact ⟨h, rfl⟩
    | ok s =>
      cases hs
      obtain ⟨f, rest, -, -, -, rfl⟩ := CMemAllocator.GetBuffer_ok hg
      exact ⟨h, rfl⟩
  | use i u =>
    obtain ⟨s, -, hs⟩ := Option.bind_eq_some_iff.1 hs
    cases hs
    exact ⟨h, rfl⟩
  | Release i =>
    obtain ⟨s, -, hs⟩ := Option.bind_eq_some_iff.1 hs
    rcases s.Release_cases with ⟨t, ht, -⟩ | ⟨f, hf, -⟩
    · rw [ht] at hs
      cases hs
      exact ⟨h, rfl⟩
    · rw [hf] at hs
      cases hs
      unfold CMemAllocator.ReleaseBuffer
      dsimp only
      split <;> exact ⟨h, rfl⟩

/-- On a machine that hands out memory in multiples of its granularity, the
prefix of every sample starts at a multiple of the agreed alignment, if that is a
power of two. `SetProperties` lets other alignments pass as well. -/
theorem buffers_aligned {g : DWORD} {es : List Op} {k : Nat} (h : Runs step (Granular g) ⟨.new g, []⟩ es p)
    (hch : p.alloc.m_bChanged = false) (hk : p.alloc.m_lAlignment.toInt = (2 ^ k : Nat)) :
    ∀ b ∈ p.blocks, p.alloc.m_lPrefix.toInt.toNat ≤ b.addr ∧ 2 ^ k ∣ b.addr - p.alloc.m_lPrefix.toInt.toNat := by
  obtain ⟨hi, hl, hc, hg⟩ : p.Inv ∧ p.Laid (g.toNat ∣ ·) ∧ AlignChecked p.alloc ∧
      p.alloc.dwAllocationGranularity = g := by
    refine h.inv (fun t => t.Inv ∧ t.Laid (g.toNat ∣ ·) ∧ AlignChecked t.alloc ∧ t.alloc.dwAllocationGranularity = g)
      ⟨inv_new g, .of_empty rfl rfl, fun hne => absurd rfl hne, rfl⟩ ?_
    rintro t e u ⟨hi, hl, hc, hg⟩ hgran hs
    have hstep := alignChecked_step hc e hs
    refine ⟨inv_step hi e hs, laid_step hl hi e ?_ hs, hstep.1, hstep.2.trans hg⟩
    rintro env base rfl hmem
    exact hgran base hmem
  intro b hb
  obtain ⟨base, stride, len, pre, hlay, hnum⟩ := hl
  obtain ⟨hbase, rfl, hstride⟩ := hnum hch (List.ne_nil_of_mem hb)
  have hgran : 2 ^ k ∣ p.alloc.dwAllocationGranularity.toNat := by
    refine and_mask_eq_zero hk (hc ?_)
    intro h0
    rw [h0] at hk
    have := Nat.two_pow_pos k
    have hzero : (0 : LONG).toInt = 0 := rfl
    omega
  rw [hg] at hgran
  rw [hk, Int.natCast_dvd_natCast] at hstride
  exact hlay.slots.dvd (hgran.trans hbase) hstride (List.mem_map_of_mem hb)

theorem buffers_aligned_twoPrefixed : afterTwoPrefixed.blocks.length = 2 ∧
    ∀ b ∈ afterTwoPrefixed.blocks, afterTwoPrefixed.alloc.m_lPrefix.toInt.toNat ≤ b.addr ∧
      2 ^ 3 ∣ b.addr - afterTwoPrefixed.alloc.m_lPrefix.toInt.toNat := by
  have hrun : Runs step Any ⟨.new 0x10000, []⟩ twoPrefixed afterTwoPrefixed := .of_isSome _
  have hgran : Runs step (Granular 0x10000) ⟨.new 0x10000, []⟩ twoPrefixed afterTwoPrefixed := by
    refine hrun.of_forall fun e he s => ?_
    simp only [twoPrefixed, List.mem_cons, List.not_mem_nil, or_false] at he
    rcases he with rfl | rfl | rfl
    · trivial
    · rintro base hb
      cases hb
      exact Nat.dvd_refl _
    · trivial
  exact ⟨by decide, buffers_aligned hgran (by decide) (by decide)⟩

end Pool

end FilterSln
