import FilterSln.Lib.Chain
import FilterSln.Lib.Runs
import Mathlib.Data.List.Induction
import Mathlib.Data.List.Perm.Subperm
/-!
# The list class

`CBaseList` of `wxlist.cpp`: a doubly linked chain of nodes with a count, and a
cache of nodes that are not in use. A position is the address of a node. Any
number of lists live in one heap, and `MoveToTail` and `MoveToHead` pass nodes
from one to another.

`none` is a fault: a read or a write through a pointer to no node. A loop along
the links may take one step for each address of the machine, and one more; a
loop that needs more does not end.
-/

namespace FilterSln

open Lib

variable {V ι : Type}

/-- `m_pHead` leads from node to node by the links forward. -/
structure CNodeCache where
  m_iCacheSize : Int
  m_iUsed : Int
  m_pHead : Option Nat
  deriving DecidableEq

/-- `m_Count` and `m_iUsed` are numbers without a bound here. They count nodes of
three pointers each, of which fewer than `2 ^ 31` fit into a process of Win32, so
they do not wrap. -/
structure CBaseList where
  m_pFirst : Option Nat
  m_pLast : Option Nat
  m_Count : Int
  m_Cache : CNodeCache
  deriving DecidableEq

/-- The node that `new` returns, with what is in its memory; `none` when there is
none. -/
abbrev New (V : Type) : Type := Option (Nat × Node V)

namespace CNodeCache

def new (iCacheSize : Int) : CNodeCache := ⟨iCacheSize, 0, none⟩

def AddToCache (c : CNodeCache) (h : Heap V) (pNode : Nat) : Option (CNodeCache × Heap V) :=
  if c.m_iUsed < c.m_iCacheSize then do
    let h ← h.setNext pNode c.m_pHead
    some ({ c with m_pHead := some pNode, m_iUsed := c.m_iUsed + 1 }, h)
  else do
    let _ ← h pNode
    some (c, h.free pNode)

def RemoveFromCache (c : CNodeCache) (h : Heap V) : Option (CNodeCache × Option Nat) :=
  match c.m_pHead with
  | none => some (c, none)
  | some pNode => do
    let n ← h pNode
    some ({ c with m_pHead := n.next, m_iUsed := c.m_iUsed - 1 }, some pNode)

end CNodeCache

namespace CBaseList

def new (iItems : Int) : CBaseList := ⟨none, none, 0, .new iItems⟩

/-- A node from the cache, or else a new one. -/
def getNode (L : CBaseList) (h : Heap V) (new : New V) : Option (CBaseList × Heap V × Option Nat) := do
  let (m_Cache, pNode) ← L.m_Cache.RemoveFromCache h
  let L := { L with m_Cache }
  match pNode with
  | some pNode => some (L, h, some pNode)
  | none =>
    match new with
    | none => some (L, h, none)
    | some (pNode, n) => some (L, h.put pNode n, some pNode)

/-- Which node that is. -/
def nodeFor (L : CBaseList) (new : New V) : Option Nat := L.m_Cache.m_pHead.or (new.map Prod.fst)

/-- What the additions do with their node, besides linking its neighbours to it. -/
def initNode (h : Heap V) (pNode : Nat) (pObject : V) (prev next : Option Nat) : Option (Heap V) := do
  let h ← h.setData pNode pObject
  let h ← h.setPrev pNode prev
  h.setNext pNode next

def AddTailI (L : CBaseList) (h : Heap V) (pObject : V) (new : New V) :
    Option (CBaseList × Heap V × Option Nat) := do
  let (L, h, pNode) ← L.getNode h new
  match pNode with
  | none => some (L, h, none)
  | some pNode =>
    let h ← initNode h pNode pObject L.m_pLast none
    let h ← h.setNext? L.m_pLast (some pNode)
    let m_pFirst := if L.m_pLast = none then some pNode else L.m_pFirst
    some ({ L with m_pFirst, m_pLast := some pNode, m_Count := L.m_Count + 1 }, h, some pNode)

def AddHeadI (L : CBaseList) (h : Heap V) (pObject : V) (new : New V) :
    Option (CBaseList × Heap V × Option Nat) := do
  let (L, h, pNode) ← L.getNode h new
  match pNode with
  | none => some (L, h, none)
  | some pNode =>
    let h ← initNode h pNode pObject none L.m_pFirst
    let h ← h.setPrev? L.m_pFirst (some pNode)
    let m_pLast := if L.m_pFirst = none then some pNode else L.m_pLast
    some ({ L with m_pFirst := some pNode, m_pLast, m_Count := L.m_Count + 1 }, h, some pNode)

/-- A node between two others. -/
def chainIn (L : CBaseList) (h : Heap V) (pAfter pBefore : Nat) (pObj : V) (new : New V) :
    Option (CBaseList × Heap V × Option Nat) := do
  let (L, h, pNode) ← L.getNode h new
  match pNode with
  | none => some (L, h, none)
  | some pNode =>
    let h ← initNode h pNode pObj (some pAfter) (some pBefore)
    let h ← h.setPrev pBefore (some pNode)
    let h ← h.setNext pAfter (some pNode)
    some ({ L with m_Count := L.m_Count + 1 }, h, some pNode)

def AddAfterI (L : CBaseList) (h : Heap V) (pos : Option Nat) (pObj : V) (new : New V) :
    Option (CBaseList × Heap V × Option Nat) :=
  match pos with
  | none => L.AddHeadI h pObj new
  | some pAfter =>
    if L.m_pLast = some pAfter then L.AddTailI h pObj new
    else do
      let n ← h pAfter
      let pBefore ← n.next
      L.chainIn h pAfter pBefore pObj new

def AddBeforeI (L : CBaseList) (h : Heap V) (pos : Option Nat) (pObj : V) (new : New V) :
    Option (CBaseList × Heap V × Option Nat) :=
  match pos with
  | none => L.AddTailI h pObj new
  | some pBefore =>
    if L.m_pFirst = some pBefore then L.AddHeadI h pObj new
    else do
      let n ← h pBefore
      let pAfter ← n.prev
      L.chainIn h pAfter pBefore pObj new

def RemoveI (L : CBaseList) (h : Heap V) (pos : Option Nat) : Option (CBaseList × Heap V × Option V) :=
  match pos with
  | none => some (L, h, none)
  | some pCurrent => do
    -- Update the previous node.
    let n ← h pCurrent
    let h ← h.setNext? n.prev n.next
    let L := if n.prev = none then { L with m_pFirst := n.next } else L
    -- Update the following node.
    let n ← h pCurrent
    let h ← h.setPrev? n.next n.prev
    let L := if n.next = none then { L with m_pLast := n.prev } else L
    let n ← h pCurrent
    let (m_Cache, h) ← L.m_Cache.AddToCache h pCurrent
    some ({ L with m_Cache, m_Count := L.m_Count - 1 }, h, some n.data)

def RemoveHeadI (L : CBaseList) (h : Heap V) : Option (CBaseList × Heap V × Option V) := L.RemoveI h L.m_pFirst

def RemoveTailI (L : CBaseList) (h : Heap V) : Option (CBaseList × Heap V × Option V) := L.RemoveI h L.m_pLast

/-- The loop of `RemoveAll`. -/
def deleteAll : Nat → Heap V → Option Nat → Option (Heap V)
  | _, h, none => some h
  | 0, _, some _ => none
  | n + 1, h, some pn => do
    let node ← h pn
    deleteAll n (h.free pn) node.next

def RemoveAll (L : CBaseList) (h : Heap V) (addresses : Nat) : Option (CBaseList × Heap V) := do
  let h ← deleteAll (addresses + 1) h L.m_pFirst
  some ({ L with m_Count := 0, m_pFirst := none, m_pLast := none }, h)

/-- The nodes from `p` back to the first, counted. -/
def countPrev : Nat → Heap V → Option Nat → Option Int
  | _, _, none => some 0
  | 0, _, some _ => none
  | n + 1, h, some p => do
    let node ← h p
    let cMove ← countPrev n h node.prev
    some (cMove + 1)

/-- The nodes from `p` on to the last, counted. -/
def countNext : Nat → Heap V → Option Nat → Option Int
  | _, _, none => some 0
  | 0, _, some _ => none
  | n + 1, h, some p => do
    let node ← h p
    let cMove ← countNext n h node.next
    some (cMove + 1)

/-- `L` keeps what is behind `pos`, the rest goes to the tail of `pList`. -/
def MoveToTail (L : CBaseList) (h : Heap V) (addresses : Nat) (pos : Option Nat) (pList : CBaseList) :
    Option (CBaseList × CBaseList × Heap V) :=
  match pos with
  | none => some (L, pList, h)
  | some p => do
    let cMove ← countPrev (addresses + 1) h (some p)
    -- Join the two chains together.
    let h ← h.setNext? pList.m_pLast L.m_pFirst
    let h ← h.setPrev? L.m_pFirst pList.m_pLast
    let pList := if pList.m_pFirst = none then { pList with m_pFirst := L.m_pFirst } else pList
    let n ← h p
    let L := { L with m_pFirst := n.next }
    let L := if L.m_pFirst = none then { L with m_pLast := none } else L
    let pList := { pList with m_pLast := some p }
    -- Break the chain after `p`.
    let h ← h.setPrev? L.m_pFirst none
    let h ← h.setNext p none
    some ({ L with m_Count := L.m_Count - cMove }, { pList with m_Count := pList.m_Count + cMove }, h)

/-- `L` keeps what is in front of `pos`, the rest goes to the head of `pList`. -/
def MoveToHead (L : CBaseList) (h : Heap V) (addresses : Nat) (pos : Option Nat) (pList : CBaseList) :
    Option (CBaseList × CBaseList × Heap V) :=
  match pos with
  | none => some (L, pList, h)
  | some p => do
    let cMove ← countNext (addresses + 1) h (some p)
    let h ← h.setPrev? pList.m_pFirst L.m_pLast
    let h ← h.setNext? L.m_pLast pList.m_pFirst
    let pList := if pList.m_pLast = none then { pList with m_pLast := L.m_pLast } else pList
    let n ← h p
    let L := { L with m_pLast := n.prev }
    let L := if L.m_pLast = none then { L with m_pFirst := none } else L
    let pList := { pList with m_pFirst := some p }
    let h ← h.setNext? L.m_pLast none
    let h ← h.setPrev p none
    some ({ L with m_Count := L.m_Count - cMove }, { pList with m_Count := pList.m_Count + cMove }, h)

/-- The loop of `Reverse`. -/
def reverseLinks : Nat → Heap V → Option Nat → Option (Heap V)
  | _, h, none => some h
  | 0, _, some _ => none
  | n + 1, h, some p => do
    let node ← h p
    let q := node.next
    let h ← h.setNext p node.prev
    let h ← h.setPrev p q
    reverseLinks n h q

def Reverse (L : CBaseList) (h : Heap V) (addresses : Nat) : Option (CBaseList × Heap V) := do
  let h ← reverseLinks (addresses + 1) h L.m_pFirst
  some ({ L with m_pFirst := L.m_pLast, m_pLast := L.m_pFirst }, h)

/-! ## Positions -/

/-- Null is in front of the first node. -/
def Next (L : CBaseList) (h : Heap V) (pos : Option Nat) : Option (Option Nat) :=
  match pos with
  | none => some L.m_pFirst
  | some pn => (h pn).map Node.next

/-- Null is behind the last node. -/
def Prev (L : CBaseList) (h : Heap V) (pos : Option Nat) : Option (Option Nat) :=
  match pos with
  | none => some L.m_pLast
  | some pn => (h pn).map Node.prev

/-- The object at a position, and the next position. -/
def GetNextI (h : Heap V) (rp : Option Nat) : Option (Option V × Option Nat) :=
  match rp with
  | none => some (none, none)
  | some pn => (h pn).map fun n => (some n.data, n.next)

/-- The loop over `GetNextI` from a position, with the positions it passes. -/
def traverse : Nat → Heap V → Option Nat → Option (List (Nat × V))
  | _, _, none => some []
  | 0, _, some _ => none
  | n + 1, h, some p => do
    let (pObject, pos) ← GetNextI h (some p)
    let v ← pObject
    let l ← traverse n h pos
    some ((p, v) :: l)

/-- The loop over `Prev`. -/
def reverseTraverse : Nat → Heap V → Option Nat → Option (List (Nat × V))
  | _, _, none => some []
  | 0, _, some _ => none
  | n + 1, h, some p => do
    let node ← h p
    let l ← reverseTraverse n h node.prev
    some ((p, node.data) :: l)

/-- The nodes of a cache, as its destructor meets them. -/
def cached : Nat → Heap V → Option Nat → Option (List Nat)
  | _, _, none => some []
  | 0, _, some _ => none
  | n + 1, h, some p => do
    let node ← h p
    let l ← cached n h node.next
    some (p :: l)

/-! ## One list in the heap -/

/-- `own` says of every node which list has it, and whether in its cache. The list `k` is `l`,
each node with its object, and has the nodes `s` in its cache. -/
structure Holds (h : Heap V) (own : Nat → Option (ι × Bool)) (k : ι) (L : CBaseList) (l : List (Nat × V))
    (s : List Nat) : Prop where
  chain : Chain h none l none
  head : L.m_pFirst = first l none
  tail : L.m_pLast = last l none
  count : L.m_Count = l.length
  cache : Stack h L.m_Cache.m_pHead s
  used : L.m_Cache.m_iUsed = s.length
  fits : s.length ≤ L.m_Cache.m_iCacheSize.toNat
  nodup : (ptrs l).Nodup
  nodupCache : s.Nodup
  inList : ∀ x, own x = some (k, false) ↔ x ∈ ptrs l
  inCache : ∀ x, own x = some (k, true) ↔ x ∈ s

/-- Exactly the owned nodes are allocated, each at an address of the machine. -/
structure Allocated (addresses : Nat) (h : Heap V) (own : Nat → Option (ι × Bool)) : Prop where
  owned : ∀ x, (h x).isSome = (own x).isSome
  bound : ∀ x, (h x).isSome → x < addresses

/-- What the other lists see of a step on the lists `K`: nothing. -/
structure Frame (K : ι → Prop) (h h' : Heap V) (own own' : Nat → Option (ι × Bool)) : Prop where
  heap : ∀ x j b, ¬K j → own x = some (j, b) → h' x = h x
  own : ∀ x j b, ¬K j → (own' x = some (j, b) ↔ own x = some (j, b))

/-- `new` returns memory that is not in use. -/
def NewOk (addresses : Nat) (h : Heap V) : New V → Prop
  | none => True
  | some (p, _) => h p = none ∧ p < addresses

variable {h h' : Heap V} {own own' : Nat → Option (ι × Bool)} {k : ι} {L L' : CBaseList} {l l₁ l₂ : List (Nat × V)}
  {s s' : List Nat} {addresses p : Nat} {v : V} {new : New V}

theorem Holds.not_mem (hL : Holds h own k L l s) {x : Nat} (hx : x ∈ s) : x ∉ ptrs l := by
  intro hl
  have h1 := (hL.inCache x).2 hx
  rw [(hL.inList x).2 hl] at h1
  cases h1

/-- Another list stays as it was. -/
theorem Holds.frame {j : ι} {K : ι → Prop} (hL : Holds h own j L l s) (hf : Frame K h h' own own') (hjk : ¬K j) :
    Holds h' own' j L l s where
  chain := hL.chain.congr fun x hx => hf.heap x j false hjk ((hL.inList x).2 hx)
  head := hL.head
  tail := hL.tail
  count := hL.count
  cache := hL.cache.congr fun x hx => hf.heap x j true hjk ((hL.inCache x).2 hx)
  used := hL.used
  fits := hL.fits
  nodup := hL.nodup
  nodupCache := hL.nodupCache
  inList x := (hf.own x j false hjk).trans (hL.inList x)
  inCache x := (hf.own x j true hjk).trans (hL.inCache x)

/-- A chain has no more nodes than there are addresses. -/
theorem Holds.length_le (hL : Holds h own k L l s) (ha : Allocated addresses h own) : l.length ≤ addresses := by
  have hsub : ptrs l ⊆ List.range addresses := by
    intro x hx
    exact List.mem_range.2 (ha.bound x (hL.chain.isSome hx))
  have hle := (hL.nodup.subperm hsub).length_le
  simpa [ptrs] using hle

/-! ## Nodes for the additions -/

/-- The node in hand: it is in no list and in no cache, and the list has it no
longer in its own. -/
structure Taken (addresses : Nat) (h h' : Heap V) (own : Nat → Option (ι × Bool)) (k : ι) (L : CBaseList) (s s' : List Nat)
    (p : Nat) : Prop where
  isSome : (h' p).isSome
  same : ∀ x, x ≠ p → h' x = h x
  cache : Stack h' L.m_Cache.m_pHead s'
  used : L.m_Cache.m_iUsed = s'.length
  fits : s'.length ≤ L.m_Cache.m_iCacheSize.toNat
  nodupCache : s'.Nodup
  mem : ∀ x, x ∈ s' ↔ x ∈ s ∧ x ≠ p
  own : own p = some (k, true) ∨ own p = none
  bound : p < addresses

theorem getNode_spec (hL : Holds h own k L l s) (ha : Allocated addresses h own) (hnew : NewOk addresses h new) :
    (L.nodeFor new = none ∧ L.getNode h new = some (L, h, none)) ∨
    ∃ m_Cache h' s' p, L.nodeFor new = some p ∧ L.getNode h new = some ({ L with m_Cache }, h', some p) ∧
      Taken addresses h h' own k { L with m_Cache } s s' p := by
  have hcache := hL.cache
  unfold getNode nodeFor CNodeCache.RemoveFromCache
  cases s with
  | nil =>
    have hnone : L.m_Cache.m_pHead = none := hcache
    rw [hnone]
    cases new with
    | none => exact .inl ⟨rfl, rfl⟩
    | some n =>
      obtain ⟨p, n⟩ := n
      obtain ⟨hp, hb⟩ := hnew
      have hown : own p = none := by
        have := ha.owned p
        rw [hp] at this
        simpa using this.symm
      refine .inr ⟨L.m_Cache, h.put p n, [], p, rfl, rfl, ⟨by simp, fun x hx => Heap.put_ne _ _ hx, hnone, hL.used, hL.fits,
        List.nodup_nil, ?_, .inr hown, hb⟩⟩
      simp
  | cons p s =>
    obtain ⟨hhead, n, hn, htail⟩ := hcache
    obtain ⟨hps, hs⟩ := List.nodup_cons.1 hL.nodupCache
    have hused := hL.used
    have hfits := hL.fits
    simp only [List.length_cons] at hused hfits
    rw [hhead]
    simp only [hn, Option.bind_eq_bind, Option.bind_some]
    refine .inr ⟨_, h, s, p, rfl, rfl, ⟨by simp [hn], fun _ _ => rfl, htail, ?_, ?_, hs, ?_,
      .inl ((hL.inCache p).2 List.mem_cons_self), ?_⟩⟩
    · change L.m_Cache.m_iUsed - 1 = _
      omega
    · change s.length ≤ L.m_Cache.m_iCacheSize.toNat
      omega
    · intro x
      constructor
      · intro hx
        exact ⟨List.mem_cons_of_mem _ hx, fun he => hps (he ▸ hx)⟩
      · rintro ⟨hx, hne⟩
        exact (List.mem_cons.1 hx).resolve_left hne
    · exact ha.bound p (by rw [hn]; rfl)

theorem Taken.ne (ht : Taken addresses h h' own k L' s s' p) {x : Nat} {j : ι} {b : Bool} (hx : own x = some (j, b))
    (hj : j = k → b = false) : x ≠ p := by
  rintro rfl
  rcases ht.own with ho | ho <;> rw [ho] at hx <;> cases hx
  cases hj rfl

/-- The node has been linked into the chain. -/
theorem Taken.added {h₁ : Heap V} {L₁ M : CBaseList} (hL : Holds h own k L (l₁ ++ l₂) s) (ha : Allocated addresses h own)
    (ht : Taken addresses h h₁ own k L₁ s s' p) (hchain : Chain h' none (l₁ ++ (p, v) :: l₂) none)
    (hsame : ∀ x, x ≠ p → x ∉ ptrs (l₁ ++ l₂) → h' x = h₁ x) (hsome : ∀ x, (h' x).isSome = (h₁ x).isSome)
    (hcache : M.m_Cache = L₁.m_Cache) (hcount : M.m_Count = L.m_Count + 1)
    (hfirst : M.m_pFirst = first (l₁ ++ (p, v) :: l₂) none) (hlast : M.m_pLast = last (l₁ ++ (p, v) :: l₂) none) :
    ∃ own', Holds h' own' k M (l₁ ++ (p, v) :: l₂) s' ∧ Allocated addresses h' own' ∧ Frame (· = k) h h' own own' := by
  have hp : p ∉ ptrs (l₁ ++ l₂) := fun hmem => ht.ne ((hL.inList p).2 hmem) (fun _ => rfl) rfl
  have hmem : ∀ x, x ∈ ptrs (l₁ ++ (p, v) :: l₂) ↔ x = p ∨ x ∈ ptrs (l₁ ++ l₂) := by
    intro x
    simp only [ptrs_append, ptrs_cons, List.mem_append, List.mem_cons]
    exact or_left_comm
  refine ⟨fun x => if x = p then some (k, false) else own x, ?_, ?_, ?_⟩
  · refine ⟨hchain, hfirst, hlast, ?_, ?_, by rw [hcache]; exact ht.used, by rw [hcache]; exact ht.fits, ?_,
      ht.nodupCache, fun x => ?_, fun x => ?_⟩
    · rw [hcount, hL.count]
      simp only [List.length_append, List.length_cons]
      omega
    · rw [hcache]
      refine ht.cache.congr fun x hx => ?_
      obtain ⟨hxs, hxp⟩ := (ht.mem x).1 hx
      exact hsame x hxp (hL.not_mem hxs)
    · have hnodup := hL.nodup
      simp only [ptrs_append, ptrs_cons, List.mem_append, not_or] at hnodup hp ⊢
      rw [List.nodup_middle, List.nodup_cons, List.mem_append, not_or]
      exact ⟨hp, hnodup⟩
    · by_cases hxp : x = p
      · simp [hxp]
      · rw [if_neg hxp, hmem, hL.inList]
        simp [hxp]
    · by_cases hxp : x = p
      · have := (ht.mem p).not.2 (by simp)
        simp [hxp, this]
      · rw [if_neg hxp, hL.inCache, ht.mem]
        simp [hxp]
  · refine ⟨fun x => ?_, fun x hx => ?_⟩
    · by_cases hxp : x = p
      · rw [hxp, hsome, ht.isSome, if_pos rfl]
        rfl
      · rw [if_neg hxp, hsome, ht.same x hxp, ha.owned]
    · by_cases hxp : x = p
      · exact hxp ▸ ht.bound
      · rw [hsome, ht.same x hxp] at hx
        exact ha.bound x hx
  · refine ⟨fun x j b hj hx => ?_, fun x j b hj => ?_⟩
    · have hxp : x ≠ p := ht.ne hx fun he => absurd he hj
      rw [hsame x hxp, ht.same x hxp]
      intro hl
      rw [(hL.inList x).2 hl] at hx
      cases hx
      exact hj rfl
    · by_cases hxp : x = p
      · rw [if_pos hxp]
        constructor
        · rintro ⟨⟩
          exact absurd rfl hj
        · intro hx
          exact absurd hxp (ht.ne hx fun he => absurd he hj)
      · rw [if_neg hxp]

/-- The writes that link a node in hand between two pieces of the chain. -/
theorem Taken.link {h₁ : Heap V} {L₁ : CBaseList} (hL : Holds h own k L (l₁ ++ l₂) s)
    (ht : Taken addresses h h₁ own k L₁ s s' p) (v : V) :
    ∃ h₂ h₃ h₄, initNode h₁ p v (last l₁ none) (first l₂ none) = some h₂ ∧
      h₂.setPrev? (first l₂ none) (some p) = some h₃ ∧ h₃.setNext? (last l₁ none) (some p) = some h₄ ∧
      Chain h₄ none (l₁ ++ (p, v) :: l₂) none ∧ (∀ x, x ≠ p → x ∉ ptrs (l₁ ++ l₂) → h₄ x = h₁ x) ∧
      ∀ x, (h₄ x).isSome = (h₁ x).isSome := by
  have hp : p ∉ ptrs (l₁ ++ l₂) := fun hmem => ht.ne ((hL.inList p).2 hmem) (fun _ => rfl) rfl
  obtain ⟨n, hn⟩ := Option.isSome_iff_exists.1 ht.isSome
  have hinit : initNode h₁ p v (last l₁ none) (first l₂ none) = some (h₁.put p ⟨last l₁ none, first l₂ none, v⟩) := by
    simp [initNode, Heap.setData, Heap.setPrev, Heap.setNext, hn]
  have hsame₂ : ∀ x ∈ ptrs (l₁ ++ l₂), h₁.put p ⟨last l₁ none, first l₂ none, v⟩ x = h x := by
    intro x hx
    have hxp : x ≠ p := fun he => hp (he ▸ hx)
    rw [Heap.put_ne _ _ hxp, ht.same x hxp]
  obtain ⟨hc₁, hc₂⟩ := hL.chain.split
  have hnodup := hL.nodup
  rw [ptrs_append] at hnodup hsame₂ hp
  obtain ⟨h₃, h₄, hs₃, hs₄, hl₁, hl₂, hsame, hsome⟩ := Chain.relink'
    (hc₁.congr fun x hx => hsame₂ x (List.mem_append_left _ hx))
    (hc₂.congr fun x hx => hsame₂ x (List.mem_append_right _ hx)) hnodup (some p) (some p)
  simp only [List.mem_append, not_or] at hp
  refine ⟨_, h₃, h₄, hinit, hs₃, hs₄, ?_, ?_, ?_⟩
  · rw [chain_append]
    refine ⟨hl₁, ?_, hl₂⟩
    rw [hsame p hp.1 hp.2, Heap.put_self]
  · intro x hx hxl
    rw [ptrs_append, List.mem_append, not_or] at hxl
    rw [hsame x hxl.1 hxl.2, Heap.put_ne _ _ hx]
  · intro x
    rw [hsome]
    by_cases hx : x = p
    · rw [hx, Heap.put_self, hn]
      rfl
    · rw [Heap.put_ne _ _ hx]

/-! ## One operation on one list -/

/-- An addition between two pieces of the list: there was no node for it, or the
node stands between them. -/
def Added (addresses : Nat) (h : Heap V) (own : Nat → Option (ι × Bool)) (k : ι) (L : CBaseList) (new : New V)
    (l₁ l₂ : List (Nat × V)) (v : V) (r : Option (CBaseList × Heap V × Option Nat)) : Prop :=
  (L.nodeFor new = none ∧ r = some (L, h, none)) ∨
  ∃ L' h' own' s' p, L.nodeFor new = some p ∧ r = some (L', h', some p) ∧ (∀ i, own p ≠ some (i, false)) ∧ Holds h' own' k L' (l₁ ++ (p, v) :: l₂) s' ∧
    Allocated addresses h' own' ∧ Frame (· = k) h h' own own'

theorem Taken.own_ne (ht : Taken addresses h h' own k L' s s' p) (i : ι) : own p ≠ some (i, false) := by
  intro ho
  rcases ht.own with h1 | h1 <;> rw [h1] at ho <;> cases ho

theorem AddTailI_spec (hL : Holds h own k L l s) (ha : Allocated addresses h own) (hnew : NewOk addresses h new) (v : V) :
    Added addresses h own k L new l [] v (L.AddTailI h v new) := by
  unfold AddTailI
  rcases getNode_spec hL ha hnew with ⟨hnode, hg⟩ | ⟨m_Cache, h₁, s', p, hnode, hg, ht⟩
  · rw [hg]
    exact .inl ⟨hnode, rfl⟩
  · rw [hg]
    have hL' : Holds h own k L (l ++ []) s := by rw [List.append_nil]; exact hL
    obtain ⟨h₂, h₃, h₄, hi, hs₃, hs₄, hchain, hsame, hsome⟩ := ht.link hL' v
    cases hs₃
    simp only [Option.bind_eq_bind, Option.bind_some, hL.tail]
    rw [show initNode h₁ p v (last l none) none = some h₂ from hi]
    simp only [Option.bind_some, hs₄]
    have hfirst : (if last l none = none then some p else L.m_pFirst) = first (l ++ [(p, v)]) none := by
      rw [first_append, hL.head]
      cases l with
      | nil => rfl
      | cons x l =>
        have hne : last (x :: l) none ≠ none := by
          obtain ⟨l', q, w, he⟩ := last_eq_some (List.cons_ne_nil x l)
          rw [he]
          simp
        rw [if_neg hne]
        rfl
    obtain ⟨own', hholds, halloc, hframe⟩ := ht.added hL' ha hchain hsame hsome
      (M := { L with
        m_Cache, m_pFirst := if last l none = none then some p else L.m_pFirst, m_pLast := some p, m_Count := L.m_Count + 1 })
      rfl rfl hfirst (by simp)
    exact .inr ⟨_, h₄, own', s', p, hnode, rfl, ht.own_ne, hholds, halloc, hframe⟩

theorem AddHeadI_spec (hL : Holds h own k L l s) (ha : Allocated addresses h own) (hnew : NewOk addresses h new) (v : V) :
    Added addresses h own k L new [] l v (L.AddHeadI h v new) := by
  unfold AddHeadI
  rcases getNode_spec hL ha hnew with ⟨hnode, hg⟩ | ⟨m_Cache, h₁, s', p, hnode, hg, ht⟩
  · rw [hg]
    exact .inl ⟨hnode, rfl⟩
  · rw [hg]
    have hL' : Holds h own k L ([] ++ l) s := hL
    obtain ⟨h₂, h₃, h₄, hi, hs₃, hs₄, hchain, hsame, hsome⟩ := ht.link hL' v
    cases hs₄
    simp only [Option.bind_eq_bind, Option.bind_some, hL.head]
    rw [show initNode h₁ p v none (first l none) = some h₂ from hi]
    simp only [Option.bind_some, hs₃]
    have hlast : (if first l none = none then some p else L.m_pLast) = last ((p, v) :: l) none := by
      cases l with
      | nil => rfl
      | cons x l => exact hL.tail
    obtain ⟨own', hholds, halloc, hframe⟩ := ht.added hL' ha hchain hsame hsome
      (M := { L with
        m_Cache, m_pFirst := some p, m_pLast := if first l none = none then some p else L.m_pLast, m_Count := L.m_Count + 1 })
      rfl rfl rfl hlast
    exact .inr ⟨_, h₃, own', s', p, hnode, rfl, ht.own_ne, hholds, halloc, hframe⟩

theorem chainIn_spec {q r : Nat} {w u : V} {m : List (Nat × V)}
    (hL : Holds h own k L ((l ++ [(q, w)]) ++ (r, u) :: m) s) (ha : Allocated addresses h own)
    (hnew : NewOk addresses h new) (v : V) :
    Added addresses h own k L new (l ++ [(q, w)]) ((r, u) :: m) v (L.chainIn h q r v new) := by
  unfold chainIn
  rcases getNode_spec hL ha hnew with ⟨hnode, hg⟩ | ⟨m_Cache, h₁, s', p, hnode, hg, ht⟩
  · rw [hg]
    exact .inl ⟨hnode, rfl⟩
  · rw [hg]
    obtain ⟨h₂, h₃, h₄, hi, hs₃, hs₄, hchain, hsame, hsome⟩ := ht.link hL v
    simp only [last_append, last_cons, last_nil, first_cons] at hi hs₃ hs₄
    simp only [Heap.setPrev?, Heap.setNext?] at hs₃ hs₄
    simp only [Option.bind_eq_bind, Option.bind_some, hi, hs₃, hs₄]
    obtain ⟨own', hholds, halloc, hframe⟩ := ht.added hL ha hchain hsame hsome
      (M := { L with m_Cache, m_Count := L.m_Count + 1 }) rfl rfl (hL.head.trans (by simp)) (hL.tail.trans (by simp))
    exact .inr ⟨_, h₄, own', s', p, hnode, rfl, ht.own_ne, hholds, halloc, hframe⟩

theorem AddAfterI_spec {q : Nat} {w : V} {m : List (Nat × V)} (hL : Holds h own k L (l ++ (q, w) :: m) s)
    (ha : Allocated addresses h own) (hnew : NewOk addresses h new) (v : V) :
    Added addresses h own k L new (l ++ [(q, w)]) m v (L.AddAfterI h (some q) v new) := by
  have htail := hL.tail
  rw [last_append, last_cons] at htail
  unfold AddAfterI
  cases m with
  | nil =>
    simp only [htail, last_nil, if_true]
    exact AddTailI_spec hL ha hnew v
  | cons x m =>
    obtain ⟨r, u⟩ := x
    have hne : L.m_pLast ≠ some q := by
      obtain ⟨z, hz, he⟩ := last_mem (some q) (List.cons_ne_nil (r, u) m)
      rw [htail, he]
      rintro ⟨⟩
      have hnodup := hL.nodup
      rw [ptrs_append, ptrs_cons, List.nodup_append] at hnodup
      exact (List.nodup_cons.1 hnodup.2.1).1 hz
    simp only [if_neg hne, hL.chain.at, first_cons, Option.bind_eq_bind, Option.bind_some]
    have hL' : Holds h own k L ((l ++ [(q, w)]) ++ (r, u) :: m) s := by simpa using hL
    exact chainIn_spec hL' ha hnew v

theorem AddBeforeI_spec {q : Nat} {w : V} {m : List (Nat × V)} (hL : Holds h own k L (l ++ (q, w) :: m) s)
    (ha : Allocated addresses h own) (hnew : NewOk addresses h new) (v : V) :
    Added addresses h own k L new l ((q, w) :: m) v (L.AddBeforeI h (some q) v new) := by
  have hhead := hL.head
  rw [first_append] at hhead
  unfold AddBeforeI
  by_cases hnil : l = []
  · subst hnil
    simp only [hhead, first_nil, first_cons, if_true]
    exact AddHeadI_spec hL ha hnew v
  · obtain ⟨l', r, u, rfl⟩ := last_eq_some hnil
    have hne : L.m_pFirst ≠ some q := by
      intro he
      have hmem : q ∈ ptrs (l' ++ [(r, u)]) := by
        cases l' with
        | nil =>
          rw [hhead] at he
          cases he
          simp
        | cons x l' =>
          obtain ⟨z, u'⟩ := x
          rw [hhead] at he
          cases he
          simp
      have hnodup := hL.nodup
      rw [ptrs_append, List.nodup_append] at hnodup
      exact hnodup.2.2 q hmem q List.mem_cons_self rfl
    simp only [if_neg hne, hL.chain.at, last_append, last_cons, last_nil, Option.bind_eq_bind, Option.bind_some]
    exact chainIn_spec hL ha hnew v

/-- A node goes back to the cache, or to the system. -/
theorem AddToCache_spec {c : CNodeCache} {n : Node V} (hn : h p = some n) (hs : Stack h c.m_pHead s)
    (hused : c.m_iUsed = s.length) (hfits : s.length ≤ c.m_iCacheSize.toNat) (hp : p ∉ s) :
    ∃ c' h' s', c.AddToCache h p = some (c', h') ∧ Stack h' c'.m_pHead s' ∧ c'.m_iUsed = s'.length ∧
      s'.length ≤ c'.m_iCacheSize.toNat ∧ (∀ x, x ≠ p → h' x = h x) ∧
      ((s' = p :: s ∧ (h' p).isSome) ∨ (s' = s ∧ h' p = none)) := by
  unfold CNodeCache.AddToCache
  by_cases hlt : c.m_iUsed < c.m_iCacheSize
  · rw [if_pos hlt]
    have hsame : ∀ x ∈ s, h.put p { n with next := c.m_pHead } x = h x := by
      intro x hx
      exact Heap.put_ne _ _ fun he => hp (he ▸ hx)
    refine ⟨{ c with m_pHead := some p, m_iUsed := c.m_iUsed + 1 }, h.put p { n with next := c.m_pHead }, p :: s,
      by simp [Heap.setNext, hn], ⟨rfl, _, Heap.put_self _ _ _, hs.congr hsame⟩, ?_, ?_,
      fun x hx => Heap.put_ne _ _ hx, .inl ⟨rfl, by simp⟩⟩
    · simp [hused]
    · simp only [List.length_cons]
      omega
  · rw [if_neg hlt]
    refine ⟨c, h.free p, s, by simp [hn], hs.congr fun x hx => Heap.free_ne _ fun he => hp (he ▸ hx), hused, hfits,
      fun x hx => Heap.free_ne _ hx, .inr ⟨rfl, by simp⟩⟩

theorem RemoveI_spec {q : Nat} {w : V} {m : List (Nat × V)} (hL : Holds h own k L (l ++ (q, w) :: m) s)
    (ha : Allocated addresses h own) :
    ∃ L' h' own' s', L.RemoveI h (some q) = some (L', h', some w) ∧ Holds h' own' k L' (l ++ m) s' ∧
      Allocated addresses h' own' ∧ Frame (· = k) h h' own own' := by
  have hq := hL.chain.at
  have hnodup := hL.nodup
  rw [ptrs_append, ptrs_cons, List.nodup_middle, List.nodup_cons, List.mem_append, not_or] at hnodup
  obtain ⟨⟨hql, hqm⟩, hlm⟩ := hnodup
  have hqs : q ∉ s := fun hmem => hL.not_mem hmem (by simp)
  obtain ⟨hc₁, -, hc₂⟩ := chain_append.1 hL.chain
  obtain ⟨h₁, h₂, hs₁, hs₂, hl₁, hl₂, hsame₁, hsame, hsome⟩ := hc₁.relink hc₂ hlm (first m none) (last l none)
  have hchain : Chain h₂ none (l ++ m) none := chain_append.2 ⟨hl₁, hl₂⟩
  have hq₁ : h₁ q = h q := hsame₁ q hql
  have hq₂ : h₂ q = h q := hsame q hql hqm
  -- The nodes of the cache are not among those written.
  have hcache₂ : Stack h₂ L.m_Cache.m_pHead s := by
    refine hL.cache.congr fun x hx => hsame x ?_ ?_
    · intro hxl
      exact hL.not_mem hx (by simp [hxl])
    · intro hxm
      exact hL.not_mem hx (by simp [hxm])
  obtain ⟨c', h', s', hadd, hstack, hused, hfits, hsame', hnode⟩ :=
    AddToCache_spec (hq₂.trans hq) hcache₂ hL.used hL.fits hqs
  have hs' : ∀ x, x ∈ s' → x = q ∨ x ∈ s := by
    intro x hx
    rcases hnode with ⟨rfl, -⟩ | ⟨rfl, -⟩
    · exact List.mem_cons.1 hx
    · exact .inr hx
  refine ⟨{ m_pFirst := if last l none = none then first m none else L.m_pFirst
            m_pLast := if first m none = none then last l none else L.m_pLast
            m_Cache := c', m_Count := L.m_Count - 1 }, h',
    fun x => if x = q then (if q ∈ s' then some (k, true) else none) else own x, s', ?_, ?_, ?_, ?_⟩
  · simp only [RemoveI, hq, Option.bind_eq_bind, Option.bind_some, hs₁, hq₁, hs₂, hq₂]
    by_cases h1 : last l none = none <;> by_cases h2 : first m none = none <;> simp [h1, h2, hadd]
  · refine ⟨hchain.congr fun x hx => hsame' x ?_, ?_, ?_, ?_, hstack, hused, hfits, by rw [ptrs_append]; exact hlm, ?_,
      fun x => ?_, fun x => ?_⟩
    · rintro rfl
      rw [ptrs_append, List.mem_append] at hx
      exact hx.elim hql hqm
    · have hhead := hL.head
      rw [first_append] at hhead ⊢
      cases l with
      | nil => rfl
      | cons y l =>
        obtain ⟨z, -, he⟩ := last_mem none (List.cons_ne_nil y l)
        rw [if_neg (by rw [he]; nofun), hhead]
        rfl
    · have htail := hL.tail
      rw [last_append, last_cons] at htail
      rw [last_append]
      cases m with
      | nil => rfl
      | cons y m => exact htail
    · have hcount := hL.count
      simp only [List.length_append, List.length_cons] at hcount ⊢
      omega
    · rcases hnode with ⟨rfl, -⟩ | ⟨rfl, -⟩
      · exact List.nodup_cons.2 ⟨hqs, hL.nodupCache⟩
      · exact hL.nodupCache
    · by_cases hx : x = q
      · subst hx
        rw [if_pos rfl, ptrs_append, List.mem_append]
        split <;> simp [hql, hqm]
      · rw [if_neg hx, hL.inList]
        simp [hx]
    · by_cases hx : x = q
      · subst hx
        rw [if_pos rfl]
        split <;> simp [*]
      · rw [if_neg hx, hL.inCache]
        rcases hnode with ⟨rfl, -⟩ | ⟨rfl, -⟩
        · simp [hx]
        · exact Iff.rfl
  · have hown : ∀ x, (h' x).isSome =
        (if x = q then (if q ∈ s' then some (k, true) else none) else own x : Option (ι × Bool)).isSome := by
      intro x
      by_cases hx : x = q
      · subst hx
        rw [if_pos rfl]
        rcases hnode with ⟨rfl, hsm⟩ | ⟨rfl, hnone⟩
        · simp [hsm]
        · simp [hnone, hqs]
      · rw [if_neg hx, hsame' x hx, hsome, ha.owned]
    refine ⟨hown, fun x hx => ?_⟩
    by_cases hxq : x = q
    · exact ha.bound x (by rw [hxq, hq]; rfl)
    · rw [hsame' x hxq, hsome] at hx
      exact ha.bound x hx
  · have hne : ∀ x j b, ¬j = k → own x = some (j, b) → x ≠ q := by
      rintro x j b hj hx rfl
      rw [(hL.inList x).2 (by simp)] at hx
      cases hx
      exact hj rfl
    refine ⟨fun x j b hj hx => ?_, fun x j b hj => ?_⟩
    · have hmem : ∀ y, y ∈ ptrs (l ++ (q, w) :: m) → x ≠ y := by
        rintro y hy rfl
        rw [(hL.inList x).2 hy] at hx
        cases hx
        exact hj rfl
      rw [hsame' x (hne x j b hj hx), hsame x ?_ ?_]
      · intro hxl
        exact hmem x (by simp [hxl]) rfl
      · intro hxm
        exact hmem x (by simp [hxm]) rfl
    · by_cases hx : x = q
      · rw [if_pos hx]
        constructor
        · intro ho
          split at ho
          · cases ho
            exact absurd rfl hj
          · cases ho
        · intro ho
          exact absurd hx (hne x j b hj ho)
      · rw [if_neg hx]

/-! ## Loops along the links -/

theorem deleteAll_spec {n : Nat} {b : Option Nat} (hc : Chain h b l none) (hnodup : (ptrs l).Nodup) (hn : l.length < n) :
    ∃ h', deleteAll n h (first l none) = some h' ∧ (∀ x ∈ ptrs l, h' x = none) ∧ ∀ x, x ∉ ptrs l → h' x = h x := by
  induction l generalizing n h b with
  | nil =>
    refine ⟨h, ?_, nofun, fun _ _ => rfl⟩
    cases n <;> rfl
  | cons y l ih =>
    obtain ⟨q, w⟩ := y
    obtain ⟨n, rfl⟩ := Nat.exists_eq_add_of_lt hn
    obtain ⟨hq, hl⟩ := List.nodup_cons.1 hnodup
    have hc' : Chain (h.free q) (some q) l none := by
      refine hc.2.congr fun x hx => Heap.free_ne _ ?_
      rintro rfl
      exact hq hx
    obtain ⟨h', hd, hnone, hsame⟩ := ih (n := (l.length + 1) + n) hc' hl (by omega)
    refine ⟨h', ?_, ?_, ?_⟩
    · rw [List.length_cons]
      simp only [first_cons, deleteAll, hc.1, Option.bind_eq_bind, Option.bind_some]
      exact hd
    · intro x hx
      by_cases hxq : x = q
      · rw [hxq, hsame q hq, Heap.free_self]
      · exact hnone x ((List.mem_cons.1 hx).resolve_left hxq)
    · intro x hx
      rw [ptrs_cons, List.mem_cons, not_or] at hx
      rw [hsame x hx.2, Heap.free_ne _ hx.1]

theorem countPrev_spec {n : Nat} {a : Option Nat} (hc : Chain h none l a) (hn : l.length < n) :
    countPrev n h (last l none) = some (l.length : Int) := by
  induction l using List.reverseRecOn generalizing n a with
  | nil => cases n <;> rfl
  | append_singleton l y ih =>
    obtain ⟨q, w⟩ := y
    rw [List.length_append, List.length_singleton] at hn ⊢
    obtain ⟨n, rfl⟩ := Nat.exists_eq_add_of_lt hn
    have hrest := ih (n := l.length + 1 + n) (chain_append.1 hc).1 (by omega)
    simp only [last_append, last_cons, last_nil, countPrev, hc.at, Option.bind_eq_bind, Option.bind_some, hrest]
    push_cast
    rfl

theorem countNext_spec {n : Nat} {b : Option Nat} (hc : Chain h b l none) (hn : l.length < n) :
    countNext n h (first l none) = some (l.length : Int) := by
  induction l generalizing n b with
  | nil => cases n <;> rfl
  | cons y l ih =>
    obtain ⟨q, w⟩ := y
    rw [List.length_cons] at hn ⊢
    obtain ⟨n, rfl⟩ := Nat.exists_eq_add_of_lt hn
    have hrest := ih (n := l.length + 1 + n) hc.2 (by omega)
    simp only [first_cons, countNext, hc.1, Option.bind_eq_bind, Option.bind_some, hrest]
    push_cast
    rfl

/-- The loop exchanges the links of every node. -/
theorem reverseLinks_spec {n : Nat} {b : Option Nat} (hc : Chain h b l none) (hnodup : (ptrs l).Nodup)
    (hn : l.length < n) :
    ∃ h', reverseLinks n h (first l none) = some h' ∧ (∀ x ∈ ptrs l, h' x = (h x).map Node.swap) ∧
      ∀ x, x ∉ ptrs l → h' x = h x := by
  induction l generalizing n h b with
  | nil =>
    refine ⟨h, ?_, nofun, fun _ _ => rfl⟩
    cases n <;> rfl
  | cons y l ih =>
    obtain ⟨q, w⟩ := y
    obtain ⟨n, rfl⟩ := Nat.exists_eq_add_of_lt hn
    obtain ⟨hq, hl⟩ := List.nodup_cons.1 hnodup
    have hc' : Chain (h.put q ⟨first l none, b, w⟩) (some q) l none := by
      refine hc.2.congr fun x hx => Heap.put_ne _ _ ?_
      rintro rfl
      exact hq hx
    obtain ⟨h', hr, hswap, hsame⟩ := ih (n := (l.length + 1) + n) hc' hl (by omega)
    refine ⟨h', ?_, ?_, ?_⟩
    · rw [List.length_cons]
      simp only [first_cons, reverseLinks, hc.1, Heap.setNext, Heap.setPrev, Option.map_some, Option.bind_eq_bind,
        Option.bind_some, Heap.put_self, Heap.put_put]
      exact hr
    · intro x hx
      by_cases hxq : x = q
      · rw [hxq, hsame q hq, Heap.put_self, hc.1]
        rfl
      · have hxl := (List.mem_cons.1 hx).resolve_left hxq
        rw [hswap x hxl, Heap.put_ne _ _ hxq]
    · intro x hx
      rw [ptrs_cons, List.mem_cons, not_or] at hx
      rw [hsame x hx.2, Heap.put_ne _ _ hx.1]

theorem RemoveAll_spec (hL : Holds h own k L l s) (ha : Allocated addresses h own) :
    ∃ L' h' own', L.RemoveAll h addresses = some (L', h') ∧ Holds h' own' k L' [] s ∧
      Allocated addresses h' own' ∧ Frame (· = k) h h' own own' := by
  obtain ⟨h', hd, hnone, hsame⟩ := deleteAll_spec hL.chain hL.nodup (Nat.lt_succ_of_le (hL.length_le ha))
  have hmem : ∀ x, (own x = some (k, false)) ↔ x ∈ ptrs l := hL.inList
  refine ⟨{ L with m_Count := 0, m_pFirst := none, m_pLast := none }, h',
    fun x => if x ∈ ptrs l then none else own x, ?_, ?_, ?_, ?_⟩
  · simp only [RemoveAll, hL.head, hd, Option.bind_eq_bind, Option.bind_some]
  · refine ⟨trivial, rfl, rfl, rfl, hL.cache.congr fun x hx => hsame x (hL.not_mem hx), hL.used, hL.fits, List.nodup_nil,
      hL.nodupCache, fun x => ?_, fun x => ?_⟩
    · by_cases hx : x ∈ ptrs l
      · simp [hx]
      · simp [hx, hmem]
    · by_cases hx : x ∈ ptrs l
      · have hns : x ∉ s := fun hs => hL.not_mem hs hx
        simp [hx, hns]
      · simp [hx, hL.inCache]
  · refine ⟨fun x => ?_, fun x hx => ?_⟩
    · by_cases hx : x ∈ ptrs l
      · simp [hx, hnone x hx]
      · simp [hx, hsame x hx, ha.owned]
    · by_cases hxl : x ∈ ptrs l
      · rw [hnone x hxl] at hx
        cases hx
      · rw [hsame x hxl] at hx
        exact ha.bound x hx
  · have hnot : ∀ x j b, ¬j = k → own x = some (j, b) → x ∉ ptrs l := by
      intro x j b hj hx hxl
      rw [(hmem x).2 hxl] at hx
      cases hx
      exact hj rfl
    refine ⟨fun x j b hj hx => hsame x (hnot x j b hj hx), fun x j b hj => ?_⟩
    by_cases hx : x ∈ ptrs l
    · simp only [if_pos hx]
      constructor
      · rintro ⟨⟩
      · intro ho
        exact absurd hx (hnot x j b hj ho)
    · rw [if_neg hx]

theorem Reverse_spec (hL : Holds h own k L l s) (ha : Allocated addresses h own) :
    ∃ L' h', L.Reverse h addresses = some (L', h') ∧ Holds h' own k L' l.reverse s ∧
      Allocated addresses h' own ∧ Frame (· = k) h h' own own := by
  obtain ⟨h', hr, hswap, hsame⟩ := reverseLinks_spec hL.chain hL.nodup (Nat.lt_succ_of_le (hL.length_le ha))
  have hsome : ∀ x, (h' x).isSome = (h x).isSome := by
    intro x
    by_cases hx : x ∈ ptrs l
    · rw [hswap x hx, Option.isSome_map]
    · rw [hsame x hx]
  refine ⟨{ L with m_pFirst := L.m_pLast, m_pLast := L.m_pFirst }, h', ?_, ?_, ?_, ?_⟩
  · simp only [Reverse, hL.head, hr, Option.bind_eq_bind, Option.bind_some]
  · refine ⟨hL.chain.swap hswap, ?_, ?_, ?_, hL.cache.congr fun x hx => hsame x (hL.not_mem hx), hL.used, hL.fits, ?_,
      hL.nodupCache, fun x => ?_, hL.inCache⟩
    · rw [first_reverse]; exact hL.tail
    · rw [last_reverse]; exact hL.head
    · rw [List.length_reverse]; exact hL.count
    · rw [ptrs_reverse]; exact List.nodup_reverse.2 hL.nodup
    · rw [ptrs_reverse, List.mem_reverse]; exact hL.inList x
  · exact ⟨fun x => (hsome x).trans (ha.owned x), fun x hx => ha.bound x (by rw [← hsome x]; exact hx)⟩
  · refine ⟨fun x j b hj hx => hsame x fun hxl => ?_, fun _ _ _ _ => Iff.rfl⟩
    rw [(hL.inList x).2 hxl] at hx
    cases hx
    exact hj rfl

/-! ## Walks -/

theorem traverse_spec {b : Option Nat} {n : Nat} (hc : Chain h b l none) (hn : l.length < n) :
    traverse n h (first l none) = some l := by
  induction l generalizing b n with
  | nil => cases n <;> rfl
  | cons x l ih =>
    obtain ⟨q, w⟩ := x
    obtain ⟨n, rfl⟩ : ∃ k, n = k + 1 := ⟨n - 1, by omega⟩
    have htail := ih hc.2 (by simpa using hn)
    simp [traverse, GetNextI, hc.1, htail]

theorem reverseTraverse_spec {a : Option Nat} {n : Nat} (hc : Chain h none l a) (hn : l.length < n) :
    reverseTraverse n h (last l none) = some l.reverse := by
  induction l using List.reverseRecOn generalizing a n with
  | nil => cases n <;> rfl
  | append_singleton l x ih =>
    obtain ⟨q, w⟩ := x
    obtain ⟨n, rfl⟩ : ∃ k, n = k + 1 := ⟨n - 1, by omega⟩
    have hinit := ih (chain_append.1 hc).1 (by simpa using hn)
    simp [reverseTraverse, hc.at, hinit]

theorem cached_spec {b : Option Nat} {n : Nat} (hs : Stack h b s) (hn : s.length < n) : cached n h b = some s := by
  induction s generalizing b n with
  | nil =>
    cases (hs : b = none)
    cases n <;> rfl
  | cons x s ih =>
    obtain ⟨rfl, node, hx, htail⟩ := hs
    obtain ⟨n, rfl⟩ : ∃ k, n = k + 1 := ⟨n - 1, by omega⟩
    have hrest := ih htail (by simpa using hn)
    simp [cached, hx, hrest]

theorem Holds.cache_length_le (hL : Holds h own k L l s) (ha : Allocated addresses h own) : s.length ≤ addresses := by
  have hsub : s ⊆ List.range addresses := by
    intro x hx
    have hsome : (h x).isSome := by
      rw [ha.owned, (hL.inCache x).2 hx]
      rfl
    exact List.mem_range.2 (ha.bound x hsome)
  simpa using (hL.nodupCache.subperm hsub).length_le

/-- Adding in front of a position is adding behind the one before it. -/
theorem Holds.AddBeforeI_eq (hL : Holds h own k L l s) {pos : Option Nat} (hpos : ∀ q, pos = some q → q ∈ ptrs l) :
    L.AddBeforeI h pos v new = (L.Prev h pos).bind fun q => L.AddAfterI h q v new := by
  cases pos with
  | none =>
    change L.AddTailI h v new = L.AddAfterI h L.m_pLast v new
    cases hlast : L.m_pLast with
    | some q => simp [AddAfterI, hlast]
    | none =>
      -- In an empty list the tail is the head.
      have hnil : l = [] := by
        by_contra hne
        obtain ⟨q, -, hq⟩ := last_mem none hne
        rw [hL.tail, hq] at hlast
        cases hlast
      have hfirst : L.m_pFirst = none := by rw [hL.head, hnil]; rfl
      have hget : ∀ r, L.getNode h new = some r → r.1.m_pFirst = none ∧ r.1.m_pLast = none := by
        intro r hr
        simp only [getNode, Option.bind_eq_bind, Option.bind_eq_some_iff] at hr
        obtain ⟨⟨c, pNode⟩, -, hr⟩ := hr
        cases pNode <;> cases new <;> cases hr <;> exact ⟨hfirst, hlast⟩
      simp only [AddAfterI, AddTailI, AddHeadI]
      cases hr : L.getNode h new with
      | none => rfl
      | some r =>
        obtain ⟨M, h₁, pNode⟩ := r
        obtain ⟨hM, hM'⟩ := hget _ hr
        simp only [Option.bind_eq_bind, Option.bind_some] at hM hM' ⊢
        cases pNode <;> simp [hM, hM', Heap.setNext?, Heap.setPrev?]
  | some q =>
    obtain ⟨l₁, w, m, rfl⟩ := ptrs_cut (hpos q rfl)
    have hat := hL.chain.at
    have hhead := hL.head
    rw [first_append] at hhead
    simp only [AddBeforeI, Prev, hat, Option.map_some, Option.bind_some]
    by_cases hnil : l₁ = []
    · subst hnil
      rw [if_pos (show L.m_pFirst = some q from hhead)]
      rfl
    · obtain ⟨l₂, r, u, rfl⟩ := last_eq_some hnil
      have hne : ¬L.m_pFirst = some q := by
        obtain ⟨y, hy, hfst⟩ := first_mem (first ((q, w) :: m) none) hnil
        rw [hfst] at hhead
        have hnodup := hL.nodup
        rw [ptrs_append, List.nodup_append] at hnodup
        rw [hhead]
        rintro ⟨⟩
        exact hnodup.2.2 _ hy _ List.mem_cons_self rfl
      have hlast : ¬L.m_pLast = some r := by
        have htail := hL.tail
        have hnodup := hL.nodup
        obtain ⟨z, hz, hzl⟩ := last_mem (last (l₂ ++ [(r, u)]) none) (List.cons_ne_nil (q, w) m)
        rw [last_append, hzl] at htail
        rw [ptrs_append, List.nodup_append] at hnodup
        rw [htail]
        rintro ⟨⟩
        exact hnodup.2.2 r (by simp) r hz rfl
      have hr : h r = some ⟨last l₂ none, some q, u⟩ := by
        have hc := hL.chain
        rw [List.append_assoc] at hc
        exact hc.at
      simp [hne, AddAfterI, hlast, hr]

/-! ## Nodes that go from one list to another -/

variable {i j : ι} {P : CBaseList} {m : List (Nat × V)} {t : List Nat}

/-- Two lists have no node in common. -/
theorem Holds.nodup_append (hL : Holds h own i L l s) (hP : Holds h own j P m t) (hij : i ≠ j) :
    (ptrs m ++ ptrs l).Nodup := by
  refine List.nodup_append.2 ⟨hP.nodup, hL.nodup, ?_⟩
  rintro x hxm y hyl rfl
  have h1 := (hP.inList x).2 hxm
  rw [(hL.inList x).2 hyl] at h1
  cases h1
  exact hij rfl

/-- After a move: of the nodes `l` the list keeps `l₁`, and `l₂` has gone to the
other list, which makes `m` into `m'`. -/
structure Moved (h h' : Heap V) (L L' P P' : CBaseList) (l l₁ l₂ m m' : List (Nat × V)) : Prop where
  chain : Chain h' none l₁ none
  chain' : Chain h' none m' none
  mem : ∀ x, x ∈ ptrs l ↔ x ∈ ptrs l₁ ∨ x ∈ ptrs l₂
  disjoint : ∀ x, x ∈ ptrs l₁ → x ∉ ptrs l₂
  mem' : ∀ x, x ∈ ptrs m' ↔ x ∈ ptrs m ∨ x ∈ ptrs l₂
  nodup : (ptrs l₁).Nodup
  nodup' : (ptrs m').Nodup
  same : ∀ x, x ∉ ptrs m → x ∉ ptrs l → h' x = h x
  isSome : ∀ x, (h' x).isSome = (h x).isSome
  head : L'.m_pFirst = first l₁ none
  tail : L'.m_pLast = last l₁ none
  count : L'.m_Count = l₁.length
  cache : L'.m_Cache = L.m_Cache
  head' : P'.m_pFirst = first m' none
  tail' : P'.m_pLast = last m' none
  count' : P'.m_Count = m'.length
  cache' : P'.m_Cache = P.m_Cache

theorem Moved.holds {P' : CBaseList} {m' : List (Nat × V)} (hv : Moved h h' L L' P P' l l₁ l₂ m m')
    (hL : Holds h own i L l s) (hP : Holds h own j P m t) (hij : i ≠ j) (ha : Allocated addresses h own) :
    ∃ own', Holds h' own' i L' l₁ s ∧ Holds h' own' j P' m' t ∧ Allocated addresses h' own' ∧
      Frame (fun x => x = i ∨ x = j) h h' own own' := by
  obtain ⟨hl₁, hmj, hmem, hdis, hmemj, hn₁, hnj, hsame, hsome, hfirst, hlast, hcount, hcache, hfirstj, hlastj, hcountj,
    hcachej⟩ := hv
  have hs : ∀ x ∈ s, x ∉ ptrs l ∧ x ∉ ptrs m := by
    refine fun x hx => ⟨hL.not_mem hx, fun hm => ?_⟩
    have h1 := (hL.inCache x).2 hx
    rw [(hP.inList x).2 hm] at h1
    cases h1
  have ht : ∀ x ∈ t, x ∉ ptrs l ∧ x ∉ ptrs m := by
    refine fun x hx => ⟨fun hm => ?_, hP.not_mem hx⟩
    have h1 := (hP.inCache x).2 hx
    rw [(hL.inList x).2 hm] at h1
    cases h1
  refine ⟨fun x => if x ∈ ptrs l₂ then some (j, false) else own x, ?_, ?_, ?_, ?_⟩
  · refine ⟨hl₁, hfirst, hlast, hcount, ?_, by rw [hcache]; exact hL.used, by rw [hcache]; exact hL.fits, hn₁,
      hL.nodupCache, fun x => ?_, fun x => ?_⟩
    · rw [hcache]
      exact hL.cache.congr fun x hx => hsame x (hs x hx).2 (hs x hx).1
    · by_cases hx : x ∈ ptrs l₂
      · have hno : x ∉ ptrs l₁ := fun h1 => hdis x h1 hx
        simp [hx, hno, Ne.symm hij]
      · rw [if_neg hx, hL.inList, hmem]
        simp [hx]
    · by_cases hx : x ∈ ptrs l₂
      · have hns : x ∉ s := fun hxs => (hs x hxs).1 ((hmem x).2 (.inr hx))
        simp [hx, hns]
      · rw [if_neg hx, hL.inCache]
  · refine ⟨hmj, hfirstj, hlastj, hcountj, ?_, by rw [hcachej]; exact hP.used, by rw [hcachej]; exact hP.fits, hnj,
      hP.nodupCache, fun x => ?_, fun x => ?_⟩
    · rw [hcachej]
      exact hP.cache.congr fun x hx => hsame x (ht x hx).2 (ht x hx).1
    · by_cases hx : x ∈ ptrs l₂
      · simp [hx, hmemj]
      · rw [if_neg hx, hP.inList, hmemj]
        simp [hx]
    · by_cases hx : x ∈ ptrs l₂
      · have hnt : x ∉ t := fun hxt => (ht x hxt).1 ((hmem x).2 (.inr hx))
        simp [hx, hnt]
      · rw [if_neg hx, hP.inCache]
  · refine ⟨fun x => ?_, fun x hx => ha.bound x (by rw [← hsome x]; exact hx)⟩
    rw [hsome, ha.owned]
    by_cases hx : x ∈ ptrs l₂
    · rw [if_pos hx, (hL.inList x).2 ((hmem x).2 (.inr hx))]
      rfl
    · rw [if_neg hx]
  · have hnot : ∀ x k b, ¬(k = i ∨ k = j) → own x = some (k, b) → x ∉ ptrs l ∧ x ∉ ptrs m := by
      intro x k b hk hx
      constructor
      · intro hl
        rw [(hL.inList x).2 hl] at hx
        cases hx
        exact hk (.inl rfl)
      · intro hm
        rw [(hP.inList x).2 hm] at hx
        cases hx
        exact hk (.inr rfl)
    refine ⟨fun x k b hk hx => hsame x (hnot x k b hk hx).2 (hnot x k b hk hx).1, fun x k b hk => ?_⟩
    by_cases hx : x ∈ ptrs l₂
    · simp only [if_pos hx]
      constructor
      · rintro ⟨⟩
        exact absurd (.inr rfl) hk
      · intro ho
        exact absurd ((hmem x).2 (.inr hx)) (hnot x k b hk ho).1
    · rw [if_neg hx]

theorem MoveToTail_spec {q : Nat} {w : V} {B : List (Nat × V)} (hL : Holds h own i L (l ++ (q, w) :: B) s)
    (hP : Holds h own j P m t) (hij : i ≠ j) (ha : Allocated addresses h own) :
    ∃ L' P' h' own', L.MoveToTail h addresses (some q) P = some (L', P', h') ∧ Holds h' own' i L' B s ∧
      Holds h' own' j P' (m ++ (l ++ [(q, w)])) t ∧ Allocated addresses h' own' ∧
      Frame (fun x => x = i ∨ x = j) h h' own own' := by
  have hlX : l ++ (q, w) :: B = (l ++ [(q, w)]) ++ B := by simp
  have hnodup := hL.nodup_append hP hij
  have hle := hL.length_le ha
  rw [hlX] at hL hnodup hle
  have hlastX : ∀ b : Option Nat, last (l ++ [(q, w)]) b = some q := by simp
  have hlenX : (l ++ [(q, w)]).length < addresses + 1 := by
    rw [List.length_append] at hle
    omega
  generalize hX : l ++ [(q, w)] = X at hL hnodup hlastX hlenX
  have hXne : X ≠ [] := by
    rintro rfl
    simp at hX
  have hcount := countPrev_spec hL.chain.split.1 hlenX
  rw [hlastX] at hcount
  -- The two chains become one, which is cut in another place.
  obtain ⟨h₁, h₂, hs₁, hs₂, hm₂, hl₂, -, hsame₂, hsome₂⟩ := hP.chain.relink hL.chain hnodup (first (X ++ B) none) (last m none)
  have hjoin : Chain h₂ none ((m ++ X) ++ B) none := by
    rw [List.append_assoc]
    exact chain_append.2 ⟨hm₂, hl₂⟩
  have hnodup' : (ptrs (m ++ X) ++ ptrs B).Nodup := by simpa using hnodup
  have hq : h₂ q = some ⟨last (m ++ l) none, first B none, w⟩ := by
    have hjoin' : Chain h₂ none ((m ++ l) ++ (q, w) :: B) none := by
      rw [← hX] at hjoin
      simpa using hjoin
    exact hjoin'.at
  obtain ⟨h₃, h₄, hs₃, hs₄, hm₄, hB₄, hsame₄, hsome₄⟩ := hjoin.split.1.relink' hjoin.split.2 hnodup' none none
  rw [last_append, hlastX] at hs₄
  have hfirstX : ∀ a b : Option Nat, first X a = first X b := by
    intro a b
    cases X with
    | nil => exact absurd rfl hXne
    | cons y X => rfl
  have hlenL := hL.count
  rw [List.length_append] at hlenL
  obtain ⟨hnX, hnB, hdis⟩ := List.nodup_append.1 hnodup'
  have hmoved : Moved h h₄ L
      { L with
        m_pFirst := first B none, m_pLast := if first B none = none then none else L.m_pLast
        m_Count := L.m_Count - X.length } P
      { P with
        m_pFirst := if P.m_pFirst = none then L.m_pFirst else P.m_pFirst, m_pLast := some q
        m_Count := P.m_Count + X.length } (X ++ B) B X m (m ++ X) := by
    refine ⟨hB₄, hm₄, fun x => by rw [ptrs_append, List.mem_append, or_comm], fun x hx hxX => ?_,
      fun x => by rw [ptrs_append, List.mem_append], hnB, hnX, fun x hxm hxl => ?_, fun x => by rw [hsome₄, hsome₂],
      rfl, ?_, ?_, rfl, ?_, ?_, ?_, rfl⟩
    · exact hdis x (by simp [hxX]) x hx rfl
    · rw [hsame₄, hsame₂ x hxm hxl]
      · rw [ptrs_append, List.mem_append, not_or] at hxl ⊢
        exact ⟨hxm, hxl.1⟩
      · rw [ptrs_append, List.mem_append, not_or] at hxl
        exact hxl.2
    · cases B with
      | nil => rfl
      | cons y B => exact hL.tail.trans (by rw [last_append]; rfl)
    · push_cast at hlenL
      dsimp only
      omega
    · dsimp only
      rw [hP.head, hL.head]
      cases m with
      | nil => simp [hfirstX none (first B none)]
      | cons y m => rfl
    · exact (by simp [hlastX] : some q = last (m ++ X) none)
    · have := hP.count
      dsimp only
      rw [List.length_append]
      push_cast
      omega
  obtain ⟨own', hL', hP', ha', hf⟩ := hmoved.holds hL hP hij ha
  refine ⟨_, _, h₄, own', ?_, hL', hP', ha', hf⟩
  rw [← hL.head, ← hP.tail] at hs₁ hs₂
  simp only [MoveToTail, hcount, hs₁, hs₂, hq, Option.bind_eq_bind, Option.bind_some]
  have hs₄' : h₃.setNext q none = some h₄ := hs₄
  by_cases hB : first B none = none <;> by_cases hPf : P.m_pFirst = none <;> simp [hB, hPf] at hs₃ ⊢ <;> simp [hs₃, hs₄']

theorem MoveToHead_spec {q : Nat} {w : V} {B : List (Nat × V)} (hL : Holds h own i L (l ++ (q, w) :: B) s)
    (hP : Holds h own j P m t) (hij : i ≠ j) (ha : Allocated addresses h own) :
    ∃ L' P' h' own', L.MoveToHead h addresses (some q) P = some (L', P', h') ∧ Holds h' own' i L' l s ∧
      Holds h' own' j P' ((q, w) :: B ++ m) t ∧ Allocated addresses h' own' ∧
      Frame (fun x => x = i ∨ x = j) h h' own own' := by
  have hnodup := hP.nodup_append hL hij.symm
  have hle := hL.length_le ha
  have hfirstX : ∀ a : Option Nat, first ((q, w) :: B) a = some q := fun _ => rfl
  have hlenX : ((q, w) :: B).length < addresses + 1 := by
    rw [List.length_append] at hle
    omega
  generalize hX : (q, w) :: B = X at hL hnodup hfirstX hlenX ⊢
  have hXne : X ≠ [] := by
    rintro rfl
    cases hX
  have hcount := countNext_spec hL.chain.split.2 hlenX
  rw [hfirstX] at hcount
  obtain ⟨h₁, h₂, hs₁, hs₂, hl₂, hm₂, hsame₂, hsome₂⟩ := hL.chain.relink' hP.chain hnodup (first m none) (last (l ++ X) none)
  have hjoin : Chain h₂ none (l ++ (X ++ m)) none := by
    rw [← List.append_assoc]
    exact chain_append.2 ⟨hl₂, hm₂⟩
  have hnodup' : (ptrs l ++ ptrs (X ++ m)).Nodup := by simpa using hnodup
  have hq : h₂ q = some ⟨last l none, first (B ++ m) none, w⟩ := by
    have hjoin' : Chain h₂ none (l ++ (q, w) :: (B ++ m)) none := by
      rw [← hX] at hjoin
      exact hjoin
    exact hjoin'.at
  obtain ⟨h₃, h₄, hs₃, hs₄, hl₄, hm₄, -, hsame₄, hsome₄⟩ := hjoin.split.1.relink hjoin.split.2 hnodup' none none
  rw [first_append, hfirstX] at hs₄
  have hlastX : ∀ a b : Option Nat, last X a = last X b := by
    intro a b
    cases X with
    | nil => exact absurd rfl hXne
    | cons y X => rfl
  have hlenL := hL.count
  rw [List.length_append] at hlenL
  obtain ⟨hnl, hnX, hdis⟩ := List.nodup_append.1 hnodup'
  have hmoved : Moved h h₄ L
      { L with
        m_pFirst := if last l none = none then none else L.m_pFirst, m_pLast := last l none
        m_Count := L.m_Count - X.length } P
      { P with
        m_pFirst := some q, m_pLast := if P.m_pLast = none then L.m_pLast else P.m_pLast
        m_Count := P.m_Count + X.length } (l ++ X) l X m (X ++ m) := by
    refine ⟨hl₄, hm₄, fun x => by rw [ptrs_append, List.mem_append], fun x hx hxX => ?_,
      fun x => by rw [ptrs_append, List.mem_append, or_comm], hnl, hnX, fun x hxm hxl => ?_,
      fun x => by rw [hsome₄, hsome₂], ?_, rfl, ?_, rfl, ?_, ?_, ?_, rfl⟩
    · exact hdis x hx x (by simp [hxX]) rfl
    · rw [ptrs_append, List.mem_append, not_or] at hxl
      rw [hsame₄ x hxl.1, hsame₂ x _ hxm]
      · rw [ptrs_append, List.mem_append, not_or]
        exact hxl
      · rw [ptrs_append, List.mem_append, not_or]
        exact ⟨hxl.2, hxm⟩
    · by_cases hnil : l = []
      · subst hnil
        rfl
      · obtain ⟨z, -, hz⟩ := last_mem none hnil
        rw [if_neg (by rw [hz]; nofun), hL.head, first_append]
        cases l with
        | nil => exact absurd rfl hnil
        | cons y l => rfl
    · push_cast at hlenL
      dsimp only
      omega
    · exact (by rw [first_append, hfirstX] : some q = first (X ++ m) none)
    · dsimp only
      rw [hP.tail, hL.tail, last_append, last_append, hlastX (last l none) none]
      by_cases hnil : m = []
      · subst hnil
        rfl
      · obtain ⟨z, -, hz⟩ := last_mem none hnil
        rw [if_neg (by rw [hz]; nofun)]
        cases m with
        | nil => exact absurd rfl hnil
        | cons y m => rfl
    · have := hP.count
      dsimp only
      rw [List.length_append]
      push_cast
      omega
  obtain ⟨own', hL', hP', ha', hf⟩ := hmoved.holds hL hP hij ha
  refine ⟨_, _, h₄, own', ?_, hL', hP', ha', hf⟩
  rw [← hL.tail, ← hP.head] at hs₁ hs₂
  simp only [MoveToHead, hcount, hs₁, hs₂, hq, Option.bind_eq_bind, Option.bind_some]
  have hs₄' : h₃.setPrev q none = some h₄ := hs₄
  by_cases hl : last l none = none <;> by_cases hPl : P.m_pLast = none <;> simp [hl, hPl] at hs₃ ⊢ <;> simp [hs₃, hs₄']

end CBaseList

end FilterSln
