import Mathlib.Data.List.Basic
import Mathlib.Data.List.Nodup
import Mathlib.Tactic.Common
/-!
# Doubly linked chains in a heap

`Chain h before l after`: the nodes `l`, each with its address and its data,
follow one another in the heap, with `before` in front of the first and `after`
behind the last of them. What is written at other addresses leaves a chain alone
(`Chain.congr`); two pieces join into one (`chain_append`); and the ends can be
relinked (`Chain.setNext`, `Chain.setPrev`).

`Stack` is the chain that only uses the links forward.
-/

namespace Lib

/-- A node of a chain. -/
structure Node (V : Type) where
  prev : Option Nat
  next : Option Nat
  data : V
  deriving DecidableEq

/-- The nodes by address; `none` where none is allocated. -/
def Heap (V : Type) : Type := Nat → Option (Node V)

variable {V : Type}

namespace Heap

def empty : Heap V := fun _ => none

def put (h : Heap V) (p : Nat) (n : Node V) : Heap V := fun x => if x = p then some n else h x

def free (h : Heap V) (p : Nat) : Heap V := fun x => if x = p then none else h x

/-- Writes to a node that is allocated. -/
def setPrev (h : Heap V) (p : Nat) (q : Option Nat) : Option (Heap V) :=
  (h p).map fun n => h.put p { n with prev := q }

def setNext (h : Heap V) (p : Nat) (q : Option Nat) : Option (Heap V) :=
  (h p).map fun n => h.put p { n with next := q }

def setData (h : Heap V) (p : Nat) (v : V) : Option (Heap V) :=
  (h p).map fun n => h.put p { n with data := v }

@[simp] theorem put_self (h : Heap V) (p : Nat) (n : Node V) : h.put p n p = some n := if_pos rfl

@[simp] theorem put_ne (h : Heap V) {p x : Nat} (n : Node V) (hx : x ≠ p) : h.put p n x = h x := if_neg hx

@[simp] theorem free_self (h : Heap V) (p : Nat) : h.free p p = none := if_pos rfl

@[simp] theorem free_ne (h : Heap V) {p x : Nat} (hx : x ≠ p) : h.free p x = h x := if_neg hx

@[simp] theorem put_put (h : Heap V) (p : Nat) (m n : Node V) : (h.put p m).put p n = h.put p n := by
  funext x
  by_cases hx : x = p
  · rw [hx, put_self, put_self]
  · rw [put_ne _ _ hx, put_ne _ _ hx, put_ne _ _ hx]

end Heap

/-- The address of the first node, or of what is behind an empty chain. -/
def first : List (Nat × V) → Option Nat → Option Nat
  | [], after => after
  | (p, _) :: _, _ => some p

/-- The address of the last node, or of what is in front of an empty chain. -/
def last : List (Nat × V) → Option Nat → Option Nat
  | [], before => before
  | (p, _) :: l, _ => last l (some p)

/-- The addresses of a chain. -/
def ptrs (l : List (Nat × V)) : List Nat := l.map Prod.fst

def Chain (h : Heap V) : Option Nat → List (Nat × V) → Option Nat → Prop
  | _, [], _ => True
  | before, (p, v) :: l, after => h p = some ⟨before, first l after, v⟩ ∧ Chain h (some p) l after

variable {h h' : Heap V} {before after : Option Nat} {l m : List (Nat × V)} {p q : Nat} {v : V}

@[simp] theorem first_nil : first ([] : List (Nat × V)) after = after := rfl
@[simp] theorem first_cons : first ((p, v) :: l) after = some p := rfl
@[simp] theorem last_nil : last ([] : List (Nat × V)) before = before := rfl
@[simp] theorem last_cons : last ((p, v) :: l) before = last l (some p) := rfl
@[simp] theorem ptrs_nil : ptrs ([] : List (Nat × V)) = [] := rfl
@[simp] theorem ptrs_cons : ptrs ((p, v) :: l) = p :: ptrs l := rfl
@[simp] theorem ptrs_append : ptrs (l ++ m) = ptrs l ++ ptrs m := List.map_append
@[simp] theorem ptrs_reverse : ptrs l.reverse = (ptrs l).reverse := List.map_reverse

@[simp] theorem first_append : first (l ++ m) after = first l (first m after) := by
  cases l <;> rfl

@[simp] theorem last_append : last (l ++ m) before = last m (last l before) := by
  induction l generalizing before with
  | nil => rfl
  | cons x l ih => exact ih

theorem first_reverse : first l.reverse after = last l after := by
  induction l generalizing after with
  | nil => rfl
  | cons x l ih =>
    obtain ⟨p, v⟩ := x
    rw [List.reverse_cons, first_append, ih]
    rfl

theorem last_reverse : last l.reverse before = first l before := by
  cases l with
  | nil => rfl
  | cons x l =>
    rw [List.reverse_cons, last_append]
    rfl

theorem last_eq_some (hl : l ≠ []) : ∃ l' p v, l = l' ++ [(p, v)] := by
  obtain ⟨l', x, rfl⟩ := List.eq_nil_or_concat l |>.resolve_left hl
  exact ⟨l', x.1, x.2, by simp⟩

theorem last_mem (before : Option Nat) (hl : l ≠ []) : ∃ p ∈ ptrs l, last l before = some p := by
  obtain ⟨l', p, v, rfl⟩ := last_eq_some hl
  exact ⟨p, by simp, by simp⟩

theorem first_mem (after : Option Nat) (hl : l ≠ []) : ∃ p ∈ ptrs l, first l after = some p := by
  cases l with
  | nil => exact absurd rfl hl
  | cons x l => exact ⟨x.1, List.mem_cons_self, rfl⟩

theorem ptrs_cut (hp : p ∈ ptrs l) : ∃ l₁ v l₂, l = l₁ ++ (p, v) :: l₂ := by
  obtain ⟨⟨q, v⟩, hx, rfl⟩ := List.mem_map.1 hp
  obtain ⟨l₁, l₂, rfl⟩ := List.append_of_mem hx
  exact ⟨l₁, v, l₂, rfl⟩

theorem chain_append : Chain h before (l ++ m) after ↔
    Chain h before l (first m after) ∧ Chain h (last l before) m after := by
  induction l generalizing before with
  | nil => simp [Chain]
  | cons x l ih =>
    obtain ⟨p, v⟩ := x
    simp only [List.cons_append, Chain, ih, first_append, last_cons, and_assoc]

/-- A chain depends on its own nodes only. -/
theorem Chain.congr (hc : Chain h before l after) (hh : ∀ x ∈ ptrs l, h' x = h x) : Chain h' before l after := by
  induction l generalizing before with
  | nil => trivial
  | cons x l ih =>
    obtain ⟨p, v⟩ := x
    refine ⟨(hh p List.mem_cons_self).trans hc.1, ih hc.2 fun x hx => hh x (List.mem_cons_of_mem _ hx)⟩

theorem Chain.isSome (hc : Chain h before l after) (hp : p ∈ ptrs l) : (h p).isSome := by
  induction l generalizing before with
  | nil => cases hp
  | cons x l ih =>
    obtain ⟨q, v⟩ := x
    rcases List.mem_cons.1 hp with rfl | hp
    · rw [hc.1]
      rfl
    · exact ih hc.2 hp

/-- The node at a place of the chain. -/
theorem Chain.at (hc : Chain h before (l ++ (p, v) :: m) after) :
    h p = some ⟨last l before, first m after, v⟩ := (chain_append.1 hc).2.1

/-- Another node behind the chain. -/
theorem Chain.setNext (hc : Chain h before (l ++ [(p, v)]) after) (hp : p ∉ ptrs l) (q : Option Nat) :
    ∃ h', h.setNext p q = some h' ∧ Chain h' before (l ++ [(p, v)]) q ∧ ∀ x, x ≠ p → h' x = h x := by
  refine ⟨h.put p ⟨last l before, q, v⟩, by rw [Heap.setNext, hc.at]; rfl, ?_, fun x hx => Heap.put_ne _ _ hx⟩
  rw [chain_append] at hc ⊢
  refine ⟨hc.1.congr fun x hx => Heap.put_ne _ _ ?_, by simp, trivial⟩
  rintro rfl
  exact hp hx

/-- Another node in front of the chain. -/
theorem Chain.setPrev (hc : Chain h before ((p, v) :: l) after) (hp : p ∉ ptrs l) (q : Option Nat) :
    ∃ h', h.setPrev p q = some h' ∧ Chain h' q ((p, v) :: l) after ∧ ∀ x, x ≠ p → h' x = h x := by
  refine ⟨h.put p ⟨q, first l after, v⟩, by rw [Heap.setPrev, hc.1]; rfl, ⟨by simp, ?_⟩, fun x hx => Heap.put_ne _ _ hx⟩
  refine hc.2.congr fun x hx => Heap.put_ne _ _ ?_
  rintro rfl
  exact hp hx

/-! ## Links that may lead nowhere -/

/-- A write through a pointer, unless it is null. -/
def Heap.setNext? (h : Heap V) (p q : Option Nat) : Option (Heap V) :=
  match p with
  | none => some h
  | some p => h.setNext p q

def Heap.setPrev? (h : Heap V) (p q : Option Nat) : Option (Heap V) :=
  match p with
  | none => some h
  | some p => h.setPrev p q

theorem Chain.setLast (hc : Chain h none l after) (hl : (ptrs l).Nodup) (q : Option Nat) :
    ∃ h', h.setNext? (last l none) q = some h' ∧ Chain h' none l q ∧
      (∀ x, x ∉ ptrs l → h' x = h x) ∧ ∀ x, (h' x).isSome = (h x).isSome := by
  by_cases hnil : l = []
  · subst hnil
    exact ⟨h, rfl, trivial, fun _ _ => rfl, fun _ => rfl⟩
  · obtain ⟨l', p, v, rfl⟩ := last_eq_some hnil
    have hp : p ∉ ptrs l' := by
      rw [ptrs_append, List.nodup_append] at hl
      intro hmem
      exact hl.2.2 p hmem p List.mem_cons_self rfl
    obtain ⟨h', hs, hc', hsame⟩ := hc.setNext hp q
    refine ⟨h', by simpa [Heap.setNext?] using hs, hc', fun x hx => hsame x ?_, fun x => ?_⟩
    · rintro rfl
      exact hx (by simp)
    · by_cases hx : x = p
      · rw [hx, hc'.isSome (by simp), hc.isSome (by simp)]
      · rw [hsame x hx]

theorem Chain.setFirst (hc : Chain h before l none) (hl : (ptrs l).Nodup) (q : Option Nat) :
    ∃ h', h.setPrev? (first l none) q = some h' ∧ Chain h' q l none ∧
      (∀ x, x ∉ ptrs l → h' x = h x) ∧ ∀ x, (h' x).isSome = (h x).isSome := by
  cases l with
  | nil => exact ⟨h, rfl, trivial, fun _ _ => rfl, fun _ => rfl⟩
  | cons y l =>
    obtain ⟨p, v⟩ := y
    obtain ⟨hp, -⟩ := List.nodup_cons.1 hl
    obtain ⟨h', hs, hc', hsame⟩ := hc.setPrev hp q
    refine ⟨h', hs, hc', fun x hx => hsame x ?_, fun x => ?_⟩
    · rintro rfl
      exact hx List.mem_cons_self
    · by_cases hx : x = p
      · rw [hx, hc'.isSome List.mem_cons_self, hc.isSome List.mem_cons_self]
      · rw [hsame x hx]

/-- The end of one chain and the start of another are linked anew: joined, cut, or
led to a node between them. -/
theorem Chain.relink (hl : Chain h none l after) (hm : Chain h before m none) (hn : (ptrs l ++ ptrs m).Nodup)
    (x y : Option Nat) :
    ∃ h₁ h₂, h.setNext? (last l none) x = some h₁ ∧ h₁.setPrev? (first m none) y = some h₂ ∧
      Chain h₂ none l x ∧ Chain h₂ y m none ∧ (∀ z, z ∉ ptrs l → h₁ z = h z) ∧
      (∀ z, z ∉ ptrs l → z ∉ ptrs m → h₂ z = h z) ∧ ∀ z, (h₂ z).isSome = (h z).isSome := by
  obtain ⟨hnl, hnm, hdis⟩ := List.nodup_append.1 hn
  obtain ⟨h₁, hs₁, hc₁, hsame₁, hsome₁⟩ := hl.setLast hnl x
  have hm₁ : Chain h₁ before m none := hm.congr fun z hz => hsame₁ z fun hzl => hdis z hzl z hz rfl
  obtain ⟨h₂, hs₂, hc₂, hsame₂, hsome₂⟩ := hm₁.setFirst hnm y
  refine ⟨h₁, h₂, hs₁, hs₂, hc₁.congr fun z hz => hsame₂ z fun hzm => hdis z hz z hzm rfl, hc₂, hsame₁, ?_, ?_⟩
  · intro z hzl hzm
    rw [hsame₂ z hzm, hsame₁ z hzl]
  · intro z
    rw [hsome₂, hsome₁]

/-- The two writes in the other order. -/
theorem Chain.relink' (hl : Chain h none l after) (hm : Chain h before m none) (hn : (ptrs l ++ ptrs m).Nodup)
    (x y : Option Nat) :
    ∃ h₁ h₂, h.setPrev? (first m none) y = some h₁ ∧ h₁.setNext? (last l none) x = some h₂ ∧
      Chain h₂ none l x ∧ Chain h₂ y m none ∧ (∀ z, z ∉ ptrs l → z ∉ ptrs m → h₂ z = h z) ∧
      ∀ z, (h₂ z).isSome = (h z).isSome := by
  obtain ⟨hnl, hnm, hdis⟩ := List.nodup_append.1 hn
  obtain ⟨h₁, hs₁, hc₁, hsame₁, hsome₁⟩ := hm.setFirst hnm y
  have hl₁ : Chain h₁ none l after := hl.congr fun z hz => hsame₁ z fun hzm => hdis z hz z hzm rfl
  obtain ⟨h₂, hs₂, hc₂, hsame₂, hsome₂⟩ := hl₁.setLast hnl x
  refine ⟨h₁, h₂, hs₁, hs₂, hc₂, hc₁.congr fun z hz => hsame₂ z fun hzl => hdis z hzl z hz rfl, ?_, ?_⟩
  · intro z hzl hzm
    rw [hsame₂ z hzl, hsame₁ z hzm]
  · intro z
    rw [hsome₂, hsome₁]

/-- The links in the middle of a chain. -/
theorem Chain.split (hc : Chain h none (l ++ m) none) :
    Chain h none l (first m none) ∧ Chain h (last l none) m none := chain_append.1 hc

/-! ## Turning a chain round -/

/-- The node with its two links exchanged. -/
def Node.swap (n : Node V) : Node V := ⟨n.next, n.prev, n.data⟩

theorem Chain.swap (hc : Chain h before l after) (hh : ∀ x ∈ ptrs l, h' x = (h x).map Node.swap) :
    Chain h' after l.reverse before := by
  induction l generalizing before with
  | nil => trivial
  | cons x l ih =>
    obtain ⟨p, v⟩ := x
    rw [List.reverse_cons, chain_append, last_reverse]
    refine ⟨ih hc.2 fun x hx => hh x (List.mem_cons_of_mem _ hx), ?_, trivial⟩
    rw [hh p List.mem_cons_self, hc.1]
    rfl

/-! ## Links forward only -/

def Stack (h : Heap V) : Option Nat → List Nat → Prop
  | p, [] => p = none
  | p, q :: l => p = some q ∧ ∃ n, h q = some n ∧ Stack h n.next l

theorem Stack.congr {l : List Nat} {p : Option Nat} (hs : Stack h p l) (hh : ∀ x ∈ l, h' x = h x) : Stack h' p l := by
  induction l generalizing p with
  | nil => exact hs
  | cons q l ih =>
    obtain ⟨rfl, n, hn, htail⟩ := hs
    exact ⟨rfl, n, (hh q List.mem_cons_self).trans hn, ih htail fun x hx => hh x (List.mem_cons_of_mem _ hx)⟩

end Lib
