import Mathlib.Data.List.Basic
import Mathlib.Tactic.Common
/-!
# Computations that read behind a pointer

A `Peek` is a computation that may read memory at offsets from a pointer. The
machine runs it on whatever lies there (`Peek.run`, with the offsets it reads).
On a block of known length it can be checked instead: `Peek.checked` stops at the
first read outside the block.

The two agree (`Peek.inside_iff`, `Peek.run_of_checked`): whatever lies behind the
block, the machine reads only offsets of the block exactly when the check gets
through, and then both have the same result.
-/

namespace Lib

inductive Peek (β α : Type) where
  | ret (a : α)
  | read (off : Nat) (k : β → Peek β α)

namespace Peek

variable {α β γ : Type}

def bind : Peek β α → (α → Peek β γ) → Peek β γ
  | ret a, f => f a
  | read off k, f => read off fun b => (k b).bind f

instance : Monad (Peek β) where
  pure := ret
  bind := bind

/-- The element at an offset. -/
def get (off : Nat) : Peek β β := read off ret

/-- The result on a memory, and the offsets read, in order. -/
def run (mem : Nat → β) : Peek β α → α × List Nat
  | ret a => (a, [])
  | read off k => (((k (mem off)).run mem).1, off :: ((k (mem off)).run mem).2)

/-- The result on a block; `none` when a read leaves it. -/
def checked (p : List β) : Peek β α → Option α
  | ret a => some a
  | read off k => p[off]?.bind fun b => (k b).checked p

/-- The block lies at the start of the memory. -/
def Extends (mem : Nat → β) (p : List β) : Prop := ∀ i b, p[i]? = some b → mem i = b

/-- Whatever lies behind the block, every offset read is one of the block. -/
def ReadsInside (r : Peek β α) (p : List β) : Prop :=
  ∀ mem, Extends mem p → ∀ off ∈ (r.run mem).2, off < p.length

variable {p : List β} {mem : Nat → β} {r : Peek β α}

@[simp] theorem checked_pure (p : List β) (a : α) : (pure a : Peek β α).checked p = some a := rfl

@[simp] theorem checked_bind (p : List β) (r : Peek β α) (f : α → Peek β γ) :
    (r >>= f).checked p = (r.checked p).bind fun a => (f a).checked p := by
  show (r.bind f).checked p = _
  induction r with
  | ret a => rfl
  | read off k ih => cases h : p[off]? <;> simp [Peek.bind, checked, h, ih]

@[simp] theorem checked_get (p : List β) (off : Nat) : (get off : Peek β β).checked p = p[off]? := by
  cases h : p[off]? <;> simp [get, checked, h]

/-- A computation that the check lets through has the same result on the machine. -/
theorem run_of_checked (hm : Extends mem p) {a : α} (h : r.checked p = some a) : (r.run mem).1 = a := by
  induction r with
  | ret b =>
    cases h
    rfl
  | read off k ih =>
    obtain ⟨b, hb, h⟩ := Option.bind_eq_some_iff.1 h
    rw [run, hm off b hb]
    exact ih b h

theorem inside_iff (hm : Extends mem p) : (∀ off ∈ (r.run mem).2, off < p.length) ↔ (r.checked p).isSome = true := by
  induction r with
  | ret a => simp [run, checked]
  | read off k ih =>
    rw [run, List.forall_mem_cons, ih]
    rcases Nat.lt_or_ge off p.length with hlt | hge
    · have hget : p[off]? = some (mem off) := by
        rw [List.getElem?_eq_getElem hlt, hm off _ (List.getElem?_eq_getElem hlt)]
      rw [checked, hget, Option.bind_some]
      simp [hlt]
    · -- The check stops here, whatever the rest would read.
      simp [checked, Nat.not_lt.2 hge]

theorem Extends.exists [Inhabited β] (p : List β) : ∃ mem, Extends mem p :=
  ⟨fun i => p[i]?.getD default, fun i b hb => by simp [hb]⟩

theorem readsInside_iff [Inhabited β] : ReadsInside r p ↔ (r.checked p).isSome = true := by
  constructor
  · intro h
    obtain ⟨mem, hm⟩ := Extends.exists p
    exact (inside_iff hm).1 (h mem hm)
  · intro h mem hm
    exact (inside_iff hm).2 h

end Peek

end Lib
