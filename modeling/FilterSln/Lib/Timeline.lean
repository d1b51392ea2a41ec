import Mathlib.Data.List.Nodup
import Mathlib.Order.Lattice
import Mathlib.Tactic.Common
/-!
# Intervals that tile a stretch of time

`Tiles a l b`: the intervals `l`, each with its start and its end, follow one
another from `a` to `b`. Then every moment in between lies in exactly one of
them (`Tiles.covers`), so there is neither a gap nor an overlap.

A count that goes on from one piece of a sequence to the next starts again in
every piece only if one piece has it all (`restarts_iff`).
-/

namespace Lib

variable {τ : Type} [LinearOrder τ]

/-- The intervals follow one another from `a` to `b`. -/
def Tiles (a : τ) : List (τ × τ) → τ → Prop
  | [], b => a = b
  | (start, stop) :: l, b => start = a ∧ start < stop ∧ Tiles stop l b

variable {a b c t : τ} {l : List (τ × τ)}

theorem Tiles.le (h : Tiles a l b) : a ≤ b := by
  induction l generalizing a with
  | nil => exact h.le
  | cons i l ih =>
    obtain ⟨rfl, hlt, htail⟩ := h
    exact hlt.le.trans (ih htail)

/-- One more interval from where the others end. -/
theorem Tiles.snoc (h : Tiles a l b) (hbc : b < c) : Tiles a (l ++ [(b, c)]) c := by
  induction l generalizing a with
  | nil =>
    cases h
    exact ⟨rfl, hbc, rfl⟩
  | cons i l ih =>
    obtain ⟨rfl, hlt, htail⟩ := h
    exact ⟨rfl, hlt, ih htail⟩

theorem Tiles.le_start (h : Tiles a l b) {k : Nat} {i : τ × τ} (hk : l[k]? = some i) : a ≤ i.1 := by
  induction l generalizing a k with
  | nil => simp at hk
  | cons j l ih =>
    obtain ⟨rfl, hlt, htail⟩ := h
    cases k with
    | zero => cases hk; exact le_refl _
    | succ k => exact hlt.le.trans (ih htail hk)

/-- Every moment between the ends lies in exactly one of the intervals. -/
theorem Tiles.covers (h : Tiles a l b) (ha : a ≤ t) (hb : t < b) :
    ∃! k : Nat, ∃ i, l[k]? = some i ∧ i.1 ≤ t ∧ t < i.2 := by
  induction l generalizing a with
  | nil =>
    cases h
    exact absurd (ha.trans_lt hb) (lt_irrefl _)
  | cons i l ih =>
    obtain ⟨rfl, hlt, htail⟩ := h
    rcases lt_or_ge t i.2 with ht | ht
    · -- The first interval, since all others start at its end or later.
      refine ⟨0, ⟨i, rfl, ha, ht⟩, ?_⟩
      rintro (- | k) ⟨j, hj, hin⟩
      · rfl
      · exact absurd ((htail.le_start hj).trans hin.1) (not_le.2 ht)
    · obtain ⟨k, ⟨j, hj, hin⟩, huniq⟩ := ih htail ht
      refine ⟨k + 1, ⟨j, hj, hin⟩, ?_⟩
      rintro (- | k') ⟨j', hj', hin'⟩
      · cases hj'
        exact absurd ht (not_le.2 hin'.2)
      · rw [huniq k' ⟨j', hj', hin'⟩]

/-- Intervals that each stop where `f` says are determined by the ends. -/
theorem Tiles.functional {f : τ → τ} {l' : List (τ × τ)} (h : Tiles a l b) (h' : Tiles a l' b)
    (hn : ∀ i ∈ l, i.2 = f i.1) (hn' : ∀ i ∈ l', i.2 = f i.1) : l = l' := by
  induction l generalizing a l' with
  | nil =>
    cases h
    cases l' with
    | nil => rfl
    | cons j l' =>
      obtain ⟨rfl, hlt, htail⟩ := h'
      exact absurd (hlt.trans_le htail.le) (lt_irrefl _)
  | cons i l ih =>
    obtain ⟨rfl, hlt, htail⟩ := h
    cases l' with
    | nil =>
      cases h'
      exact absurd (hlt.trans_le htail.le) (lt_irrefl _)
    | cons j l' =>
      obtain ⟨hstart, -, htail'⟩ := h'
      have hstop : j.2 = i.2 := by rw [hn' j List.mem_cons_self, hn i List.mem_cons_self, hstart]
      rw [hstop] at htail'
      have hrest := ih htail htail' (fun x hx => hn x (List.mem_cons_of_mem _ hx))
        fun x hx => hn' x (List.mem_cons_of_mem _ hx)
      rw [hrest, Prod.ext hstart hstop]

/-! ## A count in pieces -/

section Restarts

variable {β : Type} {f : Nat → β} {n : Nat}

/-- The one piece that is not empty is the whole. -/
theorem flatten_single {ps : List (List β)} {p : List β} (h : ps.Pairwise fun a b => a = [] ∨ b = []) (hp : p ∈ ps)
    (hne : p ≠ []) : ps.flatten = p := by
  induction ps with
  | nil => cases hp
  | cons q ps ih =>
    obtain ⟨hq, hps⟩ := List.pairwise_cons.1 h
    rw [List.flatten_cons]
    rcases List.mem_cons.1 hp with rfl | hp
    · have hrest : ps.flatten = [] := List.flatten_eq_nil_iff.2 fun b hb => (hq b hb).resolve_left hne
      rw [hrest, List.append_nil]
    · rw [(hq p hp).resolve_right hne, List.nil_append]
      exact ih hps hp

/-- The pieces of a count all start from the beginning exactly when at most one of
them is not empty. -/
theorem restarts_iff (hf : Function.Injective f) {ps : List (List β)} (h : ps.flatten = (List.range n).map f) :
    (∀ p ∈ ps, p = (List.range p.length).map f) ↔ ps.Pairwise fun a b => a = [] ∨ b = [] := by
  constructor
  · intro hall
    have hnodup : ps.flatten.Nodup := by
      rw [h]
      exact List.Nodup.map hf List.nodup_range
    refine (List.nodup_flatten.1 hnodup).2.imp_of_mem fun {a b} ha hb hdisj => ?_
    -- Two pieces with elements would both have the first one.
    by_contra hne
    obtain ⟨hane, hbne⟩ := not_or.1 hne
    have hzero : ∀ p ∈ ps, p ≠ [] → f 0 ∈ p := by
      intro p hp hpne
      rw [hall p hp, List.mem_map]
      exact ⟨0, List.mem_range.2 (List.length_pos_iff.2 hpne), rfl⟩
    exact hdisj (hzero a ha hane) (hzero b hb hbne)
  · intro hpair p hp
    by_cases hne : p = []
    · rw [hne]
      rfl
    · have hp' := flatten_single hpair hp hne
      rw [hp'] at h
      rw [h]
      simp

end Restarts

end Lib
