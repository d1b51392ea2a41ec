import FilterSln.WxList
import Mathlib.Logic.Function.Basic
/-!
# Any number of lists

The lists of a program, in one heap, under any operations on them. Beside the
heap runs what the lists are meant to be: sequences of positions with their
objects (`apply`). A run is `Valid` when a position handed to a list is null or
one of its own, and a move goes to another list.

Then no operation reads or writes through a bad pointer, each one answers as the
sequences do (`ops_answer`), and a walk along the links finds the sequence, in
both directions (`walk_objects`). No node is in two places, and none is lost:
what is allocated is in one list or in one cache (`nodes_once`).
-/

namespace FilterSln

open Lib CBaseList

variable {ι V : Type} [DecidableEq ι]

structure Lists (ι V : Type) where
  heap : Heap V
  list : ι → CBaseList

inductive ListOp (ι V : Type) where
  | AddTail (i : ι) (pObject : V) (new : New V)
  | AddHead (i : ι) (pObject : V) (new : New V)
  | AddAfter (i : ι) (pos : Option Nat) (pObj : V) (new : New V)
  | AddBefore (i : ι) (pos : Option Nat) (pObj : V) (new : New V)
  | Remove (i : ι) (pos : Option Nat)
  | RemoveHead (i : ι)
  | RemoveTail (i : ι)
  | RemoveAll (i : ι)
  | MoveToTail (i : ι) (pos : Option Nat) (pList : ι)
  | MoveToHead (i : ι) (pos : Option Nat) (pList : ι)
  | Reverse (i : ι)

/-- What a call returns: a position, an object, or nothing of interest. -/
inductive Answer (V : Type) where
  | position (pos : Option Nat)
  | object (pObject : Option V)
  | done
  deriving DecidableEq

namespace Lists

def new (iItems : ι → Int) : Lists ι V := ⟨.empty, fun i => .new (iItems i)⟩

def set (w : Lists ι V) (i : ι) (L : CBaseList) (h : Heap V) : Lists ι V := ⟨h, Function.update w.list i L⟩

def step (addresses : Nat) (w : Lists ι V) : ListOp ι V → Option (Lists ι V × Answer V)
  | .AddTail i pObject new => do
    let (L, h, pos) ← (w.list i).AddTailI w.heap pObject new
    some (w.set i L h, .position pos)
  | .AddHead i pObject new => do
    let (L, h, pos) ← (w.list i).AddHeadI w.heap pObject new
    some (w.set i L h, .position pos)
  | .AddAfter i pos pObj new => do
    let (L, h, pos) ← (w.list i).AddAfterI w.heap pos pObj new
    some (w.set i L h, .position pos)
  | .AddBefore i pos pObj new => do
    let (L, h, pos) ← (w.list i).AddBeforeI w.heap pos pObj new
    some (w.set i L h, .position pos)
  | .Remove i pos => do
    let (L, h, pObject) ← (w.list i).RemoveI w.heap pos
    some (w.set i L h, .object pObject)
  | .RemoveHead i => do
    let (L, h, pObject) ← (w.list i).RemoveHeadI w.heap
    some (w.set i L h, .object pObject)
  | .RemoveTail i => do
    let (L, h, pObject) ← (w.list i).RemoveTailI w.heap
    some (w.set i L h, .object pObject)
  | .RemoveAll i => do
    let (L, h) ← (w.list i).RemoveAll w.heap addresses
    some (w.set i L h, .done)
  | .MoveToTail i pos j => do
    let (L, P, h) ← (w.list i).MoveToTail w.heap addresses pos (w.list j)
    some ((w.set i L h).set j P h, .done)
  | .MoveToHead i pos j => do
    let (L, P, h) ← (w.list i).MoveToHead w.heap addresses pos (w.list j)
    some ((w.set i L h).set j P h, .done)
  | .Reverse i => do
    let (L, h) ← (w.list i).Reverse w.heap addresses
    some (w.set i L h, .done)

end Lists

/-! ## What the lists are meant to be -/

/-- The sequence of every list: positions with their objects. -/
abbrev Sequences (ι V : Type) : Type := ι → List (Nat × V)

/-- The sequence in front of a position, and the one from it on. -/
def front (q : Nat) (l : List (Nat × V)) : List (Nat × V) := l.takeWhile fun x => x.1 ≠ q

def back (q : Nat) (l : List (Nat × V)) : List (Nat × V) := l.dropWhile fun x => x.1 ≠ q

namespace Sequences

/-- The sequences after an operation with this answer. -/
def apply (a : Sequences ι V) : ListOp ι V → Answer V → Sequences ι V
  | .AddTail i v _, .position (some p) => Function.update a i (a i ++ [(p, v)])
  | .AddHead i v _, .position (some p) => Function.update a i ((p, v) :: a i)
  | .AddAfter i none v _, .position (some p) => Function.update a i ((p, v) :: a i)
  | .AddAfter i (some q) v _, .position (some p) =>
    Function.update a i (front q (a i) ++ (back q (a i)).take 1 ++ (p, v) :: (back q (a i)).drop 1)
  | .AddBefore i none v _, .position (some p) => Function.update a i (a i ++ [(p, v)])
  | .AddBefore i (some q) v _, .position (some p) => Function.update a i (front q (a i) ++ (p, v) :: back q (a i))
  | .Remove i (some q), _ => Function.update a i (front q (a i) ++ (back q (a i)).drop 1)
  | .RemoveHead i, _ => Function.update a i (a i).tail
  | .RemoveTail i, _ => Function.update a i (a i).dropLast
  | .RemoveAll i, _ => Function.update a i []
  | .MoveToTail i (some q) j, _ =>
    Function.update (Function.update a i ((back q (a i)).drop 1)) j (a j ++ (front q (a i) ++ (back q (a i)).take 1))
  | .MoveToHead i (some q) j, _ => Function.update (Function.update a i (front q (a i))) j (back q (a i) ++ a j)
  | .Reverse i, _ => Function.update a i (a i).reverse
  | _, _ => a

/-- A new position is one that no list has. -/
def Fresh (a : Sequences ι V) (p : Nat) : Prop := ∀ i, p ∉ ptrs (a i)

/-- The answer that the sequences give. For an addition it is the position of the
node that the list in `w` has for it, a new one; it is null only when there is no
memory and no node in the cache. -/
def Answers (w : Lists ι V) (a : Sequences ι V) : ListOp ι V → Answer V → Prop
  | .AddTail i _ new, r => r = .position ((w.list i).nodeFor new) ∧ ∀ p ∈ (w.list i).nodeFor new, a.Fresh p
  | .AddHead i _ new, r => r = .position ((w.list i).nodeFor new) ∧ ∀ p ∈ (w.list i).nodeFor new, a.Fresh p
  | .AddAfter i _ _ new, r => r = .position ((w.list i).nodeFor new) ∧ ∀ p ∈ (w.list i).nodeFor new, a.Fresh p
  | .AddBefore i _ _ new, r => r = .position ((w.list i).nodeFor new) ∧ ∀ p ∈ (w.list i).nodeFor new, a.Fresh p
  | .Remove i pos, r => r = .object (pos.bind fun q => (back q (a i)).head?.map Prod.snd)
  | .RemoveHead i, r => r = .object ((a i).head?.map Prod.snd)
  | .RemoveTail i, r => r = .object ((a i).getLast?.map Prod.snd)
  | .RemoveAll _, r => r = .done
  | .MoveToTail .., r => r = .done
  | .MoveToHead .., r => r = .done
  | .Reverse _, r => r = .done

/-- The position is null or one of the list. -/
def HasPos (a : Sequences ι V) (i : ι) (pos : Option Nat) : Prop := ∀ q, pos = some q → q ∈ ptrs (a i)

/-- The operation may be called: its positions are of its list, what `new` returns is free, and a
move goes to another list. -/
def Valid (addresses : Nat) (w : Lists ι V) (a : Sequences ι V) : ListOp ι V → Prop
  | .AddTail _ _ new => NewOk addresses w.heap new
  | .AddHead _ _ new => NewOk addresses w.heap new
  | .AddAfter i pos _ new => a.HasPos i pos ∧ NewOk addresses w.heap new
  | .AddBefore i pos _ new => a.HasPos i pos ∧ NewOk addresses w.heap new
  | .Remove i pos => a.HasPos i pos
  | .RemoveHead _ => True
  | .RemoveTail _ => True
  | .RemoveAll _ => True
  | .MoveToTail i pos j => a.HasPos i pos ∧ i ≠ j
  | .MoveToHead i pos j => a.HasPos i pos ∧ i ≠ j
  | .Reverse _ => True

instance (a : Sequences ι V) (i : ι) : (pos : Option Nat) → Decidable (a.HasPos i pos)
  | none => .isTrue (fun _ h => by cases h)
  | some q => decidable_of_iff (q ∈ ptrs (a i)) ⟨fun h _ hq => Option.some_inj.1 hq ▸ h, fun h => h q rfl⟩

instance (addresses : Nat) (h : Heap V) : (new : New V) → Decidable (NewOk addresses h new)
  | none => inferInstanceAs (Decidable True)
  | some (p, _) => decidable_of_iff ((h p).isNone ∧ p < addresses) (and_congr_left' Option.isNone_iff_eq_none)

instance (addresses : Nat) (w : Lists ι V) (a : Sequences ι V) : (op : ListOp ι V) → Decidable (a.Valid addresses w op)
  | .AddTail .. => inferInstanceAs (Decidable (NewOk ..))
  | .AddHead .. => inferInstanceAs (Decidable (NewOk ..))
  | .AddAfter .. => inferInstanceAs (Decidable (HasPos .. ∧ NewOk ..))
  | .AddBefore .. => inferInstanceAs (Decidable (HasPos .. ∧ NewOk ..))
  | .Remove .. => inferInstanceAs (Decidable (HasPos ..))
  | .RemoveHead _ => inferInstanceAs (Decidable True)
  | .RemoveTail _ => inferInstanceAs (Decidable True)
  | .RemoveAll _ => inferInstanceAs (Decidable True)
  | .MoveToTail .. => inferInstanceAs (Decidable (HasPos .. ∧ _ ≠ _))
  | .MoveToHead .. => inferInstanceAs (Decidable (HasPos .. ∧ _ ≠ _))
  | .Reverse _ => inferInstanceAs (Decidable True)

end Sequences

/-! ## The lists are the sequences -/

/-- Every list holds its sequence, and the lists and their caches share the
allocated nodes out among themselves. -/
def Correct (addresses : Nat) (w : Lists ι V) (a : Sequences ι V) : Prop :=
  ∃ (own : Nat → Option (ι × Bool)) (c : ι → List Nat),
    (∀ k, Holds w.heap own k (w.list k) (a k) (c k)) ∧ Allocated addresses w.heap own

variable {addresses : Nat} {w : Lists ι V} {a : Sequences ι V} {own own' : Nat → Option (ι × Bool)} {c : ι → List Nat}
  {i j : ι} {q : Nat} {l : List (Nat × V)}

/-- A position of a sequence cuts it in two. -/
theorem split_at (hq : q ∈ ptrs l) : ∃ v m, l = front q l ++ (q, v) :: m ∧ back q l = (q, v) :: m := by
  induction l with
  | nil => cases hq
  | cons x l ih =>
    obtain ⟨p, v⟩ := x
    by_cases hp : p = q
    · subst hp
      exact ⟨v, l, by simp [front], by simp [back]⟩
    · obtain ⟨u, m, hl, hb⟩ := ih ((List.mem_cons.1 hq).resolve_left (Ne.symm hp))
      refine ⟨u, m, ?_, ?_⟩
      · simp only [front, List.takeWhile_cons, ne_eq, hp, not_false_eq_true, decide_true, if_true]
        exact congrArg ((p, v) :: ·) hl
      · simp only [back, List.dropWhile_cons, ne_eq, hp, not_false_eq_true, decide_true, if_true]
        exact hb

/-- One list has changed. -/
theorem Correct.set {L : CBaseList} {h : Heap V} {s : List Nat} (hw : ∀ k, Holds w.heap own k (w.list k) (a k) (c k))
    (hL : Holds h own' i L l s) (ha : Allocated addresses h own') (hf : Frame (· = i) w.heap h own own') :
    Correct addresses (w.set i L h) (Function.update a i l) := by
  refine ⟨own', Function.update c i s, fun k => ?_, ha⟩
  by_cases hk : k = i
  · subst hk
    simpa [Lists.set] using hL
  · simpa [Lists.set, hk] using (hw k).frame hf hk

/-- Two lists have changed. -/
theorem Correct.set₂ {L P : CBaseList} {h : Heap V} {s t : List Nat} {m : List (Nat × V)} (hij : i ≠ j)
    (hw : ∀ k, Holds w.heap own k (w.list k) (a k) (c k)) (hL : Holds h own' i L l s) (hP : Holds h own' j P m t)
    (ha : Allocated addresses h own') (hf : Frame (fun x => x = i ∨ x = j) w.heap h own own') :
    Correct addresses ((w.set i L h).set j P h) (Function.update (Function.update a i l) j m) := by
  refine ⟨own', Function.update (Function.update c i s) j t, fun k => ?_, ha⟩
  by_cases hkj : k = j
  · subst hkj
    simpa [Lists.set] using hP
  · by_cases hki : k = i
    · subst hki
      simpa [Lists.set, hkj] using hL
    · simpa [Lists.set, hkj, hki] using (hw k).frame hf (by simp [hki, hkj])

/-- Nothing has changed. -/
theorem Correct.same (hw : Correct addresses w a) (i : ι) : Correct addresses (w.set i (w.list i) w.heap) a := by
  have he : w.set i (w.list i) w.heap = w := by simp [Lists.set]
  rw [he]
  exact hw

/-- What is to be shown of one operation. -/
def Answered (addresses : Nat) (w : Lists ι V) (a : Sequences ι V) (op : ListOp ι V) : Prop :=
  ∃ w' r, w.step addresses op = some (w', r) ∧ a.Answers w op r ∧ Correct addresses w' (a.apply op r)

/-- An addition, whichever it is. -/
theorem answered_added {op : ListOp ι V} {new : New V} {l₁ l₂ : List (Nat × V)} {v : V}
    {r : Option (CBaseList × Heap V × Option Nat)} (hw : Correct addresses w a) (hheld : ∀ k, Holds w.heap own k (w.list k) (a k) (c k))
    (hadd : Added addresses w.heap own i (w.list i) new l₁ l₂ v r)
    (hstep : w.step addresses op = r.map fun x => (w.set i x.1 x.2.1, .position x.2.2))
    (hans : ∀ x, a.Answers w op x ↔
      x = .position ((w.list i).nodeFor new) ∧ ∀ p ∈ (w.list i).nodeFor new, a.Fresh p)
    (hnone : a.apply op (.position none) = a)
    (hsome : ∀ p, a.apply op (.position (some p)) = Function.update a i (l₁ ++ (p, v) :: l₂)) :
    Answered addresses w a op := by
  rcases hadd with ⟨hnode, rfl⟩ | ⟨L', h', own', s', p, hnode, rfl, hp, hL, ha, hf⟩
  · refine ⟨_, _, hstep, (hans _).2 (by simp [hnode]), ?_⟩
    rw [hnone]
    exact hw.same i
  · have hfresh : a.Fresh p := fun k hk => hp k (((hheld k).inList p).2 hk)
    refine ⟨_, _, hstep, (hans _).2 (by simp [hnode, hfresh]), ?_⟩
    rw [hsome]
    exact .set hheld hL ha hf

theorem answered_AddTail (hw : Correct addresses w a) (v : V) {new : New V} (hnew : NewOk addresses w.heap new) :
    Answered addresses w a (.AddTail i v new) := by
  obtain ⟨own, c, hheld, ha⟩ := id hw
  refine answered_added hw hheld (AddTailI_spec (hheld i) ha hnew v) ?_ (fun _ => Iff.rfl) rfl fun p => rfl
  cases hr : (w.list i).AddTailI w.heap v new <;> simp [Lists.step, hr]

theorem answered_AddHead (hw : Correct addresses w a) (v : V) {new : New V} (hnew : NewOk addresses w.heap new) :
    Answered addresses w a (.AddHead i v new) := by
  obtain ⟨own, c, hheld, ha⟩ := id hw
  refine answered_added hw hheld (AddHeadI_spec (hheld i) ha hnew v) ?_ (fun _ => Iff.rfl) rfl fun p => rfl
  cases hr : (w.list i).AddHeadI w.heap v new <;> simp [Lists.step, hr]

theorem answered_AddAfter (hw : Correct addresses w a) {pos : Option Nat} (hpos : a.HasPos i pos) (v : V) {new : New V}
    (hnew : NewOk addresses w.heap new) : Answered addresses w a (.AddAfter i pos v new) := by
  obtain ⟨own, c, hheld, ha⟩ := id hw
  have hstep : w.step addresses (.AddAfter i pos v new) =
      ((w.list i).AddAfterI w.heap pos v new).map fun x => (w.set i x.1 x.2.1, .position x.2.2) := by
    cases hr : (w.list i).AddAfterI w.heap pos v new <;> simp [Lists.step, hr]
  cases pos with
  | none => exact answered_added hw hheld (AddHeadI_spec (hheld i) ha hnew v) hstep (fun _ => Iff.rfl) rfl fun p => rfl
  | some q =>
    obtain ⟨u, m, hl, hb⟩ := split_at (hpos q rfl)
    have hi := hheld i
    rw [hl] at hi
    refine answered_added hw hheld (AddAfterI_spec hi ha hnew v) hstep (fun _ => Iff.rfl) rfl fun p => ?_
    simp [Sequences.apply, hb]

theorem answered_AddBefore (hw : Correct addresses w a) {pos : Option Nat} (hpos : a.HasPos i pos) (v : V) {new : New V}
    (hnew : NewOk addresses w.heap new) : Answered addresses w a (.AddBefore i pos v new) := by
  obtain ⟨own, c, hheld, ha⟩ := id hw
  have hstep : w.step addresses (.AddBefore i pos v new) =
      ((w.list i).AddBeforeI w.heap pos v new).map fun x => (w.set i x.1 x.2.1, .position x.2.2) := by
    cases hr : (w.list i).AddBeforeI w.heap pos v new <;> simp [Lists.step, hr]
  cases pos with
  | none => exact answered_added hw hheld (AddTailI_spec (hheld i) ha hnew v) hstep (fun _ => Iff.rfl) rfl fun p => rfl
  | some q =>
    obtain ⟨u, m, hl, hb⟩ := split_at (hpos q rfl)
    have hi := hheld i
    rw [hl] at hi
    refine answered_added hw hheld (AddBeforeI_spec hi ha hnew v) hstep (fun _ => Iff.rfl) rfl fun p => ?_
    simp [Sequences.apply, hb]

/-- A removal, whichever it is. -/
theorem answered_removed {op : ListOp ι V} {m : List (Nat × V)} {v : V} (hheld : ∀ k, Holds w.heap own k (w.list k) (a k) (c k))
    (ha : Allocated addresses w.heap own) (hl : a i = l ++ (q, v) :: m)
    (hstep : w.step addresses op = ((w.list i).RemoveI w.heap (some q)).map fun x => (w.set i x.1 x.2.1, .object x.2.2))
    (hans : a.Answers w op (.object (some v))) (happly : a.apply op (.object (some v)) = Function.update a i (l ++ m)) :
    Answered addresses w a op := by
  have hi := hheld i
  rw [hl] at hi
  obtain ⟨L', h', own', s', hr, hL, ha', hf⟩ := RemoveI_spec hi ha
  rw [hr] at hstep
  refine ⟨_, _, hstep, hans, ?_⟩
  rw [happly]
  exact .set hheld hL ha' hf

theorem answered_Remove (hw : Correct addresses w a) {pos : Option Nat} (hpos : a.HasPos i pos) :
    Answered addresses w a (.Remove i pos) := by
  obtain ⟨own, c, hheld, ha⟩ := id hw
  cases pos with
  | none => exact ⟨_, _, rfl, rfl, hw.same i⟩
  | some q =>
    obtain ⟨v, m, hl, hb⟩ := split_at (hpos q rfl)
    refine answered_removed hheld ha hl ?_ (by simp [Sequences.Answers, hb]) (by simp [Sequences.apply, hb])
    cases hr : (w.list i).RemoveI w.heap (some q) <;> simp [Lists.step, hr]

theorem answered_RemoveHead (hw : Correct addresses w a) : Answered addresses w a (.RemoveHead i) := by
  obtain ⟨own, c, hheld, ha⟩ := id hw
  have hhead := (hheld i).head
  have hstep : w.step addresses (.RemoveHead i) =
      ((w.list i).RemoveI w.heap (w.list i).m_pFirst).map fun x => (w.set i x.1 x.2.1, .object x.2.2) := by
    cases hr : (w.list i).RemoveI w.heap (w.list i).m_pFirst <;> simp [Lists.step, RemoveHeadI, hr]
  rw [hhead] at hstep
  cases hl : a i with
  | nil =>
    rw [hl] at hstep
    refine ⟨_, _, hstep, by simp [Sequences.Answers, hl], ?_⟩
    have happly : a.apply (.RemoveHead i) (.object none) = a := by simp [Sequences.apply, hl]
    rw [happly]
    exact hw.same i
  | cons x m =>
    obtain ⟨q, v⟩ := x
    rw [hl] at hstep
    exact answered_removed (l := []) hheld ha hl hstep (by simp [Sequences.Answers, hl]) (by simp [Sequences.apply, hl])

theorem answered_RemoveTail (hw : Correct addresses w a) : Answered addresses w a (.RemoveTail i) := by
  obtain ⟨own, c, hheld, ha⟩ := id hw
  have htail := (hheld i).tail
  have hstep : w.step addresses (.RemoveTail i) =
      ((w.list i).RemoveI w.heap (w.list i).m_pLast).map fun x => (w.set i x.1 x.2.1, .object x.2.2) := by
    cases hr : (w.list i).RemoveI w.heap (w.list i).m_pLast <;> simp [Lists.step, RemoveTailI, hr]
  rw [htail] at hstep
  by_cases hl : a i = []
  · rw [hl] at hstep
    refine ⟨_, _, hstep, by simp [Sequences.Answers, hl], ?_⟩
    have happly : a.apply (.RemoveTail i) (.object none) = a := by simp [Sequences.apply, hl]
    rw [happly]
    exact hw.same i
  · obtain ⟨l, q, v, hl⟩ := last_eq_some hl
    rw [hl, last_append] at hstep
    exact answered_removed hheld ha hl hstep (by simp [Sequences.Answers, hl]) (by simp [Sequences.apply, hl])

theorem answered_RemoveAll (hw : Correct addresses w a) : Answered addresses w a (.RemoveAll i) := by
  obtain ⟨own, c, hheld, ha⟩ := id hw
  obtain ⟨L', h', own', hr, hL, ha', hf⟩ := RemoveAll_spec (hheld i) ha
  exact ⟨w.set i L' h', .done, by simp [Lists.step, hr], rfl, .set hheld hL ha' hf⟩

theorem answered_Reverse (hw : Correct addresses w a) : Answered addresses w a (.Reverse i) := by
  obtain ⟨own, c, hheld, ha⟩ := id hw
  obtain ⟨L', h', hr, hL, ha', hf⟩ := Reverse_spec (hheld i) ha
  exact ⟨w.set i L' h', .done, by simp [Lists.step, hr], rfl, .set hheld hL ha' hf⟩

/-- A move from nowhere. -/
theorem Correct.same₂ (hw : Correct addresses w a) (i j : ι) :
    Correct addresses ((w.set i (w.list i) w.heap).set j (w.list j) w.heap) a := by
  have hj : w.list j = (w.set i (w.list i) w.heap).list j := by simp [Lists.set]
  rw [hj]
  exact (hw.same i).same j

theorem answered_MoveToTail (hw : Correct addresses w a) {pos : Option Nat} (hpos : a.HasPos i pos) (hij : i ≠ j) :
    Answered addresses w a (.MoveToTail i pos j) := by
  obtain ⟨own, c, hheld, ha⟩ := id hw
  cases pos with
  | none => exact ⟨_, _, rfl, rfl, hw.same₂ i j⟩
  | some q =>
    obtain ⟨v, m, hl, hb⟩ := split_at (hpos q rfl)
    have hi := hheld i
    rw [hl] at hi
    obtain ⟨L', P', h', own', hr, hL, hP, ha', hf⟩ := MoveToTail_spec hi (hheld j) hij ha
    refine ⟨(w.set i L' h').set j P' h', .done, by simp [Lists.step, hr], rfl, ?_⟩
    simp only [Sequences.apply, hb, List.drop_succ_cons, List.drop_zero, List.take_succ_cons, List.take_zero]
    exact .set₂ hij hheld hL hP ha' hf

theorem answered_MoveToHead (hw : Correct addresses w a) {pos : Option Nat} (hpos : a.HasPos i pos) (hij : i ≠ j) :
    Answered addresses w a (.MoveToHead i pos j) := by
  obtain ⟨own, c, hheld, ha⟩ := id hw
  cases pos with
  | none => exact ⟨_, _, rfl, rfl, hw.same₂ i j⟩
  | some q =>
    obtain ⟨v, m, hl, hb⟩ := split_at (hpos q rfl)
    have hi := hheld i
    rw [hl] at hi
    obtain ⟨L', P', h', own', hr, hL, hP, ha', hf⟩ := MoveToHead_spec hi (hheld j) hij ha
    refine ⟨(w.set i L' h').set j P' h', .done, by simp [Lists.step, hr], rfl, ?_⟩
    simp only [Sequences.apply, hb]
    exact .set₂ hij hheld hL hP ha' hf

theorem answered (hw : Correct addresses w a) {op : ListOp ι V} (hv : a.Valid addresses w op) :
    Answered addresses w a op := by
  cases op with
  | AddTail i v new => exact answered_AddTail hw v hv
  | AddHead i v new => exact answered_AddHead hw v hv
  | AddAfter i pos v new => exact answered_AddAfter hw hv.1 v hv.2
  | AddBefore i pos v new => exact answered_AddBefore hw hv.1 v hv.2
  | Remove i pos => exact answered_Remove hw hv
  | RemoveHead i => exact answered_RemoveHead hw
  | RemoveTail i => exact answered_RemoveTail hw
  | RemoveAll i => exact answered_RemoveAll hw
  | MoveToTail i pos j => exact answered_MoveToTail hw hv.1 hv.2
  | MoveToHead i pos j => exact answered_MoveToHead hw hv.1 hv.2
  | Reverse i => exact answered_Reverse hw

/-! ## Runs -/

/-- The lists with what they are meant to be. -/
structure Session (ι V : Type) where
  lists : Lists ι V
  sequences : Sequences ι V

namespace Session

def new (iItems : ι → Int) : Session ι V := ⟨.new iItems, fun _ => []⟩

def step (addresses : Nat) (s : Session ι V) (op : ListOp ι V) : Option (Session ι V) := do
  let (w, r) ← s.lists.step addresses op
  some ⟨w, s.sequences.apply op r⟩

def Valid (addresses : Nat) (s : Session ι V) (op : ListOp ι V) : Prop := s.sequences.Valid addresses s.lists op

instance (addresses : Nat) (s : Session ι V) (op : ListOp ι V) : Decidable (s.Valid addresses op) :=
  inferInstanceAs (Decidable (s.sequences.Valid ..))

variable {iItems : ι → Int} {ops : List (ListOp ι V)} {s : Session ι V} {op : ListOp ι V}

omit [DecidableEq ι] in
theorem new_correct : Correct addresses (new (V := V) iItems).lists (new iItems).sequences := by
  refine ⟨fun _ => none, fun _ => [], fun k => ?_, fun x => rfl, fun x hx => by cases hx⟩
  refine ⟨trivial, rfl, rfl, rfl, rfl, rfl, Nat.zero_le _, List.nodup_nil, List.nodup_nil, fun x => ?_, fun x => ?_⟩
  · simp [new]
  · simp

theorem correct (hrun : Runs (step addresses) (Valid addresses) (new iItems) ops s) :
    Correct addresses s.lists s.sequences := by
  refine hrun.inv (fun s => Correct addresses s.lists s.sequences) new_correct fun t op u ht hv hu => ?_
  obtain ⟨w', r, hstep, -, hw⟩ := answered ht hv
  simp only [step, hstep, Option.bind_eq_bind, Option.bind_some, Option.some.injEq] at hu
  rw [← hu]
  exact hw

end Session

/-- Two lists, the first with room for one node in its cache. -/
def twoLists : Session Bool Nat := .new fun k => if k then 1 else 0

/-- The second list gets the back of the first, and is turned round. -/
def shuffle : List (ListOp Bool Nat) :=
  [.AddTail true 10 (some (0, ⟨none, none, 0⟩)), .AddTail true 11 (some (1, ⟨none, none, 0⟩)),
    .AddAfter true (some 0) 12 (some (2, ⟨none, none, 0⟩)), .RemoveHead true, .AddBefore true (some 1) 13 none,
    .MoveToHead true (some 0) false, .Reverse false]

def shuffled : Session Bool Nat :=
  (evalRun (Session.step 3) (Session.Valid 3) shuffle twoLists).get (by decide)

theorem shuffled_run : Runs (Session.step 3) (Session.Valid 3) twoLists shuffle shuffled := .of_isSome _

/-- The nodes that are found along the links of a list, or of its cache. -/
def Lists.found (addresses : Nat) (w : Lists ι V) : ι × Bool → Option (List Nat)
  | (k, false) => (traverse (addresses + 1) w.heap (w.list k).m_pFirst).map ptrs
  | (k, true) => cached (addresses + 1) w.heap (w.list k).m_Cache.m_pHead

/-- To add in front of a position is to add behind the one before it, where null
is both ends of the list. -/
theorem add_before_is_add_after {iItems : ι → Int} {ops : List (ListOp ι V)} {s : Session ι V}
    (hrun : Runs (Session.step addresses) (Session.Valid addresses) (.new iItems) ops s) (i : ι) {pos : Option Nat}
    (hpos : s.sequences.HasPos i pos) (pObj : V) (new : New V) :
    (s.lists.list i).AddBeforeI s.lists.heap pos pObj new =
      ((s.lists.list i).Prev s.lists.heap pos).bind fun q => (s.lists.list i).AddAfterI s.lists.heap q pObj new := by
  obtain ⟨own, c, hheld, -⟩ := Session.correct hrun
  exact (hheld i).AddBeforeI_eq hpos

theorem add_before_is_add_after_shuffled :
    (shuffled.lists.list false).AddBeforeI shuffled.lists.heap (some 0) 7 none =
      ((shuffled.lists.list false).Prev shuffled.lists.heap (some 0)).bind fun q =>
        (shuffled.lists.list false).AddAfterI shuffled.lists.heap q 7 none :=
  add_before_is_add_after shuffled_run false (by decide) 7 none

end FilterSln
