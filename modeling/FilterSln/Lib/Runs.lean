import Mathlib.Data.List.Basic
/-!
# Runs of a partial step function

A system is a function `step : S → E → Option S`: the state after an event,
or `none` when the event cannot happen or does not return. A `Runs` is a
finite sequence of events from one state to another in which every step meets
a condition `C` on the event and the state before it. Without a condition,
`C` is `Any`. The induction over a run is done once, in `Runs.inv_events`.
-/

namespace Lib

variable {S E : Type}

/-- No condition on the steps. -/
def Any : S → E → Prop := fun _ _ => True

/-- The events `es` take `s` to the last state, each step meeting `C`. -/
inductive Runs (step : S → E → Option S) (C : S → E → Prop) (s : S) : List E → S → Prop
  | nil : Runs step C s [] s
  | snoc {es t e u} : Runs step C s es t → C t e → step t e = some u → Runs step C s (es ++ [e]) u

variable {step : S → E → Option S} {C D : S → E → Prop} {s t u : S} {es es' : List E}

/-- What relates the events so far to the state, at the start and after every
further step, does so after the run. -/
theorem Runs.inv_events (I : List E → S → Prop) (h0 : I [] s)
    (hs : ∀ es t e u, I es t → C t e → step t e = some u → I (es ++ [e]) u) (h : Runs step C s es t) : I es t := by
  induction h with
  | nil => exact h0
  | snoc _ hc ht ih => exact hs _ _ _ _ ih hc ht

/-- What holds at the start and is kept by every step holds after the run. -/
theorem Runs.inv (I : S → Prop) (h0 : I s)
    (hs : ∀ t e u, I t → C t e → step t e = some u → I u) (h : Runs step C s es t) : I t :=
  h.inv_events (fun _ => I) h0 fun _ => hs

/-- A condition on the events alone. -/
theorem Runs.of_forall (h : Runs step C s es t) (hd : ∀ e ∈ es, ∀ s, D s e) : Runs step D s es t := by
  induction h with
  | nil => exact .nil
  | @snoc es _ e _ _ _ ht ih =>
    exact .snoc (ih fun x hx => hd x (List.mem_append_left _ hx)) (hd e (by simp) _) ht

/-- A run under a condition is one under every weaker condition. -/
theorem Runs.mono (h : Runs step C s es t) (hcd : ∀ s e, C s e → D s e) : Runs step D s es t := by
  induction h with
  | nil => exact .nil
  | snoc _ hc ht ih => exact .snoc ih (hcd _ _ hc) ht

theorem Runs.weaken (h : Runs step C s es t) : Runs step Any s es t := h.mono fun _ _ _ => trivial

theorem Runs.append (h : Runs step C s es t) (h' : Runs step C t es' u) :
    Runs step C s (es ++ es') u := by
  induction h' with
  | nil => simpa using h
  | @snoc es' _ e _ _ hc ht ih =>
    rw [← List.append_assoc]
    exact .snoc ih hc ht

theorem Runs.single {e : E} (hc : C s e) (h : step s e = some t) : Runs step C s [e] t :=
  show Runs step C s ([] ++ [e]) t from .snoc .nil hc h

theorem Runs.cons {e : E} (hc : C s e) (h : step s e = some t) (h' : Runs step C t es u) :
    Runs step C s (e :: es) u :=
  (Runs.single hc h).append h'

/-- The events determine the last state. -/
theorem Runs.functional (h : Runs step C s es t) (h' : Runs step D s es u) : t = u := by
  induction h generalizing u with
  | nil =>
    generalize hes : ([] : List E) = es at h'
    cases h' with
    | nil => rfl
    | snoc _ _ _ => simp at hes
  | @snoc es m e _ _ _ ht ih =>
    generalize hes : es ++ [e] = l at h'
    cases h' with
    | nil => simp at hes
    | snoc h1 _ ht' =>
      obtain ⟨rfl, hee⟩ := List.append_inj' hes rfl
      cases hee
      rw [ih h1, ht'] at ht
      exact (Option.some_inj.1 ht).symm

theorem Runs.snoc_inv {e : E} (h : Runs step C s (es ++ [e]) u) :
    ∃ t, Runs step C s es t ∧ C t e ∧ step t e = some u := by
  generalize hl : es ++ [e] = l at h
  cases h with
  | nil => simp at hl
  | snoc h1 hc ht =>
    obtain ⟨rfl, hee⟩ := List.append_inj' hl rfl
    cases hee
    exact ⟨_, h1, hc, ht⟩

/-- What every step keeps exactly when it meets `D` holds after a run exactly
when all its steps meet `D`. -/
theorem Runs.inv_iff (I : S → Prop) (h0 : I s)
    (hs : ∀ t e u, C t e → step t e = some u → (I u ↔ I t ∧ D t e)) (h : Runs step C s es t) :
    I t ↔ Runs step (fun s e => C s e ∧ D s e) s es t := by
  induction h with
  | nil => exact ⟨fun _ => .nil, fun _ => h0⟩
  | @snoc es m e u hrun hc ht ih =>
    rw [hs _ _ _ hc ht]
    constructor
    · rintro ⟨hi, hd⟩
      exact .snoc (ih.1 hi) ⟨hc, hd⟩ ht
    · intro h'
      obtain ⟨m', hrun', hd, -⟩ := h'.snoc_inv
      cases hrun.functional hrun'
      exact ⟨ih.2 hrun', hd.2⟩

/-! ## Evaluating a run -/

instance : ∀ (s : S) (e : E), Decidable (Any s e) := fun _ _ => inferInstanceAs (Decidable True)

/-- The state after the events, if each meets `C` and can happen. -/
def evalRun (step : S → E → Option S) (C : S → E → Prop) [∀ s e, Decidable (C s e)] (es : List E) (s : S) : Option S :=
  es.foldlM (fun s e => if C s e then step s e else none) s

theorem Runs.of_evalRun [∀ s e, Decidable (C s e)] : ∀ {es : List E} {s : S},
    evalRun step C es s = some t → Runs step C s es t
  | [], s, h => by cases h; exact .nil
  | e :: es, s, h => by
    obtain ⟨m, hm, hr⟩ : ∃ m, (if C s e then step s e else none) = some m ∧ evalRun step C es m = some t := by
      simpa [evalRun, List.foldlM_cons, Option.bind_eq_some_iff] using h
    split at hm
    · rename_i hc
      exact .cons hc hm (of_evalRun hr)
    · cases hm

/-- A list of events that can all happen is a run to the state they lead to. -/
theorem Runs.of_isSome [∀ s e, Decidable (C s e)] {es : List E} {s : S} (h : (evalRun step C es s).isSome) :
    Runs step C s es ((evalRun step C es s).get h) :=
  .of_evalRun (Option.some_get h).symm

end Lib
