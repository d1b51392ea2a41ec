import FilterSln.Lib.Runs
/-!
# Forward simulation

A fine-grained system is simulated by a coarser one when each of its steps is
none or one of the coarser steps, in related states. Then each of its runs is a
run of the coarser system (`Runs.simulate`), in which the same things can be
observed in the same order.
-/

namespace Lib

variable {S S' E E' O : Type} {step : S → E → Option S} {step' : S' → E' → Option S'} {C : S → E → Prop}
  {D : S' → E' → Prop} {s t : S} {s' : S'} {es : List E}

/-- A step of the fine system from `t` to `u` is matched from `t'`. -/
def Matched (step' : S' → E' → Option S') (D : S' → E' → Prop) (obs : E → Option O) (obs' : E' → Option O)
    (R : S → S' → Prop) (t' : S') (e : E) (u : S) : Prop :=
  (obs e = none ∧ R u t') ∨ ∃ e' u', D t' e' ∧ step' t' e' = some u' ∧ obs e = obs' e' ∧ R u u'

theorem Runs.simulate {obs : E → Option O} {obs' : E' → Option O} (R : S → S' → Prop) (h0 : R s s')
    (hs : ∀ t t' e u, R t t' → C t e → step t e = some u → Matched step' D obs obs' R t' e u)
    (h : Runs step C s es t) :
    ∃ es' t', Runs step' D s' es' t' ∧ es.filterMap obs = es'.filterMap obs' ∧ R t t' := by
  refine h.inv_events (fun es t => ∃ es' t', Runs step' D s' es' t' ∧ es.filterMap obs = es'.filterMap obs' ∧ R t t')
    ⟨[], s', .nil, rfl, h0⟩ ?_
  rintro es t e u ⟨es', t', hrun, hobs, hr⟩ hc ht
  rcases hs t t' e u hr hc ht with ⟨hnone, hr'⟩ | ⟨e', u', hd, ht', heq, hr'⟩
  · refine ⟨es', t', hrun, ?_, hr'⟩
    simp [List.filterMap_append, hobs, hnone]
  · refine ⟨es' ++ [e'], u', .snoc hrun hd ht', ?_, hr'⟩
    simp [List.filterMap_append, List.filterMap_cons, hobs, heq]

/-- Without observations. -/
theorem Runs.simulate_run (R : S → S' → Prop) (h0 : R s s')
    (hs : ∀ t t' e u, R t t' → C t e → step t e = some u → R u t' ∨ ∃ e' u', D t' e' ∧ step' t' e' = some u' ∧ R u u')
    (h : Runs step C s es t) : ∃ es' t', Runs step' D s' es' t' ∧ R t t' := by
  have hm : ∀ t t' e u, R t t' → C t e → step t e = some u →
      Matched step' D (fun _ => (none : Option Unit)) (fun _ => none) R t' e u := by
    intro t t' e u hr hc ht
    rcases hs t t' e u hr hc ht with hr' | ⟨e', u', hd, ht', hr'⟩
    · exact .inl ⟨rfl, hr'⟩
    · exact .inr ⟨e', u', hd, ht', rfl, hr'⟩
  obtain ⟨es', t', hrun, -, hr⟩ := h.simulate R h0 hm
  exact ⟨es', t', hrun, hr⟩

end Lib
