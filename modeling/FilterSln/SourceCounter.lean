import FilterSln.SourceThread
/-!
# The counter of the source

`m_nCount` selects the image and gives the time of a frame. It is a `LONG` that
every `FillBuffer` increments and nothing resets. `Counted` relates it to the
number of fills in any run of the worker thread, whatever the images are.

After `2 ^ 31` fills it is negative, and so is its remainder by three: the run is
in order up to there (`counter_right_iff`), and the next `FillBuffer` indexes the
images with minus two.
-/

namespace FilterSln

open HRESULT Lib

/-- What a `FillBuffer` that returns has done with the counter, and the times it
has set. -/
theorem CMyOutputPin.FillBuffer_returns {pin pin' : CMyOutputPin} {pMediaSample filled : CMediaSample} {hr : HRESULT}
    (h : pin.FillBuffer pMediaSample = some (pin', filled, hr)) :
    hr = NOERROR ∧ pin' = { pin with m_nCount := pin.m_nCount + 1 } ∧ 0 ≤ (pin.m_nCount % 3).toInt ∧
      filled.GetTime = (NOERROR, some (TS_ONE * pin.m_nCount.toInt64, TS_ONE + TS_ONE * pin.m_nCount.toInt64)) := by
  simp only [FillBuffer, Option.bind_eq_bind, Option.bind_eq_some_iff] at h
  obtain ⟨image, hcur, m_pBuffer, -, h⟩ := h
  cases h
  refine ⟨rfl, rfl, ?_, by simp [CMediaSample.SetSyncPoint]⟩
  unfold currentImage at hcur
  dsimp only at hcur
  split at hcur
  · assumption
  · cases hcur

namespace CSourceStream

variable {pin : CMyOutputPin} {s s' : CSourceStream CMyOutputPin} {e : Event} {n : Nat}

/-- Where a sample starts. -/
def startTime (pSample : CMediaSample) : Int := (interval pSample).1

/-- After `n` fills: the counter stands at `n`, and the samples passed on start one
unit of time after the other. -/
structure Counted (n : Nat) (s : CSourceStream CMyOutputPin) : Prop where
  count : s.pin.m_nCount = Int32.ofNat n
  bound : n ≤ 2 ^ 31
  starts : s.delivered.map startTime = (List.range n).map fun k : Nat => k * UNITS.toInt

/-- The remainder that selects the image. -/
theorem Counted.remainder (h : Counted n s) :
    (s.pin.m_nCount % 3).toInt = if n < 2 ^ 31 then ((n % 3 : Nat) : Int) else -2 := by
  rw [h.count]
  split
  · rename_i hlt
    rw [Int32.toInt_mod, Int32.toInt_ofNat_of_lt hlt]
    rfl
  · rename_i hge
    have hn : n = 2 ^ 31 := by
      have := h.bound
      omega
    rw [hn]
    decide

theorem counted_step (h : Counted n s) (hstep : s.step e = some s') :
    Counted (n + if e.isFill then 1 else 0) s' := by
  rcases step_cases hstep with ⟨pSample, filled, hr, rfl, hfill, hdel⟩ | ⟨hno, hpin, hdel⟩
  · obtain ⟨rfl, hpin, hindex, htime⟩ := CMyOutputPin.FillBuffer_returns hfill
    -- The index was not negative, so the counter had not wrapped.
    have hlt : n < 2 ^ 31 := by
      by_contra hge
      rw [h.remainder, if_neg hge] at hindex
      omega
    have hcount : s.pin.m_nCount.toInt = n := by rw [h.count, Int32.toInt_ofNat_of_lt hlt]
    have hstart : startTime filled = n * UNITS.toInt := by
      rw [startTime, interval, htime, ← hcount]
      exact CMyOutputPin.start_exact _
    refine ⟨?_, hlt, ?_⟩
    · rw [hpin, h.count]
      exact (Int32.ofNat_add n 1).symm
    · rw [hdel, if_pos rfl, List.map_append, h.starts, List.map_singleton, hstart]
      simp [Event.isFill, List.range_succ]
  · rw [hno]
    exact ⟨hpin ▸ h.count, h.bound, hdel ▸ h.starts⟩

theorem counted_new (h0 : pin.m_nCount = 0) : Counted 0 (new pin) := ⟨h0, Nat.zero_le _, rfl⟩

theorem counted_run (h : Counted n s) {C : CSourceStream CMyOutputPin → Event → Prop} {es : List Event}
    (hrun : Runs step C s es s') : Counted (n + es.countP Event.isFill) s' := by
  refine hrun.inv_events (fun es s => Counted (n + es.countP Event.isFill) s) h ?_
  intro es t e u hinv _ hstep
  rw [List.countP_append, List.countP_singleton, ← Nat.add_assoc]
  exact counted_step hinv hstep

/-- The counter selects one of the three images, and the samples passed on so far
start at ever later times. -/
structure CounterRight (s : CSourceStream CMyOutputPin) : Prop where
  remainder : (s.pin.m_nCount % 3).toInt = 0 ∨ (s.pin.m_nCount % 3).toInt = 1 ∨ (s.pin.m_nCount % 3).toInt = 2
  increasing : (s.delivered.map startTime).Pairwise (· < ·)

/-- The counter is right in the states with fewer than `2 ^ 31` fills before them. -/
theorem counter_right_iff {files : Fin 3 → LoadEnv} {es : List Event} (hnew : CMyOutputPin.new files = some pin)
    (hrun : Runs step Any (new pin) es s) : CounterRight s ↔ es.countP Event.isFill < 2 ^ 31 := by
  obtain ⟨h0, -, -, -⟩ := CMyOutputPin.new_ok hnew
  have hcounted := counted_run (counted_new h0) hrun
  rw [Nat.zero_add] at hcounted
  constructor
  · intro h
    by_contra hge
    have hrem := hcounted.remainder
    rw [if_neg hge] at hrem
    have := h.remainder
    omega
  · intro hlt
    have hrem := hcounted.remainder
    rw [if_pos hlt] at hrem
    refine ⟨by omega, ?_⟩
    rw [hcounted.starts, List.pairwise_map]
    have hunits : UNITS.toInt = 10000000 := by decide
    refine List.pairwise_lt_range.imp fun {a b} hab => ?_
    rw [hunits]
    omega

theorem counter_right_restart : CounterRight afterRestart :=
  (counter_right_iff (Option.some_get _).symm (Runs.of_isSome (by decide))).2 (by decide)

/-! ## A run of `2 ^ 31` fills -/

theorem fill_m_dwParam {pSample : CMediaSample} (h : s.fill pSample = some s') : s'.m_dwParam = s.m_dwParam := by
  simp only [fill, Option.bind_eq_bind, Option.bind_eq_some_iff] at h
  obtain ⟨⟨pin, filled, hr⟩, -, h⟩ := h
  dsimp only at h
  split at h <;> cases h <;> rfl

/-- The thread is started, and plays. -/
def opening : List Event :=
  [.Create true, .CallWorker .CMD_INIT, .request, .CallWorker .CMD_PAUSE, .request]

def opened : CSourceStream CMyOutputPin := (evalRun step Any opening (new threePin)).get (by decide)

/-- Nobody sends another command, and every buffer is delivered: the thread of
`threePin` comes back `n` times to where it looks for one. -/
theorem plays_on (n : Nat) (hn : n ≤ 2 ^ 31) :
    ∃ es s, Runs step (Roomy threePin.m_nImageSize) (new threePin) es s ∧ es.countP Event.isFill = n ∧
      s.m_hThread = some .CheckRequest ∧ s.m_dwParam = none := by
  obtain ⟨images, hl, -⟩ := @loaded_of_new threePin threeFiles (Option.some_get _).symm fun i => ⟨_, rfl, by decide⟩
  have hroom : threePin.m_nImageSize ≤ buffer.m_cbBuffer := by decide
  induction n with
  | zero =>
    refine ⟨opening, opened, ?_, by decide, by decide, by decide⟩
    refine (Runs.of_isSome (C := Any) (by decide)).of_forall fun e he s => ?_
    simp only [opening, List.mem_cons, List.not_mem_nil, or_false] at he
    rcases he with rfl | rfl | rfl | rfl | rfl <;> trivial
  | succ n ih =>
    obtain ⟨es, s, hrun, hfills, hthread, hparam⟩ := ih (by omega)
    have hrequest : s.step .request = some (s.goto .GetDeliveryBuffer) := by simp [step, request, hthread, hparam]
    have hrun1 := hrun.snoc (e := Event.request) trivial hrequest
    have hfills1 : (es ++ [Event.request]).countP Event.isFill = n := by simpa [Event.isFill] using hfills
    obtain ⟨s1, hfill, hthread1⟩ := fill_returns rfl hl hrun1 (by omega) hroom
    have hparam1 : s1.m_dwParam = none := (fill_m_dwParam hfill).trans hparam
    have hstep : (s.goto .GetDeliveryBuffer).step (.GetDeliveryBuffer (.ok buffer)) = some s1 := hfill
    have hrun2 := hrun1.snoc (e := Event.GetDeliveryBuffer (.ok buffer)) hroom hstep
    have hdeliver : s1.step (.Deliver S_OK) = some (s1.goto .CheckRequest) := by simp [step, hthread1]
    refine ⟨_, _, hrun2.snoc (e := Event.Deliver S_OK) trivial hdeliver, ?_, rfl, hparam1⟩
    rw [List.countP_append, List.countP_append, hfills1]
    rfl

/-- The counter has wrapped, and selects an image before the first one. -/
theorem counter_wraps :
    ∃ es s, CMyOutputPin.new threeFiles = some threePin ∧ Runs step Any (new threePin) es s ∧
      es.countP Event.isFill = 2 ^ 31 ∧ (s.pin.m_nCount % 3).toInt = -2 ∧ ¬ CounterRight s := by
  obtain ⟨es, s, hrun, hfills, -, -⟩ := plays_on (2 ^ 31) (le_refl _)
  have hrem := (counted_run (@counted_new threePin rfl) hrun).remainder
  rw [hfills, if_neg (by omega)] at hrem
  refine ⟨es, s, (Option.some_get _).symm, hrun.weaken, hfills, hrem, fun h => ?_⟩
  have := h.remainder
  omega

end CSourceStream

end FilterSln
