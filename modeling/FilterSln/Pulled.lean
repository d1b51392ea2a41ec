import FilterSln.PullPin
import Mathlib.Tactic.Ring
/-!
# What the pull pin passes on

The bounds that `Process` computes stay inside 64 bits for files that are not
absurdly long (`Sensible`). Then the samples passed on and those that are out tile
the file, the one to the front and the other from there on (`Flowing`). So what is
passed on has neither gaps nor overlaps and ends at the stop
(`Process.pulled_in_order`), whichever of the two loops has read it
(`Process.loops_agree`). The thread never waits for a buffer that it keeps itself
(`Process.never_starved`).
-/

namespace FilterSln

open HRESULT Lib

namespace CPullPin

/-! ## Times -/

theorem units_toInt : UNITS.toInt = 10000000 := by decide

/-- The time of the first byte pulled: the start, aligned downwards. -/
def first (pin : CPullPin) : Int := pin.m_tStart.toInt / 10000000 / pin.Actual.cbAlign.toInt * pin.Actual.cbAlign.toInt * 10000000

def stop (pin : CPullPin) : Int := min pin.m_tStop.toInt pin.m_tDuration.toInt

/-- The stop, aligned upwards. -/
def alignStop (pin : CPullPin) : Int :=
  (pin.stop / 10000000 + (pin.Actual.cbAlign.toInt - 1)) / pin.Actual.cbAlign.toInt * pin.Actual.cbAlign.toInt * 10000000

/-- What of the aligned stretch is before the stop. -/
def total (pin : CPullPin) : Int :=
  if pin.m_tStop ≤ pin.m_tStart then 0 else max 0 (min pin.alignStop pin.stop - pin.first)

/-- A sensible pin: buffers aligned at a power of two, and times so far from the
end of the range that a buffer behind them does not leave it. -/
structure Sensible (k : Nat) (pin : CPullPin) : Prop where
  align : pin.Actual.cbAlign.toInt = (2 ^ k : Nat)
  start : 0 ≤ pin.m_tStart.toInt
  duration : 0 ≤ pin.m_tDuration.toInt
  room : pin.m_tDuration.toInt + (2 ^ k : Nat) * 10000000 + 2 ^ 31 * 10000000 < 2 ^ 63

theorem div_units {x : REFERENCE_TIME} (hx : 0 ≤ x.toInt) : (x / UNITS).toInt = x.toInt / 10000000 := by
  rw [Int64.toInt_div_of_ne_right _ _ (by decide), units_toInt, Int.tdiv_eq_ediv_of_nonneg hx]

theorem mul_units {x : LONGLONG} (hx : 0 ≤ x.toInt) (hlt : x.toInt * 10000000 < 2 ^ 63) :
    (x * UNITS).toInt = x.toInt * 10000000 := by
  rw [Word.mul_exact64] <;> rw [units_toInt]
  · omega
  · exact hlt

theorem le_iff {x y : LONGLONG} : x ≤ y ↔ x.toInt ≤ y.toInt := Int64.le_iff_toInt_le

theorem lt_iff {x y : LONGLONG} : x < y ↔ x.toInt < y.toInt := Int64.lt_iff_toInt_lt

namespace Process

open CSourceStream (interval)

variable {p q : Process} {pin : CPullPin} {C : Process → Event → Prop} {es : List Event} {k : Nat}

/-- The unit of the aligned positions. -/
abbrev grain (k : Nat) : Int := (2 ^ k : Nat) * 10000000

/-- The bounds of the loops, as numbers. -/
structure Framed (k : Nat) (p : Process) : Prop where
  start : p.tStart.toInt = p.pin.first
  stop : p.tStop.toInt = p.pin.stop
  alignStop : p.tAlignStop.toInt = p.pin.alignStop
  nonneg : 0 ≤ p.tStart.toInt
  startDvd : grain k ∣ p.tStart.toInt
  stopDvd : grain k ∣ p.tAlignStop.toInt
  gap : p.tAlignStop.toInt < p.tStop.toInt + grain k
  room : p.tAlignStop.toInt + 2 ^ 31 * 10000000 < 2 ^ 63

theorem Framed.congr (h : Framed k p) (hb : SameBounds p q) : Framed k q := by
  obtain ⟨hpin, hstart, hstop, halign⟩ := hb
  refine ⟨?_, ?_, ?_, ?_, ?_, ?_, ?_, ?_⟩ <;> simp only [hpin, hstart, hstop, halign]
  · exact h.start
  · exact h.stop
  · exact h.alignStop
  · exact h.nonneg
  · exact h.startDvd
  · exact h.stopDvd
  · exact h.gap
  · exact h.room

theorem toInt_AlignDown (ll : LONGLONG) {lAlign : LONG} (hl : lAlign.toInt = (2 ^ k : Nat)) (hll : 0 ≤ ll.toInt) :
    (AlignDown ll lAlign).toInt = ll.toInt / lAlign.toInt * lAlign.toInt := by
  rw [AlignDown, Word.and_not_mask hl hll, hl]

theorem toInt_AlignUp (ll : LONGLONG) {lAlign : LONG} (hl : lAlign.toInt = (2 ^ k : Nat)) (hll : 0 ≤ ll.toInt)
    (hlt : ll.toInt + 2 ^ 31 < 2 ^ 63) :
    (AlignUp ll lAlign).toInt = (ll.toInt + (lAlign.toInt - 1)) / lAlign.toInt * lAlign.toInt := by
  have hpos : 0 < lAlign.toInt := by
    rw [hl]
    exact_mod_cast Nat.two_pow_pos k
  have hlow := lAlign.toInt_lt
  have hsub : (lAlign - 1).toInt = lAlign.toInt - 1 := Word.sub_exact (by simp; omega) (by simp; omega)
  have hadd : (ll + (lAlign - 1).toInt64).toInt = ll.toInt + (lAlign.toInt - 1) := by
    rw [Word.add_exact64] <;> rw [Int32.toInt_toInt64, hsub] <;> omega
  rw [AlignUp, Word.and_not_mask hl (by omega), hadd, hl]

theorem grain_dvd (x : Int) : grain k ∣ x * (2 ^ k : Nat) * 10000000 := ⟨x, by rw [grain]; ring⟩

/-- Rounding up passes a time by less than the grain. -/
theorem grain_up (x : Int) :
    (x / 10000000 + ((2 ^ k : Nat) - 1)) / (2 ^ k : Nat) * (2 ^ k : Nat) * 10000000 < x + grain k := by
  have hpos : (0 : Int) < (2 ^ k : Nat) := by exact_mod_cast Nat.two_pow_pos k
  have h1 := Int.ediv_mul_le (x / 10000000 + ((2 ^ k : Nat) - 1)) hpos.ne'
  have h2 := Int.ediv_mul_le x (show (10000000 : Int) ≠ 0 by omega)
  have h3 := Int.mul_le_mul_of_nonneg_right h1 (show (0 : Int) ≤ 10000000 by omega)
  have h4 : (x / 10000000 + (((2 ^ k : Nat) : Int) - 1)) * 10000000 =
      x / 10000000 * 10000000 + (2 ^ k : Nat) * 10000000 - 10000000 := by ring
  rw [grain]
  omega

theorem toInt_first (h : pin.Sensible k) :
    (AlignDown (pin.m_tStart / UNITS) pin.Actual.cbAlign * UNITS).toInt = pin.first ∧ 0 ≤ pin.first := by
  have hpos : (0 : Int) ≤ (2 ^ k : Nat) := Int.natCast_nonneg _
  have hlt := pin.m_tStart.toInt_lt
  have hdiv := div_units h.start
  have hdiv0 : 0 ≤ pin.m_tStart.toInt / 10000000 := Int.ediv_nonneg h.start (by omega)
  have hnum := toInt_AlignDown (pin.m_tStart / UNITS) h.align (by rwa [hdiv])
  rw [hdiv] at hnum
  have h0 : 0 ≤ (AlignDown (pin.m_tStart / UNITS) pin.Actual.cbAlign).toInt := by
    rw [hnum, h.align]
    exact Int.mul_nonneg (Int.ediv_nonneg hdiv0 hpos) hpos
  have hle : (AlignDown (pin.m_tStart / UNITS) pin.Actual.cbAlign).toInt ≤ pin.m_tStart.toInt / 10000000 := by
    rw [hnum, h.align]
    exact Int.ediv_mul_le _ (by exact_mod_cast (Nat.two_pow_pos k).ne')
  have hmul := mul_units h0 (by omega)
  rw [hnum] at hmul
  refine ⟨hmul, ?_⟩
  rw [first, ← hnum]
  omega

theorem toInt_alignStop (h : pin.Sensible k) {tStop : REFERENCE_TIME} (hs : tStop.toInt = pin.stop) (h0 : 0 ≤ pin.stop) :
    (AlignUp (tStop / UNITS) pin.Actual.cbAlign * UNITS).toInt = pin.alignStop := by
  have hpos : (0 : Int) < (2 ^ k : Nat) := by exact_mod_cast Nat.two_pow_pos k
  have hlt : pin.stop ≤ pin.m_tDuration.toInt := min_le_right _ _
  have hroom := h.room
  have hdiv := div_units (x := tStop) (by rwa [hs])
  rw [hs] at hdiv
  have hdiv0 : 0 ≤ pin.stop / 10000000 := Int.ediv_nonneg h0 (by omega)
  have hnum := toInt_AlignUp (tStop / UNITS) h.align (by rwa [hdiv]) (by omega)
  rw [hdiv] at hnum
  have hup := grain_up (k := k) pin.stop
  rw [← h.align, ← hnum, grain] at hup
  have h0 : 0 ≤ (AlignUp (tStop / UNITS) pin.Actual.cbAlign).toInt := by
    rw [hnum, h.align]
    exact Int.mul_nonneg (Int.ediv_nonneg (by omega) hpos.le) hpos.le
  have hmul := mul_units h0 (by omega)
  rw [hnum] at hmul
  exact hmul

/-- `Process` computes its bounds without overflow. -/
theorem framed_start (h : pin.Sensible k) (hlt : ¬ pin.m_tStop ≤ pin.m_tStart) : Framed k (start pin) := by
  have hlt' : pin.m_tStart.toInt < pin.m_tStop.toInt := by
    rw [le_iff] at hlt
    omega
  have hstop : (if pin.m_tStop > pin.m_tDuration then pin.m_tDuration else pin.m_tStop).toInt = pin.stop := by
    unfold stop
    split
    · rename_i hgt
      rw [gt_iff_lt, lt_iff] at hgt
      omega
    · rename_i hle
      rw [gt_iff_lt, lt_iff] at hle
      omega
  have h0 := h.start
  have hd := h.duration
  have hroom := h.room
  have hbetween : 0 ≤ pin.stop ∧ pin.stop ≤ pin.m_tDuration.toInt := by
    unfold stop
    omega
  have hup := grain_up (k := k) pin.stop
  obtain ⟨hfirst, hfirst0⟩ := toInt_first h
  have halign := toInt_alignStop h hstop hbetween.1
  have hgap : pin.alignStop < pin.stop + grain k := by
    rw [alignStop, h.align]
    exact hup
  unfold start
  dsimp only
  rw [if_neg hlt]
  refine Framed.congr ?_ (outer_bounds _)
  refine ⟨hfirst, hstop, halign, hfirst.symm ▸ hfirst0, ?_, ?_, ?_, ?_⟩
  · rw [hfirst, first, h.align]
    exact grain_dvd _
  · rw [halign, alignStop, h.align]
    exact grain_dvd _
  · rw [halign, hstop]
    exact hgap
  · rw [halign]
    unfold grain at hgap
    omega

/-! ## The samples tile the file -/

/-- The reads come back in the order of the requests. The buffers are not empty,
hold a multiple of the alignment, and come without the flag. -/
def Fitting (k : Nat) (_ : Process) : Event → Prop
  | .GetBuffer (.ok s) => 0 < s.m_cbBuffer.toInt ∧ ((2 ^ k : Nat) : Int) ∣ s.m_cbBuffer.toInt ∧ flag s = false
  | .WaitForNext _ (some (i, _)) => i = 0
  | _ => True

/-- The flag is on the first sample, and on no other. -/
def OnlyFirst (l : List CMediaSample) : Prop := l.map flag = (List.range l.length).map fun i => decide (i = 0)

theorem OnlyFirst.snoc {l : List CMediaSample} {s : CMediaSample} (h : OnlyFirst l) (hs : flag s = decide (l = [])) :
    OnlyFirst (l ++ [s]) := by
  unfold OnlyFirst at h ⊢
  rw [List.map_append, h, List.length_append, List.length_singleton, List.range_succ, List.map_append]
  congr 1
  simp [hs, List.length_eq_zero_iff]

theorem OnlyFirst.of_append {l l' : List CMediaSample} (h : OnlyFirst (l ++ l')) : OnlyFirst l := by
  have htake := congrArg (List.take l.length) h
  unfold OnlyFirst
  rw [List.map_append, List.take_left' (by simp), ← List.map_take, List.take_range] at htake
  rw [htake]
  congr 2
  simp

theorem OnlyFirst.congr {l l' : List CMediaSample} (h : OnlyFirst l) (he : l'.map flag = l.map flag) : OnlyFirst l' := by
  have hlen : l'.length = l.length := by simpa using congrArg List.length he
  unfold OnlyFirst
  rw [he, hlen]
  exact h

theorem flag_fixUp (p : Process) (s : CMediaSample) : flag (p.fixUp s) = flag s := by
  unfold fixUp
  split
  · exact flag_SetTime ..
  · rfl

theorem size_fill (s : CMediaSample) (bytes : List BYTE) : (s.fill bytes).m_cbBuffer = s.m_cbBuffer := by
  simp [CMediaSample.fill, CMediaSample.m_cbBuffer]

theorem size_fixUp (p : Process) (s : CMediaSample) : (p.fixUp s).m_cbBuffer = s.m_cbBuffer := by
  unfold fixUp
  split <;> rfl

/-- Where the next sample to be passed on starts. -/
def front (p : Process) : Int :=
  match p.outstanding with
  | [] => p.tCurrent.toInt
  | s :: _ => (interval s).1

/-- How far into the stretch to be pulled a time is. -/
def clip (p : Process) (x : Int) : Int := min x (max p.tStop.toInt p.tStart.toInt) - p.tStart.toInt

/-- The samples passed on tile the stretch up to the front, and those that are out
tile the file from there to `tCurrent`. -/
structure Flowing (k : Nat) (p : Process) : Prop where
  framed : Framed k p
  going : ¬ p.pin.m_tStop ≤ p.pin.m_tStart
  timed : ∀ s ∈ p.outstanding, s.GetTime.1 = S_OK ∧ grain k ∣ (interval s).1 ∧
    (interval s).2 = min ((interval s).1 + s.m_cbBuffer.toInt * 10000000) p.tAlignStop.toInt
  dvd : grain k ∣ p.tCurrent.toInt
  lower : p.tStart.toInt ≤ p.front
  upper : p.tCurrent.toInt ≤ max p.tAlignStop.toInt p.tStart.toInt
  queue : Tiles p.front (p.outstanding.map interval) p.tCurrent.toInt
  got : Tiles 0 ((received p.calls).map interval) (p.clip p.front)
  flags : OnlyFirst (received p.calls ++ p.outstanding)

/-- What stays true of the samples passed on, when the loops have been left as well. -/
structure Settled (p : Process) : Prop where
  got : ∃ b ≤ p.pin.total, Tiles 0 ((received p.calls).map interval) b
  stops : ∀ s ∈ received p.calls,
    (interval s).2 = min ((interval s).1 + s.m_cbBuffer.toInt * 10000000) p.pin.total
  flags : OnlyFirst (received p.calls)

theorem total_nonneg (pin : CPullPin) : 0 ≤ pin.total := by
  rw [total]
  split
  · exact le_refl _
  · exact le_max_left ..

theorem Settled.new (hrec : received p.calls = []) : Settled p := by
  refine ⟨⟨0, total_nonneg p.pin, ?_⟩, ?_, ?_⟩ <;> rw [hrec]
  · rfl
  · exact fun s hs => absurd hs List.not_mem_nil
  · rfl

theorem interval_SetTime (s : CMediaSample) (a b : REFERENCE_TIME) : interval (s.SetTime a b) = (a.toInt, b.toInt) := by
  simp [interval]

/-- `DeliverSample` moves the times back by the start, and cuts off what is past the stop. -/
theorem interval_fixUp (h : Framed k p) {s : CMediaSample} (ht : s.GetTime.1 = S_OK)
    (h1 : p.tStart.toInt ≤ (interval s).1) (h2 : (interval s).1 < (interval s).2) (h3 : (interval s).1 < p.tStop.toInt) :
    interval (p.fixUp s) = ((interval s).1 - p.tStart.toInt, min (interval s).2 p.tStop.toInt - p.tStart.toInt) := by
  obtain ⟨t1, t2, hT⟩ : ∃ t1 t2, s.GetTime = (S_OK, some (t1, t2)) := by
    unfold CMediaSample.GetTime at ht ⊢
    split at ht
    · split at ht <;> cases ht
    · rename_i hstop
      exact ⟨_, _, if_neg hstop⟩
  have hi : interval s = (t1.toInt, t2.toInt) := by simp [interval, hT]
  rw [hi] at h1 h2 h3 ⊢
  have h0 := h.nonneg
  have hlt1 := t1.toInt_lt
  have hlt2 := t2.toInt_lt
  have hstop := p.tStop.toInt_lt
  have hmin : (if t2 > p.tStop then p.tStop else t2).toInt = min t2.toInt p.tStop.toInt := by
    split
    · rename_i hgt
      rw [gt_iff_lt, lt_iff] at hgt
      omega
    · rename_i hle
      rw [gt_iff_lt, lt_iff] at hle
      omega
  unfold fixUp
  rw [hT]
  dsimp only at h1 h2 h3 ⊢
  rw [interval_SetTime, Word.sub_exact64 (by omega) (by omega), Word.sub_exact64 (by omega) (by omega), hmin]

/-- The end of the sample from `tCurrent` on. -/
theorem toInt_stopThis (h : Framed k p) (h0 : 0 ≤ p.tCurrent.toInt) (hlt : p.tCurrent < p.tAlignStop) (s : CMediaSample) :
    (p.stopThis s).toInt = min (p.tCurrent.toInt + s.m_cbBuffer.toInt * 10000000) p.tAlignStop.toInt := by
  have hsize : s.m_cbBuffer.toInt = s.m_pBuffer.bytes.length := Block.size_toInt _
  have hfits := s.m_pBuffer.fits
  have hroom := h.room
  rw [lt_iff] at hlt
  have hmul : (s.m_cbBuffer.toInt64 * UNITS).toInt = s.m_cbBuffer.toInt * 10000000 := by
    rw [mul_units] <;> rw [Int32.toInt_toInt64] <;> omega
  have hadd : (p.tCurrent + s.m_cbBuffer.toInt64 * UNITS).toInt = p.tCurrent.toInt + s.m_cbBuffer.toInt * 10000000 := by
    rw [Word.add_exact64] <;> rw [hmul] <;> omega
  unfold stopThis
  dsimp only
  split
  · rename_i hgt
    rw [gt_iff_lt, lt_iff, hadd] at hgt
    omega
  · rename_i hle
    rw [gt_iff_lt, lt_iff, hadd] at hle
    omega

theorem front_congr (ho : q.outstanding = p.outstanding) (hc : q.tCurrent = p.tCurrent) : q.front = p.front := by
  rw [front, front, ho, hc]

theorem clip_congr (hb : SameBounds p q) (x : Int) : q.clip x = p.clip x := by
  rw [clip, clip, hb.2.1, hb.2.2.1]

theorem Flowing.stay (h : Flowing k p) (hb : SameBounds p q) (hrec : received q.calls = received p.calls)
    (ho : q.outstanding = p.outstanding) (hc : q.tCurrent = p.tCurrent) : Flowing k q := by
  have hfront := front_congr ho hc
  refine ⟨h.framed.congr hb, ?_, ?_, ?_, ?_, ?_, ?_, ?_, ?_⟩
  · rw [hb.1]
    exact h.going
  · rw [ho, hb.2.2.2]
    exact h.timed
  · rw [hc]
    exact h.dvd
  · rw [hfront, hb.2.1]
    exact h.lower
  · rw [hc, hb.2.2.2, hb.2.1]
    exact h.upper
  · rw [hfront, ho, hc]
    exact h.queue
  · rw [hrec, hfront, clip_congr hb]
    exact h.got
  · rw [hrec, ho]
    exact h.flags

/-- A buffer is stamped: it goes on where the last one stops. -/
theorem Flowing.stamp (h : Flowing k p) (hb : SameBounds p q) {s s' : CMediaSample} (hfit : Fitting k p (.GetBuffer (.ok s)))
    (hlt : p.tCurrent < p.tAlignStop) (hrec : received q.calls = received p.calls)
    (ho : q.outstanding = p.outstanding ++ [s']) (hc : q.tCurrent = p.stopThis s)
    (htime : s'.GetTime = (NOERROR, some (p.tCurrent, p.stopThis s))) (hsize : s'.m_cbBuffer = s.m_cbBuffer)
    (hflag : flag s = false → flag s' = decide (received p.calls ++ p.outstanding = [])) : Flowing k q := by
  obtain ⟨hpos, hdvd, hclear⟩ := hfit
  have hle : p.front ≤ p.tCurrent.toInt := h.queue.le
  have hnonneg := h.framed.nonneg
  have hlower := h.lower
  have hstop := toInt_stopThis h.framed (by omega) hlt s
  have hi : interval s' = (p.tCurrent.toInt, (p.stopThis s).toInt) := by simp [interval, htime]
  have hlt' := lt_iff.1 hlt
  have hmore : p.tCurrent.toInt < (p.stopThis s).toInt := by
    rw [hstop]
    omega
  have hfront : q.front = p.front := by
    rw [front, front, ho]
    cases p.outstanding with
    | nil => simp [hi]
    | cons => rfl
  refine ⟨h.framed.congr hb, ?_, ?_, ?_, ?_, ?_, ?_, ?_, ?_⟩
  · rw [hb.1]
    exact h.going
  · intro x hx
    rw [ho, List.mem_append, List.mem_singleton] at hx
    rw [hb.2.2.2]
    rcases hx with hx | rfl
    · exact h.timed x hx
    · rw [hi, htime, hsize]
      exact ⟨rfl, h.dvd, hstop⟩
  · have hgrain : grain k ∣ s.m_cbBuffer.toInt * 10000000 := Int.mul_dvd_mul hdvd (Int.dvd_refl _)
    rw [hc, hstop]
    rcases min_choice (p.tCurrent.toInt + s.m_cbBuffer.toInt * 10000000) p.tAlignStop.toInt with he | he <;> rw [he]
    · exact Int.dvd_add h.dvd hgrain
    · exact h.framed.stopDvd
  · rw [hfront, hb.2.1]
    exact h.lower
  · rw [hc, hstop, hb.2.2.2, hb.2.1]
    omega
  · rw [hfront, ho, hc, List.map_append, List.map_singleton, hi]
    exact h.queue.snoc hmore
  · rw [hrec, hfront, clip_congr hb]
    exact h.got
  · rw [hrec, ho, ← List.append_assoc]
    exact h.flags.snoc (hflag hclear)

/-- What is known of the sample in front. -/
theorem Flowing.head (h : Flowing k p) {s : CMediaSample} {rest : List CMediaSample} (ho : p.outstanding = s :: rest) :
    p.front = (interval s).1 ∧ (interval s).1 < (interval s).2 ∧ (interval s).1 < p.tStop.toInt ∧
      (interval s).1 < p.tAlignStop.toInt ∧ Tiles (interval s).2 (rest.map interval) p.tCurrent.toInt := by
  have hfront : p.front = (interval s).1 := by rw [front, ho]
  have hq := h.queue
  rw [hfront, ho] at hq
  have hlt : (interval s).1 < (interval s).2 := hq.2.1
  have htail : Tiles (interval s).2 (rest.map interval) p.tCurrent.toInt := hq.2.2
  obtain ⟨-, hdvd, hstop⟩ := h.timed s (by simp [ho])
  have halign : (interval s).1 < p.tAlignStop.toInt := by omega
  -- Both are multiples of the grain, and the aligned stop is less than a grain behind the stop.
  have hgrain : grain k ≤ p.tAlignStop.toInt - (interval s).1 :=
    Int.le_of_dvd (by omega) (Int.dvd_sub h.framed.stopDvd hdvd)
  have hgap := h.framed.gap
  exact ⟨hfront, hlt, by omega, halign, htail⟩

/-- The sample in front is passed on. -/
theorem Flowing.read (h : Flowing k p) (hb : SameBounds p q) {s : CMediaSample} {rest : List CMediaSample}
    {bytes : List BYTE} (hout : p.outstanding = s :: rest) (ho : q.outstanding = rest)
    (hrec : received q.calls = received p.calls ++ [p.fixUp (s.fill bytes)]) (hc : q.tCurrent = p.tCurrent) :
    Flowing k q ∧ interval (p.fixUp (s.fill bytes)) = (p.clip p.front, p.clip (interval s).2) := by
  obtain ⟨hfront, hlt, hstop, -, htail⟩ := h.head hout
  have hlower := h.lower
  have hfront' : q.front = (interval s).2 := by
    rw [front, ho, hc]
    cases rest with
    | nil => exact htail.symm
    | cons x l => exact htail.1
  obtain ⟨hok, -⟩ := h.timed s (by simp [hout])
  have hfix : interval (p.fixUp (s.fill bytes)) = (p.clip p.front, p.clip (interval s).2) := by
    -- What has been read does not touch the times.
    have hlow : p.tStart.toInt ≤ (interval (s.fill bytes)).1 := hlower.trans hfront.le
    refine (interval_fixUp (s := s.fill bytes) h.framed hok hlow hlt hstop).trans ?_
    show ((interval s).1 - p.tStart.toInt, min (interval s).2 p.tStop.toInt - p.tStart.toInt) = _
    rw [clip, clip, hfront]
    congr 1 <;> omega
  refine ⟨⟨h.framed.congr hb, ?_, ?_, ?_, ?_, ?_, ?_, ?_, ?_⟩, hfix⟩
  · rw [hb.1]
    exact h.going
  · intro x hx
    rw [ho] at hx
    rw [hb.2.2.2]
    exact h.timed x (by simp [hout, hx])
  · rw [hc]
    exact h.dvd
  · rw [hfront', hb.2.1]
    omega
  · rw [hc, hb.2.2.2, hb.2.1]
    exact h.upper
  · rw [hfront', ho, hc]
    exact htail
  · rw [hrec, hfront', clip_congr hb, List.map_append, List.map_singleton, hfix]
    refine h.got.snoc ?_
    rw [clip, clip]
    omega
  · rw [hrec, ho]
    refine h.flags.congr ?_
    rw [hout]
    simp [flag_fixUp]
    rfl

theorem total_eq (h : Flowing k p) : p.pin.total = max 0 (min p.tAlignStop.toInt p.tStop.toInt - p.tStart.toInt) := by
  rw [total, if_neg h.going, h.framed.start, h.framed.stop, h.framed.alignStop]

theorem clip_le_total (h : Flowing k p) {x : Int} (hx : x ≤ max p.tAlignStop.toInt p.tStart.toInt) :
    p.clip x ≤ p.pin.total := by
  rw [total_eq h, clip]
  omega

/-- What has been passed on is no more than the whole. -/
theorem Settled.read (h : Flowing k p) (hset : Settled p) (hb : SameBounds p q) {s : CMediaSample} {rest : List CMediaSample}
    {bytes : List BYTE} (hout : p.outstanding = s :: rest) (ho : q.outstanding = rest)
    (hrec : received q.calls = received p.calls ++ [p.fixUp (s.fill bytes)]) (hc : q.tCurrent = p.tCurrent) :
    Settled q := by
  obtain ⟨hq, hfix⟩ := h.read hb hout ho hrec hc
  obtain ⟨hfront, hlt, hstop, halign, htail⟩ := h.head hout
  obtain ⟨-, -, hend⟩ := h.timed s (by simp [hout])
  have hlower := h.lower
  refine ⟨⟨q.clip q.front, clip_le_total hq (hq.queue.le.trans hq.upper), hq.got⟩, ?_, hq.flags.of_append⟩
  intro x hx
  rw [hrec, List.mem_append, List.mem_singleton] at hx
  rw [hb.1]
  rcases hx with hx | rfl
  · exact hset.stops x hx
  · rw [hfix, size_fixUp, size_fill, total_eq h, clip, clip]
    dsimp only
    omega

/-- The front of the samples that are out, and what they leave behind. -/
theorem eq_cons_of_getElem? {α : Type} {l l' : List α} {x : α} (hget : l[0]? = some x) (he : l' = l.eraseIdx 0) :
    l = x :: l' := by
  cases l with
  | nil => cases hget
  | cons y l =>
    cases hget
    rw [he]
    rfl

/-- Both are kept by every step. -/
theorem tiling_step (hst : Standing p) (h : (p.Live → Flowing k p) ∧ Settled p) {e : Event} (hfit : Fitting k p e)
    (hs : p.step e = some q) : (q.Live → Flowing k q) ∧ Settled q := by
  obtain ⟨hflow, hset⟩ := h
  have hb := bounds_step hs
  have hkeep : received q.calls = received p.calls → Settled q := by
    intro hrec
    refine ⟨?_, ?_, ?_⟩ <;> rw [hrec]
    · rw [hb.1]
      exact hset.got
    · rw [hb.1]
      exact hset.stops
    · exact hset.flags
  cases progress hst hs with
  | stay live hrec ho hc => exact ⟨fun _ => (hflow live.1).stay hb hrec ho hc, hkeep hrec⟩
  | stamp live hlt hrec ho hc htime hsize hflag =>
    exact ⟨fun _ => (hflow live.1).stamp hb hfit hlt hrec ho hc htime hsize hflag, hkeep hrec⟩
  | read live hrec hget ho hc =>
    cases hfit
    have hout := eq_cons_of_getElem? hget ho
    exact ⟨fun _ => ((hflow live.1).read hb hout rfl hrec hc).1, .read (hflow live.1) hset hb hout rfl hrec hc⟩
  | readSync live hrec hget ho hc =>
    exact ⟨fun _ => ((hflow live.1).read hb hget ho hrec hc).1, .read (hflow live.1) hset hb hget ho hrec hc⟩
  | stop live hrec => exact ⟨fun hl => absurd hl live, hkeep hrec⟩

theorem tiling_start (h : pin.Sensible k) (hgo : ¬ pin.m_tStop ≤ pin.m_tStart) :
    ((start pin).Live → Flowing k (start pin)) ∧ Settled (start pin) := by
  have hframed := framed_start h hgo
  obtain ⟨hpin, hrec, hout⟩ := start_new pin
  have hcur : (start pin).tCurrent = (start pin).tStart := by
    unfold start
    dsimp only
    rw [if_neg hgo, (live_outer _).2.2, (outer_bounds _).2.1]
  have hfront : (start pin).front = (start pin).tStart.toInt := by rw [front, hout, hcur]
  refine ⟨fun _ => ⟨hframed, ?_, ?_, ?_, ?_, ?_, ?_, ?_, ?_⟩, .new hrec⟩
  · rwa [hpin]
  · rw [hout]
    exact fun s hs => absurd hs List.not_mem_nil
  · rw [hcur]
    exact hframed.startDvd
  · exact hfront.ge
  · rw [hcur]
    exact le_max_right ..
  · rw [hfront, hout, hcur]
    rfl
  · rw [hrec, hfront, clip]
    show (0 : Int) = _
    omega
  · rw [hrec, hout]
    rfl

/-- If there is nothing to do, nothing is done. -/
theorem runs_idle (hgo : pin.m_tStop ≤ pin.m_tStart) (hrun : Runs step C (start pin) es p) : p = start pin := by
  refine hrun.inv (· = start pin) rfl fun t e u ht _ hs => ?_
  have hplace : t.place = .returned := by
    rw [ht, start, if_pos hgo]
    rfl
  cases e <;> simp [step, CheckRequest, GetBuffer, Request, WaitForNext, SyncReadAligned, Receive, Cancelled, hplace] at hs

theorem tiling (h : pin.Sensible k) (hrun : Runs step (Fitting k) (start pin) es p) :
    (p.Live → ¬ pin.m_tStop ≤ pin.m_tStart → Flowing k p) ∧ Settled p := by
  by_cases hgo : pin.m_tStop ≤ pin.m_tStart
  · cases runs_idle hgo hrun
    exact ⟨fun _ hno => absurd hgo hno, .new (start_new pin).2.1⟩
  · obtain ⟨-, hflow, hset⟩ := hrun.inv (fun t => Standing t ∧ (t.Live → Flowing k t) ∧ Settled t)
      ⟨standing_start pin, tiling_start h hgo⟩ fun t e u ht hfit hs =>
        ⟨standing_step ht.1 hs, tiling_step ht.1 ht.2 hfit hs⟩
    exact ⟨fun hl _ => hflow hl, hset⟩

theorem Standing.ended (h : Standing p) (hend : .EndOfStream ∈ p.calls) :
    p.place = .returned ∧ p.calls = (received p.calls).map .Receive ++ [.EndOfStream] ∧ p.requested = [] ∧
      (p.tCurrent < p.tAlignStop → p.pin.m_tStop ≤ p.pin.m_tStart) := by
  obtain ⟨hplace, calls, c, honly, hcalls, hlast, hall⟩ := h.calls.resolve_left fun honly => honly.not_ended hend
  have hc : c = .EndOfStream := by
    rw [hcalls, List.mem_append, List.mem_singleton] at hend
    exact (hend.resolve_left honly.not_ended).symm
  have hrec : received p.calls = received calls := by
    rw [hcalls, hc, received_append, received_EndOfStream, List.append_nil]
  refine ⟨hplace, ?_, hall hc⟩
  rw [hrec, ← honly, ← hc]
  exact hcalls

/-- At the end of the stream the whole stretch has been passed on. -/
theorem tiles_total (h : pin.Sensible k) (hrun : Runs step (Fitting k) (start pin) es p) (hend : .EndOfStream ∈ p.calls) :
    Tiles 0 ((received p.calls).map interval) pin.total := by
  obtain ⟨hflow, hset⟩ := tiling h hrun
  have hpin := runs_pin hrun
  obtain ⟨hplace, -, hreq, hdone⟩ := (standing hrun).ended hend
  rw [hpin] at hdone
  by_cases hgo : pin.m_tStop ≤ pin.m_tStart
  · obtain ⟨b, hle, htiles⟩ := hset.got
    have hzero : pin.total = 0 := by rw [total, if_pos hgo]
    have hb : 0 ≤ b := htiles.le
    rw [hpin, hzero] at hle
    rw [le_antisymm hle hb] at htiles
    rw [hzero]
    exact htiles
  · have hlive : p.Live := by simpa [Live, hplace] using hend
    have hf := hflow hlive hgo
    have hout : p.outstanding = [] := by simp [outstanding, hreq, hplace]
    have hfront : p.front = p.tCurrent.toInt := by rw [front, hout]
    have hge : ¬ p.tCurrent.toInt < p.tAlignStop.toInt := fun hlt => hgo (hdone (lt_iff.2 hlt))
    have hupper := hf.upper
    have hlower := hf.lower
    have hclip : p.clip p.front = pin.total := by
      rw [← hpin, total_eq hf, clip]
      omega
    rw [← hclip]
    exact hf.got

/-- The samples passed on follow one another from the aligned start, the first one
flagged as a discontinuity and no other. `EndOfStream` comes behind all of them,
and then they have reached the stop. -/
theorem pulled_in_order (h : pin.Sensible k) (hrun : Runs step (Fitting k) (start pin) es p) :
    ∃ b ≤ pin.total, Tiles 0 ((received p.calls).map interval) b ∧ OnlyFirst (received p.calls) ∧
      (.EndOfStream ∈ p.calls → b = pin.total ∧ p.calls = (received p.calls).map .Receive ++ [.EndOfStream]) := by
  obtain ⟨-, hset⟩ := tiling h hrun
  by_cases hend : .EndOfStream ∈ p.calls
  · have hshape := ((standing hrun).ended hend).2.1
    exact ⟨_, le_refl _, tiles_total h hrun hend, hset.flags, fun _ => ⟨rfl, hshape⟩⟩
  · obtain ⟨b, hle, htiles⟩ := hset.got
    exact ⟨b, runs_pin hrun ▸ hle, htiles, hset.flags, fun hmem => absurd hmem hend⟩

/-- The buffers of an allocator have one size. -/
def OfSize (n : LONG) (_ : Process) : Event → Prop
  | .GetBuffer (.ok s) => s.m_cbBuffer = n
  | _ => True

/-! ### A file of five bytes, in buffers of four, aligned at two -/

def fivePin (bSync : Bool) : CPullPin := Connect ⟨2, 4, 2, 0⟩ 5 bSync

def fourBytes : CMediaSample := .new ⟨0, 0, 0, 0⟩ (.filled 4 0 (by decide))

def queuedReads : List Event :=
  [.CheckRequest false, .GetBuffer (.ok fourBytes), .Request S_OK, .GetBuffer (.ok fourBytes), .Request S_OK,
    .WaitForNext S_OK (some (0, [1, 2, 3, 4])), .Receive S_OK, .WaitForNext S_OK (some (0, [5])), .Receive S_OK]

def syncReads : List Event :=
  [.CheckRequest false, .GetBuffer (.ok fourBytes), .SyncReadAligned S_OK [1, 2, 3, 4], .Receive S_OK,
    .CheckRequest false, .GetBuffer (.ok fourBytes), .SyncReadAligned S_OK [5], .Receive S_OK]

def afterQueuedReads : Process := (evalRun step Any queuedReads (start (fivePin false))).get (by decide)

def afterSyncReads : Process := (evalRun step Any syncReads (start (fivePin true))).get (by decide)

theorem ended_of_any {calls : List Call} (h : calls.any (fun | .EndOfStream => true | _ => false) = true) :
    .EndOfStream ∈ calls := by
  obtain ⟨c, hc, he⟩ := List.any_eq_true.1 h
  cases c with
  | EndOfStream => exact hc
  | _ => cases he

theorem ended_queuedReads : .EndOfStream ∈ afterQueuedReads.calls := ended_of_any (by decide)

theorem ended_syncReads : .EndOfStream ∈ afterSyncReads.calls := ended_of_any (by decide)

theorem sensible_fivePin (bSync : Bool) : Sensible 1 (fivePin bSync) :=
  ⟨by cases bSync <;> decide, by cases bSync <;> decide, by cases bSync <;> decide, by cases bSync <;> decide⟩

theorem runs_queuedReads :
    Runs step (fun t e => Fitting 1 t e ∧ OfSize 4 t e) (start (fivePin false)) queuedReads afterQueuedReads := by
  have hrun : Runs step Any (start (fivePin false)) queuedReads afterQueuedReads := .of_isSome _
  refine hrun.of_forall fun e he s => ?_
  simp only [queuedReads, List.mem_cons, List.not_mem_nil, or_false] at he
  rcases he with rfl | rfl | rfl | rfl | rfl | rfl | rfl | rfl | rfl
  all_goals first | exact ⟨trivial, trivial⟩ | exact ⟨rfl, trivial⟩ | exact ⟨⟨by decide, by decide, by decide⟩, rfl⟩

theorem runs_syncReads :
    Runs step (fun t e => Fitting 1 t e ∧ OfSize 4 t e) (start (fivePin true)) syncReads afterSyncReads := by
  have hrun : Runs step Any (start (fivePin true)) syncReads afterSyncReads := .of_isSome _
  refine hrun.of_forall fun e he s => ?_
  simp only [syncReads, List.mem_cons, List.not_mem_nil, or_false] at he
  rcases he with rfl | rfl | rfl | rfl | rfl | rfl | rfl | rfl
  all_goals first | exact ⟨trivial, trivial⟩ | exact ⟨⟨by decide, by decide, by decide⟩, rfl⟩

theorem pulled_in_order_fiveBytes : ∃ b ≤ (50000000 : Int), Tiles 0 ((received afterQueuedReads.calls).map interval) b ∧
    OnlyFirst (received afterQueuedReads.calls) ∧ b = 50000000 := by
  have htotal : (fivePin false).total = 50000000 := by decide
  obtain ⟨b, hle, htiles, honly, hall⟩ := pulled_in_order (sensible_fivePin false) (runs_queuedReads.mono fun _ _ hc => hc.1)
  rw [htotal] at hle hall
  exact ⟨b, hle, htiles, honly, (hall ended_queuedReads).1⟩

theorem sizes {n : LONG} (hrun : Runs step (OfSize n) (start pin) es p) : ∀ s ∈ received p.calls, s.m_cbBuffer = n := by
  have hinit := (start_new pin).2
  refine (hrun.inv (fun t => Standing t ∧ (∀ s ∈ received t.calls, s.m_cbBuffer = n) ∧
      (t.Live → ∀ s ∈ t.outstanding, s.m_cbBuffer = n))
    ⟨standing_start pin, by simp [hinit.1], by simp [hinit.2]⟩ fun t e u ht hsize hs => ?_).2.1
  obtain ⟨hst, hrec, hout⟩ := ht
  refine ⟨standing_step hst hs, ?_⟩
  cases progress hst hs with
  | stay live hr ho _ => exact ⟨hr ▸ hrec, fun _ => ho ▸ hout live.1⟩
  | stamp live _ hr ho _ _ hs' _ =>
    refine ⟨hr ▸ hrec, fun _ x hx => ?_⟩
    rw [ho, List.mem_append, List.mem_singleton] at hx
    rcases hx with hx | rfl
    · exact hout live.1 x hx
    · exact hs'.trans hsize
  | read live hr hget ho _ =>
    refine ⟨fun x hx => ?_, fun _ x hx => hout live.1 x (List.mem_of_mem_eraseIdx (ho ▸ hx))⟩
    rw [hr, List.mem_append, List.mem_singleton] at hx
    rcases hx with hx | rfl
    · exact hrec x hx
    · rw [size_fixUp, size_fill]
      exact hout live.1 _ (List.mem_of_getElem? hget)
  | readSync live hr hget ho _ =>
    refine ⟨fun x hx => ?_, fun _ x hx => by rw [ho] at hx; cases hx⟩
    rw [hr, List.mem_append, List.mem_singleton] at hx
    rcases hx with hx | rfl
    · exact hrec x hx
    · rw [size_fixUp, size_fill]
      exact hout live.1 _ (by simp [hget])
  | stop live hr => exact ⟨hr ▸ hrec, fun hl => absurd hl live⟩

/-- The two loops, and any number of buffers, pass on the same samples. -/
theorem loops_agree {n cBuffers : LONG} {bSync : Bool} {es' : List Event} {p' : Process} (h : pin.Sensible k)
    (hrun : Runs step (fun t e => Fitting k t e ∧ OfSize n t e) (start pin) es p)
    (hrun' : Runs step (fun t e => Fitting k t e ∧ OfSize n t e)
      (start { pin with m_bSync := bSync, Actual := { pin.Actual with cBuffers } }) es' p')
    (hend : .EndOfStream ∈ p.calls) (hend' : .EndOfStream ∈ p'.calls) :
    (received p.calls).map interval = (received p'.calls).map interval ∧
      (received p.calls).map flag = (received p'.calls).map flag := by
  have h' : Sensible k { pin with m_bSync := bSync, Actual := { pin.Actual with cBuffers } } :=
    ⟨h.align, h.start, h.duration, h.room⟩
  have hfit := hrun.mono fun _ _ hc => hc.1
  have hfit' := hrun'.mono fun _ _ hc => hc.1
  have htiles := tiles_total h hfit hend
  have htiles' := tiles_total h' hfit' hend'
  obtain ⟨-, hset⟩ := tiling h hfit
  obtain ⟨-, hset'⟩ := tiling h' hfit'
  have hsize := sizes (hrun.mono fun _ _ hc => hc.2)
  have hsize' := sizes (hrun'.mono fun _ _ hc => hc.2)
  have hsame : (received p.calls).map interval = (received p'.calls).map interval := by
    refine Tiles.functional (f := fun x => min (x + n.toInt * 10000000) pin.total) htiles htiles' ?_ ?_
    · intro i hi
      obtain ⟨s, hs, rfl⟩ := List.mem_map.1 hi
      have hstop := hset.stops s hs
      rwa [hsize s hs, runs_pin hfit] at hstop
    · intro i hi
      obtain ⟨s, hs, rfl⟩ := List.mem_map.1 hi
      have hstop := hset'.stops s hs
      rwa [hsize' s hs, runs_pin hfit'] at hstop
  refine ⟨hsame, ?_⟩
  have hlen : (received p.calls).length = (received p'.calls).length := by simpa using congrArg List.length hsame
  have honly := hset.flags
  have honly' := hset'.flags
  unfold OnlyFirst at honly honly'
  rw [honly, honly', hlen]

theorem loops_agree_fiveBytes :
    (received afterQueuedReads.calls).map interval = (received afterSyncReads.calls).map interval :=
  (loops_agree (sensible_fivePin false) runs_queuedReads runs_syncReads ended_queuedReads ended_syncReads).1

/-- When `Process` asks for a buffer, it has fewer of them than there are, so it
never waits for itself. Each buffer is released once, with the reader, or held; at
the end of the stream all are released. -/
theorem never_starved (hrun : Runs step C (start pin) es p) (hc : 0 < pin.Actual.cBuffers.toInt) :
    (∀ s, (p.step (.GetBuffer (.ok s))).isSome → p.requested.length < pin.Actual.cBuffers.toInt) ∧
      p.got = p.released + p.requested.length + p.hand ∧ (.EndOfStream ∈ p.calls → p.got = p.released) := by
  have hst := standing hrun
  have hpin := runs_pin hrun
  have hat := hst.place
  have hcount := hst.count
  refine ⟨fun s hs => ?_, hcount, fun hend => ?_⟩
  · cases hp : p.place with
    | GetBuffer c =>
      simp only [AtPlace, hp] at hat
      obtain ⟨-, -, hreq, -, -⟩ := hat
      rw [hreq, owed, hpin]
      split
      · rename_i howed
        have hmore := Int32.lt_iff_toInt_lt.1 howed.2
        have hone : (1 : LONG).toInt = 1 := rfl
        omega
      · exact hc
    | GetBufferSync =>
      simp only [AtPlace, hp] at hat
      rw [hat.2.2.1]
      exact hc
    | _ => simp [step, GetBuffer, hp] at hs
  · obtain ⟨hplace, -, hreq, -⟩ := hst.ended hend
    simpa [hreq, hand, hplace] using hcount

theorem never_starved_fiveBytes : afterQueuedReads.got = afterQueuedReads.released :=
  (never_starved runs_queuedReads (by decide)).2.2 ended_queuedReads

end Process

end CPullPin

end FilterSln
