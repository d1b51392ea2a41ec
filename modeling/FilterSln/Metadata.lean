import FilterSln.Negotiation
import FilterSln.Receive
/-!
# Times and flags of the frames

Metadata reaches an output sample twice: `InitializeOutputSample` stores the
properties of the input sample in it, then `Transform` copies what the calls of
the input sample answer. Each way covers what the other leaves out. A start
without a stop comes by the first only, media times by the second only. What the
input sample lacks is absent because a sample comes from the pool without flags
(`FreeSample`).

A `CMediaSample` gets through as it is (`carried_view`). Of samples that others
implement, those do that have a stop, or the right properties (`TimeCarried`), and
no long media time (`MediaTimeCarried`).
-/

namespace FilterSln

open HRESULT Lib Lib.Flags CTransformFilter

/-! ## The second way: what `Transform` copies -/

/-- The first of the two times that `copyTimes` copies. -/
def copyTime (pIn : IMediaSample) (pOut : CMediaSample) : CMediaSample :=
  match pIn.GetTime with
  | (.S_OK, some (TimeStart, TimeEnd)) => pOut.SetTime TimeStart TimeEnd
  | _ => pOut

theorem copyTimes_eq (pIn : IMediaSample) (pOut : CMediaSample) :
    copyTimes pIn pOut = match pIn.GetMediaTime with
      | (.S_OK, some (MediaStart, MediaEnd)) => (copyTime pIn pOut).SetMediaTime MediaStart MediaEnd
      | _ => copyTime pIn pOut := rfl

theorem GetTime_copyTimes (pIn : IMediaSample) (pOut : CMediaSample) :
    (copyTimes pIn pOut).GetTime = match pIn.GetTime with
      | (.S_OK, some t) => (NOERROR, some t)
      | _ => pOut.GetTime := by
  have hkeep : (copyTimes pIn pOut).GetTime = (copyTime pIn pOut).GetTime := by
    rw [copyTimes_eq]
    split
    · simp [CMediaSample.GetTime, CMediaSample.SetMediaTime]
    · rfl
  rw [hkeep, copyTime]
  rcases pIn.GetTime with ⟨hr, _ | t⟩
  · cases hr <;> rfl
  · cases hr with
    | S_OK => exact pOut.GetTime_SetTime _ _
    | _ => rfl

/-- The length of the media time goes through a `LONG`. -/
theorem GetMediaTime_copyTimes (pIn : IMediaSample) (pOut : CMediaSample) :
    (copyTimes pIn pOut).GetMediaTime = match pIn.GetMediaTime with
      | (.S_OK, some (MediaStart, MediaEnd)) =>
        (NOERROR, some (MediaStart, MediaStart + (MediaEnd - MediaStart).toInt32.toInt64))
      | _ => pOut.GetMediaTime := by
  have htime : (copyTime pIn pOut).GetMediaTime = pOut.GetMediaTime := by
    unfold copyTime
    split
    · simp [CMediaSample.GetMediaTime, CMediaSample.SetTime]
    · rfl
  rw [copyTimes_eq]
  rcases pIn.GetMediaTime with ⟨hr, _ | t⟩
  · cases hr <;> exact htime
  · cases hr with
    | S_OK =>
      dsimp only
      rw [CMediaSample.GetMediaTime, if_neg (by simp [CMediaSample.SetMediaTime])]
      rfl
    | _ => exact htime

/-- The three flags are as they were answered, so the times decide. -/
theorem withMetadata_same {pIn : IMediaSample} {pOut : CMediaSample} {sync preroll discontinuity : Bool}
    (h1 : pIn.IsSyncPoint = yesNo sync) (h2 : pIn.IsPreroll = yesNo preroll)
    (h3 : pIn.IsDiscontinuity = yesNo discontinuity) :
    (withMetadata pIn pOut sync preroll discontinuity).view.SameMetadata pIn ↔
      (copyTimes pIn pOut).GetTime = pIn.GetTime ∧ (copyTimes pIn pOut).GetMediaTime = pIn.GetMediaTime := by
  unfold withMetadata
  generalize copyTimes pIn pOut = t
  have hlen := CMediaSample.view_SetActualDataLength
    (((t.SetSyncPoint sync).SetPreroll preroll).SetDiscontinuity discontinuity) pIn.GetActualDataLength
  have htime : (((t.SetSyncPoint sync).SetPreroll preroll).SetDiscontinuity discontinuity).view.GetTime = t.GetTime := by
    simp [CMediaSample.view, CMediaSample.SetDiscontinuity, CMediaSample.SetPreroll, CMediaSample.SetSyncPoint]
  have hmedia : (((t.SetSyncPoint sync).SetPreroll preroll).SetDiscontinuity discontinuity).view.GetMediaTime =
      t.GetMediaTime := by
    simp [CMediaSample.view, CMediaSample.SetDiscontinuity, CMediaSample.SetPreroll, CMediaSample.SetSyncPoint]
  constructor
  · rintro ⟨ht, hm, -⟩
    exact ⟨(hlen.time.trans htime).symm.trans ht, (hlen.mediaTime.trans hmedia).symm.trans hm⟩
  · rintro ⟨ht, hm⟩
    refine ⟨(hlen.time.trans htime).trans ht, (hlen.mediaTime.trans hmedia).trans hm, hlen.syncPoint.trans ?_,
      hlen.preroll.trans ?_, hlen.discontinuity.trans ?_⟩
    · rw [h1]
      simp [CMediaSample.view, CMediaSample.SetDiscontinuity, CMediaSample.SetPreroll, CMediaSample.SetSyncPoint,
        CMediaSample.IsSyncPoint]
    · rw [h2]
      simp [CMediaSample.view, CMediaSample.SetDiscontinuity, CMediaSample.SetPreroll, CMediaSample.IsPreroll]
    · rw [h3]
      simp [CMediaSample.view, CMediaSample.SetDiscontinuity, CMediaSample.IsDiscontinuity]

/-! ## The first way: the properties -/

/-- No flag is set that `SetProperties` refuses. -/
def AM_SAMPLE2_PROPERTIES.Accepted (pProps : AM_SAMPLE2_PROPERTIES) : Prop :=
  pProps.dwSampleFlags &&& (~~~Sample_ValidFlags ||| mask SampleFlag.MediaTimeValid) = 0#32

instance (pProps : AM_SAMPLE2_PROPERTIES) : Decidable pProps.Accepted :=
  inferInstanceAs (Decidable (_ = _))

/-- The time of a new sample in which the properties have been stored. -/
def AM_SAMPLE2_PROPERTIES.time (pProps : AM_SAMPLE2_PROPERTIES) : HRESULT × Option (REFERENCE_TIME × REFERENCE_TIME) :=
  if ¬ pProps.Accepted then (VFW_E_SAMPLE_TIME_NOT_SET, none)
  else if has pProps.dwSampleFlags SampleFlag.StopValid then (NOERROR, some (pProps.tStart, pProps.tStop))
  else if has pProps.dwSampleFlags SampleFlag.TimeValid then (VFW_S_NO_STOP_TIME, some (pProps.tStart, pProps.tStart + 1))
  else (VFW_E_SAMPLE_TIME_NOT_SET, none)

/-- A time with a stop, a time without one, or none. -/
theorem AM_SAMPLE2_PROPERTIES.time_cases (pProps : AM_SAMPLE2_PROPERTIES) :
    (pProps.time = (NOERROR, some (pProps.tStart, pProps.tStop)) ∧ pProps.Accepted ∧
      has pProps.dwSampleFlags SampleFlag.StopValid = true) ∨
    (pProps.time = (VFW_S_NO_STOP_TIME, some (pProps.tStart, pProps.tStart + 1)) ∧ pProps.Accepted ∧
      has pProps.dwSampleFlags SampleFlag.TimeValid = true ∧ has pProps.dwSampleFlags SampleFlag.StopValid = false) ∨
    pProps.time = (VFW_E_SAMPLE_TIME_NOT_SET, none) ∧ (pProps.Accepted →
      has pProps.dwSampleFlags SampleFlag.TimeValid = false ∧ has pProps.dwSampleFlags SampleFlag.StopValid = false) := by
  unfold time
  split
  · rename_i hacc
    exact .inr (.inr ⟨rfl, fun h => absurd h hacc⟩)
  · rename_i hacc
    have hacc := not_not.1 hacc
    split
    · rename_i hstop
      exact .inl ⟨rfl, hacc, hstop⟩
    · rename_i hstop
      have hstop := Bool.eq_false_iff.2 hstop
      split
      · rename_i htime
        exact .inr (.inl ⟨rfl, hacc, htime, hstop⟩)
      · rename_i htime
        exact .inr (.inr ⟨rfl, fun _ => ⟨Bool.eq_false_iff.2 htime, hstop⟩⟩)

theorem copyProps_times {pProps OutProps : AM_SAMPLE2_PROPERTIES} {s : CMediaSample} (hclean : s.m_dwFlags = .none) :
    (copyProps pProps OutProps s).GetTime = pProps.time ∧
      (copyProps pProps OutProps s).GetMediaTime = (VFW_E_MEDIA_TIME_NOT_SET, none) := by
  by_cases hf : pProps.Accepted
  · obtain ⟨hstart, hend, hflags⟩ := @copyProps_ok pProps OutProps s hclean hf
    have hmedia : has pProps.dwSampleFlags SampleFlag.MediaTimeValid = false := by
      have hbit := congrArg (has · SampleFlag.MediaTimeValid) hf
      simpa using hbit
    have h1 := hflags .StopValid nofun
    have h2 := hflags .TimeValid nofun
    have h3 := hflags .MediaTimeValid nofun
    constructor
    · simp only [AM_SAMPLE2_PROPERTIES.time, hf, CMediaSample.GetTime, h1, h2, hstart, hend]
      cases has pProps.dwSampleFlags SampleFlag.StopValid <;> cases has pProps.dwSampleFlags SampleFlag.TimeValid <;> simp
    · simp [CMediaSample.GetMediaTime, h3, hmedia]
  · rw [copyProps_refused hclean hf]
    simp [AM_SAMPLE2_PROPERTIES.time, hf, CMediaSample.GetTime, CMediaSample.GetMediaTime, hclean]

/-! ## Both together -/

/-- The time of the sample gets through: it has start and stop, or its properties
say what `GetTime` says, with flags that are not refused. -/
def IMediaSample.TimeCarried (pSample : IMediaSample) : Prop :=
  (∃ t, pSample.GetTime = (S_OK, some t)) ∨
  (∃ hr pProps, pSample.IMediaSample2 = some (hr, pProps) ∧ pProps.Accepted ∧
    has pProps.dwSampleFlags SampleFlag.TimeValid = true ∧ has pProps.dwSampleFlags SampleFlag.StopValid = false ∧
    pSample.GetTime = (VFW_S_NO_STOP_TIME, some (pProps.tStart, pProps.tStart + 1))) ∨
  pSample.GetTime = (VFW_E_SAMPLE_TIME_NOT_SET, none) ∧
    ∀ hr pProps, pSample.IMediaSample2 = some (hr, pProps) → pProps.Accepted →
      has pProps.dwSampleFlags SampleFlag.TimeValid = false ∧ has pProps.dwSampleFlags SampleFlag.StopValid = false

/-- The media time of the sample gets through: there is none, or its length is a `LONG`. -/
def IMediaSample.MediaTimeCarried (pSample : IMediaSample) : Prop :=
  match pSample.GetMediaTime with
  | (.S_OK, some (MediaStart, MediaEnd)) =>
    -2 ^ 31 ≤ (MediaEnd - MediaStart).toInt ∧ (MediaEnd - MediaStart).toInt < 2 ^ 31
  | (.VFW_E_MEDIA_TIME_NOT_SET, none) => True
  | _ => False

/-- Without `IMediaSample2` a sample with any time has, for the filter, a stop. -/
theorem time_hardWay (pSample : IMediaSample) (m_SampleProps : AM_SAMPLE2_PROPERTIES) :
    (propsTheHardWay pSample m_SampleProps).time =
      if pSample.GetTime.1.SUCCEEDED then
        (NOERROR, some ((propsTheHardWay pSample m_SampleProps).tStart, (propsTheHardWay pSample m_SampleProps).tStop))
      else (VFW_E_SAMPLE_TIME_NOT_SET, none) := by
  have hflags : ∀ discontinuity preroll sync timed typed : Bool,
      let flag (b : Bool) (a : SampleFlag) : DWORD := if b then mask a else 0
      let dwSampleFlags := flag discontinuity .Discontinuity ||| flag preroll .Preroll ||| flag sync .SyncPoint |||
        flag timed .TimeValid ||| flag timed .StopValid ||| flag typed .TypeChanged
      dwSampleFlags &&& (~~~Sample_ValidFlags ||| mask SampleFlag.MediaTimeValid) = 0#32 ∧
        has dwSampleFlags SampleFlag.StopValid = timed ∧ has dwSampleFlags SampleFlag.TimeValid = timed := by decide
  obtain ⟨haccepted, hstop, htime⟩ := hflags (pSample.IsDiscontinuity = S_OK) (pSample.IsPreroll = S_OK)
    (pSample.IsSyncPoint = S_OK) pSample.GetTime.1.SUCCEEDED (pSample.GetMediaType.1 = S_OK)
  have hprops : (propsTheHardWay pSample m_SampleProps).Accepted := haccepted
  rw [AM_SAMPLE2_PROPERTIES.time, if_neg (not_not.2 hprops)]
  unfold propsTheHardWay
  dsimp only at hstop htime ⊢
  rw [hstop, htime]
  cases pSample.GetTime.1.SUCCEEDED <;> rfl

/-- The time that `Transform` leaves is that of the sample when it copies it, or
has nothing to copy and the properties say the same. -/
theorem timeCarried_iff (pSample : IMediaSample) (m_SampleProps : AM_SAMPLE2_PROPERTIES) :
    (match pSample.GetTime with
      | (.S_OK, some t) => (NOERROR, some t)
      | _ => (readProps pSample m_SampleProps).2.time) = pSample.GetTime ↔ pSample.TimeCarried := by
  have hcopied : ∀ g stored : HRESULT × Option (REFERENCE_TIME × REFERENCE_TIME),
      (match g with | (.S_OK, some t) => (NOERROR, some t) | _ => stored) = g ↔
        (∃ t, g = (S_OK, some t)) ∨ g = stored := by
    rintro ⟨hr, _ | t⟩ stored <;> cases hr <;> simp [eq_comm]
  rw [hcopied, IMediaSample.TimeCarried]
  refine or_congr_right' fun hno => ?_
  cases h2 : pSample.IMediaSample2 with
  | none =>
    rw [readProps, h2]
    dsimp only
    rw [time_hardWay]
    cases hs : pSample.GetTime.1.SUCCEEDED with
    | true =>
      refine ⟨fun h => absurd ⟨_, h⟩ hno, ?_⟩
      rintro (⟨hr, pProps, ⟨⟩, -⟩ | ⟨h, -⟩)
      rw [h] at hs
      cases hs
    | false =>
      refine ⟨fun h => .inr ⟨h, fun _ _ h2 => nomatch h2⟩, ?_⟩
      rintro (⟨hr, pProps, ⟨⟩, -⟩ | ⟨h, -⟩)
      exact h
  | some answer =>
    obtain ⟨hr, pProps⟩ := answer
    rw [readProps, h2]
    dsimp only
    rcases pProps.time_cases with ⟨ht, hacc, hstop⟩ | ⟨ht, hacc, htime, hstop⟩ | ⟨ht, hnone⟩ <;> rw [ht]
    · refine ⟨fun h => absurd ⟨_, h⟩ hno, ?_⟩
      rintro (⟨_, _, ⟨⟩, -, -, hstop', -⟩ | ⟨-, hnone⟩)
      · exact absurd (hstop'.symm.trans hstop) Bool.false_ne_true
      · exact absurd ((hnone hr pProps rfl hacc).2.symm.trans hstop) Bool.false_ne_true
    · refine ⟨fun h => .inl ⟨hr, pProps, rfl, hacc, htime, hstop, h⟩, ?_⟩
      rintro (⟨_, _, ⟨⟩, -, -, -, h⟩ | ⟨-, hnone⟩)
      · exact h
      · exact absurd ((hnone hr pProps rfl hacc).1.symm.trans htime) Bool.false_ne_true
    · refine ⟨fun h => .inr ⟨h, fun _ _ heq => ?_⟩, ?_⟩
      · cases heq
        exact hnone
      · rintro (⟨_, _, ⟨⟩, hacc, htime, -⟩ | ⟨h, -⟩)
        · exact absurd ((hnone hacc).1.symm.trans htime) Bool.false_ne_true
        · exact h

theorem long_length (d : LONGLONG) : d.toInt32.toInt64 = d ↔ -2 ^ 31 ≤ d.toInt ∧ d.toInt < 2 ^ 31 := by
  rw [← Int64.toInt_inj, Int32.toInt_toInt64, Int64.toInt_toInt32]
  constructor
  · intro h
    have hlo := Int.le_bmod (x := d.toInt) (m := 2 ^ 32) (by decide)
    have hhi := Int.bmod_lt (x := d.toInt) (m := 2 ^ 32) (by decide)
    omega
  · rintro ⟨hlo, hhi⟩
    exact Int.bmod_eq_of_le (by omega) (by omega)

theorem mediaTimeCarried_iff (pSample : IMediaSample) :
    (match pSample.GetMediaTime with
      | (.S_OK, some (MediaStart, MediaEnd)) =>
        (NOERROR, some (MediaStart, MediaStart + (MediaEnd - MediaStart).toInt32.toInt64))
      | _ => (VFW_E_MEDIA_TIME_NOT_SET, none)) = pSample.GetMediaTime ↔ pSample.MediaTimeCarried := by
  unfold IMediaSample.MediaTimeCarried
  rcases pSample.GetMediaTime with ⟨hr, _ | ⟨MediaStart, MediaEnd⟩⟩
  · cases hr <;> simp
  · cases hr with
    | S_OK =>
      simp only [Prod.mk.injEq, Option.some.injEq, true_and]
      rw [← long_length]
      rw [Int64.eq_sub_iff_add_eq, Int64.add_comm]
    | _ => simp

/-- An output sample fresh from the pool that has gone through both has the
metadata of its input sample exactly when both times get through. -/
theorem frame_metadata_iff {α : Type} {c : Filter} {env : TransformEnv} {f : CTransformFilter α} {pIn : IMediaSample}
    {pOut : CMediaSample} {free : FreeSample} {m_SampleProps OutProps : AM_SAMPLE2_PROPERTIES} {file file' : List BYTE}
    (h : c.Transform env f pIn (copyProps (readProps pIn m_SampleProps).2 OutProps free.1.AddRef) file =
      some (pOut, NOERROR, file')) : pOut.view.SameMetadata pIn ↔ pIn.TimeCarried ∧ pIn.MediaTimeCarried := by
  obtain ⟨htime, hmedia⟩ := @copyProps_times (readProps pIn m_SampleProps).2 OutProps free.1.AddRef free.2.1
  generalize copyProps (readProps pIn m_SampleProps).2 OutProps free.1.AddRef = pOut0 at h htime hmedia
  obtain ⟨m_pBuffer, hmeta, -⟩ := Filter.Transform_result h
  have hok := congrArg Prod.snd hmeta
  obtain ⟨sync, preroll, discontinuity, h1, h2, h3⟩ := copyMetadata_ok.1 hok
  rw [copyMetadata_answered h1 h2 h3, Prod.mk.injEq] at hmeta
  obtain ⟨rfl, -⟩ := hmeta
  have htime' : CMediaSample.GetTime { pOut0 with m_pBuffer } = (readProps pIn m_SampleProps).2.time := htime
  have hmedia' : CMediaSample.GetMediaTime { pOut0 with m_pBuffer } = (VFW_E_MEDIA_TIME_NOT_SET, none) := hmedia
  rw [withMetadata_same h1 h2 h3, GetTime_copyTimes, GetMediaTime_copyTimes, htime', hmedia', timeCarried_iff,
    mediaTimeCarried_iff]

/-- The flags of a `CMediaSample` pass the check of `SetProperties`: the one flag
it refuses is taken out. -/
theorem props_flags_valid (f : SampleFlags) :
    f.bits &&& ~~~mask SampleFlag.MediaTimeValid &&& (~~~Sample_ValidFlags ||| mask SampleFlag.MediaTimeValid) = 0#32 := by
  rw [BitVec.and_or_distrib_left, SampleFlags.and_valid _ f.valid, BitVec.and_assoc, BitVec.not_and_self]
  simp

/-- The times of a `CMediaSample` get through: its properties and its answers come
from the same flags, and the length of its media time is a `LONG`. -/
theorem carried_view (m : CMediaSample) : m.view.TimeCarried ∧ m.view.MediaTimeCarried := by
  have hprops : m.view.IMediaSample2 = some (S_OK, m.GetProperties 48 .zero) := rfl
  have hflags : (m.GetProperties 48 .zero).dwSampleFlags = m.m_dwFlags.bits &&& ~~~mask SampleFlag.MediaTimeValid := rfl
  have hacc : (m.GetProperties 48 .zero).Accepted := by
    rw [AM_SAMPLE2_PROPERTIES.Accepted, hflags]
    exact props_flags_valid m.m_dwFlags
  have hbit : ∀ a, a ≠ .MediaTimeValid → has (m.GetProperties 48 .zero).dwSampleFlags a = m.m_dwFlags.has a := by
    intro a ha
    rw [hflags]
    simp [ha, SampleFlags.has]
  have hprops1 := hbit .TimeValid (by decide)
  have hprops2 := hbit .StopValid (by decide)
  have htime : m.view.GetTime = m.GetTime := rfl
  have hmedia : m.view.GetMediaTime = m.GetMediaTime := rfl
  constructor
  · rw [IMediaSample.TimeCarried, htime, CMediaSample.GetTime]
    cases hstop : m.m_dwFlags.has .StopValid with
    | true => exact .inl ⟨_, rfl⟩
    | false =>
      cases hvalid : m.m_dwFlags.has .TimeValid with
      | true =>
        exact .inr (.inl ⟨_, _, hprops, hacc, hprops1.trans hvalid, hprops2.trans hstop, rfl⟩)
      | false =>
        refine .inr (.inr ⟨rfl, fun hr pProps h _ => ?_⟩)
        rw [hprops] at h
        cases h
        exact ⟨hprops1.trans hvalid, hprops2.trans hstop⟩
  · rw [IMediaSample.MediaTimeCarried, hmedia, CMediaSample.GetMediaTime]
    cases m.m_dwFlags.has .MediaTimeValid with
    | false => trivial
    | true =>
      show -2 ^ 31 ≤ (m.m_MediaStart + m.m_MediaEnd.toInt64 - m.m_MediaStart).toInt ∧ _ < (2 ^ 31 : Int)
      rw [Int64.add_comm, Int64.add_sub_cancel, Int32.toInt_toInt64]
      exact ⟨m.m_MediaEnd.le_toInt, m.m_MediaEnd.toInt_lt⟩

namespace Stream

variable {P : Type} [IPin P CMemAllocator]

/-- The sample has `IMediaSample2`, which says that it is of another stream. -/
def OtherStream (pSample : IMediaSample) : Prop :=
  ∃ hr pProps, pSample.IMediaSample2 = some (hr, pProps) ∧ pProps.dwStreamId ≠ AM_STREAM_MEDIA

theorem otherStream_iff (s : Stream) (pSample : IMediaSample) :
    (s.props pSample).dwStreamId ≠ AM_STREAM_MEDIA ↔ OtherStream pSample := by
  unfold props readProps OtherStream
  cases pSample.IMediaSample2 with
  | none => simp [propsTheHardWay]
  | some answer =>
    refine ⟨fun h => ⟨answer.1, answer.2, rfl, h⟩, ?_⟩
    rintro ⟨hr, pProps, ⟨⟩, h⟩
    exact h

/-- A sample passed on with the metadata it came with: one of another stream, which
goes through as it is, or one whose times get through. -/
def Carried (pSample : IMediaSample) : Prop :=
  OtherStream pSample ∨ pSample.TimeCarried ∧ pSample.MediaTimeCarried

/-- An output sample has the metadata of its input sample exactly when its times
get through. -/
theorem Delivered.metadata_iff {c : Filter} {env : ReceiveEnv} {s s' : Stream} {pSample : IMediaSample} {pOut : CMediaSample}
    (h : Delivered c env s s' pSample pOut) : pOut.view.SameMetadata pSample ↔ Carried pSample := by
  obtain ⟨free, hfree⟩ := Option.isSome_iff_exists.1 h.delivers.2.2.1
  have hmedia : ¬ OtherStream pSample := fun hother => (otherStream_iff s pSample).2 hother h.delivers.2.1
  rw [Carried, or_iff_right hmedia]
  exact frame_metadata_iff (h.made free hfree)

/-- Samples come in `CMediaSample` buffers. -/
def FromCMediaSample (_ : Stream) : Event P → Prop
  | .Receive pSample _ _ _ => ∃ m : CMediaSample, pSample = m.view
  | _ => True

/-- In any run, with any calls and any reactions in between, an output sample is
passed on with the times and flags of its own input sample. -/
theorem delivered_metadata (c : Filter) {s s' : Stream} {es : List (Event P)}
    (h : Runs (Stream.step c) FromCMediaSample s es s') (h0 : s.delivered = []) :
    ∀ d ∈ s'.delivered, d.2.view.SameMetadata d.1 := by
  refine h.inv (fun t => ∀ d ∈ t.delivered, d.2.view.SameMetadata d.1) (by simp [h0]) ?_
  intro t e u ht he hstep
  rcases step_cases hstep with ⟨-, hsame, -⟩ | ⟨pSample, env, hr, use, pOut, rfl, hdel⟩
  · rwa [hsame]
  · obtain ⟨m, rfl⟩ := he
    intro d hd
    rw [hdel.delivered, List.mem_append, List.mem_singleton] at hd
    rcases hd with hd | rfl
    · exact ht d hd
    · exact hdel.metadata_iff.2 (.inr (carried_view m))

/-- A full sample with these flags. -/
def frame (m_dwFlags : SampleFlags) (m_pBuffer : Block) : CMediaSample :=
  { CMediaSample.new ⟨100, 200, 5, 9⟩ m_pBuffer with m_dwFlags }

/-- All flags but that of a new type. -/
def everything : SampleFlags := ⟨0x137#32, by decide⟩

/-- Two frames through the one buffer of a flip filter: one with everything set,
one with nothing but a start. -/
def twoFrames : List (Event (Answers CMemAllocator)) :=
  (connectBoth (rgb24 2 2 16)).map .call ++
    [.call (.Pause someMemory),
     .Receive (frame everything (.sixteen 7)).view steady S_OK noUse,
     .Receive (frame ⟨0x10#32, by decide⟩ (.sixteen 8)).view steady S_OK noUse]

def afterTwoFrames : Stream := (evalRun (Stream.step .CFlipFilter) Any twoFrames new).get (by decide)

theorem delivered_metadata_twice :
    afterTwoFrames.delivered.length = 2 ∧ ∀ d ∈ afterTwoFrames.delivered, d.2.view.SameMetadata d.1 := by
  have hrun : Runs (Stream.step .CFlipFilter) FromCMediaSample new twoFrames afterTwoFrames := by
    refine (Runs.of_isSome (C := Any) (by decide)).of_forall fun e he s => ?_
    simp only [twoFrames, List.mem_append, List.mem_map, List.mem_cons, List.not_mem_nil, or_false] at he
    rcases he with ⟨op, -, rfl⟩ | rfl | rfl | rfl
    · trivial
    · trivial
    · exact ⟨_, rfl⟩
    · exact ⟨_, rfl⟩
  exact ⟨by decide, delivered_metadata .CFlipFilter hrun rfl⟩

end Stream

end FilterSln
