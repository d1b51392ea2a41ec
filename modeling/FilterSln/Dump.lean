import FilterSln.Negotiation
import FilterSln.Receive
/-!
# The dump file

The dump filter writes every frame it passes on to a file that is viewed frame
by frame. It writes the whole output buffer (`dumped_buffers`), the frame is what
`GetActualDataLength` says. The file holds the frames exactly when every buffer
is full (`dump_is_frames_iff`).
-/

namespace FilterSln

open HRESULT Lib CTransformFilter

/-- The data fills the buffer. -/
def CMediaSample.Full (s : CMediaSample) : Prop := s.m_pBuffer.bytes.length ≤ s.GetActualDataLength.toInt.toNat

/-- A sample is full by its size and the length it declares, whatever is in it. -/
theorem CMediaSample.full_iff {s : CMediaSample} : s.Full ↔ s.m_cbBuffer.toInt ≤ max s.m_lActual.toInt 0 := by
  have hsize : s.m_cbBuffer.toInt = s.m_pBuffer.bytes.length := Block.size_toInt _
  rw [hsize, Full, GetActualDataLength]
  omega

theorem appendToFile_works (file data : List BYTE) : appendToFile ⟨true, true, true⟩ file data = file ++ data := by
  simp [appendToFile, splice]

namespace Stream

variable {P : Type} [IPin P CMemAllocator]

/-- Every open, seek and write of the dump file succeeds. -/
def FileWorks (_ : Stream) : Event P → Prop
  | .Receive _ env _ _ => env.transform.file = ⟨true, true, true⟩
  | _ => True

/-- A sample that will be passed on fills the output buffer waiting for it. A
length that the buffer cannot hold is not taken over; then the length left in the
output sample counts. -/
def FullFrame (s : Stream) : Event P → Prop
  | .Receive pSample _ _ _ => s.Delivers .CMyFilter pSample → ∀ free, s.nextFree = some free →
      if pSample.GetActualDataLength > free.1.m_cbBuffer ∨ pSample.GetActualDataLength < 0 then
        free.1.Full
      else pSample.GetActualDataLength = free.1.m_cbBuffer
  | _ => True

variable {s s' : Stream} {es : List (Event P)}

/-- What a delivery of the dump filter leaves in the file and in the sample. -/
theorem Delivered.dumped {env : ReceiveEnv} {pSample : IMediaSample} {pOut : CMediaSample} {free : FreeSample}
    (h : Delivered .CMyFilter env s s' pSample pOut) (henv : env.transform.file = ⟨true, true, true⟩)
    (hfree : s.nextFree = some free) :
    s'.file = s.file ++ pOut.m_pBuffer.bytes ∧ pOut.m_cbBuffer = free.1.m_cbBuffer ∧
      pOut.m_lActual =
        if pSample.GetActualDataLength > free.1.m_cbBuffer ∨ pSample.GetActualDataLength < 0 then free.1.m_lActual
        else pSample.GetActualDataLength := by
  have hmade := h.made free hfree
  obtain ⟨hbuf, hlen⟩ := copyProps_buffer (s.props pSample) env.OutProps free.1.AddRef
  generalize copyProps (s.props pSample) env.OutProps free.1.AddRef = pOut0 at hmade hbuf hlen
  have hmade' : CMyFilter.Transform env.transform.file pSample pOut0 s.file = some (pOut, NOERROR, s'.file) := hmade
  obtain ⟨m_pBuffer, -, hsize, hmeta, hfile⟩ := CMyFilter.Transform_ok hmade'
  have hsize' : m_pBuffer.size = free.1.m_cbBuffer := by
    rw [hsize, CMediaSample.m_cbBuffer, hbuf.m_pBuffer]
    rfl
  have hout := (copyMetadata_buffer pSample { pOut0 with m_pBuffer }).m_pBuffer
  rw [hmeta] at hout
  refine ⟨?_, ?_, ?_⟩
  · rw [hfile, if_pos rfl, henv, appendToFile_works]
  · rw [CMediaSample.m_cbBuffer, hout]
    exact hsize'
  · have hact := copyMetadata_length hmeta
    rw [CMediaSample.m_cbBuffer] at hact
    dsimp only at hact
    rw [hact, hsize', hlen]
    rfl

/-- The file grows by the whole buffer of every sample passed on. -/
theorem dumped_buffers (h : Runs (Stream.step .CMyFilter) FileWorks s es s') (h0 : s.delivered = []) :
    s'.file = s.file ++ s'.delivered.flatMap fun d => d.2.m_pBuffer.bytes := by
  refine h.inv (fun t => t.file = s.file ++ t.delivered.flatMap fun d => d.2.m_pBuffer.bytes) (by simp [h0]) ?_
  intro t e u ht he hstep
  rcases step_cases hstep with ⟨hfile, hdel, -⟩ | ⟨pSample, env, hr, use, pOut, rfl, hdel⟩
  · rw [hfile, hdel, ht]
  · obtain ⟨free, hfree⟩ := Option.isSome_iff_exists.1 hdel.delivers.2.2.1
    rw [(hdel.dumped he hfree).1, hdel.delivered, ht, List.flatMap_append, List.append_assoc]
    simp

/-- One step keeps all delivered samples full exactly when its frame is full. -/
theorem full_step {t u : Stream} {e : Event P} (he : FileWorks t e) (hstep : Stream.step .CMyFilter t e = some u) :
    (∀ d ∈ u.delivered, d.2.Full) ↔ (∀ d ∈ t.delivered, d.2.Full) ∧ FullFrame t e := by
  rcases step_cases hstep with ⟨-, hdel, hno⟩ | ⟨pSample, env, hr, use, pOut, rfl, hdel⟩
  · have hfull : FullFrame t e := by
      cases e with
      | Receive pSample env hr use => exact fun hd => absurd hd (hno pSample env hr use rfl)
      | _ => trivial
    rw [hdel]
    simp [hfull]
  · obtain ⟨free, hfree⟩ := Option.isSome_iff_exists.1 hdel.delivers.2.2.1
    obtain ⟨-, hsize, hact⟩ := hdel.dumped he hfree
    have hframe : FullFrame t (.Receive pSample env hr use : Event P) ↔ pOut.Full := by
      simp only [FullFrame, hdel.delivers, hfree, Option.some.injEq, forall_eq', true_imp_iff,
        CMediaSample.full_iff, hsize, hact]
      split
      · rfl
      · rename_i hfits
        simp only [not_or, Int32.not_lt, gt_iff_lt, Int32.le_iff_toInt_le, Int32.toInt_zero] at hfits
        rw [← Int32.toInt_inj]
        omega
    rw [hdel.delivered, hframe]
    simp [or_imp, forall_and]

/-- When the file works, it holds exactly the frames passed on if and only if
every one of them filled its buffer. -/
theorem dump_is_frames_iff (h : Runs (Stream.step .CMyFilter) FileWorks s es s') (h0 : s.delivered = []) :
    s'.file = s.file ++ s'.delivered.flatMap (fun d => d.2.data) ↔
      Runs (Stream.step .CMyFilter) (fun s e => FileWorks s e ∧ FullFrame s e) s es s' := by
  rw [← h.inv_iff (fun t => ∀ d ∈ t.delivered, d.2.Full) (by simp [h0])
    fun t e u he hstep => full_step he hstep, dumped_buffers h h0, List.append_cancel_left_eq]
  unfold CMediaSample.data
  rw [flatMap_take_eq_iff]
  rfl

/-- One frame of `lActual` bytes, in a buffer of 8, through a dump filter with
output buffers of 8 bytes. -/
def oneFrame (lActual : LONG) : List (Event (Answers CMemAllocator)) :=
  (connectBoth (yuy2 2 2 8)).map .call ++
    [.call (.Pause someMemory),
     .Receive { plainSample (.filled 8 7 (by decide)) with GetActualDataLength := lActual } steady S_OK noUse]

theorem oneFrame_works (lActual : LONG) : ∀ e ∈ oneFrame lActual, ∀ s, FileWorks s e := by
  intro e he s
  simp only [oneFrame, List.mem_append, List.mem_map, List.mem_cons, List.not_mem_nil, or_false] at he
  rcases he with ⟨op, -, rfl⟩ | rfl | rfl
  · trivial
  · trivial
  · rfl

def afterFull : Stream := (evalRun (Stream.step .CMyFilter) Any (oneFrame 8) new).get (by decide)

theorem dump_is_frames_full :
    Runs (Stream.step .CMyFilter) (fun s e => FileWorks s e ∧ FullFrame s e) new (oneFrame 8) afterFull := by
  have hrun : Runs (Stream.step .CMyFilter) FileWorks new (oneFrame 8) afterFull :=
    (Runs.of_isSome (C := Any) (by decide)).of_forall (oneFrame_works 8)
  exact (dump_is_frames_iff hrun rfl).1 (by decide)

def afterShort : Stream := (evalRun (Stream.step .CMyFilter) Any (oneFrame 4) new).get (by decide)

/-- Half a buffer of data is dumped as a whole buffer. -/
theorem short_frame_dumped_whole :
    Runs (Stream.step .CMyFilter) FileWorks new (oneFrame 4) afterShort ∧
      (∀ d ∈ afterShort.delivered, d.1.GetSize ≤ d.2.m_cbBuffer) ∧
      afterShort.file ≠ new.file ++ afterShort.delivered.flatMap fun d => d.2.data :=
  ⟨(Runs.of_isSome (C := Any) (by decide)).of_forall (oneFrame_works 4), by decide, by decide⟩

end Stream

end FilterSln
