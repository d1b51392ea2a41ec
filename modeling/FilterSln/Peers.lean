import FilterSln.Connect
/-!
# What a `Connect` does to the pin on the other side

A peer is known by what its answers keep (`PeerSpec`): a property `J` that every
call of the connecting pin keeps, and a property `R mt` that accepting a connection
with `mt` establishes and that the talk about allocators keeps. After a `Connect`
that succeeded, `R` holds of the type the connecting pin has (`Connect_peer`).
-/

namespace FilterSln

open HRESULT

variable {α Env P : Type} [IMemAllocator α Env] [IPin P α]

structure PeerSpec (J : P → Prop) (R : CMediaType → P → Prop) : Prop where
  received : ∀ {p p' : P} {mt : CMediaType} {hr : HRESULT}, J p →
    IPin.ReceiveConnection p mt = some (p', hr) → J p' ∧ (hr.SUCCEEDED = true → R mt p')
  disconnected : ∀ {p : P}, J p → J (IPin.Disconnect p)
  asked : ∀ {p : P}, J p → J (IPin.GetAllocator p).1 ∧ ∀ mt, R mt p → R mt (IPin.GetAllocator p).1
  notified : ∀ {p : P} (a : α), J p →
    J (IPin.NotifyAllocator p a).1 ∧ ∀ mt, R mt p → R mt (IPin.NotifyAllocator p a).1

namespace CTransformFilter

variable {J : P → Prop} {R : CMediaType → P → Prop} {c : Filter} {f f' : CTransformFilter α} {dir : PIN_DIRECTION}
  {p p' : P} {hr : HRESULT} {pmt : CMediaType}

/-- From `p` to `p'` nothing has happened that `J` and `R` could tell. -/
def Keeps (J : P → Prop) (R : CMediaType → P → Prop) (p p' : P) : Prop := J p → J p' ∧ ∀ mt, R mt p → R mt p'

theorem Keeps.refl (p : P) : Keeps J R p p := fun h => ⟨h, fun _ h => h⟩

theorem Keeps.trans {q : P} (h : Keeps J R p p') (h' : Keeps J R p' q) : Keeps J R p q := by
  intro hj
  obtain ⟨hj1, hr1⟩ := h hj
  obtain ⟨hj2, hr2⟩ := h' hj1
  exact ⟨hj2, fun mt hr => hr2 mt (hr1 mt hr)⟩

theorem tryAllocator_keeps (hp : PeerSpec J R) (c : Filter) (f : CTransformFilter α) (p : P) (hr : HRESULT)
    (pAlloc : Option α) (prop : ALLOCATOR_PROPERTIES) : Keeps J R p (tryAllocator c f p hr pAlloc prop).1 := by
  unfold tryAllocator
  split
  · exact Keeps.refl p
  · dsimp only
    split
    · exact Keeps.refl p
    · split
      · exact Keeps.refl p
      · exact hp.notified _

theorem DecideAllocator_keeps (hp : PeerSpec J R) (c : Filter) (env : ConnectEnv α) (f : CTransformFilter α) (p : P) :
    Keeps J R p (DecideAllocator c env f p).1 := by
  have hasked : Keeps J R p (IPin.GetAllocator p).1 := hp.asked
  unfold DecideAllocator
  dsimp only
  generalize (if (IPin.GetAllocatorRequirements p : ALLOCATOR_PROPERTIES).cbAlign = 0 then _ else _) = prop
  have hfirst := hasked.trans
    (tryAllocator_keeps hp c f _ (IPin.GetAllocator p).2.1 (IPin.GetAllocator p).2.2 prop)
  split
  · exact hfirst
  · split
    · exact hfirst.trans (tryAllocator_keeps hp _ _ _ _ _ _)
    · exact hfirst.trans (tryAllocator_keeps hp _ _ _ _ _ _)

theorem CompleteConnect_keeps (hp : PeerSpec J R) (c : Filter) (env : ConnectEnv α) (f : CTransformFilter α)
    (dir : PIN_DIRECTION) (p : P) : Keeps J R p (f.CompleteConnect c env dir p).2.1 := by
  cases dir with
  | PINDIR_INPUT => exact Keeps.refl p
  | PINDIR_OUTPUT => exact DecideAllocator_keeps hp c env f p

/-- The peer after a try to connect: `J` holds still, and `R` of the pin's type
if the try succeeded. -/
def PeerOutcome (J : P → Prop) (R : CMediaType → P → Prop) (dir : PIN_DIRECTION) (f' : CTransformFilter α) (p' : P)
    (hr : HRESULT) : Prop :=
  J p' ∧ (hr.SUCCEEDED = true → R (f'.CurrentMediaType dir) p')

omit [IPin P α] in
theorem PeerOutcome.of_failed (hj : J p') (hf : hr.FAILED = true) : PeerOutcome J R dir f' p' hr :=
  ⟨hj, fun hs => by simp [FAILED, hs] at hf⟩

theorem tryConnection_peer (hp : PeerSpec J R) {env : ConnectEnv α} {done : Bool} (hj : J p)
    (h : f.tryConnection c env dir p pmt = some (f', p', hr, done)) : J p' ∧ (done = true → R pmt p') := by
  simp only [tryConnection, Option.bind_eq_bind, Option.bind_eq_some_iff] at h
  obtain ⟨hr1, -, h⟩ := h
  split at h
  · cases h
    exact ⟨hj, fun hd => absurd hd Bool.false_ne_true⟩
  · split at h
    · cases h
      exact ⟨hj, fun hd => absurd hd Bool.false_ne_true⟩
    · simp only [Option.bind_eq_some_iff] at h
      obtain ⟨⟨p1, hr2⟩, hrec, h⟩ := h
      obtain ⟨hj1, hr1⟩ := hp.received hj hrec
      dsimp only at h
      split at h
      · cases h
        exact ⟨hj1, fun hd => absurd hd Bool.false_ne_true⟩
      · rename_i hs
        have hkeep := CompleteConnect_keeps hp c env ((f.connect dir true).SetMediaType dir env.CoTaskMemAlloc pmt).1 dir p1
        obtain ⟨hj2, hr2⟩ := hkeep hj1
        split at h
        · cases h
          exact ⟨hj2, fun _ => hr2 _ (hr1 (SUCCEEDED_of_not_FAILED hs))⟩
        · cases h
          exact ⟨hp.disconnected hj2, fun hd => absurd hd Bool.false_ne_true⟩

theorem AttemptConnection_peer (hp : PeerSpec J R) {env : ConnectEnv α} (hj : J p) (hc : f.IsConnected dir = false)
    (h : f.AttemptConnection c env dir p pmt = some (f', p', hr)) : PeerOutcome J R dir f' p' hr := by
  have hout := AttemptConnection_cases hc h
  have hmt : hr.SUCCEEDED = true → f'.CurrentMediaType dir = pmt := by
    intro hs
    rcases hout.2 with ⟨-, mt, hmem, hatt⟩ | ⟨hf, -⟩
    · rw [List.mem_singleton.1 hmem] at hatt
      exact hatt.mt
    · simp [FAILED, hs] at hf
  simp only [AttemptConnection] at h
  split at h
  · rename_i hf
    cases h
    exact PeerOutcome.of_failed hj hf
  · simp only [Option.bind_eq_bind, Option.bind_eq_some_iff] at h
    obtain ⟨⟨f2, p2, hr2, done⟩, htry, h⟩ := h
    obtain ⟨hj2, hr⟩ := tryConnection_peer hp hj htry
    obtain ⟨-, -, hfail⟩ := tryConnection_cases htry
    dsimp only at h
    split at h
    · rename_i hd
      cases h
      exact ⟨hj2, fun hs => hmt hs ▸ hr hd⟩
    · rename_i hd
      cases h
      exact PeerOutcome.of_failed hj2 (hfail (by simpa using hd))

theorem tryTypes_peer (hp : PeerSpec J R) {types : List CMediaType} : ∀ {env : Nat → ConnectEnv α}
    {f : CTransformFilter α} {p : P} {hrFailure : HRESULT} {pmt : Option CMediaType}, J p → f.IsConnected dir = false →
    hrFailure = S_OK ∨ hrFailure.FAILED = true →
    tryTypes c dir pmt types env f p hrFailure = some (f', p', hr) → PeerOutcome J R dir f' p' hr := by
  induction types with
  | nil =>
    intro env f p hrFailure pmt hj hc hhr h
    simp only [tryTypes] at h
    cases h
    refine PeerOutcome.of_failed hj ?_
    split
    · rfl
    · rename_i hne
      exact hhr.resolve_left hne
  | cons mt types ih =>
    intro env f p hrFailure pmt hj hc hhr h
    unfold tryTypes at h
    split at h
    · simp only [Option.bind_eq_bind, Option.bind_eq_some_iff] at h
      obtain ⟨⟨f1, p1, hr1⟩, hatt, h⟩ := h
      have hpeer := AttemptConnection_peer hp hj hc hatt
      have hout := AttemptConnection_cases hc hatt
      dsimp only at h
      split at h
      · cases h
        exact hpeer
      · rename_i hne
        obtain ⟨-, ⟨hno, -⟩ | ⟨-, hc1⟩⟩ := hout
        · exact absurd hno hne
        · refine ih hpeer.1 hc1 ?_ h
          split
          · rename_i hcond
            exact .inr hcond.1
          · exact hhr
    · exact ih hj hc hhr h

theorem TryMediaTypes_peer (hp : PeerSpec J R) {env : Nat → ConnectEnv α} {types : Option CMediaType}
    {pEnum : IEnumMediaTypes} (hj : J p) (hc : f.IsConnected dir = false)
    (h : f.TryMediaTypes c env dir p types pEnum = some (f', p', hr)) : PeerOutcome J R dir f' p' hr := by
  unfold TryMediaTypes at h
  split at h
  · rename_i hf
    cases h
    exact PeerOutcome.of_failed hj hf
  · exact tryTypes_peer hp hj hc (.inl rfl) h

theorem tryEnumerator_peer (hp : PeerSpec J R) {env : Nat → ConnectEnv α} {mt : Option CMediaType}
    {pEnum : Except HRESULT IEnumMediaTypes} {hrFailure : HRESULT} {done : Bool} (hj : J p)
    (hc : f.IsConnected dir = false) (hhr : hrFailure.FAILED = true)
    (h : f.tryEnumerator c env dir p mt pEnum hrFailure = some (f', p', hr, done)) : PeerOutcome J R dir f' p' hr := by
  unfold tryEnumerator at h
  split at h
  · cases h
    exact PeerOutcome.of_failed hj hhr
  · simp only [Option.bind_eq_bind, Option.bind_eq_some_iff] at h
    obtain ⟨⟨f1, p1, hr1⟩, htry, h⟩ := h
    obtain ⟨hj1, hr⟩ := TryMediaTypes_peer hp hj hc htry
    dsimp only at h
    split at h
    · rename_i hs
      cases h
      exact ⟨hj1, fun _ => hr hs⟩
    · rename_i hs
      split at h
      · cases h
        exact PeerOutcome.of_failed hj1 (by simpa [FAILED] using hs)
      · cases h
        exact PeerOutcome.of_failed hj1 hhr

theorem AgreeMediaType_peer (hp : PeerSpec J R) {env : AgreeEnv α} {mt : Option CMediaType} (hj : J p)
    (hc : f.IsConnected dir = false) (h : f.AgreeMediaType c env dir p mt = some (f', p', hr)) :
    PeerOutcome J R dir f' p' hr := by
  unfold AgreeMediaType at h
  split at h
  · exact AttemptConnection_peer hp hj hc h
  · simp only [Option.bind_eq_bind, Option.bind_eq_some_iff] at h
    obtain ⟨⟨f1, p1, hr1, done⟩, h1, h⟩ := h
    have hpeer1 := tryEnumerator_peer hp hj hc (by rfl) h1
    obtain ⟨hout1, hfail1⟩ := tryEnumerator_cases hc (by rfl) h1
    dsimp only at h
    split at h
    · cases h
      exact hpeer1
    · rename_i hd
      simp only [Option.bind_eq_some_iff] at h
      obtain ⟨⟨f2, p2, hr2, done2⟩, h2, h⟩ := h
      cases h
      have hf1 := hfail1 (by simpa using hd)
      obtain ⟨-, ⟨rfl, -⟩ | ⟨-, hc1⟩⟩ := hout1
      · cases hf1
      · exact tryEnumerator_peer hp hpeer1.1 hc1 hf1 h2

/-- After a `Connect` that succeeded, both sides have the same type. -/
theorem Connect_peer (hp : PeerSpec J R) {env : AgreeEnv α} {mt : Option CMediaType} (hj : J p)
    (h : f.Connect c env dir p mt = some (f', p', hr)) :
    J p' ∧ (hr.SUCCEEDED = true → f.IsConnected dir = false ∧ f'.IsConnected dir = true ∧
      R (f'.CurrentMediaType dir) p') := by
  unfold Connect at h
  split at h
  · rename_i hc
    cases h
    exact ⟨hj, nofun⟩
  · rename_i hc
    have hc0 : f.IsConnected dir = false := by simpa using hc
    split at h
    · cases h
      exact ⟨hj, nofun⟩
    · simp only [Option.bind_eq_bind, Option.bind_eq_some_iff] at h
      obtain ⟨⟨f1, p1, hr1⟩, hagree, h⟩ := h
      obtain ⟨hj1, hr1⟩ := AgreeMediaType_peer hp hj hc0 hagree
      obtain ⟨-, hcases⟩ := AgreeMediaType_cases hc0 hagree
      dsimp only at h
      split at h
      · rename_i hf
        cases h
        exact ⟨hj1, fun hs => by simp [FAILED, hs] at hf⟩
      · rename_i hf
        cases h
        rcases hcases with ⟨-, mt, -, hatt⟩ | ⟨hf', -⟩
        · exact ⟨hj1, fun _ => ⟨hc0, hatt.connected, hr1 (SUCCEEDED_of_not_FAILED hf)⟩⟩
        · exact absurd hf' hf

end CTransformFilter

end FilterSln
