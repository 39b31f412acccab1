import Orator.Audio.Pipeline

/-! What a step of the pipeline can do. `Produced` lists the steps of the callback and `Delivered` those of
    the delivery loop, each with the place it starts from and the state it leads to; every fact about a step
    is read off these two lists. -/

namespace Orator.Pipeline

/-! ### The callback -/

/-- The steps the callback can take, when the host answers `stopRequested` if it is asked. -/
inductive Produced (limits : Limits) (stopRequested : Bool) (s : State) : State → Prop where
  | engineCancelled {buffer} (here : s.producer = .entered buffer true) :
    Produced limits stopRequested s { s with producer := .marking }
  | cancelled {buffer} (here : s.producer = .entered buffer false) (up : s.flag = true) :
    Produced limits stopRequested s { s with producer := .marking }
  | admitted {buffer} (here : s.producer = .entered buffer false) (down : s.flag = false) :
    Produced limits stopRequested s { s with producer := .asking buffer }
  | stopSeen {buffer} (here : s.producer = .asking buffer) (stop : stopRequested = true) :
    Produced limits stopRequested s { s with producer := .raising }
  | wentOn {buffer} (here : s.producer = .asking buffer) (go : stopRequested = false) :
    Produced limits stopRequested s { s with producer := .routing buffer }
  | raised (here : s.producer = .raising) :
    Produced limits stopRequested s { s with flag := true, producer := .marking }
  | marked (here : s.producer = .marking) :
    Produced limits stopRequested s { s with aborted := true, producer := .silencing }
  | silenced (here : s.producer = .silencing) :
    Produced limits stopRequested s { s.tell .stop with producer := .returned true }
  | unrouted {buffer} (here : s.producer = .routing buffer) (none : s.route = none) :
    Produced limits stopRequested s { s with producer := .returned true }
  | routed {buffer rate} (here : s.producer = .routing buffer) (some : s.route = some rate) :
    Produced limits stopRequested s { s with producer := .sending (.ofBuffer rate buffer) }
  | lost {packet} (here : s.producer = .sending packet) (gone : s.receiver = false) :
    Produced limits stopRequested s { s with producer := .returned true }
  | sent {packet} (here : s.producer = .sending packet) (listens : s.receiver = true)
    (room : s.queue.length < limits.capacity) :
    Produced limits stopRequested s { s with queue := s.queue ++ [packet], producer := .verifying }
  | verified (here : s.producer = .verifying) :
    Produced limits stopRequested s { s with producer := .returned s.flag }

theorem produce_inv {limits : Limits} {stopRequested : Bool} {s t : State}
    (h : produce limits stopRequested s = some t) : Produced limits stopRequested s t := by
  unfold produce at h
  split at h
  · cases h
  · cases h
  · cases h
    exact .engineCancelled ‹_›
  · split at h <;> cases h
    · exact .cancelled ‹_› ‹_›
    · exact .admitted ‹_› (by simpa using ‹¬s.flag = true›)
  · cases h
    cases stopRequested
    · exact .wentOn ‹_› rfl
    · exact .stopSeen ‹_› rfl
  · cases h
    exact .raised ‹_›
  · cases h
    exact .marked ‹_›
  · cases h
    exact .silenced ‹_›
  · split at h <;> cases h
    · exact .unrouted ‹_› ‹_›
    · exact .routed ‹_› ‹_›
  · split at h
    · cases h
      exact .lost ‹_› (by simpa using ‹(!s.receiver) = true›)
    · split at h <;> cases h
      exact .sent ‹_› (by simpa using ‹¬(!s.receiver) = true›) ‹_›
  · cases h
    exact .verified ‹_›

namespace Produced
variable {limits : Limits} {stopRequested : Bool} {s t : State}

/-- What the callback leaves to the delivery loop, and to those who open and close the channel. -/
theorem frame (h : Produced limits stopRequested s t) :
    t.delivery = s.delivery ∧ t.stats = s.stats ∧ t.route = s.route ∧ t.receiver = s.receiver := by
  cases h <;> exact ⟨rfl, rfl, rfl, rfl⟩

theorem flag_mono (h : Produced limits stopRequested s t) (up : s.flag = true) : t.flag = true := by
  cases h with
  | raised => rfl
  | _ => exact up

theorem aborted_mono (h : Produced limits stopRequested s t)
    (marked : s.aborted = true) : t.aborted = true := by
  cases h with
  | marked => rfl
  | _ => exact marked

theorem runs (h : Produced limits stopRequested s t) : s.producer ≠ .idle := by
  cases h with
  | _ here => rw [here]; exact Producer.noConfusion

/-- The callback tells the host nothing but to stop. -/
theorem heard (h : Produced limits stopRequested s t) :
    t.heard = s.heard ∨ (s.producer = .silencing ∧ t.producer = .returned true ∧ t.heard = .stop :: s.heard) := by
  cases h with
  | silenced here => exact Or.inr ⟨here, rfl, rfl⟩
  | _ => exact Or.inl rfl

end Produced

/-! ### The delivery loop -/

/-- The chunk that is pushed next of these samples. -/
def Limits.chunk (limits : Limits) (rate : UInt32) (samples : List Sample) : Frame :=
  { rate, samples := samples.take limits.chunkSize }

def Stats.accept (stats : Stats) (chunk : Frame) : Stats :=
  { stats with frames := stats.frames + 1, samples := stats.samples + chunk.samples.length }

/-- The steps the delivery loop can take, when the host answers `verdict` to a push. -/
inductive Delivered (limits : Limits) (verdict : Verdict) (s : State) : State → Prop where
  | took {packet queue} (here : s.delivery = .receiving) (next : s.queue = packet :: queue) :
    Delivered limits verdict s { s with queue, delivery := .received packet }
  | drained (here : s.delivery = .receiving) (empty : s.queue = []) (closed : s.closed = true) :
    Delivered limits verdict s { s with delivery := .settling }
  | condemned {packet} (here : s.delivery = .received packet) (up : s.flag = true) :
    Delivered limits verdict s { s with delivery := .discarding }
  | opened {frame} (here : s.delivery = .received (.audio frame)) (down : s.flag = false) :
    Delivered limits verdict s { s with delivery := .ofSamples frame.rate frame.samples }
  | closing (here : s.delivery = .received .finish) (down : s.flag = false) :
    Delivered limits verdict s { s with delivery := .closing }
  | discarded (here : s.delivery = .discarding) :
    Delivered limits verdict s
      { s with aborted := true, stats := { s.stats with dropped := s.stats.dropped + 1 }, delivery := .receiving }
  | announced {rate samples} (here : s.delivery = .announcing rate samples) :
    Delivered limits verdict s { s.tell .beforePlay with delivery := .pushing rate samples }
  | accepted {rate samples} (here : s.delivery = .pushing rate samples) (verdict_eq : verdict = .accepted) :
    Delivered limits verdict s
      { s.tell (.push (limits.chunk rate samples) .accepted) with
        stats := s.stats.accept (limits.chunk rate samples)
        delivery := .ofSamples rate (samples.drop limits.chunkSize) }
  | refused {rate samples} (here : s.delivery = .pushing rate samples) (verdict_eq : verdict = .refused) :
    Delivered limits verdict s
      { s.tell (.push (limits.chunk rate samples) .refused) with delivery := .refused }
  | crashed {rate samples taken} (here : s.delivery = .pushing rate samples)
    (verdict_eq : verdict = .crashed taken) :
    Delivered limits verdict s
      { (s.tell (.push (limits.chunk rate samples) (.crashed taken))).dropReceiver with delivery := .crashed }
  | marked (here : s.delivery = .refused) :
    Delivered limits verdict s { s with aborted := true, delivery := .raising }
  | raised (here : s.delivery = .raising) :
    Delivered limits verdict s { s with flag := true, delivery := .receiving }
  | heralded (here : s.delivery = .closing) :
    Delivered limits verdict s { s.tell .beforePlay with delivery := .ending }
  | ended (here : s.delivery = .ending) :
    Delivered limits verdict s
      { s.tell .notifyEnd with stats := { s.stats with ended := true }, delivery := .receiving }
  | settled (here : s.delivery = .settling) :
    Delivered limits verdict s
      { s.dropReceiver with delivery := .finished { s.stats with aborted := s.aborted } }

theorem deliver_inv {limits : Limits} {verdict : Verdict} {s t : State}
    (h : deliver limits verdict s = some t) : Delivered limits verdict s t := by
  unfold deliver at h
  split at h
  · cases h
  · cases h
  · cases h
  · split at h
    · cases h
      exact .took ‹_› ‹_›
    · split at h <;> cases h
      exact .drained ‹_› ‹_› ‹_›
  · split at h
    · cases h
      exact .condemned ‹_› ‹_›
    · have hf : s.flag = false := by simpa using ‹¬s.flag = true›
      split at h <;> cases h
      · exact .opened ‹_› hf
      · exact .closing ‹_› hf
  · cases h
    exact .discarded ‹_›
  · cases h
    exact .announced ‹_›
  · split at h <;> cases h
    · exact .accepted ‹_› rfl
    · exact .refused ‹_› rfl
    · exact .crashed ‹_› rfl
  · cases h
    exact .marked ‹_›
  · cases h
    exact .raised ‹_›
  · cases h
    exact .heralded ‹_›
  · cases h
    exact .ended ‹_›
  · cases h
    exact .settled ‹_›

def Delivery.running : Delivery → Bool
  | .idle | .finished _ | .crashed => false
  | _ => true

/-- Whether the delivery loop believes that nothing more can come. -/
def Delivery.through : Delivery → Bool
  | .settling | .finished _ => true
  | _ => false

theorem running_ofSamples (rate : UInt32) (samples : List Sample) :
    (Delivery.ofSamples rate samples).running = true := by
  cases samples <;> rfl

theorem through_ofSamples (rate : UInt32) (samples : List Sample) :
    (Delivery.ofSamples rate samples).through = false := by
  cases samples <;> rfl

namespace Delivered
variable {limits : Limits} {verdict : Verdict} {s t : State}

/-- What the delivery loop leaves to the callback, and to those who open and close the channel. -/
theorem frame (h : Delivered limits verdict s t) : t.producer = s.producer ∧ t.route = s.route := by
  cases h <;> exact ⟨rfl, rfl⟩

theorem runs (h : Delivered limits verdict s t) : s.delivery.running = true := by
  cases h with
  | _ here => rw [here]; rfl

theorem flag_mono (h : Delivered limits verdict s t) (up : s.flag = true) : t.flag = true := by
  cases h with
  | raised => rfl
  | _ => exact up

theorem aborted_mono (h : Delivered limits verdict s t) (marked : s.aborted = true) : t.aborted = true := by
  cases h with
  | discarded => rfl
  | marked => rfl
  | _ => exact marked

theorem through (h : Delivered limits verdict s t) (speaks : s.route.isSome = true)
    (busy : s.delivery.through = false) : t.delivery.through = false := by
  cases h with
  | drained here empty closed =>
    have := (Bool.and_eq_true_iff.mp closed).1
    simp [Option.isNone_iff_eq_none.mp this] at speaks
  | opened => exact through_ofSamples _ _
  | accepted => exact through_ofSamples _ _
  | settled here =>
    rw [here] at busy
    cases busy
  | _ => rfl

theorem finished {stats : Stats} (h : Delivered limits verdict s t) (there : t.delivery = .finished stats) :
    stats = { s.stats with aborted := s.aborted } ∧ t.stats = s.stats := by
  have open_ (rate : UInt32) (samples : List Sample) : Delivery.ofSamples rate samples ≠ .finished stats := by
    intro h
    have := through_ofSamples rate samples
    rw [h] at this
    cases this
  cases h with
  | settled here =>
    cases there
    exact ⟨rfl, rfl⟩
  | opened => exact absurd there (open_ _ _)
  | accepted => exact absurd there (open_ _ _)
  | _ => cases there

end Delivered

end Orator.Pipeline
