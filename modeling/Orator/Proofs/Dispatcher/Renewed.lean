import Orator.Proofs.Dispatcher.Underway

/-! A new request starts afresh: nothing that was cancelled before it shows in its utterance, unless it is
    itself cut short. -/

namespace Orator

namespace Pipeline

/-- Whether the callback is not on its way to cut the utterance short. -/
def Producer.clean : Producer → Bool
  | .entered _ engineCancelled => !engineCancelled
  | .raising | .marking => false
  | _ => true

/-- Whether the delivery loop is not on its way to cut the utterance short, and has not counted it as such. -/
def Delivery.clean : Delivery → Bool
  | .discarding | .refused | .raising => false
  | .finished stats => !stats.aborted
  | _ => true

/-- Nothing has cut the utterance short, and nothing is about to. -/
structure State.Clean (s : State) : Prop where
  down : s.flag = false
  unmarked : s.aborted = false
  producer : s.producer.clean = true
  delivery : s.delivery.clean = true

theorem clean_ofSamples (rate : UInt32) (samples : List Sample) : (Delivery.ofSamples rate samples).clean = true := by
  cases samples <;> rfl

section
variable {limits : Limits} {s t : State}

theorem Produced.clean (h : Produced limits false s t) (hs : s.Clean) : t.Clean := by
  obtain ⟨down, unmarked, producer, delivery⟩ := hs
  cases h with
  | engineCancelled here | raised here | marked here =>
    rw [here] at producer
    cases producer
  | cancelled _ up => simp [down] at up
  | stopSeen _ stop => cases stop
  | _ => exact ⟨down, unmarked, rfl, delivery⟩

theorem Delivered.clean {verdict : Verdict} (h : Delivered limits verdict s t) (willing : verdict ≠ .refused)
    (hs : s.Clean) : t.Clean := by
  obtain ⟨down, unmarked, producer, delivery⟩ := hs
  cases h with
  | condemned _ up => simp [down] at up
  | discarded here | marked here | raised here =>
    rw [here] at delivery
    cases delivery
  | opened => exact ⟨down, unmarked, producer, clean_ofSamples _ _⟩
  | accepted => exact ⟨down, unmarked, producer, clean_ofSamples _ _⟩
  | refused _ verdict_eq => exact absurd verdict_eq willing
  | settled => exact ⟨down, unmarked, producer, by simp [Delivery.clean, unmarked]⟩
  | _ => exact ⟨down, unmarked, producer, rfl⟩

end

end Pipeline

namespace Dispatcher

open Pipeline (Limits Stats)

/-- Whether the step cuts no utterance short. -/
def Label.calm : Label → Bool
  | .call _ engineCancelled => !engineCancelled
  | .produce stopRequested => !stopRequested
  | .deliver verdict => verdict ≠ .refused
  | .raise => false
  | _ => true

/-- The flag is down; and once the channel is opened, nothing has cut the utterance short. -/
structure Clean (s : State) : Prop where
  down : s.pipe.flag = false
  opened : s.control.opens = false → s.pipe.Clean

section
variable {house : House} {limits : Limits} {s t : State} {label : Label}

theorem Exclusive.opened_of_running (hs : Exclusive s)
    (running : s.speaker ≠ .absent ∨ s.pipe.delivery.running = true) : s.control.opens = false := by
  cases h : s.control.opens
  · rfl
  · have works : s.control.working = true := by
      cases hc : s.control <;> first | rfl | (rw [hc] at h; cases h)
    have attends : s.control.attends = false := by
      cases hc : s.control <;> first | rfl | (rw [hc] at h; cases h)
    rcases running with speaker | delivery
    · exact absurd (hs.speaker_absent works attends) speaker
    · simp [hs.delivery_idle works] at delivery

theorem moved_clean (h : Moved house limits s label t) (calm : label.calm = true) (hs : Exclusive s)
    (under : s.underway = true) (hc : Clean s) : Clean t := by
  cases h with
  | took here => exact ⟨hc.down, fun _ => hc.opened (by rw [here]; rfl)⟩
  | reported here | wentOn here | collected here | unresolved here | resolved here | unswitched here | switched here
  | stopped here | spawned here | released here =>
    exact ⟨hc.down, fun _ => hc.opened (by rw [here]; rfl)⟩
  | cleared here => exact absurd here (hs.not_clearing under _ _)
  | opened here =>
    have idle : s.pipe.producer = .idle :=
      hs.producer_idle (by simp [hs.speaker_absent (by rw [here]; rfl) (by rw [here]; rfl)])
    refine ⟨hc.down, fun _ => ⟨hc.down, rfl, ?_, rfl⟩⟩
    simp [Pipeline.State.beginUtterance, idle, Pipeline.Producer.clean]
  | attended here =>
    obtain ⟨down, unmarked, producer, -⟩ := hc.opened (by rw [here]; rfl)
    exact ⟨down, fun _ => ⟨down, unmarked, producer, rfl⟩⟩
  | left here =>
    obtain ⟨down, unmarked, producer, delivery⟩ := hc.opened (hs.opened_of_running (Or.inl (by simp [here])))
    exact ⟨down, fun _ => ⟨down, unmarked, producer, delivery⟩⟩
  | called here =>
    obtain ⟨down, unmarked, -, delivery⟩ := hc.opened (hs.opened_of_running (Or.inl (by simp [here])))
    exact ⟨down, fun _ => ⟨down, unmarked, calm, delivery⟩⟩
  | @produced stopRequested pipe h =>
    obtain rfl : stopRequested = false := by simpa [Label.calm] using calm
    obtain ⟨engine, speaks⟩ := hs.inside.resolve_left h.runs
    have := h.clean (hc.opened (hs.opened_of_running (Or.inl (by simp [speaks]))))
    exact ⟨this.down, fun _ => this⟩
  | spoke here | crashed here =>
    obtain ⟨down, unmarked, -, delivery⟩ := hc.opened (hs.opened_of_running (Or.inl (by simp [here])))
    exact ⟨down, fun _ => ⟨down, unmarked, rfl, delivery⟩⟩
  | delivered h =>
    have := h.clean (by simpa [Label.calm] using calm) (hc.opened (hs.opened_of_running (Or.inr h.runs)))
    exact ⟨this.down, fun _ => this⟩
  | raised => cases calm
  | lowered =>
    refine ⟨rfl, fun past => ?_⟩
    obtain ⟨-, unmarked, producer, delivery⟩ := hc.opened past
    exact ⟨rfl, unmarked, producer, delivery⟩
  | _ => exact ⟨hc.down, hc.opened⟩

theorem outcome_of_unmarked {kind : MessageKind} {stats : Stats} {result : Synthesis} (unmarked : stats.aborted = false)
    (other : Stats) : Outcome.of kind stats result ≠ .cancelled other := by
  cases result <;> simp [Outcome.of, unmarked]
  split <;> simp

theorem Clean.reported (hc : Clean s) (hs : Exclusive s) (past : s.control.opens = false) (other : Stats) :
    s.watcher ≠ .finished (.cancelled other) := by
  intro here
  obtain ⟨kind, stats, result, outcome, there⟩ := hs.reported _ here
  have unmarked : stats.aborted = false := by
    rcases there with there | ⟨-, rfl⟩
    · have := (hc.opened past).delivery
      rw [there] at this
      simpa [Pipeline.Delivery.clean] using this
    · rfl
  exact outcome_of_unmarked unmarked other outcome.symm

end

end Dispatcher

end Orator
