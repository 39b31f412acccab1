import Orator.Proofs.Dispatcher.Step

/-! What ties the task that holds the dispatcher to the workers of the utterance in flight: while it works on
    there is no watcher, and without a watcher there is neither a speaker nor a running delivery loop. -/

namespace Orator

namespace Dispatcher

open Pipeline (Limits Stats Produced Delivered)

/-- Whether the task is past its wait, and nothing may be in flight but what it starts itself. -/
def Control.working : Control → Bool
  | .resolving _ | .switching _ | .releasing | .clearing .. | .opening .. | .spawning .. | .attending _ => true
  | _ => false

/-- Whether the channel is open and the speaker not yet going. -/
def Control.spawns : Control → Bool
  | .spawning .. => true
  | _ => false

/-- Whether the speaker is going and the delivery loop not yet. -/
def Control.attends : Control → Bool
  | .attending _ => true
  | _ => false

def Speaker.running : Speaker → Bool
  | .spawned .. | .speaking _ | .leaving _ => true
  | _ => false

def Watcher.awaiting : Watcher → Bool
  | .awaitingDelivery _ | .awaitingSpeaker .. => true
  | _ => false

structure Exclusive (s : State) : Prop where
  alone : s.control.working = true → s.watcher = .absent
  minded : s.speaker = .absent ∨ s.control.attends = true ∨ s.watcher.awaiting = true
  routed : s.pipe.route.isSome = (s.control.spawns || s.speaker.running)
  watched : s.pipe.delivery.running = true → ∃ kind, s.watcher = .awaitingDelivery kind
  unsettled : s.pipe.route.isSome = true → s.pipe.delivery.through = false
  inside : s.pipe.producer = .idle ∨ ∃ engine, s.speaker = .speaking engine
  fresh : s.control.spawns = true → s.pipe.aborted = false ∧ s.pipe.delivery = .idle
  counted : ∀ kind stats, s.watcher = .awaitingSpeaker kind stats →
    s.pipe.delivery = .finished stats ∨ (s.pipe.delivery = .crashed ∧ stats = {})
  reported : ∀ outcome, s.watcher = .finished outcome → ∃ kind stats result, outcome = .of kind stats result ∧
    (s.pipe.delivery = .finished stats ∨ (s.pipe.delivery = .crashed ∧ stats = {}))

theorem start_exclusive (session : Session) : Exclusive { session } where
  alone := fun _ => rfl
  minded := Or.inl rfl
  routed := rfl
  watched := nofun
  unsettled := nofun
  inside := Or.inl rfl
  fresh := nofun
  counted := nofun
  reported := nofun

section
variable {house : House} {limits : Limits} {s t : State} {label : Label}

theorem enter_idle (task : Task) :
    task.enter.working = false ∧ task.enter.spawns = false ∧ task.enter.attends = false := by
  cases task <;> exact ⟨rfl, rfl, rfl⟩

theorem proceed_idle (task : Task) (outcome : Option Outcome) :
    (task.proceed outcome).spawns = false ∧ (task.proceed outcome).attends = false := by
  cases task <;> exact ⟨rfl, rfl⟩

/-- A task that is not among the steps that open the channel or set a worker going can go on to any such
    place, if nothing is in flight where that is asked for. -/
theorem Exclusive.goOn {control : Control} (hs : Exclusive s) (flag : Bool) (session : Session)
    (here : s.control.spawns = false ∧ s.control.attends = false) (there : control.spawns = false)
    (alone : control.working = true → s.watcher = .absent) :
    Exclusive { s with pipe := { s.pipe with flag }, session, control } where
  alone := alone
  minded := hs.minded.imp_right fun h => Or.inr (h.resolve_left (by simp [here.2]))
  routed := by simp [hs.routed, here.1, there]
  watched := hs.watched
  unsettled := hs.unsettled
  inside := hs.inside
  fresh := fun h => by simp [there] at h
  counted := hs.counted
  reported := hs.reported

/-- A running speaker can go on to any place where it still runs. -/
theorem Exclusive.speakOn {producer : Pipeline.Producer} {speaker : Speaker} (hs : Exclusive s) (session : Session)
    (here : s.speaker.running = true) (there : speaker.running = true)
    (inside : producer = .idle ∨ ∃ engine, speaker = .speaking engine) :
    Exclusive { s with pipe := { s.pipe with producer }, session, speaker } where
  alone := hs.alone
  minded := by
    refine Or.inr (hs.minded.resolve_left ?_)
    intro h
    simp [h, Speaker.running] at here
  routed := by simp [hs.routed, here, there]
  watched := hs.watched
  unsettled := hs.unsettled
  inside := inside
  fresh := hs.fresh
  counted := hs.counted
  reported := hs.reported

theorem working_of_spawns {control : Control} (h : control.spawns = true) : control.working = true := by
  cases control <;> first | rfl | cases h

theorem attends_of_spawns {control : Control} (h : control.spawns = true) : control.attends = false := by
  cases control <;> first | rfl | cases h

theorem Exclusive.piped {pipe : Pipeline.State} (hs : Exclusive s) (route : pipe.route = s.pipe.route)
    (producer : pipe.producer = s.pipe.producer) (delivery : pipe.delivery = s.pipe.delivery)
    (aborted : pipe.aborted = s.pipe.aborted) : Exclusive { s with pipe } := by
  constructor
  · exact hs.alone
  · exact hs.minded
  · rw [route]
    exact hs.routed
  · rw [delivery]
    exact hs.watched
  · rw [route, delivery]
    exact hs.unsettled
  · rw [producer]
    exact hs.inside
  · rw [delivery, aborted]
    exact hs.fresh
  · rw [delivery]
    exact hs.counted
  · rw [delivery]
    exact hs.reported

/-- Nothing is in flight while a task works on. -/
theorem Exclusive.speaker_absent (hs : Exclusive s) (here : s.control.working = true)
    (there : s.control.attends = false) : s.speaker = .absent := by
  rcases hs.minded with h | h | h
  · exact h
  · simp [there] at h
  · simp [hs.alone here, Watcher.awaiting] at h

theorem Exclusive.delivery_idle (hs : Exclusive s) (here : s.control.working = true) :
    s.pipe.delivery.running = false := by
  cases h : s.pipe.delivery.running
  · rfl
  · obtain ⟨kind, hw⟩ := hs.watched h
    rw [hs.alone here] at hw
    cases hw

theorem Exclusive.not_working (hs : Exclusive s) (here : s.speaker ≠ .absent) (there : s.control.attends = false) :
    s.control.working = false := by
  cases h : s.control.working
  · rfl
  · exact absurd (hs.speaker_absent h there) here

theorem Exclusive.not_working_of_awaiting (hs : Exclusive s) (awaiting : s.watcher.awaiting = true) :
    s.control.working = false := by
  cases works : s.control.working
  · rfl
  · rw [hs.alone works] at awaiting
    cases awaiting

theorem Exclusive.producer_idle (hs : Exclusive s) (here : ∀ engine, s.speaker ≠ .speaking engine) :
    s.pipe.producer = .idle :=
  hs.inside.resolve_right fun ⟨engine, h⟩ => here engine h

/-- The delivery loop is not through while the callback runs. -/
theorem Exclusive.unfinished (hs : Exclusive s) : s.pipe.producer = .idle ∨ s.pipe.delivery.through = false := by
  refine hs.inside.imp_right fun ⟨engine, here⟩ => hs.unsettled ?_
  rw [hs.routed, here]
  exact Bool.or_true _

theorem produced_exclusive {stopRequested : Bool} {pipe : Pipeline.State}
    (h : Produced limits stopRequested s.pipe pipe) (hs : Exclusive s) : Exclusive { s with pipe } := by
  obtain ⟨hd, -, hr, -⟩ := h.frame
  obtain ⟨engine, speaks⟩ := hs.inside.resolve_left h.runs
  refine ⟨hs.alone, hs.minded, ?_, ?_, ?_, Or.inr ⟨engine, speaks⟩, ?_, ?_, ?_⟩
  · rw [hr]
    exact hs.routed
  · rw [hd]
    exact hs.watched
  · rw [hd, hr]
    exact hs.unsettled
  · intro h
    have := hs.speaker_absent (working_of_spawns h) (attends_of_spawns h)
    rw [speaks] at this
    cases this
  · rw [hd]
    exact hs.counted
  · rw [hd]
    exact hs.reported

theorem delivered_exclusive {verdict : Verdict} {pipe : Pipeline.State}
    (h : Delivered limits verdict s.pipe pipe) (hs : Exclusive s) : Exclusive { s with pipe } := by
  obtain ⟨hp, hr⟩ := h.frame
  obtain ⟨kind, hw⟩ := hs.watched h.runs
  refine ⟨hs.alone, hs.minded, ?_, fun _ => ⟨kind, hw⟩, ?_, ?_, ?_, ?_, ?_⟩
  · rw [hr]
    exact hs.routed
  · rw [hr]
    intro speaks
    exact h.through speaks (hs.unsettled speaks)
  · rw [hp]
    exact hs.inside
  · intro h'
    have := h.runs
    rw [(hs.fresh h').2] at this
    cases this
  · intro kind stats h'
    rw [hw] at h'
    cases h'
  · intro outcome h'
    rw [hw] at h'
    cases h'

theorem moved_exclusive (h : Moved house limits s label t) (hs : Exclusive s) : Exclusive t := by
  cases h with
  | @took task here =>
    obtain ⟨hw, hp, -⟩ := enter_idle task
    exact hs.goOn _ _ (by simp [here, Control.spawns, Control.attends]) hp (by simp [hw])
  | reported here =>
    exact hs.goOn _ _ (by simp [here, Control.spawns, Control.attends]) rfl nofun
  | @wentOn task here alone =>
    exact hs.goOn _ _ (by simp [here, Control.spawns, Control.attends]) (proceed_idle task none).1 fun _ => alone
  | @collected task outcome here done =>
    -- The watcher has reported, so it waits for no speaker, and nobody else minds one here.
    have speaker : s.speaker = .absent := by
      rcases hs.minded with h | h | h
      · exact h
      · simp [here, Control.attends] at h
      · simp [done, Watcher.awaiting] at h
    refine ⟨fun _ => rfl, Or.inl speaker, ?_, ?_, hs.unsettled, hs.inside, ?_, nofun, nofun⟩
    · have spawns : s.control.spawns = false := by rw [here]; rfl
      simp [hs.routed, spawns, (proceed_idle task (some outcome)).1]
    · intro h
      obtain ⟨kind, hw⟩ := hs.watched h
      rw [done] at hw
      cases hw
    · simp [(proceed_idle task (some outcome)).1]
  | unresolved here =>
    exact hs.goOn _ _ (by simp [here, Control.spawns, Control.attends]) rfl nofun
  | resolved here =>
    exact hs.goOn _ _ (by simp [here, Control.spawns, Control.attends]) rfl fun _ => hs.alone (by rw [here]; rfl)
  | unswitched here =>
    exact hs.goOn _ _ (by simp [here, Control.spawns, Control.attends]) rfl nofun
  | switched here =>
    exact hs.goOn _ _ (by simp [here, Control.spawns, Control.attends]) rfl nofun
  | stopped here =>
    exact hs.goOn _ _ (by simp [here, Control.spawns, Control.attends]) rfl nofun
  | cleared here =>
    exact hs.goOn _ _ (by simp [here, Control.spawns, Control.attends]) rfl fun _ => hs.alone (by rw [here]; rfl)
  | opened here =>
    have works : s.control.working = true := by rw [here]; rfl
    have speaker := hs.speaker_absent works (by rw [here]; rfl)
    refine ⟨fun _ => hs.alone works, Or.inl speaker, rfl, nofun, fun _ => rfl, hs.inside, fun _ => ⟨rfl, rfl⟩, ?_, ?_⟩
    all_goals
      intros
      simp_all [hs.alone works]
  | spawned here =>
    have works : s.control.working = true := by rw [here]; rfl
    have speaker := hs.speaker_absent works (by rw [here]; rfl)
    refine ⟨fun _ => hs.alone works, Or.inr (Or.inl rfl), ?_, hs.watched, hs.unsettled, Or.inl ?_, nofun,
      hs.counted, hs.reported⟩
    · simp [hs.routed, here, Control.spawns, Speaker.running]
    · exact hs.producer_idle (by simp [speaker])
  | attended here =>
    refine ⟨nofun, Or.inr (Or.inr rfl), ?_, fun _ => ⟨_, rfl⟩, fun _ => rfl, hs.inside, nofun, nofun,
      nofun⟩
    simpa [here, Control.spawns, Pipeline.State.startDelivery] using hs.routed
  | released here =>
    exact hs.goOn _ _ (by simp [here, Control.spawns, Control.attends]) rfl nofun
  | skipped here =>
    exact hs.speakOn _ (by rw [here]; rfl) rfl (Or.inl (hs.producer_idle (by simp [here])))
  | began here => exact hs.speakOn _ (by rw [here]; rfl) rfl (Or.inr ⟨_, rfl⟩)
  | left here =>
    -- The task cannot stand before its speaker when there is one that leaves.
    have spawns : s.control.spawns = false := by
      cases h : s.control.spawns
      · rfl
      · have := hs.speaker_absent (working_of_spawns h) (attends_of_spawns h)
        rw [here] at this
        cases this
    refine ⟨hs.alone, ?_, ?_, hs.watched, nofun, Or.inl ?_, ?_, hs.counted, hs.reported⟩
    · exact Or.inr (hs.minded.resolve_left (by simp [here]))
    · simp [spawns, Pipeline.State.endUtterance, Speaker.running]
    · exact hs.producer_idle (by simp [here])
    · simp [spawns]
  | called here => exact hs.speakOn _ (by rw [here]; rfl) (by rw [here]; rfl) (Or.inr ⟨_, here⟩)
  | produced h => exact produced_exclusive h hs
  | spoke here => exact hs.speakOn _ (by rw [here]; rfl) rfl (Or.inl rfl)
  | crashed here => exact hs.speakOn _ (by rw [here]; rfl) rfl (Or.inl rfl)
  | delivered h => exact delivered_exclusive h hs
  | counted here done =>
    refine ⟨?_, Or.inr (Or.inr rfl), hs.routed, ?_, hs.unsettled, hs.inside, hs.fresh, ?_, nofun⟩
    · intro h
      simp [hs.alone h] at here
    · intro h
      simp [done, Pipeline.Delivery.running] at h
    · intro _ _ h
      cases h
      exact Or.inl done
  | forgone here done =>
    refine ⟨?_, Or.inr (Or.inr rfl), hs.routed, ?_, hs.unsettled, hs.inside, hs.fresh, ?_, nofun⟩
    · intro h
      simp [hs.alone h] at here
    · intro h
      simp [done, Pipeline.Delivery.running] at h
    · intro _ _ h
      cases h
      exact Or.inr ⟨done, rfl⟩
  | concluded here done =>
    refine ⟨?_, Or.inl rfl, ?_, ?_, hs.unsettled, Or.inl ?_, hs.fresh, nofun, ?_⟩
    · intro h
      simp [hs.alone h] at here
    · simpa [done, Speaker.running] using hs.routed
    · intro h
      obtain ⟨kind, hw⟩ := hs.watched h
      rw [here] at hw
      cases hw
    · exact hs.producer_idle (by simp [done])
    · intro outcome h
      cases h
      exact ⟨_, _, _, rfl, hs.counted _ _ here⟩
  | raised => exact hs.piped rfl rfl rfl rfl
  | lowered => exact hs.piped rfl rfl rfl rfl

end

end Dispatcher

end Orator
