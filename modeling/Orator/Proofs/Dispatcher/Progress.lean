import Orator.Proofs.Dispatcher.Recital
import Orator.Proofs.Pipeline.Effort

/-! No utterance gets stuck. As long as a worker has not finished, one of them can take its next step: the callback
    waits only for a loop that takes packets out, the loop only for a callback that may put one in, and the watcher
    only for those two. And each of their steps takes away from what the conduct of the engine leaves to do. -/

namespace Orator

namespace Dispatcher

open Pipeline (Limits)

/-! ### Who is there -/

/-- Whoever is waited for has been set going, and with nobody to deliver the channel is given up. -/
structure Manned (s : State) : Prop where
  begun : s.watcher.awaiting = true → s.pipe.delivery ≠ .idle ∧ s.speaker ≠ .absent
  attended : s.control.attends = true → s.speaker ≠ .absent
  rested : s.pipe.delivery.running = false → s.control.spawns = false → s.control.attends = false →
    s.pipe.receiver = false ∧ s.pipe.queue = []

theorem start_manned (session : Session) : Manned { session } where
  begun := nofun
  attended := nofun
  rested _ _ _ := ⟨rfl, rfl⟩

section
variable {house : House} {limits : Limits} {s t : State} {label : Label}

/-- A task that neither opens the channel nor sets a worker going changes nothing of this. -/
theorem Manned.goOn {control : Control} (hs : Manned s) (flag : Bool) (session : Session)
    (here : s.control.spawns = false ∧ s.control.attends = false) (there : control.attends = false) :
    Manned { s with pipe := { s.pipe with flag }, session, control } where
  begun := hs.begun
  attended attends := by simp [there] at attends
  rested runs _ _ := hs.rested runs here.1 here.2

theorem Manned.speakOn {producer : Pipeline.Producer} {speaker : Speaker} (hs : Manned s) (session : Session)
    (there : speaker ≠ .absent) : Manned { s with pipe := { s.pipe with producer }, session, speaker } where
  begun awaiting := ⟨(hs.begun awaiting).1, there⟩
  attended _ := there
  rested := hs.rested

theorem produced_manned {stopRequested : Bool} {pipe : Pipeline.State}
    (h : Pipeline.Produced limits stopRequested s.pipe pipe) (hs : Manned s) : Manned { s with pipe } := by
  obtain ⟨hd, -, -, hr⟩ := h.frame
  refine ⟨?_, hs.attended, fun runs spawns attends => ?_⟩
  · rw [hd]
    exact hs.begun
  · obtain ⟨gone, empty⟩ := hs.rested (hd ▸ runs) spawns attends
    refine ⟨hr.trans gone, ?_⟩
    cases h with
    | sent _ listens => simp [gone] at listens
    | _ => exact empty

theorem delivered_manned {verdict : Verdict} {pipe : Pipeline.State}
    (h : Pipeline.Delivered limits verdict s.pipe pipe) (hs : Manned s) : Manned { s with pipe } := by
  refine ⟨fun awaiting => ⟨?_, (hs.begun awaiting).2⟩, hs.attended, fun rests _ _ => ?_⟩
  · cases h with
    | opened => exact Pipeline.idle_ofSamples _ _
    | accepted => exact Pipeline.idle_ofSamples _ _
    | _ => nofun
  · cases h with
    | crashed | settled => exact ⟨rfl, rfl⟩
    | opened | accepted => simp [Pipeline.running_ofSamples] at rests
    | _ => cases rests

theorem moved_manned (h : Moved house limits s label t) (he : Exclusive s) (hs : Manned s) : Manned t := by
  cases h with
  | @took task here => exact hs.goOn _ _ (by rw [here]; exact ⟨rfl, rfl⟩) (enter_idle task).2.2
  | @wentOn task here => exact hs.goOn _ _ (by rw [here]; exact ⟨rfl, rfl⟩) (proceed_idle task none).2
  | @collected task outcome here =>
    exact ⟨nofun, (by simp [(proceed_idle task (some outcome)).2]),
      fun rests _ _ => hs.rested rests (by rw [here]; rfl) (by rw [here]; rfl)⟩
  | reported here | unresolved here | resolved here | unswitched here | switched here | stopped here | cleared here
  | released here => exact hs.goOn _ _ (by rw [here]; exact ⟨rfl, rfl⟩) rfl
  | opened here | spawned here =>
    -- Nobody is waited for while the task works on.
    refine ⟨fun awaiting => ?_, nofun, nofun⟩
    have absent := he.alone (by rw [here]; rfl)
    dsimp only at awaiting
    rw [absent] at awaiting
    cases awaiting
  | attended here => exact ⟨fun _ => ⟨nofun, hs.attended (by rw [here]; rfl)⟩, nofun, nofun⟩
  | skipped | began | spoke | crashed => exact hs.speakOn _ nofun
  | left => exact ⟨fun awaiting => ⟨(hs.begun awaiting).1, nofun⟩, nofun, hs.rested⟩
  | called => exact ⟨hs.begun, hs.attended, hs.rested⟩
  | produced h => exact produced_manned h hs
  | delivered h => exact delivered_manned h hs
  | counted here | forgone here =>
    exact ⟨fun _ => hs.begun (by rw [here]; rfl), hs.attended, hs.rested⟩
  | concluded here =>
    refine ⟨nofun, fun attends => ?_, hs.rested⟩
    have absent := he.alone (by cases hc : s.control <;> simp_all [Control.attends, Control.working])
    rw [here] at absent
    cases absent
  | raised | lowered => exact ⟨hs.begun, hs.attended, hs.rested⟩

/-! ### Who can go on -/

/-- The loop that waits for a packet in vain has someone who may still put one in. -/
theorem Exclusive.running_of_open (he : Exclusive s) (spawns : s.control.spawns = false)
    (more : s.pipe.closed = false) : s.speaker.running = true := by
  have routed := he.routed
  rw [spawns, Bool.false_or] at routed
  rcases he.inside with idle | ⟨engine, here⟩
  · simpa [Pipeline.State.closed, idle, ← routed] using more
  · rw [here]
    rfl

/-- The watcher waits for nothing but those whom it has to wait for. -/
theorem watch_ready (awaiting : s.watcher.awaiting = true) (begun : s.pipe.delivery ≠ .idle)
    (present : s.speaker ≠ .absent) (delivered : s.pipe.delivery.running = false)
    (spoken : s.speaker.running = false) : (watch s).isSome = true := by
  unfold watch
  cases here : s.watcher with
  | absent | finished =>
    rw [here] at awaiting
    cases awaiting
  | awaitingDelivery =>
    cases there : s.pipe.delivery with
    | finished | crashed => rfl
    | idle => exact absurd there begun
    | _ =>
      rw [there] at delivered
      cases delivered
  | awaitingSpeaker =>
    cases there : s.speaker with
    | finished => rfl
    | absent => exact absurd there present
    | _ =>
      rw [there] at spoken
      cases spoken

end

/-! ### What is left to do -/

def Conduct.effort : Conduct → Nat
  | .returns _ | .crashes => 1
  | .calls buffer _ next => 2 * buffer.length + 12 + max (next false).effort (next true).effort

def Speaker.effort (conduct : Nat) : Speaker → Nat
  | .absent | .finished _ => 0
  | .leaving _ => 1
  | .speaking _ => conduct + 1
  | .spawned .. => conduct + 2

def Watcher.effort : Watcher → Nat
  | .absent | .finished _ => 0
  | .awaitingSpeaker .. => 1
  | .awaitingDelivery _ => 2

/-- A request that has its engine still has to set the workers going. -/
def Control.effort (conduct : Nat) : Control → Nat
  | .clearing .. => conduct + 10
  | .opening .. => conduct + 9
  | .spawning .. => conduct + 8
  | .attending _ => 5
  | _ => 0

/-- What there is left to do in an utterance whose engine does that much at most from here on. -/
def State.effort (conduct : Nat) (s : State) : Nat :=
  s.control.effort conduct + s.speaker.effort conduct + s.watcher.effort + s.pipe.effort

section
variable {house : House} {limits : Limits} {s t : State} {label : Label} {conduct : Nat}

theorem enter_effort (conduct : Nat) (task : Task) : task.enter.effort conduct = 0 := by
  cases task <;> rfl

theorem effort_mono {less : Nat} (le : less ≤ conduct) (control : Control) :
    control.effort less ≤ control.effort conduct := by
  cases control <;> simp only [Control.effort] <;> omega

theorem resting_effort {pipe : Pipeline.State} (rests : pipe.resting = true) : pipe.producer.effort = 0 := by
  unfold Pipeline.State.resting at rests
  cases here : pipe.producer with
  | idle | returned => rfl
  | _ =>
    rw [here] at rests
    cases rests

/-- Whichever worker takes a step, there is less left to do after it; nobody else adds to it. -/
theorem moved_effort {engine : Engine} {request : Request} {before : History} (h : Moved house limits s label t)
    (other : label.ofEngine = false) (he : Exclusive s) (busy : s.busy = true)
    (hp : Pursued engine request before s) : t.effort conduct + label.ofWorker.toNat ≤ s.effort conduct := by
  unfold State.effort
  cases h with
  | @took task here => simp [here, enter_effort, Label.ofWorker]
  | reported here | released here => simp [here, Control.effort, Label.ofWorker]
  | wentOn here done | collected here done =>
    rw [he.not_busy (by rw [here]; rfl) (by rw [done]; rfl)] at busy
    cases busy
  | unresolved here | resolved here | unswitched here | switched here | stopped here =>
    -- A task that has its engine is not among those that look for one.
    have place := hp.place.resolve_right (by simp [here, Control.working])
    rw [here] at place
    simp [Control.path] at place
  | cleared here =>
    simp [here, Control.effort, Label.ofWorker, Pipeline.State.effort]
  | opened here =>
    simp only [here, Control.effort, Label.ofWorker, Pipeline.State.effort, Pipeline.State.beginUtterance,
      Pipeline.Delivery.effort, List.map_nil, List.sum_nil, Bool.toNat_false]
    omega
  | spawned here =>
    simp only [here, Control.effort, Speaker.effort, Label.ofWorker, Bool.toNat_false]
    omega
  | attended here =>
    simp only [here, Control.effort, Watcher.effort, Label.ofWorker, Pipeline.State.effort,
      Pipeline.State.startDelivery, Pipeline.Delivery.effort, Bool.toNat_false]
    omega
  | skipped here | began here =>
    simp only [here, Speaker.effort, State.record, Label.ofWorker, Bool.toNat_true]
    omega
  | left here =>
    simp only [here, Speaker.effort, Pipeline.State.endUtterance, Pipeline.State.effort, Label.ofWorker,
      Bool.toNat_true]
    omega
  | produced h =>
    have less := h.effort_lt
    simp only [Label.ofWorker, Bool.toNat_true]
    omega
  | delivered h =>
    have less := h.effort_lt
    simp only [Label.ofWorker, Bool.toNat_true]
    omega
  | counted here | forgone here =>
    simp only [here, Watcher.effort, Label.ofWorker, Bool.toNat_true]
    omega
  | concluded here done =>
    simp only [here, done, Watcher.effort, Speaker.effort, Label.ofWorker, Bool.toNat_true]
    omega
  | raised | lowered => simp [Label.ofWorker, Pipeline.State.effort]
  | called | spoke | crashed => cases other

/-- The engine keeps to its conduct. -/
theorem engine_effort {own : Conduct} (h : Moved house limits s own.label t) (le : own.effort ≤ conduct) :
    t.effort (max (own.next false).effort (own.next true).effort) + 1 ≤ s.effort conduct := by
  unfold State.effort
  cases own with
  | calls buffer engineCancelled next =>
    simp only [Conduct.label] at h
    simp only [Conduct.effort] at le
    cases h with
    | called here rests =>
      have idle := resting_effort rests
      have control := effort_mono (Nat.le_trans (Nat.le_add_left _ _) le) s.control
      simp only [here, Speaker.effort, Pipeline.State.effort, Pipeline.Producer.effort, Conduct.next] at idle ⊢
      omega
  | returns success =>
    simp only [Conduct.label] at h
    cases h with
    | spoke here rests =>
      have idle := resting_effort rests
      have control := effort_mono le s.control
      simp only [here, Speaker.effort, Pipeline.State.effort, Pipeline.Producer.effort, Conduct.next, Conduct.effort,
        State.record, Nat.max_self] at idle le control ⊢
      omega
  | crashes =>
    simp only [Conduct.label] at h
    cases h with
    | crashed here rests =>
      have idle := resting_effort rests
      have control := effort_mono le s.control
      simp only [here, Speaker.effort, Pipeline.State.effort, Pipeline.Producer.effort, Conduct.next, Conduct.effort,
        Nat.max_self] at idle le control ⊢
      omega

end

/-! ### From the engine to the outcome -/

/-- What the threads go by from when a request has its engine. -/
structure InHand (engine : Engine) (request : Request) (before : History) (s : State) : Prop where
  exclusive : Exclusive s
  manned : Manned s
  pursued : Pursued engine request before s
  /-- There is going to be an outcome, or there is one. -/
  kept : s.control.working = true ∨ s.watcher ≠ .absent

section
variable {house : House} {limits : Limits} {s t : State} {label : Label}
variable {engine : Engine} {request : Request} {before : History}

theorem moved_kept (h : Moved house limits s label t) (busy : s.busy = true) (hs : InHand engine request before s) :
    t.control.working = true ∨ t.watcher ≠ .absent := by
  obtain ⟨he, -, hp, kept⟩ := hs
  cases h with
  | took here | reported here | released here =>
    exact Or.inr (kept.resolve_left (by simp [here, Control.working]))
  | wentOn here done | collected here done =>
    rw [he.not_busy (by rw [here]; rfl) (by rw [done]; rfl)] at busy
    cases busy
  | unresolved here | resolved here | unswitched here | switched here | stopped here =>
    have place := hp.place.resolve_right (by simp [here, Control.working])
    rw [here] at place
    simp [Control.path] at place
  | cleared | opened | spawned => exact Or.inl rfl
  | attended | counted | forgone | concluded => exact Or.inr Watcher.noConfusion
  | _ => exact kept

theorem moved_inHand (h : Moved house limits s label t) (busy : s.busy = true) (hs : InHand engine request before s) :
    InHand engine request before t where
  exclusive := moved_exclusive h hs.exclusive
  manned := moved_manned h hs.exclusive hs.manned
  pursued := moved_pursued h hs.exclusive busy hs.pursued
  kept := moved_kept h busy hs

/-- With its turn, a request finds nothing in flight. -/
theorem inHand_of_accepted (accepted : s.control = .clearing engine request) (he : Exclusive s) (hm : Manned s) :
    InHand engine request s.session.history s where
  exclusive := he
  manned := hm
  pursued :=
    have absent := he.speaker_absent (by rw [accepted]; rfl) (by rw [accepted]; rfl)
    ⟨Or.inl (by simp [accepted, Control.path]), by simp [absent], by simp [absent], [], rfl, nofun⟩
  kept := Or.inl (by rw [accepted]; rfl)

theorem InHand.awaiting (hs : InHand engine request before s) (busy : s.busy = true)
    (idle : s.control.working = false) : s.watcher.awaiting = true := by
  cases free : s.watcher.awaiting
  · rw [hs.exclusive.not_busy idle free] at busy
    cases busy
  · rfl

/-- When nothing is in the way of the next request any more, the last one has left nothing behind. -/
theorem InHand.left (hs : InHand engine request before s) (ended : s.busy = false) :
    s.pipe.route = none ∧ s.pipe.receiver = false ∧ s.pipe.queue = [] ∧ ∃ outcome, s.watcher = .finished outcome := by
  simp only [State.busy, State.underway, Bool.or_eq_false_iff] at ended
  obtain ⟨idle, ⟨⟨⟨⟨-, spawns⟩, attends⟩, speaker⟩, delivery⟩, awaiting⟩ := ended
  obtain ⟨gone, empty⟩ := hs.manned.rested delivery spawns attends
  have routed := hs.exclusive.routed
  rw [spawns, speaker] at routed
  refine ⟨by simpa using routed, gone, empty, ?_⟩
  have kept := hs.kept.resolve_left (by simp [idle])
  cases here : s.watcher with
  | finished outcome => exact ⟨outcome, rfl⟩
  | absent => exact absurd here kept
  | awaitingDelivery | awaitingSpeaker =>
    rw [here] at awaiting
    cases awaiting

end

/-- The same step with these answers of the host. -/
def Label.answered (stopRequested : Bool) (verdict : Verdict) : Label → Label
  | .produce _ => .produce stopRequested
  | .deliver _ => .deliver verdict
  | label => label

namespace Recital

def effort (r : Recital) : Nat :=
  r.state.effort (max (r.next false).effort (r.next true).effort)

/-- One of the workers can take its next step, whatever the host answers. -/
def Lively (house : House) (limits : Limits) (r : Recital) : Prop :=
  ∃ label : Label, label.ofWorker = true ∧
    ∀ stopRequested verdict, (step house limits (label.answered stopRequested verdict) r).isSome = true

section
variable {house : House} {limits : Limits} {r t : Recital} {label : Label} {labels : List Label}
variable {engine : Engine} {request : Request} {before : History}

theorem lively_of_step (label : Label) (worker : label.ofWorker = true) (other : label.ofEngine = false)
    (able : ∀ stopRequested verdict,
      (Dispatcher.step house limits (label.answered stopRequested verdict) r.state).isSome = true) :
    r.Lively house limits := by
  refine ⟨label, worker, fun stopRequested verdict => ?_⟩
  have other : (label.answered stopRequested verdict).ofEngine = false := by
    cases label <;> first | rfl | cases other
  simp [step, other, able]

/-- The engine can always go on with its conduct when the callback is not running. -/
theorem lively_of_speaking (here : r.state.speaker = .speaking engine) (rests : r.state.pipe.resting = true) :
    r.Lively house limits := by
  refine ⟨r.conduct.label, by cases r.conduct <;> rfl, fun stopRequested verdict => ?_⟩
  have same : r.conduct.label.answered stopRequested verdict = r.conduct.label := by
    cases r.conduct <;> rfl
  rw [same, step, if_pos r.conduct.label_ofEngine, if_pos rfl, Option.isSome_map]
  cases r.conduct with
  | returns => simp [Conduct.label, Dispatcher.step, spoke, here, rests]
  | crashes => simp [Conduct.label, Dispatcher.step, crash, here, rests]
  | calls => simp [Conduct.label, Dispatcher.step, State.withPipe, Pipeline.step, here, rests]

theorem lively_of_running (runs : r.state.speaker.running = true)
    (room : r.state.pipe.receiver = false ∨ r.state.pipe.queue.length < limits.capacity) :
    r.Lively house limits := by
  cases here : r.state.speaker with
  | absent | finished =>
    rw [here] at runs
    cases runs
  | spawned engine request =>
    refine lively_of_step .speak rfl rfl fun _ _ => ?_
    cases speech : request.speech? <;> simp [Label.answered, Dispatcher.step, speak, here, speech]
  | leaving =>
    refine lively_of_step .speak rfl rfl fun _ _ => ?_
    simp [Label.answered, Dispatcher.step, speak, here]
  | speaking =>
    cases rests : r.state.pipe.resting
    · refine lively_of_step (.produce false) rfl rfl fun stopRequested _ => ?_
      rw [Label.answered, Dispatcher.step, State.withPipe, Option.isSome_map]
      exact Pipeline.produce_ready rests room stopRequested
    · exact lively_of_speaking here rests

/-- Nobody waits in vain. -/
theorem lively_of_awaiting (he : Exclusive r.state) (hm : Manned r.state)
    (awaiting : r.state.watcher.awaiting = true) : r.Lively house limits := by
  have idle := he.not_working_of_awaiting awaiting
  have spawns : r.state.control.spawns = false := by
    cases here : r.state.control <;> first | rfl | (rw [here] at idle; cases idle)
  have attends : r.state.control.attends = false := by
    cases here : r.state.control <;> first | rfl | (rw [here] at idle; cases idle)
  obtain ⟨begun, present⟩ := hm.begun awaiting
  cases delivers : r.state.pipe.delivery.running
  · -- The channel is given up, so the callback waits for nothing; and when the speaker is done, the watcher can go on.
    obtain ⟨gone, -⟩ := hm.rested delivers spawns attends
    cases speaks : r.state.speaker.running
    · refine lively_of_step .watch rfl rfl fun _ _ => ?_
      exact watch_ready awaiting begun present delivers speaks
    · exact lively_of_running speaks (Or.inl gone)
  · by_cases blocked : r.state.pipe.queue = [] ∧ r.state.pipe.closed = false
    · -- Nothing is in the channel but something may come, from a speaker that has all the room it needs.
      refine lively_of_running (he.running_of_open spawns blocked.2) (Or.inr ?_)
      rw [blocked.1]
      exact limits.capacity_pos
    · refine lively_of_step (.deliver .accepted) rfl rfl fun _ verdict => ?_
      rw [Label.answered, Dispatcher.step, State.withPipe, Option.isSome_map]
      refine Pipeline.deliver_ready delivers (fun _ empty => ?_) verdict
      simpa [empty] using blocked

/-- A task that has its engine can always go on with it. -/
theorem control_ready (hp : Pursued engine request before r.state) (works : r.state.control.working = true) :
    (step house limits .control r).isSome = true := by
  have place := hp.place.resolve_right (by simp [works])
  simp only [step, Label.ofEngine, Bool.false_eq_true, if_false, Option.isSome_map, Dispatcher.step, control]
  cases here : r.state.control <;> simp_all [Control.path, Control.working]

theorem moved_effort (h : Moved house limits r label t) (busy : r.state.busy = true)
    (hs : InHand engine request before r.state) : t.effort + label.ofWorker.toNat ≤ r.effort := by
  obtain ⟨moved, own, other⟩ := h
  unfold effort
  cases engine : label.ofEngine
  · rw [other engine]
    exact Dispatcher.moved_effort moved engine hs.exclusive busy hs.pursued
  · obtain ⟨rfl, next⟩ := own engine
    have worker : r.conduct.label.ofWorker = true := by cases r.conduct <;> rfl
    have le : r.conduct.effort ≤ max (r.next false).effort (r.next true).effort := by
      unfold conduct
      cases r.state.pipe.refusing
      · exact Nat.le_max_left _ _
      · exact Nat.le_max_right _ _
    rw [worker, next]
    exact engine_effort moved le

/-- Nothing is in anybody's hands yet when a request has its engine. -/
theorem effort_of_accepted {s : State} (conduct : Conduct) (accepted : s.control = .clearing engine request)
    (he : Exclusive s) (hm : Manned s) : effort { state := s, next := fun _ => conduct } = conduct.effort + 10 := by
  obtain ⟨speaker, watcher, delivery, producer⟩ := he.quiet (by rw [accepted]; rfl) (by rw [accepted]; rfl)
  obtain ⟨-, empty⟩ := hm.rested delivery (by rw [accepted]; rfl) (by rw [accepted]; rfl)
  simp [effort, State.effort, accepted, speaker, watcher, Control.effort, Speaker.effort, Watcher.effort,
    Pipeline.State.effort, producer, Pipeline.Producer.effort, Pipeline.effort_of_rested delivery, empty]

/-- The steps that the workers have taken are paid for by what was left to do. -/
theorem run_effort (h : run house limits labels r = some t) (hs : InHand engine request before r.state) :
    InHand engine request before t.state ∧ labels.countP Label.ofWorker + t.effort ≤ r.effort := by
  induction labels generalizing r with
  | nil =>
    cases h
    exact ⟨hs, by simp⟩
  | cons label labels ih =>
    obtain ⟨busy, u, moved, h⟩ := run_cons h
    obtain ⟨ht, rest⟩ := ih h (moved_inHand moved.moved busy hs)
    have first := moved_effort moved busy hs
    refine ⟨ht, ?_⟩
    rw [List.countP_cons]
    cases worker : label.ofWorker <;> simp_all <;> omega

end

end Recital

/-- From when a request has its engine, and with any conduct of that engine, its utterance comes to an end. The
    workers take no more steps than the conduct allows for; until the outcome is known, the task that accepts the
    request can take its next step, or one of the workers can, whatever the host answers; and then the channel is
    closed and given up, nothing is in it, and whoever waits for the utterance gets its outcome. -/
theorem never_stuck {house : House} {chunkSize capacity : Nat} {history : History} {past labels : List Label}
    {s : State} {engine : Engine} {request : Request} {conduct : Conduct} {t : Recital}
    (reached : run house (.ofSizes chunkSize capacity) past { session := { history } } = some s)
    (accepted : s.control = .clearing engine request)
    (h : Recital.run house (.ofSizes chunkSize capacity) labels { state := s, next := fun _ => conduct } = some t) :
    labels.countP Label.ofWorker ≤ conduct.effort + 10 ∧
    (t.state.busy = true →
      if t.state.control.working then (Recital.step house (.ofSizes chunkSize capacity) .control t).isSome = true
      else t.Lively house (.ofSizes chunkSize capacity)) ∧
    (t.state.busy = false →
      t.state.pipe.route = none ∧ t.state.pipe.receiver = false ∧ t.state.pipe.queue = [] ∧
      ∃ outcome, control house { t.state with control := .waiting .wait } = some { t.state with
        watcher := .absent, lastOutcome := some outcome, control := .answered (.outcome (some outcome)) }) := by
  have start : Exclusive s ∧ Manned s := by
    refine run_keeps (P := fun s => Exclusive s ∧ Manned s) ?_ reached ⟨start_exclusive _, start_manned _⟩
    rintro label - s t moved ⟨he, hs⟩
    exact ⟨moved_exclusive moved he, moved_manned moved he hs⟩
  obtain ⟨he, hm⟩ := start
  have hs := inHand_of_accepted accepted he hm
  obtain ⟨ht, paid⟩ := Recital.run_effort h hs
  refine ⟨?_, fun busy => ?_, fun ended => ?_⟩
  · have afford := Recital.effort_of_accepted conduct accepted he hm
    omega
  · cases works : t.state.control.working
    · exact Recital.lively_of_awaiting ht.exclusive ht.manned (ht.awaiting busy works)
    · exact Recital.control_ready ht.pursued works
  · obtain ⟨routed, gone, empty, outcome, here⟩ := ht.left ended
    exact ⟨routed, gone, empty, outcome, by simp [control, here, Task.proceed]⟩

/-- The host crashes while the callback waits for room in the channel. -/
def crashedInWait : List Label := List.flatten [
  [.control, .control, .control, .control, .speak],
  .call [1, 2, 3] false :: List.replicate 5 (.produce false),
  .call [4] false :: List.replicate 3 (.produce false),
  [.deliver .accepted, .deliver .accepted, .produce false, .produce false],
  .call [] false :: List.replicate 3 (.produce false),
  [.deliver .accepted, .deliver (.crashed false), .produce false, .spoke false, .speak, .watch, .watch]]

theorem never_stuck_crashedInWait : ∃ s t outcome,
    run halfHouse (.ofSizes 2 0) [.take (.speak alan), .control, .control] {} = some s ∧
    Recital.run halfHouse (.ofSizes 2 0) crashedInWait
      { state := s, next := fun _ => .reads (fun abort => !abort) [[1, 2, 3], [4], []] } = some t ∧
    t.state.pipe.receiver = false ∧ control halfHouse { t.state with control := .waiting .wait } = some { t.state with
      watcher := .absent, lastOutcome := some outcome, control := .answered (.outcome (some outcome)) } := by
  obtain ⟨s, hs, accepted⟩ := alan_accepted
  have ended : ((run halfHouse (.ofSizes 2 0) [.take (.speak alan), .control, .control] {}).bind fun s =>
      Recital.run halfHouse (.ofSizes 2 0) crashedInWait
        { state := s, next := fun _ => .reads (fun abort => !abort) [[1, 2, 3], [4], []] }).map (·.state.busy) =
      some false := by decide +kernel
  rw [hs, Option.bind_some] at ended
  obtain ⟨t, ht, idle⟩ := Option.map_eq_some_iff.mp ended
  obtain ⟨-, -, final⟩ := never_stuck hs accepted ht
  obtain ⟨-, gone, -, outcome, yields⟩ := final idle
  exact ⟨s, t, outcome, hs, ht, gone, yields⟩

end Dispatcher

end Orator
