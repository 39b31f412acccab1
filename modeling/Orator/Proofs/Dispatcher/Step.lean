import Orator.Dispatcher
import Orator.Proofs.Pipeline.Step

/-! What a step of the dispatcher's threads can do. `Moved` lists the steps, each with the place where its
    thread stands before and the state it leads to; every fact about a step is read off this list. -/

namespace Orator.Dispatcher

open Pipeline (Limits Stats Produced Delivered produce_inv deliver_inv)

inductive Moved (house : House) (limits : Limits) (s : State) : Label → State → Prop where
  | took {task} (here : s.control = .free) :
    Moved house limits s (.take task) { s with control := task.enter }
  | reported (here : s.control = .reporting) :
    Moved house limits s .control { s with control := .answered (.engine s.session.engineName) }
  | wentOn {task} (here : s.control = .waiting task) (alone : s.watcher = .absent) :
    Moved house limits s .control { s with control := task.proceed none }
  | collected {task outcome} (here : s.control = .waiting task) (done : s.watcher = .finished outcome) :
    Moved house limits s .control
      { s with watcher := .absent, lastOutcome := some outcome, control := task.proceed (some outcome) }
  | unresolved {request fault session} (here : s.control = .resolving request)
    (result : resolve house request s.session = (.error fault, session)) :
    Moved house limits s .control { s with session, control := .answered (.fault fault) }
  | resolved {request engine session} (here : s.control = .resolving request)
    (result : resolve house request s.session = (.ok engine, session)) :
    Moved house limits s .control { s with session, control := .clearing engine request }
  | unswitched {displayName fault session} (here : s.control = .switching displayName)
    (result : s.session.selectVoice house displayName = (.error fault, session)) :
    Moved house limits s .control { s with session, control := .answered (.fault fault) }
  | switched {displayName session} (here : s.control = .switching displayName)
    (result : s.session.selectVoice house displayName = (.ok (), session)) :
    Moved house limits s .control { s with session, control := .answered .selected }
  | stopped (here : s.control = .releasing) :
    Moved house limits s .control { s with session := s.session.stop, control := .answered .closed }
  | cleared {engine request} (here : s.control = .clearing engine request) :
    Moved house limits s .control
      { s with pipe := { s.pipe with flag := false }, control := .opening engine request }
  | opened {engine request} (here : s.control = .opening engine request) :
    Moved house limits s .control
      { s with pipe := s.pipe.beginUtterance s.session.sampleRate, control := .spawning engine request }
  | spawned {engine request} (here : s.control = .spawning engine request) :
    Moved house limits s .control { s with speaker := .spawned engine request, control := .attending request }
  | attended {request} (here : s.control = .attending request) :
    Moved house limits s .control
      { s with
        pipe := s.pipe.startDelivery
        watcher := .awaitingDelivery request.kind
        control := .answered (.accepted request.payload.length) }
  | released {answer} (here : s.control = .answered answer) :
    Moved house limits s .release { s with control := .free }
  | skipped {engine request} (here : s.speaker = .spawned engine request) (silent : request.speech? = none) :
    Moved house limits s .speak { s with speaker := .leaving .skipped }
  | began {engine request speech} (here : s.speaker = .spawned engine request)
    (uttered : request.speech? = some speech) :
    Moved house limits s .speak { s.record (.speak engine speech) with speaker := .speaking engine }
  | left {result} (here : s.speaker = .leaving result) :
    Moved house limits s .speak { s with pipe := s.pipe.endUtterance, speaker := .finished result }
  | called {engine buffer engineCancelled} (here : s.speaker = .speaking engine)
    (rests : s.pipe.resting = true) :
    Moved house limits s (.call buffer engineCancelled)
      { s with pipe := { s.pipe with producer := .entered buffer engineCancelled } }
  | produced {stopRequested pipe} (h : Produced limits stopRequested s.pipe pipe) :
    Moved house limits s (.produce stopRequested) { s with pipe }
  | spoke {engine success} (here : s.speaker = .speaking engine) (rests : s.pipe.resting = true) :
    Moved house limits s (.spoke success)
      { s.record (.spoke engine success) with
        pipe := { s.pipe with producer := .idle }
        speaker := .leaving (.spoke success) }
  | crashed {engine} (here : s.speaker = .speaking engine) (rests : s.pipe.resting = true) :
    Moved house limits s .crash
      { s with pipe := { s.pipe with producer := .idle }, speaker := .leaving .crashed }
  | delivered {verdict pipe} (h : Delivered limits verdict s.pipe pipe) :
    Moved house limits s (.deliver verdict) { s with pipe }
  | counted {kind stats} (here : s.watcher = .awaitingDelivery kind) (done : s.pipe.delivery = .finished stats) :
    Moved house limits s .watch { s with watcher := .awaitingSpeaker kind stats }
  | forgone {kind} (here : s.watcher = .awaitingDelivery kind) (done : s.pipe.delivery = .crashed) :
    Moved house limits s .watch { s with watcher := .awaitingSpeaker kind {} }
  | concluded {kind stats result} (here : s.watcher = .awaitingSpeaker kind stats)
    (done : s.speaker = .finished result) :
    Moved house limits s .watch { s with speaker := .absent, watcher := .finished (.of kind stats result) }
  | raised : Moved house limits s .raise { s with pipe := { s.pipe with flag := true } }
  | lowered : Moved house limits s .clear { s with pipe := { s.pipe with flag := false } }

section
variable {house : House} {limits : Limits} {s t : State}

theorem withPipe_inv {pipe : Option Pipeline.State} (h : s.withPipe pipe = some t) :
    ∃ p, pipe = some p ∧ t = { s with pipe := p } := by
  obtain ⟨p, hp, rfl⟩ := Option.map_eq_some_iff.mp h
  exact ⟨p, hp, rfl⟩

theorem control_inv (h : control house s = some t) : Moved house limits s .control t := by
  unfold control at h
  split at h
  · cases h
  · cases h
  · cases h
    exact .reported ‹_›
  · split at h <;> cases h
    · exact .wentOn ‹_› ‹_›
    · exact .collected ‹_› ‹_›
  · split at h <;> cases h
    · exact .unresolved ‹_› ‹_›
    · exact .resolved ‹_› ‹_›
  · split at h <;> cases h
    · exact .unswitched ‹_› ‹_›
    · exact .switched ‹_› ‹_›
  · cases h
    exact .stopped ‹_›
  · cases h
    exact .cleared ‹_›
  · cases h
    exact .opened ‹_›
  · cases h
    exact .spawned ‹_›
  · cases h
    exact .attended ‹_›

theorem speak_inv (h : speak s = some t) : Moved house limits s .speak t := by
  unfold speak at h
  split at h
  · split at h <;> cases h
    · exact .skipped ‹_› ‹_›
    · exact .began ‹_› ‹_›
  · cases h
    exact .left ‹_›
  · cases h
  · cases h
  · cases h

theorem watch_inv (h : watch s = some t) : Moved house limits s .watch t := by
  unfold watch at h
  split at h
  · split at h <;> cases h
    · exact .counted ‹_› ‹_›
    · exact .forgone ‹_› ‹_›
  · split at h <;> cases h
    exact .concluded ‹_› ‹_›
  · cases h
  · cases h

theorem step_inv {label : Label} (h : step house limits label s = some t) : Moved house limits s label t := by
  cases label with
  | take task =>
    simp only [step] at h
    split at h <;> cases h
    exact .took ‹_›
  | control => exact control_inv h
  | release =>
    simp only [step] at h
    split at h <;> cases h
    exact .released ‹_›
  | speak => exact speak_inv h
  | call buffer engineCancelled =>
    simp only [step] at h
    split at h
    · obtain ⟨p, hp, rfl⟩ := withPipe_inv h
      simp only [Pipeline.step] at hp
      split at hp <;> cases hp
      exact .called ‹_› ‹_›
    · cases h
  | produce stopRequested =>
    obtain ⟨p, hp, rfl⟩ := withPipe_inv h
    exact .produced (produce_inv hp)
  | spoke success =>
    simp only [step, spoke] at h
    split at h
    · split at h <;> cases h
      exact .spoke ‹_› ‹_›
    · cases h
  | crash =>
    simp only [step, crash] at h
    split at h
    · split at h <;> cases h
      exact .crashed ‹_› ‹_›
    · cases h
  | deliver verdict =>
    obtain ⟨p, hp, rfl⟩ := withPipe_inv h
    exact .delivered (deliver_inv hp)
  | watch => exact watch_inv h
  | raise =>
    obtain ⟨p, hp, rfl⟩ := withPipe_inv h
    cases hp
    exact .raised
  | clear =>
    obtain ⟨p, hp, rfl⟩ := withPipe_inv h
    cases hp
    exact .lowered

theorem Moved.of_opening {engine : Engine} {request : Request} (h : Moved house limits s .control t)
    (here : s.control = .opening engine request) :
    t = { s with pipe := s.pipe.beginUtterance s.session.sampleRate, control := .spawning engine request } := by
  cases h with
  | opened place =>
    rw [here] at place
    cases place
    rfl
  | reported place | wentOn place | collected place | unresolved place | resolved place | unswitched place
  | switched place | stopped place | cleared place | spawned place | attended place =>
    rw [here] at place
    cases place

end

end Orator.Dispatcher
