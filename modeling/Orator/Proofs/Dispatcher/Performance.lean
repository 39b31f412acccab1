import Orator.Proofs.Dispatcher.Answer
import Orator.Proofs.Dispatcher.Renewed
import Orator.Proofs.Pipeline.Rendering

/-! What becomes of a request that has its engine, if nothing disturbs its utterance: the engine is called once,
    as it was left when the request got it, the host hears what the engine hands over, and the outcome says so. -/

namespace Orator

/-! ### What an engine is called with -/

/-- How an engine is set when it is called to speak, and what it is given to utter. -/
structure Performance where
  name : String
  /-- The voice it was sent last. -/
  voice : Option String
  /-- The other settings, as it accepted them last. -/
  settings : Dial → Option Setting
  speech : Speech

def History.performance (h : History) (engine : Engine) (speech : Speech) : Performance where
  name := engine.name
  voice := h.lastVoice engine
  settings dial := h.effective engine dial
  speech := speech

/-- What a request asks for with the voice of that entry. -/
def Request.performance (request : Request) (entry : VoiceEntry) (speech : Speech) : Performance where
  name := entry.engineName
  voice := some entry.native
  settings dial := some (request.prosody.wish dial).setting
  speech := speech

def History.performances : History → List Performance
  | [] => []
  | .speak engine speech :: h => History.performance h engine speech :: performances h
  | _ :: h => performances h

theorem performances_append {calls : List Call}
    (silent : ∀ call ∈ calls, ∀ engine speech, call ≠ .speak engine speech)
    (h : History) : History.performances (calls ++ h) = h.performances := by
  induction calls with
  | nil => rfl
  | cons call calls ih =>
    have rest := ih fun other hm => silent other (List.mem_cons_of_mem _ hm)
    cases call with
    | speak engine speech => exact absurd rfl (silent _ List.mem_cons_self engine speech)
    | _ => exact rest

namespace Dispatcher

open Pipeline (Limits Stats)

/-- What an utterance sets out from. -/
structure Cue where
  request : Request
  engine : Engine
  /-- The calls that were made until the engine was ready. -/
  history : History
  /-- What the host had heard when it was the request's turn. -/
  heard : List HostEvent

/-- How speaking ends, given what the engine returned, and the calls it takes. -/
inductive Ended (cue : Cue) : List Bool → Synthesis → History → Prop where
  | silent (nothing : cue.request.speech? = none) : Ended cue [] .skipped cue.history
  | spoken {speech success} (uttered : cue.request.speech? = some speech) :
    Ended cue [success] (.spoke success) (.spoke cue.engine success :: .speak cue.engine speech :: cue.history)

/-- How far speaking has come, given what the engine has returned, and the calls made so far. -/
inductive Voiced (cue : Cue) : List Bool → Speaker → History → Prop where
  | absent : Voiced cue [] .absent cue.history
  | spawned : Voiced cue [] (.spawned cue.engine cue.request) cue.history
  | speaking {speech} (uttered : cue.request.speech? = some speech) :
    Voiced cue [] (.speaking cue.engine) (.speak cue.engine speech :: cue.history)
  | leaving {returned result history} (ended : Ended cue returned result history) :
    Voiced cue returned (.leaving result) history
  | finished {returned result history} (ended : Ended cue returned result history) :
    Voiced cue returned (.finished result) history

/-- Whether the watcher, if there is one, still waits for the end of an utterance of that kind. -/
def Watcher.minds (kind : MessageKind) : Watcher → Prop
  | .absent => True
  | .awaitingDelivery minded | .awaitingSpeaker minded _ => minded = kind
  | .finished _ => False

def Watcher.outcome? : Watcher → Option Outcome
  | .finished outcome => some outcome
  | _ => none

theorem Watcher.finished_of_outcome {watcher : Watcher} (h : watcher.outcome?.isSome = true) :
    ∃ outcome, watcher = .finished outcome := by
  cases watcher with
  | finished outcome => exact ⟨outcome, rfl⟩
  | _ => cases h

def Label.buffer? : Label → Option (List Sample)
  | .call buffer _ => some buffer
  | _ => none

def Label.returned? : Label → Option Bool
  | .spoke success => some success
  | _ => none

/-- Whether nothing in the step disturbs an utterance: nobody cancels, refuses or crashes. -/
def Label.gentle : Label → Bool
  | .crash => false
  | .deliver verdict => verdict = .accepted
  | label => label.calm

/-- The engine is ready, and the channel not yet open. -/
structure Ready (cue : Cue) (s : State) : Prop where
  place : s.control = .clearing cue.engine cue.request ∨
    (s.control = .opening cue.engine cue.request ∧ s.pipe.flag = false)
  live : s.session.engine? = some cue.engine
  history : s.session.history = cue.history
  unheard : s.pipe.Played cue.heard []

/-- The channel is open or has been, and the outcome is not yet known. The buffers are what the engine has handed
    over, the latest first. -/
structure Performing (limits : Limits) (cue : Cue) (buffers : List (List Sample)) (returned : List Bool) (s : State) :
    Prop where
  live : s.session.engine? = some cue.engine
  renders : s.pipe.Renders limits cue.engine.sampleRate cue.heard buffers.reverse
  voiced : Voiced cue returned s.speaker s.session.history
  place : s.control = .spawning cue.engine cue.request ∨ s.control = .attending cue.request ∨
    s.control.working = false
  unbegun : s.control.working = true → s.pipe.delivery = .idle
  minded : s.watcher.minds cue.request.kind

structure Performed (limits : Limits) (cue : Cue) (buffers : List (List Sample)) (returned : List Bool) (s : State) :
    Prop where
  live : s.session.engine? = some cue.engine
  played : s.pipe.Played cue.heard (limits.rendered cue.engine.sampleRate buffers.reverse)
  concluded : ∃ result, Ended cue returned result s.session.history ∧ s.watcher = .finished (.of cue.request.kind
    { (limits.rendered cue.engine.sampleRate buffers.reverse).foldl Stats.hear {} with aborted := false } result)

/-- From its engine to its outcome. -/
inductive Proceeds (limits : Limits) (cue : Cue) : List (List Sample) → List Bool → State → Prop where
  | ready {s} (here : Ready cue s) : Proceeds limits cue [] [] s
  | performing {buffers returned s} (here : Performing limits cue buffers returned s) :
    Proceeds limits cue buffers returned s
  | performed {buffers returned s} (here : Performed limits cue buffers returned s) :
    Proceeds limits cue buffers returned s

section
variable {house : House} {limits : Limits} {cue : Cue} {buffers : List (List Sample)} {returned : List Bool}
variable {s t : State} {label : Label}

theorem Ready.working (hr : Ready cue s) : s.control.working = true := by
  rcases hr.place with here | ⟨here, -⟩ <;> rw [here] <;> rfl

theorem Ready.attends (hr : Ready cue s) : s.control.attends = false := by
  rcases hr.place with here | ⟨here, -⟩ <;> rw [here] <;> rfl

theorem Ready.rest (hr : Ready cue s) (control : t.control = s.control) (session : t.session = s.session)
    (flag : t.pipe.flag = s.pipe.flag) (heard : t.pipe.Played cue.heard []) : Ready cue t where
  place := by
    rw [control, flag]
    exact hr.place
  live := session ▸ hr.live
  history := session ▸ hr.history
  unheard := heard

theorem moved_ready (h : Moved house limits s label t) (never : label ≠ .clear) (gentle : label.gentle = true)
    (he : Exclusive s) (hr : Ready cue s) :
    Proceeds limits cue (label.buffer?.toList ++ []) (label.returned?.toList ++ []) t := by
  have quiet := he.quiet hr.working hr.attends
  have nobody := quiet.nobody h
  cases h with
  | took here | reported here | wentOn here | collected here | unresolved here | resolved here | unswitched here
  | switched here | stopped here | spawned here | attended here | released here =>
    rcases hr.place with place | ⟨place, -⟩ <;> (rw [here] at place; cases place)
  | @cleared engine request here =>
    obtain ⟨rfl, rfl⟩ : engine = cue.engine ∧ request = cue.request := by
      rcases hr.place with place | ⟨place, -⟩
      · simpa [here] using place
      · rw [here] at place
        cases place
    exact .ready ⟨Or.inr ⟨rfl, rfl⟩, hr.live, hr.history, hr.unheard.same rfl⟩
  | @opened engine request here =>
    obtain ⟨⟨rfl, rfl⟩, down⟩ : (engine = cue.engine ∧ request = cue.request) ∧ s.pipe.flag = false := by
      rcases hr.place with place | ⟨place, down⟩
      · rw [here] at place
        cases place
      · exact ⟨by simpa [here] using place, down⟩
    have rate : s.session.sampleRate = cue.engine.sampleRate := by
      obtain ⟨active, live, same⟩ := Option.map_eq_some_iff.mp hr.live
      simp [Session.sampleRate, live, same]
    refine .performing ⟨hr.live, ?_, ?_, Or.inl rfl, fun _ => rfl, ?_⟩
    · rw [← rate]
      exact Pipeline.beginUtterance_renders down quiet.producer hr.unheard
    · have speaker := quiet.speaker
      dsimp only
      rw [speaker, hr.history]
      exact .absent
    · dsimp only
      rw [quiet.watcher]
      trivial
  | raised => cases gentle
  | lowered => exact absurd rfl never
  | _ => cases nobody

namespace Performing

/-- Between an utterance and its outcome a task can go to any place where it does not work. -/
theorem goOn (hp : Performing limits cue buffers returned s) {control : Control} (idle : control.working = false) :
    Performing limits cue buffers returned { s with control } where
  live := hp.live
  renders := hp.renders
  voiced := hp.voiced
  place := Or.inr (Or.inr idle)
  unbegun works := by simp [idle] at works
  minded := hp.minded

theorem piped (hp : Performing limits cue buffers returned s) {pipe : Pipeline.State}
    (renders : pipe.Renders limits cue.engine.sampleRate cue.heard buffers.reverse)
    (unbegun : s.control.working = true → pipe.delivery = .idle) :
    Performing limits cue buffers returned { s with pipe } :=
  ⟨hp.live, renders, hp.voiced, hp.place, unbegun, hp.minded⟩

theorem tell (hp : Performing limits cue buffers returned s) {event : HostEvent} (other : event.ofDelivery = false) :
    Performing limits cue buffers returned { s with pipe := s.pipe.tell event } :=
  hp.piped (hp.renders.moved (.told other) rfl (Or.inr rfl)) hp.unbegun

end Performing

theorem moved_performing (h : Moved house limits s label t) (never : label ≠ .clear) (gentle : label.gentle = true)
    (he : Exclusive s) (busy : s.busy = true) (hp : Performing limits cue buffers returned s) :
    Proceeds limits cue (label.buffer?.toList ++ buffers) (label.returned?.toList ++ returned) t := by
  have ⟨live, renders, voiced, place, unbegun, minded⟩ := hp
  cases h with
  | @took task => exact .performing (hp.goOn (enter_idle task).1)
  | reported | released => exact .performing (hp.goOn rfl)
  | wentOn here alone =>
    rw [he.not_busy (by rw [here]; rfl) (by rw [alone]; rfl)] at busy
    cases busy
  | collected here done =>
    rw [done] at minded
    cases minded
  | unresolved here | resolved here | unswitched here | switched here | stopped here | cleared here | opened here =>
    rw [here] at place
    rcases place with place | place | place <;> cases place
  | spawned here =>
    have idle := unbegun (by rw [here]; rfl)
    rw [he.speaker_absent (by rw [here]; rfl) (by rw [here]; rfl)] at voiced
    rw [here] at place
    rcases place with place | place | place <;> cases place
    refine .performing ⟨live, renders, ?_, Or.inr (Or.inl rfl), fun _ => idle, minded⟩
    dsimp only
    generalize s.session.history = history at voiced ⊢
    cases voiced
    exact .spawned
  | attended here =>
    have idle := unbegun (by rw [here]; rfl)
    rw [here] at place
    rcases place with place | place | place <;> cases place
    exact .performing ⟨live, renders.begun idle, voiced, Or.inr (Or.inr rfl), nofun, rfl⟩
  | skipped here silent =>
    rw [here] at voiced
    refine .performing ⟨live, renders, ?_, place, unbegun, minded⟩
    dsimp only
    generalize s.session.history = history at voiced ⊢
    cases voiced
    exact .leaving (.silent silent)
  | began here uttered =>
    rw [here] at voiced
    refine .performing ⟨live, renders, ?_, place, unbegun, minded⟩
    dsimp only [State.record]
    generalize s.session.history = history at voiced ⊢
    cases voiced
    exact .speaking uttered
  | left here =>
    have idle := he.producer_idle (by simp [here])
    have speaks : s.pipe.route.isSome = true := by simp [he.routed, here, Speaker.running]
    rw [here] at voiced
    generalize hh : s.session.history = history at voiced
    cases voiced with
    | leaving ended =>
      -- The engine is out of its callback, so closing the channel takes nothing from what is on its way.
      have parted : Pipeline.Utterance.Moved limits { pipe := s.pipe, left := [] } .leave
          { pipe := { s.pipe.endUtterance with producer := .idle }, left := [] } :=
        .parted speaks (by simp [Pipeline.State.resting, idle]) (Or.inl rfl)
      have after := renders.moved parted rfl (Or.inl rfl)
      refine .performing ⟨live, ?_, .finished (hh ▸ ended), place, unbegun, minded⟩
      have same : { s.pipe.endUtterance with producer := .idle } = s.pipe.endUtterance := by
        simp only [Pipeline.State.endUtterance, idle]
      exact same ▸ after
  | @called engine buffer engineCancelled here rests =>
    obtain rfl : engineCancelled = false := by simpa [Label.gentle, Label.calm] using gentle
    have speaks : s.pipe.route.isSome = true := by simp [he.routed, here, Speaker.running]
    have after := renders.called speaks rests buffer
    refine .performing ⟨live, ?_, voiced, place, unbegun, minded⟩
    rw [← List.reverse_cons] at after
    exact after
  | @produced stopRequested pipe h =>
    obtain rfl : stopRequested = false := by simpa [Label.gentle, Label.calm] using gentle
    refine .performing (hp.piped (renders.moved (.produced h) rfl (Or.inr h.frame.2.2.1)) ?_)
    rw [h.frame.1]
    exact unbegun
  | @spoke engine success here rests =>
    rw [here] at voiced
    refine .performing ⟨live, renders.resumed rests rfl, ?_, place, unbegun, minded⟩
    dsimp only [State.record]
    generalize s.session.history = history at voiced ⊢
    cases voiced with
    | speaking uttered => exact .leaving (.spoken uttered)
  | crashed => cases gentle
  | @delivered verdict pipe h =>
    obtain rfl : verdict = .accepted := by simpa [Label.gentle] using gentle
    refine .performing (hp.piped (renders.moved (.delivered h) rfl (Or.inr h.frame.2)) ?_)
    intro works
    have runs := h.runs
    rw [he.delivery_idle works] at runs
    cases runs
  | counted here =>
    rw [here] at minded
    exact .performing ⟨live, renders, voiced, place, unbegun, minded⟩
  | forgone here crashed => exact absurd crashed renders.uncrashed
  | @concluded kind stats result here done =>
    rw [here] at minded
    obtain rfl : kind = cue.request.kind := minded
    rw [done] at voiced
    generalize hh : s.session.history = history at voiced
    cases voiced with
    | finished ended =>
      -- The loop has settled, so nothing is on its way any more.
      have delivered : s.pipe.delivery = .finished stats :=
        (he.counted _ _ here).resolve_right fun crashed => renders.uncrashed crashed.1
      obtain ⟨played, rfl⟩ := renders.finished delivered
      exact .performed ⟨live, played, result, hh ▸ ended, rfl⟩
  | raised => cases gentle
  | lowered => exact absurd rfl never

/-- Nothing stirs any more once the outcome is known. -/
theorem Performed.not_busy (he : Exclusive s) (hp : Performed limits cue buffers returned s) : s.busy = false := by
  obtain ⟨result, -, here⟩ := hp.concluded
  refine he.not_busy ?_ (by rw [here]; rfl)
  cases works : s.control.working
  · rfl
  · have absent := he.alone works
    rw [here] at absent
    cases absent

theorem moved_proceeds (h : Moved house limits s label t) (never : label ≠ .clear) (gentle : label.gentle = true)
    (he : Exclusive s) (busy : s.busy = true) (hp : Proceeds limits cue buffers returned s) :
    Proceeds limits cue (label.buffer?.toList ++ buffers) (label.returned?.toList ++ returned) t := by
  cases hp with
  | ready here => exact moved_ready h never gentle he here
  | performing here => exact moved_performing h never gentle he busy here
  | performed here =>
    rw [here.not_busy he] at busy
    cases busy

theorem Proceeds.tell {event : HostEvent} (other : event.ofDelivery = false) (he : Exclusive s) (busy : s.busy = true)
    (hp : Proceeds limits cue buffers returned s) :
    Proceeds limits cue buffers returned { s with pipe := s.pipe.tell event } := by
  cases hp with
  | ready here => exact .ready (here.rest rfl rfl rfl (here.unheard.tell other))
  | performing here => exact .performing (here.tell other)
  | performed here =>
    rw [here.not_busy he] at busy
    cases busy

/-- With an outcome, an utterance is over. -/
theorem Proceeds.performed_of_finished {outcome : Outcome} (he : Exclusive s)
    (hp : Proceeds limits cue buffers returned s) (there : s.watcher = .finished outcome) :
    Performed limits cue buffers returned s := by
  cases hp with
  | ready here =>
    have absent := he.alone here.working
    rw [there] at absent
    cases absent
  | performing here =>
    have minded := here.minded
    rw [there] at minded
    cases minded
  | performed here => exact here

/-! ### Before it -/

theorem moved_grows (h : Moved house limits s label t) : s.session.history <:+ t.session.history := by
  cases h with
  | @unresolved request fault session here result | @resolved request engine session here result =>
    obtain ⟨calls, steps⟩ := resolve_steps house request s.session
    rw [result] at steps
    exact ⟨calls, steps.history.symm⟩
  | @unswitched displayName fault session here result | @switched displayName session here result =>
    obtain ⟨calls, steps⟩ := Session.selectVoice_steps (fun _ => none) house displayName s.session
    rw [result] at steps
    exact ⟨calls, steps.history.symm⟩
  | stopped =>
    obtain ⟨calls, steps⟩ := Session.stop_steps (fun _ => none) s.session
    exact ⟨calls, steps.history.symm⟩
  | began | spoke => exact List.suffix_cons _ _
  | _ => exact List.suffix_refl _

/-- A request for a voice whose engine does not fail to start gets that engine with that voice. -/
theorem Choice.of_voice {session : Session} {entry : VoiceEntry} {calls : List Call} {found : Option Active}
    (choice : Choice house (some entry) session calls found) (starts : .failure entry.engineName ∉ calls) :
    ∃ active, found = some active ∧ active.engine.name = entry.engineName ∧ active.voice = some entry.native := by
  cases choice with
  | spared named live own sent =>
    cases named
    exact ⟨_, rfl, own, sent⟩
  | revoiced named live own =>
    cases named
    exact ⟨_, rfl, own, rfl⟩
  | started named other offer =>
    cases named
    exact ⟨_, rfl, (Session.launch_of_started (s := session.stop) offer).1, rfl⟩
  | kept unnamed => cases unnamed
  | searched dark =>
    cases dark with
    | unnamed unnamed => cases unnamed
    | failed named =>
      cases named
      exact absurd (by simp) starts

/-- It finds the engine as it asks for it, if the engine refuses nothing of that. -/
theorem ready_of_resolving {request : Request} {entry : VoiceEntry} (here : s.control = .resolving request)
    (hs : s.session.Sound) (named : request.voice? house = some entry) (h : control house s = some t)
    (willing : ∀ call ∈ s.session.history.since t.session.history,
      call ≠ .failure entry.engineName ∧ call.refused = false) :
    ∃ engine, Ready { request, engine, history := t.session.history, heard := s.pipe.heard } t ∧
      t.session.history.performances = s.session.history.performances ∧
      ∀ speech, request.performance entry speech = t.session.history.performance engine speech := by
  have resolved := resolve_resolved house request s.session
  obtain ⟨made, steps⟩ := resolve_steps house request s.session
  have sound := steps.sound hs
  simp only [control, here] at h
  rcases result : resolve house request s.session with ⟨answer, session⟩
  rw [result] at resolved sound
  cases resolved with
  | @found calls params active _ choice live history settings obeyed =>
    rw [named] at choice
    simp only [result] at h
    cases h
    -- Both what it took to get the engine and the parameters are among the calls that meet no resistance.
    have since : s.session.history.since session.history = calls ++ params.reverse := by
      rw [history, ← List.append_assoc, History.since_append, List.reverse_append, List.reverse_reverse]
    dsimp only at willing
    rw [since] at willing
    have starts : .failure entry.engineName ∉ calls := fun hm => (willing _ (List.mem_append_left _ hm)).1 rfl
    have heard {call : Call} (hm : call ∈ params) : call.refused = false :=
      (willing _ (List.mem_append_right _ (List.mem_reverse.mpr hm))).2
    obtain ⟨_, ⟨⟩, own, voice⟩ := choice.of_voice starts
    refine ⟨active.engine, ⟨Or.inl rfl, Session.engine?_of_live live, rfl, .refl _⟩, ?_, ?_⟩
    · dsimp only
      rw [history, ← List.append_assoc]
      refine performances_append ?_ _
      intro call hm engine speech
      rcases List.mem_append.mp hm with hm | hm
      · obtain ⟨dial, accepted, rfl⟩ := settings call hm
        exact Call.noConfusion
      · exact choice.silent (List.mem_reverse.mp hm) engine speech
    · intro speech
      have wishes (dial : Dial) :
          session.history.effective active.engine dial = some (request.prosody.wish dial).setting := by
        rw [sound.heeded active live dial, obeyed (fun _ => heard) dial]
        rfl
      simp only [Request.performance, History.performance, own, sound.voiced active live, voice, wishes]
  | @refused calls reason _ choice dark history =>
    rw [named] at choice
    simp only [result] at h
    cases h
    dsimp only at willing
    rw [history, History.since_append, List.reverse_reverse] at willing
    -- A refusal comes after a failed start of the engine of the voice.
    obtain ⟨_, ⟨⟩, -⟩ := choice.of_voice fun hm => (willing _ hm).1 rfl

theorem Ended.performances {result : Synthesis} {history : History} (h : Ended cue returned result history) :
    history.performances = (cue.request.speech?.map (cue.history.performance cue.engine)).toList ++
      cue.history.performances := by
  cases h with
  | silent nothing =>
    rw [nothing]
    rfl
  | spoken uttered =>
    rw [uttered]
    rfl

/-- What the engine returned, if it was called, decides how speaking ends. -/
theorem Ended.unique {cue₁ cue₂ : Cue} {result₁ result₂ : Synthesis} {history₁ history₂ : History}
    (h₁ : Ended cue₁ returned result₁ history₁) (h₂ : Ended cue₂ returned result₂ history₂) :
    result₁ = result₂ := by
  cases h₁ with
  | silent =>
    cases h₂
    rfl
  | spoken =>
    cases h₂
    rfl

end

end Dispatcher

end Orator
