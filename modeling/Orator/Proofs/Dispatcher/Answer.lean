import Orator.Proofs.Dispatcher.Staffed
import Orator.Proofs.Dispatcher.Underway

/-! What a task gets that wants something spoken: first it waits for the utterance in flight; then it gets the
    engine that the rule gives it, and that engine alone speaks for it, or it is refused, and all is as before but
    for the engines that were tried. -/

namespace Orator

namespace Dispatcher

open Pipeline (Limits)

/-! ### The rule leaves no choice -/

section
variable {house : House} {voice? : Option VoiceEntry} {s : Session}

theorem Search.unique {names : List String} {h : History} {calls₁ calls₂ : List Call}
    {found₁ found₂ : Option Engine}
    (h₁ : Search house names h calls₁ found₁) (h₂ : Search house names h calls₂ found₂) :
    calls₁ = calls₂ ∧ found₁ = found₂ := by
  induction h₁ generalizing calls₂ found₂ with
  | exhausted =>
    cases h₂
    exact ⟨rfl, rfl⟩
  | failed fails rest ih =>
    cases h₂ with
    | failed _ rest₂ =>
      obtain ⟨rfl, rfl⟩ := ih rest₂
      exact ⟨rfl, rfl⟩
    | started starts =>
      rw [fails] at starts
      cases starts
  | started starts =>
    cases h₂ with
    | failed fails =>
      rw [fails] at starts
      cases starts
    | started starts₂ =>
      rw [starts] at starts₂
      cases starts₂
      exact ⟨rfl, rfl⟩

theorem Darkened.unique {before₁ before₂ : List Call} (h₁ : Darkened house voice? s before₁)
    (h₂ : Darkened house voice? s before₂) : before₁ = before₂ := by
  cases h₁ with
  | unnamed unnamed =>
    cases h₂ with
    | unnamed => rfl
    | failed named =>
      rw [unnamed] at named
      cases named
  | failed named =>
    cases h₂ with
    | unnamed unnamed =>
      rw [unnamed] at named
      cases named
    | failed named₂ =>
      rw [named] at named₂
      cases named₂
      rfl

theorem Search.silent {names : List String} {h : History} {calls : List Call} {found : Option Engine}
    (hs : Search house names h calls found) {call : Call} (hm : call ∈ calls) (engine : Engine) (speech : Speech) :
    call ≠ .speak engine speech := by
  induction hs with
  | exhausted => cases hm
  | failed fails rest ih =>
    rcases List.mem_cons.mp hm with rfl | hm
    · exact nofun
    · exact ih hm
  | started =>
    obtain rfl := List.mem_singleton.mp hm
    exact nofun

/-- To look for an engine nothing has to be spoken. -/
theorem Choice.silent {calls : List Call} {found : Option Active} (hc : Choice house voice? s calls found)
    {call : Call} (hm : call ∈ calls) (engine : Engine) (speech : Speech) : call ≠ .speak engine speech := by
  have stops {rest : List Call} (hm : call ∈ s.stops ++ rest) :
      (∃ engine, call = .stop engine) ∨ call ∈ rest := by
    rcases List.mem_append.mp hm with hm | hm
    · obtain ⟨active, -, rfl⟩ := List.mem_map.mp hm
      exact Or.inl ⟨_, rfl⟩
    · exact Or.inr hm
  cases hc with
  | spared | kept => cases hm
  | revoiced =>
    obtain rfl := List.mem_singleton.mp hm
    exact nofun
  | started =>
    rcases stops hm with ⟨_, rfl⟩ | hm
    · exact nofun
    · rcases List.mem_cons.mp hm with rfl | hm
      · exact nofun
      · obtain rfl := List.mem_singleton.mp hm
        exact nofun
  | searched dark search =>
    rcases List.mem_append.mp hm with hm | hm
    · cases dark with
      | unnamed => cases hm
      | failed =>
        rcases stops hm with ⟨_, rfl⟩ | hm
        · exact nofun
        · obtain rfl := List.mem_singleton.mp hm
          exact nofun
    · exact search.silent hm engine speech

end

/-! ### The outcome of the utterance before -/

def outcome? : Label → State → Option Outcome
  | .watch, s =>
    match s.watcher, s.speaker with
    | .awaitingSpeaker kind stats, .finished result => some (.of kind stats result)
    | _, _ => none
  | _, _ => none

/-- The last outcome that the watcher has reported, whether or not a task has asked for it since. -/
def State.latest (s : State) : Option Outcome :=
  match s.watcher with
  | .finished outcome => some outcome
  | _ => s.lastOutcome

/-! ### With nothing in flight -/

structure State.Quiet (s : State) : Prop where
  speaker : s.speaker = .absent
  watcher : s.watcher = .absent
  delivery : s.pipe.delivery.running = false
  producer : s.pipe.producer = .idle

/-- Whether one of the three workers, or the engine, takes the step. -/
def Label.ofWorker : Label → Bool
  | .speak | .call .. | .produce _ | .spoke _ | .crash | .deliver _ | .watch => true
  | _ => false

/-- No task holds the dispatcher, or it has its answer. -/
def Control.done : Control → Bool
  | .free | .answered _ => true
  | _ => false

/-- Whether a task is past its wait, or an utterance is in flight. -/
def State.busy (s : State) : Bool :=
  s.control.working || s.underway

/-- The state after a schedule all of whose steps are taken while one task, or its utterance, keeps the threads
    busy. -/
def runBusy (house : House) (limits : Limits) : List Label → State → Option State
  | [], s => some s
  | label :: labels, s => if s.busy then (step house limits label s).bind (runBusy house limits labels) else none

/-- The places through which a request comes to be accepted, once its engine is chosen. -/
def Control.path (engine : Engine) (request : Request) : List Control :=
  [.clearing engine request, .opening engine request, .spawning engine request, .attending request,
    .answered (.accepted request.payload.length)]

/-- Whether the engine is called to speak what the request says, or comes back from it. -/
def Call.utters (engine : Engine) (request : Request) (call : Call) : Prop :=
  (∃ speech, request.speech? = some speech ∧ call = .speak engine speech) ∨
    ∃ success, call = .spoke engine success

/-- Since the request went on with this engine, no engine was called for anything but to speak this request. -/
structure Pursued (engine : Engine) (request : Request) (before : History) (s : State) : Prop where
  place : s.control ∈ Control.path engine request ∨ s.control.working = false
  spawned : ∀ other said, s.speaker = .spawned other said → other = engine ∧ said = request
  speaking : ∀ other, s.speaker = .speaking other → other = engine
  calls : ∃ since, s.session.history = since ++ before ∧ ∀ call ∈ since, Call.utters engine request call

section
variable {house : House} {limits : Limits} {s t : State} {label : Label} {labels : List Label}

theorem run_keeps {P : State → Prop}
    (keeps : ∀ label ∈ labels, ∀ {s t}, Moved house limits s label t → P s → P t)
    (h : run house limits labels s = some t) (hs : P s) : P t := by
  induction labels generalizing s with
  | nil =>
    cases h
    exact hs
  | cons label labels ih =>
    obtain ⟨u, hu, h⟩ := Option.bind_eq_some_iff.mp h
    exact ih (fun l hl => keeps l (List.mem_cons_of_mem _ hl)) h (keeps label List.mem_cons_self (step_inv hu) hs)

theorem runBusy_keeps {P : State → Prop}
    (keeps : ∀ {label s t}, Moved house limits s label t → s.busy = true → P s → P t)
    (h : runBusy house limits labels s = some t) (hs : P s) : P t := by
  induction labels generalizing s with
  | nil =>
    cases h
    exact hs
  | cons label labels ih =>
    unfold runBusy at h
    split at h
    · obtain ⟨u, hu, h⟩ := Option.bind_eq_some_iff.mp h
      exact ih h (keeps (step_inv hu) ‹_› hs)
    · cases h

theorem Exclusive.quiet (he : Exclusive s) (here : s.control.working = true) (there : s.control.attends = false) :
    s.Quiet where
  speaker := he.speaker_absent here there
  watcher := he.alone here
  delivery := he.delivery_idle here
  producer := he.producer_idle (by simp [he.speaker_absent here there])

theorem State.Quiet.nobody (hq : s.Quiet) (h : Moved house limits s label t) : label.ofWorker = false := by
  obtain ⟨speaker, watcher, delivery, producer⟩ := hq
  cases h with
  | skipped here | began here | left here | called here | spoke here | crashed here =>
    rw [speaker] at here
    cases here
  | produced h => exact absurd producer h.runs
  | delivered h =>
    have runs := h.runs
    rw [delivery] at runs
    cases runs
  | counted here | forgone here | concluded here =>
    rw [watcher] at here
    cases here
  | _ => rfl

/-- With nothing to wait for, a task that waits is all there is. -/
theorem Exclusive.not_busy (he : Exclusive s) (idle : s.control.working = false) (free : s.watcher.awaiting = false) :
    s.busy = false := by
  have opens : s.control.opens = false ∧ s.control.spawns = false ∧ s.control.attends = false := by
    cases here : s.control <;> first | exact ⟨rfl, rfl, rfl⟩ | (rw [here] at idle; cases idle)
  have speaker : s.speaker = .absent := by
    rcases he.minded with h | h | h
    · exact h
    · simp [opens.2.2] at h
    · simp [free] at h
  have delivery : s.pipe.delivery.running = false := by
    cases h : s.pipe.delivery.running
    · rfl
    · obtain ⟨kind, hw⟩ := he.watched h
      rw [hw] at free
      cases free
  simp [State.busy, State.underway, idle, free, opens, speaker, delivery, Speaker.running]

theorem Pursued.rest {engine : Engine} {request : Request} {before : History} (hs : Pursued engine request before s)
    (place : t.control ∈ Control.path engine request ∨ t.control.working = false)
    (spawned : ∀ other said, t.speaker = .spawned other said → other = engine ∧ said = request)
    (speaking : ∀ other, t.speaker = .speaking other → other = engine) (session : t.session = s.session) :
    Pursued engine request before t :=
  ⟨place, spawned, speaking, session ▸ hs.calls⟩

theorem moved_pursued {engine : Engine} {request : Request} {before : History} (h : Moved house limits s label t)
    (he : Exclusive s) (busy : s.busy = true) (hs : Pursued engine request before s) :
    Pursued engine request before t := by
  have ⟨place, spawned, speaking, since, history, calls⟩ := hs
  -- A task that is past its wait is on its path; it goes nowhere else.
  have onPath (works : s.control.working = true) : s.control ∈ Control.path engine request :=
    place.resolve_right (by simp [works])
  cases h with
  | @took task => exact hs.rest (Or.inr (enter_idle task).1) spawned speaking rfl
  | reported | released => exact hs.rest (Or.inr rfl) spawned speaking rfl
  | wentOn here alone =>
    rw [he.not_busy (by rw [here]; rfl) (by rw [alone]; rfl)] at busy
    cases busy
  | collected here done =>
    rw [he.not_busy (by rw [here]; rfl) (by rw [done]; rfl)] at busy
    cases busy
  | unresolved here | resolved here | unswitched here | switched here | stopped here =>
    have there := onPath (by rw [here]; rfl)
    rw [here] at there
    simp [Control.path] at there
  | cleared here | opened here | attended here =>
    have there := onPath (by rw [here]; rfl)
    rw [here] at there
    refine hs.rest (Or.inl ?_) spawned speaking rfl
    simp_all [Control.path]
  | @spawned other said here =>
    have there := onPath (by rw [here]; rfl)
    obtain ⟨rfl, rfl⟩ : other = engine ∧ said = request := by simpa [here, Control.path] using there
    refine hs.rest (Or.inl (by simp [Control.path])) ?_ (by simp) rfl
    rintro _ _ ⟨⟩
    exact ⟨rfl, rfl⟩
  | skipped | left | crashed | concluded => exact hs.rest place (by simp) (by simp) rfl
  | @began other said speech here uttered =>
    obtain ⟨rfl, rfl⟩ := spawned _ _ here
    refine ⟨place, by simp, ?_, .speak other speech :: since, congrArg (List.cons _) history, ?_⟩
    · rintro _ ⟨⟩
      rfl
    · intro call hm
      rcases List.mem_cons.mp hm with rfl | hm
      · exact Or.inl ⟨speech, uttered, rfl⟩
      · exact calls call hm
  | @spoke other success here rests =>
    obtain rfl := speaking _ here
    refine ⟨place, by simp, by simp, .spoke other success :: since, congrArg (List.cons _) history, ?_⟩
    intro call hm
    rcases List.mem_cons.mp hm with rfl | hm
    · exact Or.inr ⟨success, rfl⟩
    · exact calls call hm
  | _ => exact hs.rest place spawned speaking rfl

/-- What a request comes to when its turn has come. Either way nothing but the session changes. -/
inductive Settled (house : House) (request : Request) (s : State) : State → Prop where
  /-- It goes on with the engine of the rule, which has been sent no voice after the one of the rule. -/
  | accepted {calls params active session}
    (choice : Choice house (request.voice? house) s.session calls (some active))
    (live : session.active = some active) (history : session.history = params ++ (calls.reverse ++ s.session.history))
    (settings : ∀ call ∈ params, ∃ dial accepted,
      call = .set active.engine (request.prosody.wish dial).setting accepted)
    (voice : session.history.lastVoice active.engine = active.voice) :
    Settled house request s { s with session, control := .clearing active.engine request }
  /-- It is refused; nothing is live, and nothing has been spoken. -/
  | refused {calls session} (reason : String) (choice : Choice house (request.voice? house) s.session calls none)
    (dark : session.live = false) (history : session.history = calls.reverse ++ s.session.history)
    (silent : ∀ call ∈ calls, ∀ engine speech, call ≠ .speak engine speech) :
    Settled house request s { s with session, control := .answered (.fault (.notReady reason)) }

theorem settles (house : House) {request : Request} (here : s.control = .resolving request) (sound : s.session.Sound) :
    ∃ t, control house s = some t ∧ Settled house request s t := by
  have resolved := resolve_resolved house request s.session
  obtain ⟨calls, steps⟩ := resolve_steps house request s.session
  have after := steps.sound sound
  rcases result : resolve house request s.session with ⟨answer, session⟩
  rw [result] at resolved after
  cases resolved with
  | found choice live history settings =>
    refine ⟨_, ?_, .accepted choice live history settings (after.voiced _ live)⟩
    simp only [control, here, result]
  | @refused _ reason _ choice dark history =>
    refine ⟨_, ?_, .refused reason choice ?_ history fun call hm => choice.silent hm⟩
    · simp only [control, here, result]
    · rw [Session.live, dark]
      rfl

end

/-- Two engines, of which one never starts; and a request for its voice. -/
def halfHouse : House where
  library := loneLibrary ["flite", "espeak"] "espeak" 22050
  libDir := "/lib"
  catalog := ⟨["flite", "espeak"], [{ displayName := "flite Alan", language := "en", variant := "null" }]⟩
  preferred := "flite"

def alan : Request := { payload := [104], prosody := { voice := some "flite Alan" } }

end Dispatcher

end Orator
