import Orator.Audio.Pipeline
import Orator.Request
import Orator.Session

/-! One utterance at a time. A task that holds the dispatcher first waits for the utterance in flight; a
    request then settles on an engine, opens the pipeline, and sets three workers going: one speaks, one
    delivers, one watches both and says how it ended.

    `step` moves one of these threads by at most one thing that another can see. -/

namespace Orator.Dispatcher

open Pipeline (Limits Stats)

inductive Failure where
  | engineReported
  | crash
deriving DecidableEq, Repr

def Failure.message : Failure → String
  | engineReported => "engine reported failure"
  | crash => "<crash>"

inductive Outcome where
  | completed (stats : Stats)
  | cancelled (stats : Stats)
  | failed (failure : Failure)
  /-- Nothing is spoken for requests of this kind. -/
  | skipped (kind : MessageKind)
deriving DecidableEq, Repr

/-- How speaking ended, from the engine's side. -/
inductive Synthesis where
  | spoke (success : Bool)
  | skipped
  | crashed
deriving DecidableEq, Repr

/-- The outcome of an utterance, from what was delivered and from how speaking ended. -/
def Outcome.of (kind : MessageKind) (stats : Stats) : Synthesis → Outcome
  | .skipped => .skipped kind
  | .crashed => .failed .crash
  | .spoke success =>
    if stats.aborted then .cancelled stats
    else if success then .completed stats
    else .failed .engineReported

/-! ### Where the threads stand -/

inductive Speaker where
  | absent
  /-- About to call the engine, if there is anything to utter. -/
  | spawned (engine : Engine) (request : Request)
  /-- Inside the engine, which may call back. -/
  | speaking (engine : Engine)
  /-- Back from the engine; about to close the channel. -/
  | leaving (result : Synthesis)
  | finished (result : Synthesis)
deriving DecidableEq, Repr

inductive Watcher where
  | absent
  | awaitingDelivery (kind : MessageKind)
  | awaitingSpeaker (kind : MessageKind) (stats : Stats)
  | finished (outcome : Outcome)
deriving DecidableEq, Repr

/-- What a task wants of the dispatcher. -/
inductive Task where
  | speak (request : Request)
  | selectVoice (displayName : String)
  | wait
  | close
  | currentEngine
deriving DecidableEq, Repr

/-- What a task gets. -/
inductive Answer where
  /-- A request of that many bytes will be spoken. -/
  | accepted (bytes : Nat)
  | selected
  | outcome (outcome : Option Outcome)
  | closed
  | engine (name : Option String)
  | fault (fault : Fault)
deriving DecidableEq, Repr

/-- Where the task that holds the dispatcher stands. -/
inductive Control where
  | free
  /-- About to look which engine is live. -/
  | reporting
  | waiting (task : Task)
  /-- About to settle on an engine and to pass on the parameters. -/
  | resolving (request : Request)
  | switching (displayName : String)
  | releasing
  /-- The engine is chosen; about to lower the flag, -/
  | clearing (engine : Engine) (request : Request)
  /-- to open the channel, -/
  | opening (engine : Engine) (request : Request)
  /-- to set the speaker going, -/
  | spawning (engine : Engine) (request : Request)
  /-- and then the delivery with the watcher. -/
  | attending (request : Request)
  | answered (answer : Answer)
deriving DecidableEq, Repr

inductive Phase where
  | idle | voiceResolving | synthesizing
deriving DecidableEq, Repr

structure State where
  pipe : Pipeline.State := {}
  session : Session := {}
  speaker : Speaker := .absent
  watcher : Watcher := .absent
  control : Control := .free
  lastOutcome : Option Outcome := none
deriving DecidableEq, Repr

namespace State

def phase (s : State) : Phase :=
  match s.control with
  | .resolving _ | .switching _ => .voiceResolving
  | _ =>
    match s.watcher with
    | .absent | .finished _ => .idle
    | .awaitingDelivery _ | .awaitingSpeaker .. => .synthesizing

def record (call : Call) (s : State) : State :=
  { s with session := { s.session with history := call :: s.session.history } }

end State

/-! ### The task -/

/-- Settles on the engine for a request: the one of its voice if that can be had, else the live one, else
    the first that starts. The parameters are passed on to it. -/
def resolve (house : House) (request : Request) (s : Session) : Except Fault Engine × Session :=
  let s := match request.prosody.voice with
    | some voice => (s.selectVoice house voice).2
    | none => s
  match s.selectDefault house with
  | (.error fault, s) => (.error (.notReady fault.message), s)
  | (.ok (), s) =>
    let s := s.applyParams house request.prosody
    match s.active with
    | some active => (.ok active.engine, s)
    | none => (.error (.notReady "no engine set"), s)

/-- Where a task begins. All but one wait for the utterance in flight. -/
def Task.enter : Task → Control
  | currentEngine => .reporting
  | task => .waiting task

/-- Where a task goes on once nothing is in flight any more. -/
def Task.proceed (outcome : Option Outcome) : Task → Control
  | speak request => .resolving request
  | selectVoice displayName => .switching displayName
  | wait => .answered (.outcome outcome)
  | close => .releasing
  | currentEngine => .reporting

/-- The next step of the task that holds the dispatcher; `none` if there is none, or it waits. -/
def control (house : House) (s : State) : Option State :=
  match s.control with
  | .free | .answered _ => none
  | .reporting => some { s with control := .answered (.engine s.session.engineName) }
  | .waiting task =>
    match s.watcher with
    | .absent => some { s with control := task.proceed none }
    | .finished outcome =>
      some { s with
        watcher := .absent
        lastOutcome := some outcome
        control := task.proceed (some outcome) }
    | .awaitingDelivery _ | .awaitingSpeaker .. => none
  | .resolving request =>
    match resolve house request s.session with
    | (.error fault, session) => some { s with session, control := .answered (.fault fault) }
    | (.ok engine, session) => some { s with session, control := .clearing engine request }
  | .switching displayName =>
    match s.session.selectVoice house displayName with
    | (.error fault, session) => some { s with session, control := .answered (.fault fault) }
    | (.ok (), session) => some { s with session, control := .answered .selected }
  | .releasing => some { s with session := s.session.stop, control := .answered .closed }
  | .clearing engine request =>
    some { s with pipe := { s.pipe with flag := false }, control := .opening engine request }
  | .opening engine request =>
    some { s with
      pipe := s.pipe.beginUtterance s.session.sampleRate
      control := .spawning engine request }
  | .spawning engine request =>
    some { s with speaker := .spawned engine request, control := .attending request }
  | .attending request =>
    some { s with
      pipe := s.pipe.startDelivery
      watcher := .awaitingDelivery request.kind
      control := .answered (.accepted request.payload.length) }

/-! ### The workers -/

/-- The next step of the speaker outside the engine. -/
def speak (s : State) : Option State :=
  match s.speaker with
  | .spawned engine request =>
    match request.speech? with
    | none => some { s with speaker := .leaving .skipped }
    | some speech => some { s.record (.speak engine speech) with speaker := .speaking engine }
  | .leaving result => some { s with pipe := s.pipe.endUtterance, speaker := .finished result }
  | .absent | .speaking _ | .finished _ => none

/-- The engine returns from its call to speak. It is in no callback then. -/
def spoke (success : Bool) (s : State) : Option State :=
  match s.speaker with
  | .speaking engine =>
    if s.pipe.resting then
      some { s.record (.spoke engine success) with
        pipe := { s.pipe with producer := .idle }
        speaker := .leaving (.spoke success) }
    else none
  | _ => none

/-- The engine crashes outside the callback; the call to speak does not return. -/
def crash (s : State) : Option State :=
  match s.speaker with
  | .speaking _ =>
    if s.pipe.resting then
      some { s with pipe := { s.pipe with producer := .idle }, speaker := .leaving .crashed }
    else none
  | _ => none

/-- The next step of the watcher: first it waits for the delivery, then for the speaker. A delivery that
    crashed has delivered nothing that counts. -/
def watch (s : State) : Option State :=
  match s.watcher with
  | .awaitingDelivery kind =>
    match s.pipe.delivery with
    | .finished stats => some { s with watcher := .awaitingSpeaker kind stats }
    | .crashed => some { s with watcher := .awaitingSpeaker kind {} }
    | _ => none
  | .awaitingSpeaker kind stats =>
    match s.speaker with
    | .finished result => some { s with speaker := .absent, watcher := .finished (.of kind stats result) }
    | _ => none
  | .absent | .finished _ => none

/-! ### Steps -/

inductive Label where
  | take (task : Task)
  | control
  | release
  | speak
  | call (buffer : List Sample) (engineCancelled : Bool)
  /-- The callback takes a step; should it ask, this is whether the host wants playback to stop. -/
  | produce (stopRequested : Bool)
  | spoke (success : Bool)
  | crash
  /-- The delivery loop takes a step; should it push, this is the host's verdict. -/
  | deliver (verdict : Verdict)
  | watch
  | raise
  | clear
deriving DecidableEq, Repr

def State.withPipe (s : State) (pipe : Option Pipeline.State) : Option State :=
  pipe.map fun pipe => { s with pipe }

def step (house : House) (limits : Limits) : Label → State → Option State
  | .take task, s =>
    match s.control with
    | .free => some { s with control := task.enter }
    | _ => none
  | .control, s => control house s
  | .release, s =>
    match s.control with
    | .answered _ => some { s with control := .free }
    | _ => none
  | .speak, s => speak s
  | .call buffer engineCancelled, s =>
    match s.speaker with
    | .speaking _ => s.withPipe (Pipeline.step limits (.call buffer engineCancelled) s.pipe)
    | _ => none
  | .produce stopRequested, s => s.withPipe (Pipeline.step limits (.produce stopRequested) s.pipe)
  | .spoke success, s => spoke success s
  | .crash, s => crash s
  | .deliver verdict, s => s.withPipe (Pipeline.step limits (.deliver verdict) s.pipe)
  | .watch, s => watch s
  | .raise, s => s.withPipe (Pipeline.step limits .raise s.pipe)
  | .clear, s => s.withPipe (Pipeline.step limits .clear s.pipe)

def run (house : House) (limits : Limits) : List Label → State → Option State
  | [], s => some s
  | label :: labels, s => (step house limits label s).bind (run house limits labels)

end Orator.Dispatcher
