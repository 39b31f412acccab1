import Orator.Rehearsal.Host
import Orator.Rehearsal.Script
import Orator.Service

/-! A service at work with scripted engines and a scripted host. The threads move in a fixed order: as long
    as one can move it does, the engine's before the delivery's, these before the watcher's and that before
    the task's. What was put off until later happens when nothing else can. -/

namespace Orator.Rehearsal

open Dispatcher (Task Answer)

/-- What an engine's thread does next, while it speaks. -/
inductive Move where
  | cue (cue : Cue)
  | hand (buffer : List Sample) (engineCancelled : Bool)
  /-- Take what the callback returned, or ignore it. -/
  | heed (ignoreAbort : Bool)
  | hold
  | finish (success : Bool)
deriving DecidableEq, Repr

/-- What is put off until nothing else can move. -/
inductive Later where
  | openHost
  | openEngine (name : String)
deriving DecidableEq, Repr

structure Scene where
  setup : Service.Setup
  scripts : List EngineScript
  service : Service.State := {}
  host : HostState := {}
  /-- What the engine that speaks still has to do. -/
  moves : List Move := []
  /-- The engines whose gates are open, and those that have come to their gate. -/
  opened : List String := []
  reached : List String := []
  later : List Later := []
  /-- What the callback returned, by engine, the latest first. -/
  returns : List (String × Bool) := []
  /-- How many calls to speak have not returned, and the most there have been. -/
  speaking : Nat := 0
  mostSpeaking : Nat := 0
  /-- A request was accepted that nothing has waited for since. -/
  underway : Bool := false
  shownCalls : Nat := 0

/-! ### The script of one utterance -/

def EngineScript.around (script : EngineScript) (utterance index : Nat) (buffer : List Sample) : List Move :=
  let hook := script.hook utterance index
  hook.before.map .cue ++ .hand buffer hook.engineCancelled :: hook.after.map .cue ++
    [.heed hook.ignoreAbort]

def EngineScript.performance (script : EngineScript) (utterance : Nat) : List Move :=
  let buffers := script.buffers.zipIdx.flatMap fun (buffer, index) =>
    script.around utterance index buffer ++ if index = 0 && script.hold then [.hold] else []
  buffers ++ script.around utterance script.buffers.length [] ++ [.finish !script.failSpeak]

/-- More steps than an utterance of this engine takes, with its delivery and all that goes on around it. -/
def EngineScript.work (script : EngineScript) : Nat :=
  let cues := script.hooks.foldl (fun n hook => n + hook.before.length + hook.after.length) 0
  script.buffers.foldl (fun n buffer => n + 2 * buffer.length + 32) (cues + 100)

namespace Scene

def dispatcher (s : Scene) : Dispatcher.State := s.service.dispatcher

def pipe (s : Scene) : Pipeline.State := s.service.dispatcher.pipe

def history (s : Scene) : History := s.service.dispatcher.session.history

/-! ### Single steps -/

def withDispatcher (s : Scene) (dispatcher : Dispatcher.State) : Scene :=
  { s with service := { s.service with dispatcher } }

def fire (label : Dispatcher.Label) (s : Scene) : Option Scene :=
  (Dispatcher.step s.setup.house s.setup.limits label s.dispatcher).map s.withDispatcher

def serve (label : Service.Label) (s : Scene) : Option Scene :=
  (Service.step s.setup label s.service).map fun service => { s with service }

def tell (event : HostEvent) (s : Scene) : Scene :=
  { s with service := s.service.tell event }

/-- Whether all packets sent so far have been dealt with. -/
def delivered (s : Scene) : Bool :=
  s.pipe.queue.isEmpty &&
    match s.pipe.delivery with
    | .idle | .receiving | .finished _ | .crashed => true
    | _ => false

/-- What a cue brings about; `none` while it waits. -/
def perform (s : Scene) : Cue → Option Scene
  | .sync => if s.delivered then some s else none
  | .cancel => s.fire .raise
  | .waitCancelled => if s.pipe.flag then some s else none
  | .stop => (s.fire .raise).map (·.tell .stop)
  | .pause => some (s.tell .pause)
  | .requestStop => some { s with host := { s.host with stopRequested := true } }
  | .waitParked => if s.host.reached then some s else none
  | .openHost => some { s with host := { s.host with opened := true } }
  | .openHostLater => some { s with later := s.later ++ [.openHost] }
  | .fail => (s.fire .crash).map fun s => { s with moves := [] }

/-- The engine's thread, while the callback is not running. -/
def play (engine : Engine) (s : Scene) : Option Scene :=
  match s.moves with
  | [] => none
  | .cue cue :: moves => perform { s with moves } cue
  | .hand buffer engineCancelled :: moves => fire (.call buffer engineCancelled) { s with moves }
  | .heed ignoreAbort :: moves =>
    match s.pipe.producer with
    | .returned abort =>
      let heeded := abort && !ignoreAbort
      let moves := if heeded then moves.drop (moves.length - 1) else moves
      some { s with moves, returns := (engine.name, heeded) :: s.returns }
    | _ => none
  | .hold :: moves =>
    if !s.reached.contains engine.name then some { s with reached := engine.name :: s.reached }
    else if s.opened.contains engine.name then some { s with moves }
    else none
  | .finish success :: moves =>
    (fire (.spoke success) { s with moves }).map fun s => { s with speaking := s.speaking - 1 }

def speak (s : Scene) : Option Scene :=
  match s.dispatcher.speaker with
  | .absent | .finished _ => none
  | .spawned engine request =>
    if request.speech?.isNone then s.fire .speak
    else
      let moves := ((script? s.scripts engine.name).map
        (·.performance (timesSpoken s.history engine.name))).getD []
      let speaking := s.speaking + 1
      fire .speak { s with moves, speaking, mostSpeaking := max s.mostSpeaking speaking }
  | .leaving _ => s.fire .speak
  | .speaking engine =>
    if s.pipe.resting then s.play engine else s.fire (.produce s.host.stopRequested)

def deliver (s : Scene) : Option Scene :=
  match s.pipe.delivery with
  | .pushing .. =>
    match s.host.verdict? with
    | none => if s.host.reached then none else some { s with host := s.host.receive }
    | some verdict => fire (.deliver verdict) { s with host := s.host.finish }
  | _ => s.fire (.deliver .accepted)

/-- The step of the first thread that can move. -/
def advance (s : Scene) : Option Scene :=
  s.speak <|> s.deliver <|> s.fire .watch <|> s.fire .control

/-- What was put off first happens now. -/
def catchUp (s : Scene) : Option Scene :=
  match s.later with
  | [] => none
  | .openHost :: later => some { s with later, host := { s.host with opened := true } }
  | .openEngine name :: later => some { s with later, opened := name :: s.opened }

/-! ### Running on -/

/-- Runs until nothing can move and `goal` holds; what was put off happens only for its sake. -/
def runFor (goal : Scene → Bool) : Nat → Scene → Scene
  | 0, s => s
  | fuel + 1, s =>
    match s.advance with
    | some s => runFor goal fuel s
    | none =>
      if goal s then s
      else
        match s.catchUp with
        | some s => runFor goal fuel s
        | none => s

/-- More steps than remain: those of the utterance in flight and of the next one. -/
def work (s : Scene) : Nat :=
  s.scripts.foldl (fun n script => n + 2 * script.work) (s.later.length + 100)

/-- Runs on for as long as something can move and for as long as it takes to reach `goal`. -/
def settle (goal : Scene → Bool) (s : Scene) : Scene :=
  s.runFor goal s.work

/-! ### Calls from outside -/

def answered (s : Scene) : Bool :=
  match s.dispatcher.control with
  | .answered _ => true
  | _ => false

/-- Sees the task that holds the dispatcher through to its answer. -/
def complete (s : Scene) : Option (Answer × Scene) :=
  let s := s.settle answered
  match s.dispatcher.control with
  | .answered answer =>
    (s.fire .release).map fun s =>
      let underway := match answer with
        | .accepted _ => true
        | .engine _ => s.underway
        | .selected | .outcome _ | .closed | .fault _ => false
      (answer, { s with underway })
  | _ => none

def dispatch (task : Task) (s : Scene) : Option (Answer × Scene) :=
  (s.fire (.take task)).bind complete

def call (task : Task) (s : Scene) : Option (Answer × Scene) :=
  ((s.serve (.call task)).bind (·.serve (.grant task))).bind complete

def close (s : Scene) : Option Scene :=
  ((s.serve .close).bind complete).bind fun (_, s) => s.serve .terminate

def init (s : Scene) : Except Fault String × Scene :=
  let (result, service) := Service.init s.setup s.host.script.initSucceeds s.service
  (result, { s with service })

/-! ### What can be seen -/

/-- The events and calls that have not been shown yet; none while an utterance may be running. -/
def unseen (s : Scene) : Option (List HostEvent × List Call) :=
  if s.underway then none
  else
    some (s.pipe.heard.reverse.filter HostEvent.visible,
      (s.history.take (s.history.length - s.shownCalls)).reverse)

/-- Counts all calls so far as shown and forgets the events, unless an utterance may be running. -/
def markShown (s : Scene) : Scene :=
  if s.underway then s
  else { s with service.dispatcher.pipe.heard := [], shownCalls := s.history.length }

def isIdle (s : Scene) : Bool :=
  s.dispatcher.phase == .idle

/-- Whether so many pushes were taken since events were last shown. -/
def hasPushed (count : Nat) (s : Scene) : Bool :=
  count ≤ s.pipe.heard.countP fun
    | .push _ verdict => verdict.taken
    | _ => false

def hasReached (name : String) (s : Scene) : Bool :=
  s.reached.contains name

end Scene

end Orator.Rehearsal
