import Orator.Config
import Orator.Dispatcher

/-! The service as the host sees it: loaded once, then called by any number of clients at a time, and
    closed in the end. Calls that need the dispatcher wait for it; stopping, pausing and cancelling do not.

    `step` interleaves the clients with the dispatcher's own threads. -/

namespace Orator.Service

open Dispatcher (Task Answer)

/-- What a loaded service works with and never changes. -/
structure Setup where
  config : Config
  house : House

def Setup.limits (setup : Setup) : Pipeline.Limits :=
  .ofSizes setup.config.audioChunkSize setup.config.frameChannelCapacity

inductive Stage where
  | serving
  /-- The last call has been made; no client is left. -/
  | closing
  | closed
deriving DecidableEq, Repr

structure State where
  dispatcher : Dispatcher.State := {}
  waiting : List Task := []
  /-- How many stop calls have raised the flag and are about to stop the host's queue. -/
  stopping : Nat := 0
  stage : Stage := .serving
deriving DecidableEq, Repr

namespace State

def tell (event : HostEvent) (s : State) : State :=
  { s with dispatcher := { s.dispatcher with pipe := s.dispatcher.pipe.tell event } }

def raise (s : State) : State :=
  { s with dispatcher := { s.dispatcher with pipe := { s.dispatcher.pipe with flag := true } } }

end State

/-! ### Coming up -/

/-- Checks the configuration and discovers the voices. The library's history is kept in any case. -/
def load (config : Config) (library : Library) (program : List String) (isDirectory : String → Bool) :
    Except Fault (Setup × State) × History :=
  match config.validate with
  | .error fault => (.error (.config fault), [])
  | .ok () =>
    match config.resolveLibraryDir program with
    | .error fault => (.error (.config fault), [])
    | .ok libDir =>
      match Catalog.discover library libDir (isDirectory libDir) [] with
      | (.error fault, history) => (.error fault, history)
      | (.ok catalog, history) =>
        let house := { library, libDir, catalog, preferred := config.preferredEngine : House }
        (.ok ({ config, house }, { dispatcher := { session := { history } } }), history)

/-- The line that tells the host that all is well. -/
def ready : String := "SpeechSwitch: Initialized successfully."

/-- Sets up the host's queue, which may fail, and reports the result. -/
def init (setup : Setup) (success : Bool) (s : State) : Except Fault String × State :=
  if setup.house.catalog.voices.isEmpty then
    (.error (.discovery "no usable engines" setup.house.libDir), s)
  else
    let s := s.tell (.init setup.config.audioQueueMaxSize)
    if success then (.ok ready, s) else (.error (.notReady "audio queue failed to initialize"), s)

/-! ### Steps -/

inductive Label where
  | init (success : Bool)
  | call (task : Task)
  /-- The dispatcher is free, and one of those who wait for it gets it. -/
  | grant (task : Task)
  /-- A thread of the dispatcher takes a step, or its task lets go. -/
  | inner (label : Dispatcher.Label)
  /-- A client calls to stop: the flag is raised, -/
  | stop
  /-- and then the host's queue is stopped. -/
  | silence
  | pause
  | cancel
  /-- The last client closes the service, -/
  | close
  /-- and when the engine is released, the host's queue is shut down. -/
  | terminate
deriving DecidableEq, Repr

/-- Whether clients can make the call. Closing is not one of them. -/
def callable : Task → Bool
  | .close => false
  | _ => true

/-- Whether the label belongs to the dispatcher's threads, and not to someone who holds its parts. -/
def internal : Dispatcher.Label → Bool
  | .take _ | .raise | .clear => false
  | _ => true

/-- A request is announced to the host before it waits for anything. -/
def announce : Task → State → State
  | .speak _, s => s.tell .beforeSynth
  | _, s => s

def step (setup : Setup) (label : Label) (s : State) : Option State :=
  match label with
  | .init success => if s.stage = .serving then some (init setup success s).2 else none
  | .call task =>
    if s.stage = .serving && callable task then
      some { announce task s with waiting := s.waiting ++ [task] }
    else none
  | .grant task =>
    if task ∈ s.waiting then
      (Dispatcher.step setup.house setup.limits (.take task) s.dispatcher).map fun dispatcher =>
        { s with dispatcher, waiting := s.waiting.erase task }
    else none
  | .inner label =>
    if internal label then
      (Dispatcher.step setup.house setup.limits label s.dispatcher).map fun dispatcher => { s with dispatcher }
    else none
  | .stop => if s.stage = .serving then some { s.raise with stopping := s.stopping + 1 } else none
  | .silence => if 0 < s.stopping then some { s.tell .stop with stopping := s.stopping - 1 } else none
  | .pause => if s.stage = .serving then some (s.tell .pause) else none
  | .cancel => if s.stage = .serving then some s.raise else none
  | .close =>
    if s.stage = .serving && s.waiting.isEmpty && s.stopping == 0 then
      (Dispatcher.step setup.house setup.limits (.take .close) s.dispatcher).map fun dispatcher =>
        { s with dispatcher, stage := .closing }
    else none
  | .terminate =>
    if s.stage = .closing && s.dispatcher.control == .free then
      some { s.tell .terminate with stage := .closed }
    else none

def run (setup : Setup) : List Label → State → Option State
  | [], s => some s
  | label :: labels, s => (step setup label s).bind (run setup labels)

end Orator.Service
