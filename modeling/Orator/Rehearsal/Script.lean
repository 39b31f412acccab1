import Orator.Audio.Frame
import Orator.Engine

/-! Engines and a host that follow a script, so that the service can be rehearsed without audio. -/

namespace Orator.Rehearsal

/-- What a scripted engine does on its own thread, besides handing over buffers. -/
inductive Cue where
  /-- Wait until all that was sent so far has been dealt with. -/
  | sync
  | cancel
  | waitCancelled
  | stop
  | pause
  /-- From now on the host wants playback to stop. -/
  | requestStop
  /-- Wait until the host holds a push back. -/
  | waitParked
  | openHost
  /-- The same a little later, from another thread. -/
  | openHostLater
  | fail
deriving DecidableEq, Repr

/-- What surrounds one buffer. The empty buffer that ends an utterance counts as one. -/
structure Hook where
  buffer : Nat
  /-- Applies to every utterance if none is given. -/
  utterance : Option Nat := none
  before : List Cue := []
  after : List Cue := []
  engineCancelled : Bool := false
  /-- The engine goes on whatever the callback wishes. -/
  ignoreAbort : Bool := false
deriving DecidableEq, Repr

/-- How many of the first settings of each kind are refused. -/
structure Refusals where
  speed : Nat := 0
  pitch : Nat := 0
  punctuation : Nat := 0
  voice : Nat := 0
deriving DecidableEq, Repr

structure EngineScript where
  name : String
  voices : List String := []
  sampleRate : UInt32 := 22050
  buffers : List (List Sample) := [List.replicate 64 100, List.replicate 64 (-100), List.replicate 32 7]
  failStart : Bool := false
  /-- The starts, counted from zero, that fail in a way of their own. -/
  startFaults : List (Nat × EngineFault) := []
  failSpeak : Bool := false
  /-- Speed, pitch and punctuation are always refused. -/
  refuseParams : Bool := false
  refusals : Refusals := {}
  /-- After the first buffer the engine waits for its gate. -/
  hold : Bool := false
  hooks : List Hook := []
deriving DecidableEq, Repr

def EngineScript.hook (script : EngineScript) (utterance buffer : Nat) : Hook :=
  (script.hooks.find? fun hook =>
    hook.buffer == buffer && hook.utterance.all (· == utterance)).getD { buffer }

/-! ### The library of scripted engines -/

/-- The kinds of setting that are counted on their own. -/
def sameKind : Setting → Setting → Bool
  | .voice _, .voice _ | .speed _, .speed _ | .pitch _, .pitch _ | .punctuation _, .punctuation _ => true
  | _, _ => false

/-- How often an engine of that name was told to change a setting of that kind. -/
def timesSet (h : History) (name : String) (setting : Setting) : Nat :=
  h.countP fun
    | .set engine other _ => engine.name == name && sameKind setting other
    | _ => false

def timesStarted (h : History) (name : String) : Nat :=
  h.countP fun
    | .start other _ _ => other == name
    | _ => false

def timesSpoken (h : History) (name : String) : Nat :=
  h.countP fun
    | .speak engine _ => engine.name == name
    | _ => false

def Refusals.of (r : Refusals) : Setting → Nat
  | .voice _ => r.voice
  | .speed _ => r.speed
  | .pitch _ => r.pitch
  | .punctuation _ => r.punctuation

def EngineScript.accepts (script : EngineScript) (h : History) (setting : Setting) : Bool :=
  script.refusals.of setting ≤ timesSet h script.name setting &&
    match setting with
    | .voice _ => true
    | _ => !script.refuseParams

def script? (scripts : List EngineScript) (name : String) : Option EngineScript :=
  scripts.find? (·.name == name)

def library (scripts : List EngineScript) : Library where
  engines _ _ := scripts.map (·.name)
  start h libDir name _ :=
    match script? scripts name with
    | none => .error (.notFound name libDir)
    | some script =>
      match script.startFaults.lookup (timesStarted h name) with
      | some fault => .error fault
      | none => if script.failStart then .error (.refused name "scripted failure") else .ok script.sampleRate
  voices _ engine := ((script? scripts engine.name).map (·.voices)).getD []
  accepts h engine setting := ((script? scripts engine.name).map (·.accepts h setting)).getD true

end Orator.Rehearsal
