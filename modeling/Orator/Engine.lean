import Orator.Fault
import Orator.Prosody

/-! Synthesis engines and the library that starts them. Neither is part of this program: a library is
    whatever answers the questions put to it, and its answers may depend on all it was asked before. -/

namespace Orator

/-- A started engine. Its number tells it from the other instances of the same engine. -/
structure Engine where
  number : Nat
  name : String
  sampleRate : UInt32
deriving DecidableEq, Repr

/-- What an engine can be told to change; it may refuse. -/
inductive Setting where
  | voice (native : String)
  | speed (factor : Float32)
  | pitch (factor : Float32)
  | punctuation (level : PunctuationLevel)
deriving DecidableEq, Repr

/-- What an engine is given to utter. Single characters have an entry point of their own. -/
inductive Speech where
  | prose (text : String)
  | character (text : String)
deriving DecidableEq, Repr

/-- One call to the library or to an engine, with its answer unless that is a list. -/
inductive Call where
  /-- Which engines there are in a directory. -/
  | listEngines (libDir : String)
  /-- With a callback for audio or, to look at its voices only, without. -/
  | start (name : String) (withCallback : Bool) (started : Option Engine)
  | listVoices (engine : Engine)
  | set (engine : Engine) (setting : Setting) (accepted : Bool)
  | speak (engine : Engine) (speech : Speech)
  /-- The call to speak has returned. -/
  | spoke (engine : Engine) (success : Bool)
  | stop (engine : Engine)
deriving DecidableEq, Repr

/-- All calls made so far, the latest first. -/
abbrev History := List Call

/-- How the engine library answers, given the calls before. A start answers with the sample rate. -/
structure Library where
  engines : History → String → List String
  start : History → (libDir name : String) → (withCallback : Bool) → Except EngineFault UInt32
  voices : History → Engine → List String
  accepts : History → Engine → Setting → Bool

def History.started (h : History) : Nat :=
  h.countP fun
    | .start _ _ (some _) => true
    | _ => false

namespace Library

def survey (lib : Library) (libDir : String) (h : History) : List String × History :=
  (lib.engines h libDir, .listEngines libDir :: h)

def launch (lib : Library) (libDir name : String) (withCallback : Bool) (h : History) :
    Except EngineFault Engine × History :=
  match lib.start h libDir name withCallback with
  | .ok sampleRate =>
    let engine := { number := h.started, name, sampleRate : Engine }
    (.ok engine, .start name withCallback (some engine) :: h)
  | .error fault => (.error fault, .start name withCallback none :: h)

/-- Tells an engine to change a setting, and whether it did. -/
def apply (lib : Library) (engine : Engine) (setting : Setting) (h : History) : Bool × History :=
  let accepted := lib.accepts h engine setting
  (accepted, .set engine setting accepted :: h)

def ask (lib : Library) (engine : Engine) (h : History) : List String × History :=
  (lib.voices h engine, .listVoices engine :: h)

end Library

end Orator
