import Orator.Prosody.Multiplier
import Orator.Voice.Discovery

/-! At most one engine is live at a time. A session starts and stops it, gives it a voice, and passes on
    the parameters that differ from what it last accepted. -/

namespace Orator

/-- What a session works with and never changes. -/
structure House where
  library : Library
  libDir : String
  catalog : Catalog
  preferred : String

/-- The engines to try when no voice decides: the preferred one if it was found, then all others. -/
def House.candidates (house : House) : List String :=
  (house.catalog.engines.find? (· == house.preferred)).toList ++
    house.catalog.engines.filter (· != house.preferred)

structure Active where
  engine : Engine
  voice : Option String := none
deriving DecidableEq, Repr

/-- The values the live engine has accepted last. -/
structure Applied where
  rate : Option Int32 := none
  pitch : Option Int32 := none
  punctuation : Option PunctuationMode := none
deriving DecidableEq, Repr

structure Session where
  active : Option Active := none
  applied : Applied := {}
  /-- All that the library and its engines have been asked. -/
  history : History := []
deriving DecidableEq, Repr

namespace Session

/-! ### What is live -/

def live (s : Session) : Bool :=
  s.active.isSome

def engineName (s : Session) : Option String :=
  s.active.map (·.engine.name)

/-- The voice last sent, as it was written to the engine. -/
def voice (s : Session) : Option String :=
  s.active.bind (·.voice)

/-- The sample rate of the live engine; zero if none is live. -/
def sampleRate (s : Session) : UInt32 :=
  (s.active.map (·.engine.sampleRate)).getD 0

/-! ### Starting and stopping -/

def stop (s : Session) : Session :=
  match s.active with
  | none => s
  | some active => { history := .stop active.engine :: s.history }

/-- Makes a new instance of the engine the live one. It knows no voice and no parameters yet. -/
def launch (house : House) (name : String) (s : Session) : Except Fault Unit × Session :=
  match house.library.launch house.libDir name true s.history with
  | (.ok engine, history) => (.ok (), { active := some { engine }, history })
  | (.error fault, history) => (.error (.engineStart name fault), { s with history })

/-- Starts the engine unless it is the live one. Another live engine is stopped first. -/
def start (house : House) (name : String) (s : Session) : Except Fault Unit × Session :=
  match s.active with
  | some active => if active.engine.name = name then (.ok (), s) else s.stop.launch house name
  | none => s.launch house name

/-! ### Voices -/

/-- Sends a voice to the live engine unless it was the last one sent. It counts as sent even if the engine
    refuses it. -/
def sendVoice (house : House) (native : String) (s : Session) : Session :=
  match s.active with
  | none => s
  | some active =>
    if active.voice = some native then s
    else
      let (_, history) := house.library.apply active.engine (.voice native) s.history
      { s with active := some { active with voice := some native }, history }

/-- Makes the voice of that display name current, with its engine. -/
def selectVoice (house : House) (displayName : String) (s : Session) : Except Fault Unit × Session :=
  match house.catalog.find? displayName with
  | none => (.error (.unknownVoice displayName), s)
  | some entry =>
    match s.start house entry.engineName with
    | (.ok (), s) => (.ok (), s.sendVoice house entry.native)
    | (.error fault, s) => (.error fault, s)

def startFirst (house : House) : List String → Session → Bool × Session
  | [], s => (false, s)
  | name :: names, s =>
    match s.start house name with
    | (.ok (), s) => (true, s)
    | (.error _, s) => startFirst house names s

def selectDefault (house : House) (s : Session) : Except Fault Unit × Session :=
  if s.live then (.ok (), s)
  else
    match startFirst house house.candidates s with
    | (true, s) => (.ok (), s)
    | (false, s) =>
      let engines := house.catalog.engines
      let tried := if engines.isEmpty then "no engines discovered" else ", ".intercalate engines
      (.error (.noEngine tried), s)

/-! ### Parameters -/

/-- Tells the live engine to change a setting; without one nothing is accepted. -/
def tell (house : House) (setting : Setting) (s : Session) : Bool × Session :=
  match s.active with
  | none => (false, s)
  | some active =>
    let (accepted, history) := house.library.apply active.engine setting s.history
    (accepted, { s with history })

def applyRate (house : House) (rate : Int32) (s : Session) : Bool × Session :=
  match s.tell house (.speed (speedOfRate rate)) with
  | (true, s) => (true, { s with applied := { s.applied with rate := some rate } })
  | (false, s) => (false, s)

def applyPitch (house : House) (pitch : Int32) (s : Session) : Bool × Session :=
  match s.tell house (.pitch (factorOfPitch pitch)) with
  | (true, s) => (true, { s with applied := { s.applied with pitch := some pitch } })
  | (false, s) => (false, s)

def applyPunctuation (house : House) (mode : PunctuationMode) (s : Session) : Bool × Session :=
  match s.tell house (.punctuation mode.level) with
  | (true, s) => (true, { s with applied := { s.applied with punctuation := some mode } })
  | (false, s) => (false, s)

/-- Passes on each parameter that differs from the value last accepted. Volume, pitch range, capitals and
    language have no counterpart in an engine. -/
def applyParams (house : House) (p : Prosody) (s : Session) : Session :=
  let s := if s.applied.rate = some p.rate then s else (s.applyRate house p.rate).2
  let s := if s.applied.pitch = some p.pitch then s else (s.applyPitch house p.pitch).2
  if s.applied.punctuation = some p.punctuation then s else (s.applyPunctuation house p.punctuation).2

end Session

end Orator
