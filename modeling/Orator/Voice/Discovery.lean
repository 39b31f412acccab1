import Orator.Engine
import Orator.Voice.Catalog

/-! Finding out which voices there are: each engine is started for as long as it takes to list them. -/

namespace Orator

/-- The voices of one engine. An engine that does not start has none, and a voice without a language is
    left out. -/
def Library.audition (lib : Library) (libDir name : String) (h : History) : List VoiceEntry × History :=
  match lib.launch libDir name false h with
  | (.error _, h) => ([], h)
  | (.ok engine, h) =>
    let (voices, h) := lib.ask engine h
    ((voices.filterMap NativeVoice.parse?).map (VoiceEntry.ofVoice name), .stop engine :: h)

/-- The voices of several engines, one engine after the other. -/
def Library.auditions (lib : Library) (libDir : String) : List String → History → List VoiceEntry × History
  | [], h => ([], h)
  | name :: names, h =>
    let (voices, h) := lib.audition libDir name h
    let (others, h) := lib.auditions libDir names h
    (voices ++ others, h)

/-- The catalog of the engines in a directory. A library without a usable voice is a fault. -/
def Catalog.discover (lib : Library) (libDir : String) (dirExists : Bool) (h : History) :
    Except Fault Catalog × History :=
  if dirExists then
    let (engines, h) := lib.survey libDir h
    let (voices, h) := lib.auditions libDir engines h
    if voices.isEmpty then
      (.error (.discovery ("no usable voices among " ++ toString engines.length ++ " engine(s)") libDir), h)
    else (.ok { engines, voices }, h)
  else (.error (.discovery "library directory does not exist" libDir), h)

end Orator
