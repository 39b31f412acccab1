import Orator.Text.Uppercase
import Orator.Voice.Native

/-! A voice as the host sees it, named by its engine and its own name with a space between. -/

namespace Orator

/-- The language with all behind its first hyphen in capitals, as in en-US. -/
def normalizeLanguage (language : String) : String :=
  match Text.cutFirst? '-' language.toList with
  | some (primary, region) => String.ofList (primary ++ '-' :: Text.uppercase region)
  | none => language

structure VoiceEntry where
  displayName : String
  language : String
  variant : String
deriving DecidableEq, Repr

namespace VoiceEntry

/-- Engines tell nothing about dialects, so every voice has this variant. -/
def noVariant : String := "null"

def ofVoice (engine : String) (voice : NativeVoice) : VoiceEntry where
  displayName := engine ++ " " ++ voice.name
  language := normalizeLanguage voice.language
  variant := noVariant

/-- The display name up to its first space: all of it, if there is none. -/
def engineName (e : VoiceEntry) : String :=
  match Text.cutFirst? ' ' e.displayName.toList with
  | some (engine, _) => String.ofList engine
  | none => e.displayName

/-- The display name behind its first space. -/
def voiceName (e : VoiceEntry) : String :=
  match Text.cutFirst? ' ' e.displayName.toList with
  | some (_, voice) => String.ofList voice
  | none => ""

/-- The voice as it is written to its engine. -/
def native (e : VoiceEntry) : String :=
  { name := e.voiceName, language := e.language : NativeVoice }.written

end VoiceEntry

end Orator
