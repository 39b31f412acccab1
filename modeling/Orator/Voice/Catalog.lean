import Orator.Voice.Entry

/-! All engines found and all their voices, in the order in which they were found. -/

namespace Orator

structure Catalog where
  /-- Engines that could not be started are listed too. -/
  engines : List String
  voices : List VoiceEntry
deriving DecidableEq, Repr

namespace Catalog

def empty : Catalog := ⟨[], []⟩

def find? (c : Catalog) (displayName : String) : Option VoiceEntry :=
  c.voices.find? (·.displayName == displayName)

/-- The voices as the host takes them, with an end mark behind them. -/
def hostList (c : Catalog) : List (Option VoiceEntry) :=
  c.voices.map some ++ [none]

end Catalog

end Orator
