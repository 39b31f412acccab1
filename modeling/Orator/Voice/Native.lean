import Orator.Text.Cut

/-! A voice as engines write it: its name, a comma, and its language. Names may hold commas themselves, so
    the last comma counts. -/

namespace Orator

structure NativeVoice where
  name : String
  language : String
deriving DecidableEq, Repr

namespace NativeVoice

/-- Reads the written form; `none` without a comma. -/
def parse? (text : String) : Option NativeVoice :=
  (Text.cutLast? ',' text.toList).map fun (name, language) =>
    { name := String.ofList name, language := String.ofList language }

def written (v : NativeVoice) : String :=
  v.name ++ "," ++ v.language

end NativeVoice

end Orator
