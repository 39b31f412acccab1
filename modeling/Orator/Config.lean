import Orator.Fault

/-! The configuration of the service. -/

namespace Orator

structure Config where
  /-- The directory of the engine library; found from where the program lies if it is not set. -/
  libraryDir : Option String := none
  preferredEngine : String := "espeak"
  /-- Most samples pushed to the host at once. -/
  audioChunkSize : Nat := 1000
  /-- Most samples the host's queue holds; twenty seconds of low-quality speech. -/
  audioQueueMaxSize : Nat := 220500
  /-- Most buffers between engine and delivery. -/
  frameChannelCapacity : Nat := 16
deriving DecidableEq, Repr

namespace Config

/-- Refuses empty sizes and an engine name that no display name can begin with. -/
def validate (c : Config) : Except ConfigFault Unit := do
  let positive := "must be greater than zero"
  if c.audioChunkSize = 0 then throw (.invalid .audioChunkSize positive)
  if c.audioQueueMaxSize = 0 then throw (.invalid .audioQueueMaxSize positive)
  if c.frameChannelCapacity = 0 then throw (.invalid .frameChannelCapacity positive)
  if c.preferredEngine.toList.contains ' ' then
    throw (.invalid .preferredEngine ("'" ++ c.preferredEngine ++ "' contains a space"))

/-- The name of the library directory beside the host's own. -/
def libraryDirName : String := "speechsw"

/-- The directory that holds the last name of an absolute path; the root has none. -/
def parent? (path : List String) : Option (List String) :=
  if path.isEmpty then none else some path.dropLast

/-- The library directory: the configured one, or the one beside the directory of the program. The path of
    the program is given by its names. -/
def resolveLibraryDir (c : Config) (program : List String) : Except ConfigFault String :=
  match c.libraryDir with
  | some dir => .ok dir
  | none =>
    match (parent? program).bind parent? with
    | some dir => .ok ("/" ++ "/".intercalate (dir ++ [libraryDirName]))
    | none => .error (.noLibraryDir ("/" ++ "/".intercalate program ++ " has no parent"))

end Config

end Orator
