/-! What can go wrong, and how it is put to the host. -/

namespace Orator

inductive EngineFault where
  | notFound (engine libDir : String)
  | refused (engine reason : String)
  | unreadable (reason : String)
deriving DecidableEq, Repr

namespace EngineFault

def message : EngineFault → String
  | notFound engine libDir => "Engine '" ++ engine ++ "' not found in " ++ libDir
  | refused engine reason => "Engine '" ++ engine ++ "' refused to start: " ++ reason
  | unreadable reason => "IO error while loading engine: " ++ reason

/-- What lies behind the fault, in words. -/
def causes : EngineFault → List String
  | notFound .. | refused .. => []
  | unreadable reason => [reason]

end EngineFault

/-- The settings that a configuration can get wrong. -/
inductive ConfigField where
  | preferredEngine | audioChunkSize | audioQueueMaxSize | frameChannelCapacity
deriving DecidableEq, Repr

def ConfigField.name : ConfigField → String
  | preferredEngine => "preferred_engine"
  | audioChunkSize => "audio_chunk_size"
  | audioQueueMaxSize => "audio_queue_max_size"
  | frameChannelCapacity => "frame_channel_capacity"

inductive ConfigFault where
  | unreadable (reason path : String)
  | malformed
  | invalid (field : ConfigField) (reason : String)
  | noLibraryDir (reason : String)
deriving DecidableEq, Repr

namespace ConfigFault

def message : ConfigFault → String
  | unreadable reason path => "Failed to read config file " ++ path ++ ": " ++ reason
  | malformed => "Failed to parse config"
  | invalid field reason => "Invalid config value for '" ++ field.name ++ "': " ++ reason
  | noLibraryDir reason =>
    "Unable to locate the engine library directory: " ++ reason ++
      "\nSuggestion: Set library_dir in the configuration"

def causes : ConfigFault → List String
  | unreadable reason _ => [reason]
  | malformed | invalid .. | noLibraryDir _ => []

end ConfigFault

inductive Fault where
  | discovery (reason libDir : String)
  | unknownVoice (displayName : String)
  | noEngine (tried : String)
  | engineStart (engine : String) (fault : EngineFault)
  | notReady (reason : String)
  | config (fault : ConfigFault)
deriving DecidableEq, Repr

namespace Fault

def message : Fault → String
  | discovery reason libDir =>
    "Engine discovery failed: " ++ reason ++ "\nLibrary directory: " ++ libDir ++
      "\nSuggestion: Install at least one engine library or set library_dir in the configuration"
  | unknownVoice displayName =>
    "Voice not found: '" ++ displayName ++ "'\nSuggestion: Use list_voices() to see all available voices"
  | noEngine tried => "No engine available\nTried: " ++ tried
  | engineStart engine fault => "Engine '" ++ engine ++ "' failed to start: " ++ fault.message
  | notReady reason => "Not ready: " ++ reason
  | config fault => fault.message

/-- Whether the host has to give the service up. -/
def fatal : Fault → Bool
  | discovery .. | config _ => true
  | unknownVoice _ | noEngine _ | engineStart .. | notReady _ => false

/-- What lies behind the fault, nearest cause first. -/
def causes : Fault → List String
  | engineStart _ fault => fault.message :: fault.causes
  | config fault => fault.causes
  | discovery .. | unknownVoice _ | noEngine _ | notReady _ => []

end Fault

end Orator
