import Orator.Config
import Orator.Files
import Orator.Toml.Reader

/-! The configuration as it is written: a TOML document whose keys are the fields. Other keys are ignored. -/

namespace Orator.Config

open Toml (Entries)

/-- A text, if the key is there at all. -/
def text? (entries : Entries) (key : String) : Except ConfigFault (Option String) :=
  match entries.lookup key with
  | none => .ok none
  | some (.value (.string text)) => .ok (some text)
  | some _ => .error .malformed

/-- A size, if the key is there at all. It fits 64 bits. -/
def size? (entries : Entries) (key : String) : Except ConfigFault (Option Nat) :=
  match entries.lookup key with
  | none => .ok none
  | some (.value (.integer n)) => if 0 ≤ n && n < (Nat.pow 2 64 : Int) then .ok (some n.toNat) else .error .malformed
  | some _ => .error .malformed

def ofEntries (entries : Entries) : Except ConfigFault Config := do
  let d : Config := {}
  let libraryDir ← text? entries "library_dir"
  let preferredEngine ← text? entries "preferred_engine"
  let audioChunkSize ← size? entries "audio_chunk_size"
  let audioQueueMaxSize ← size? entries "audio_queue_max_size"
  let frameChannelCapacity ← size? entries "frame_channel_capacity"
  pure {
    libraryDir
    preferredEngine := preferredEngine.getD d.preferredEngine
    audioChunkSize := audioChunkSize.getD d.audioChunkSize
    audioQueueMaxSize := audioQueueMaxSize.getD d.audioQueueMaxSize
    frameChannelCapacity := frameChannelCapacity.getD d.frameChannelCapacity }

/-- The configuration that a document writes, if it makes sense. -/
def ofToml (text : String) : Except ConfigFault Config :=
  match Toml.parse? text with
  | none => .error .malformed
  | some entries => do
    let config ← ofEntries entries
    config.validate
    pure config

/-- The configuration in a file's bytes. The path only serves to name the file. -/
def ofBytes (path : String) (bytes : List UInt8) : Except ConfigFault Config :=
  match textOfBytes bytes with
  | .ok text => ofToml text
  | .error fault => .error (.unreadable fault.message path)

def ofFile (tree : FileTree) (path : String) : Except ConfigFault Config :=
  match tree.read path with
  | .ok bytes => ofBytes path bytes
  | .error fault => .error (.unreadable fault.message path)

end Orator.Config
