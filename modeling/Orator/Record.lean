import Orator.Config
import Orator.Json.Reader
import Orator.Request
import Orator.Voice.Entry

/-! Reading the records of this program from JSON. A record is an object with its fields as keys, or a list
    of its fields in order. Other keys are ignored, a key that comes twice is refused, and so is a number
    that does not fit its field. -/

namespace Orator.Record

open Json (Value)

/-! ### Single values -/

def text? : Value → Option String
  | .string text => text
  | _ => none

def int32? : Value → Option Int32
  | .number (some n) => if -2147483648 ≤ n ∧ n ≤ 2147483647 then some (Int32.ofInt n) else none
  | _ => none

/-- A size; the largest is that of an address space of 64 bits. -/
def size? : Value → Option Nat
  | .number (some n) => if 0 ≤ n ∧ n ≤ 18446744073709551615 then some n.toNat else none
  | _ => none

/-- One name of a fixed choice, alone or as the only key of an object that says no more about it. -/
def choice? {α : Type} (choices : List (String × α)) : Value → Option α
  | .string (some name) => choices.lookup name
  | .object [(some name, .null)] => choices.lookup name
  | _ => none

/-! ### Fields -/

structure Fields where
  /-- By place, and not by key. -/
  listed : Bool
  values : List (Option Value)

def fields? (names : List String) : Value → Option Fields
  | .array elements =>
    if elements.length ≤ names.length then some { listed := true, values := elements.map some } else none
  | .object members =>
    let known := members.filter fun (key, _) => key.all (names.contains ·)
    let keys := known.map (·.1)
    if keys.all Option.isSome && keys.eraseDups.length == keys.length then
      some { listed := false, values := names.map fun name => known.lookup (some name) }
    else none
  | _ => none

namespace Fields

def at? (f : Fields) (place : Nat) : Option Value :=
  (f.values[place]?).join

def required? {α : Type} (f : Fields) (place : Nat) (read : Value → Option α) : Option α :=
  (f.at? place).bind read

/-- A field that may be null or, unless fields go by place, be left out. -/
def nullable? {α : Type} (f : Fields) (place : Nat) (read : Value → Option α) : Option (Option α) :=
  match f.at? place with
  | none => if f.listed then none else some none
  | some .null => some none
  | some value => (read value).map some

def withDefault? {α : Type} (f : Fields) (place : Nat) (default : α) (read : Value → Option α) : Option α :=
  match f.at? place with
  | none => some default
  | some value => read value

end Fields

/-! ### Records -/

def messageKinds : List (String × MessageKind) :=
  [MessageKind.text, .char, .key, .soundIcon, .spell].map fun kind => (kind.name, kind)

def punctuationModes : List (String × PunctuationMode) :=
  [PunctuationMode.all, .most, .some, .none].map fun mode => (mode.name, mode)

def punctuationLevels : List (String × PunctuationLevel) :=
  [PunctuationLevel.none, .some, .most, .all].map fun level => (level.name, level)

def capitalsModes : List (String × CapitalsMode) :=
  [CapitalsMode.none, .spell, .icon].map fun mode => (mode.name, mode)

def messageKind? : Value → Option MessageKind := choice? messageKinds

def punctuationMode? : Value → Option PunctuationMode := choice? punctuationModes

def punctuationLevel? : Value → Option PunctuationLevel := choice? punctuationLevels

def capitalsMode? : Value → Option CapitalsMode := choice? capitalsModes

def prosody? (value : Value) : Option Prosody := do
  let f ← fields? ["language_override", "voice_name", "rate", "pitch", "pitch_range", "volume", "punctuation",
    "capital_letters"] value
  some {
    language := ← f.nullable? 0 text?
    voice := ← f.nullable? 1 text?
    rate := ← f.required? 2 int32?
    pitch := ← f.required? 3 int32?
    pitchRange := ← f.required? 4 int32?
    volume := ← f.required? 5 int32?
    punctuation := ← f.required? 6 punctuationMode?
    capitals := ← f.required? 7 capitalsMode? }

def voiceEntry? (value : Value) : Option VoiceEntry := do
  let f ← fields? ["display_name", "language", "variant"] value
  some {
    displayName := ← f.required? 0 text?
    language := ← f.required? 1 text?
    variant := ← f.required? 2 text? }

/-- A configuration. Each field has its default, and it is not checked whether the whole makes sense. -/
def config? (value : Value) : Option Config := do
  let f ← fields? ["library_dir", "preferred_engine", "audio_chunk_size", "audio_queue_max_size",
    "frame_channel_capacity"] value
  let d : Config := {}
  some {
    libraryDir := ← f.withDefault? 0 d.libraryDir fun
      | .null => some none
      | value => (text? value).map some
    preferredEngine := ← f.withDefault? 1 d.preferredEngine text?
    audioChunkSize := ← f.withDefault? 2 d.audioChunkSize size?
    audioQueueMaxSize := ← f.withDefault? 3 d.audioQueueMaxSize size?
    frameChannelCapacity := ← f.withDefault? 4 d.frameChannelCapacity size? }

end Orator.Record
