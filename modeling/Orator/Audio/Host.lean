import Orator.Audio.Frame

/-! The host plays what it is given from a queue of its own. It is only ever told things. -/

namespace Orator

/-- What the host does with a frame pushed to it. -/
inductive Verdict where
  | accepted
  | refused
  /-- The call never came back, whether or not the frame had been taken by then. -/
  | crashed (taken : Bool)
deriving DecidableEq, Repr

/-- One call the host received. -/
inductive HostEvent where
  /-- The queue is to hold at most this many samples. -/
  | init (limit : Nat)
  | beforeSynth
  /-- What is queued may start to play. -/
  | beforePlay
  | push (frame : Frame) (verdict : Verdict)
  /-- Nothing more follows in this utterance. -/
  | notifyEnd
  /-- What is queued is to be dropped. -/
  | stop
  | pause
  | terminate
deriving DecidableEq, Repr

def Verdict.taken : Verdict → Bool
  | accepted => true
  | refused => false
  | crashed taken => taken

/-- Whether the queue shows the event: a frame that was not taken leaves no mark. -/
def HostEvent.visible : HostEvent → Bool
  | .push _ verdict => verdict.taken
  | _ => true

end Orator
