import Orator.Audio.Host

/-! Audio on its way from a speaking engine to the host. The engine hands each buffer to a callback, which
    puts it into a bounded channel; a delivery loop takes the buffers out, cuts them into chunks and pushes
    those to the host. Both share a cancellation flag with whoever may cut the utterance short.

    `produce` is the next step of the callback and `deliver` the next step of the loop. Each does at most one
    thing that the other side can see, so every interleaving of the two is a list of labels for `step`. What
    the host answers to a step comes with its label. -/

namespace Orator.Pipeline

/-- Bounds on what is pushed at once and on what waits in the channel. -/
structure Limits where
  chunkSize : Nat
  capacity : Nat
  chunkSize_pos : 0 < chunkSize
  capacity_pos : 0 < capacity

/-- The limits asked for; zero counts as one. -/
def Limits.ofSizes (chunkSize capacity : Nat) : Limits where
  chunkSize := max chunkSize 1
  capacity := max capacity 1
  chunkSize_pos := Nat.le_max_right _ _
  capacity_pos := Nat.le_max_right _ _

inductive Packet where
  | audio (frame : Frame)
  | finish
deriving DecidableEq, Repr

/-- An empty buffer is the engine's way to say that it is done. -/
def Packet.ofBuffer (rate : UInt32) (buffer : List Sample) : Packet :=
  if buffer.isEmpty then .finish else .audio { rate, samples := buffer }

/-- What became of an utterance on the host's side. -/
structure Stats where
  /-- Chunks the host accepted, and the samples in them. -/
  frames : Nat := 0
  samples : Nat := 0
  /-- Packets thrown away after a cancellation. -/
  dropped : Nat := 0
  /-- The host was told that nothing more follows. -/
  ended : Bool := false
  aborted : Bool := false
deriving DecidableEq, Repr

/-! ### Where the two sides stand -/

inductive Producer where
  | idle
  /-- Just called with a buffer, by an engine that may have cancelled on its own. -/
  | entered (buffer : List Sample) (engineCancelled : Bool)
  /-- About to ask whether the host wants playback to stop. -/
  | asking (buffer : List Sample)
  /-- The host does; about to raise the flag. -/
  | raising
  /-- About to mark the utterance as aborted. -/
  | marking
  /-- About to stop the host's queue. -/
  | silencing
  /-- About to look up the channel. -/
  | routing (buffer : List Sample)
  /-- About to send; waits while the channel is full. -/
  | sending (packet : Packet)
  /-- Sent; about to look at the flag once more. -/
  | verifying
  /-- Back in the engine, with the wish that it abort or go on. -/
  | returned (abort : Bool)
deriving DecidableEq, Repr

inductive Delivery where
  | idle
  /-- About to take the next packet; waits while there is none and more may come. -/
  | receiving
  /-- Took a packet; about to look at the flag. -/
  | received (packet : Packet)
  /-- The flag is up; about to throw the packet away. -/
  | discarding
  /-- About to announce the next chunk of these samples. -/
  | announcing (rate : UInt32) (samples : List Sample)
  /-- About to push that chunk. -/
  | pushing (rate : UInt32) (samples : List Sample)
  /-- The host refused a chunk; about to mark the utterance as aborted, then to raise the flag. -/
  | refused
  | raising
  /-- About to announce the end, then to notify the host of it. -/
  | closing
  | ending
  /-- Nothing more can come; about to look at the mark. -/
  | settling
  | finished (stats : Stats)
  /-- The host never came back from a push. -/
  | crashed
deriving DecidableEq, Repr

structure State where
  flag : Bool := false
  /-- The mark of an utterance that was cut short. -/
  aborted : Bool := false
  /-- The sample rate of the utterance whose channel is open to the callback. -/
  route : Option UInt32 := none
  /-- The packets in the channel, the oldest first. -/
  queue : List Packet := []
  receiver : Bool := false
  producer : Producer := .idle
  delivery : Delivery := .idle
  stats : Stats := {}
  /-- All that the host was told, the latest first. -/
  heard : List HostEvent := []
deriving DecidableEq, Repr

namespace State

/-- Opens a new channel for an utterance and lowers the mark. -/
def beginUtterance (rate : UInt32) (s : State) : State :=
  { s with aborted := false, route := some rate, queue := [], receiver := true, delivery := .idle, stats := {} }

/-- Closes the channel to the callback. What is in it can still be taken out. -/
def endUtterance (s : State) : State :=
  { s with route := none }

/-- Gives up the receiving end with all that is still in the channel. -/
def dropReceiver (s : State) : State :=
  { s with receiver := false, queue := [] }

def startDelivery (s : State) : State :=
  { s with delivery := .receiving }

def tell (event : HostEvent) (s : State) : State :=
  { s with heard := event :: s.heard }

/-- Whether no packet can come any more: the callback keeps a hold of the channel until it returns. -/
def closed (s : State) : Bool :=
  s.route.isNone &&
    match s.producer with
    | .sending _ | .verifying => false
    | _ => true

/-- Whether the callback is not running. -/
def resting (s : State) : Bool :=
  match s.producer with
  | .idle | .returned _ => true
  | _ => false

end State

/-! ### Steps -/

/-- The next step of the callback; `none` if it is not running, or waits for room in the channel. -/
def produce (limits : Limits) (stopRequested : Bool) (s : State) : Option State :=
  match s.producer with
  | .idle | .returned _ => none
  | .entered _ true => some { s with producer := .marking }
  | .entered buffer false => some { s with producer := if s.flag then .marking else .asking buffer }
  | .asking buffer => some { s with producer := if stopRequested then .raising else .routing buffer }
  | .raising => some { s with flag := true, producer := .marking }
  | .marking => some { s with aborted := true, producer := .silencing }
  | .silencing => some { s.tell .stop with producer := .returned true }
  | .routing buffer =>
    match s.route with
    | none => some { s with producer := .returned true }
    | some rate => some { s with producer := .sending (.ofBuffer rate buffer) }
  | .sending packet =>
    if !s.receiver then some { s with producer := .returned true }
    else if s.queue.length < limits.capacity then
      some { s with queue := s.queue ++ [packet], producer := .verifying }
    else none
  | .verifying => some { s with producer := .returned s.flag }

/-- What is left to do for samples not yet announced. -/
def Delivery.ofSamples (rate : UInt32) (samples : List Sample) : Delivery :=
  if samples.isEmpty then .receiving else .announcing rate samples

/-- The next step of the delivery loop; `none` if it is not running, or waits for a packet. -/
def deliver (limits : Limits) (verdict : Verdict) (s : State) : Option State :=
  match s.delivery with
  | .idle | .finished _ | .crashed => none
  | .receiving =>
    match s.queue with
    | packet :: queue => some { s with queue, delivery := .received packet }
    | [] => if s.closed then some { s with delivery := .settling } else none
  | .received packet =>
    if s.flag then some { s with delivery := .discarding }
    else
      match packet with
      | .audio frame => some { s with delivery := .ofSamples frame.rate frame.samples }
      | .finish => some { s with delivery := .closing }
  | .discarding =>
    some { s with
      aborted := true
      stats := { s.stats with dropped := s.stats.dropped + 1 }
      delivery := .receiving }
  | .announcing rate samples => some { s.tell .beforePlay with delivery := .pushing rate samples }
  | .pushing rate samples =>
    let chunk := { rate, samples := samples.take limits.chunkSize : Frame }
    let s := s.tell (.push chunk verdict)
    match verdict with
    | .accepted =>
      some { s with
        stats := { s.stats with
          frames := s.stats.frames + 1
          samples := s.stats.samples + chunk.samples.length }
        delivery := .ofSamples rate (samples.drop limits.chunkSize) }
    | .refused => some { s with delivery := .refused }
    | .crashed _ => some { s.dropReceiver with delivery := .crashed }
  | .refused => some { s with aborted := true, delivery := .raising }
  | .raising => some { s with flag := true, delivery := .receiving }
  | .closing => some { s.tell .beforePlay with delivery := .ending }
  | .ending =>
    some { s.tell .notifyEnd with stats := { s.stats with ended := true }, delivery := .receiving }
  | .settling => some { s.dropReceiver with delivery := .finished { s.stats with aborted := s.aborted } }

inductive Label where
  | call (buffer : List Sample) (engineCancelled : Bool)
  /-- The callback takes a step; should it ask, this is whether the host wants playback to stop. -/
  | produce (stopRequested : Bool)
  /-- The delivery loop takes a step; should it push, this is the host's verdict. -/
  | deliver (verdict : Verdict)
  | raise
  | clear
deriving DecidableEq, Repr

def step (limits : Limits) : Label → State → Option State
  | .call buffer engineCancelled, s =>
    if s.resting then some { s with producer := .entered buffer engineCancelled } else none
  | .produce stopRequested, s => produce limits stopRequested s
  | .deliver verdict, s => deliver limits verdict s
  | .raise, s => some { s with flag := true }
  | .clear, s => some { s with flag := false }

/-- The state after a whole schedule; `none` if one of its steps cannot be taken. -/
def run (limits : Limits) : List Label → State → Option State
  | [], s => some s
  | label :: labels, s => (step limits label s).bind (run limits labels)

end Orator.Pipeline
