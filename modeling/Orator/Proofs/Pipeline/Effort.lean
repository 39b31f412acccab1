import Mathlib.Algebra.GroupWithZero.Nat
import Orator.Proofs.Pipeline.Step

/-! How much the two sides of an utterance have left to do, from what is in their hands and in the channel. Every
    step of the callback and every step of the delivery loop takes some of it away, whatever the flag says and
    whatever the host answers. -/

namespace Orator.Pipeline

/-- What a packet costs from the channel on: a chunk is at least one sample, and takes two steps. -/
def Packet.effort : Packet → Nat
  | .audio frame => 2 * frame.samples.length + 6
  | .finish => 6

/-- The callback still has to put what it was given into the channel, and the loop to take it out. -/
def Producer.effort : Producer → Nat
  | .idle | .returned _ => 0
  | .entered buffer _ => 2 * buffer.length + 11
  | .asking buffer => 2 * buffer.length + 10
  | .routing buffer => 2 * buffer.length + 9
  | .sending packet => packet.effort + 2
  | .raising => 3
  | .marking => 2
  | .silencing | .verifying => 1

def Delivery.effort : Delivery → Nat
  | .idle | .finished _ | .crashed => 0
  | .settling => 1
  | .receiving => 2
  | .received packet => packet.effort + 1
  | .announcing _ samples => 2 * samples.length + 6
  | .pushing _ samples => 2 * samples.length + 5
  | .closing | .refused => 4
  | .discarding | .raising | .ending => 3

def State.effort (s : State) : Nat :=
  s.producer.effort + s.delivery.effort + (s.queue.map Packet.effort).sum

theorem effort_ofBuffer (rate : UInt32) (buffer : List Sample) :
    (Packet.ofBuffer rate buffer).effort = 2 * buffer.length + 6 := by
  cases buffer <;> rfl

theorem effort_ofSamples_le (rate : UInt32) (samples : List Sample) :
    (Delivery.ofSamples rate samples).effort ≤ 2 * samples.length + 6 := by
  cases samples with
  | nil => exact Nat.le_add_left 2 4
  | cons => exact Nat.le_refl _

theorem effort_of_rested {delivery : Delivery} (rests : delivery.running = false) : delivery.effort = 0 := by
  cases delivery with
  | idle | finished | crashed => rfl
  | _ => cases rests

/-- A push takes at least one sample off what is left to announce. -/
theorem effort_ofSamples_drop_lt (limits : Limits) (rate : UInt32) (samples : List Sample) :
    (Delivery.ofSamples rate (samples.drop limits.chunkSize)).effort < 2 * samples.length + 5 := by
  have chunk := limits.chunkSize_pos
  cases rest : samples.drop limits.chunkSize with
  | nil => exact Nat.lt_add_left _ (by decide : 2 < 5)
  | cons sample more =>
    have length := congrArg List.length rest
    have bound := effort_ofSamples_le rate (sample :: more)
    simp only [List.length_drop, List.length_cons] at length bound
    omega

section
variable {limits : Limits} {s t : State}

theorem Produced.effort_lt {stopRequested : Bool} (h : Produced limits stopRequested s t) : t.effort < s.effort := by
  unfold State.effort
  cases h with
  | routed here =>
    simp only [here, Producer.effort, effort_ofBuffer]
    omega
  | sent here =>
    simp only [here, Producer.effort, List.map_append, List.map_cons, List.map_nil, List.sum_append, List.sum_cons,
      List.sum_nil]
    omega
  | _ here =>
    simp only [here, Producer.effort, State.tell]
    omega

theorem Delivered.effort_lt {verdict : Verdict} (h : Delivered limits verdict s t) : t.effort < s.effort := by
  unfold State.effort
  cases h with
  | took here next =>
    simp only [here, next, Delivery.effort, List.map_cons, List.sum_cons]
    omega
  | @condemned packet here =>
    have : 6 ≤ packet.effort := by cases packet <;> simp [Packet.effort]
    simp only [here, Delivery.effort]
    omega
  | @opened frame here =>
    have before : s.delivery.effort = 2 * frame.samples.length + 7 := by rw [here]; rfl
    have after := effort_ofSamples_le frame.rate frame.samples
    dsimp only
    omega
  | @accepted rate samples here =>
    have before : s.delivery.effort = 2 * samples.length + 5 := by rw [here]; rfl
    have after := effort_ofSamples_drop_lt limits rate samples
    dsimp only [State.tell]
    omega
  | crashed here | settled here =>
    simp only [here, Delivery.effort, State.tell, State.dropReceiver, List.map_nil, List.sum_nil]
    omega
  | _ here =>
    simp only [here, Delivery.effort, Packet.effort, State.tell]
    omega

/-! ### Who can go on -/

theorem idle_ofSamples (rate : UInt32) (samples : List Sample) : Delivery.ofSamples rate samples ≠ .idle := by
  cases samples <;> nofun

/-- The callback waits for nothing but room in a channel that someone takes from. -/
theorem produce_ready (busy : s.resting = false) (room : s.receiver = false ∨ s.queue.length < limits.capacity)
    (stopRequested : Bool) : (produce limits stopRequested s).isSome = true := by
  unfold produce
  unfold State.resting at busy
  cases here : s.producer with
  | idle | returned =>
    rw [here] at busy
    cases busy
  | entered _ engineCancelled => cases engineCancelled <;> rfl
  | routing => cases s.route <;> rfl
  | sending =>
    rcases room with gone | room
    · simp [gone]
    · cases s.receiver <;> simp [room]
  | _ => rfl

/-- The delivery loop waits for nothing but a packet, as long as one may come. -/
theorem deliver_ready (runs : s.delivery.running = true)
    (more : s.delivery = .receiving → s.queue = [] → s.closed = true) (verdict : Verdict) :
    (deliver limits verdict s).isSome = true := by
  unfold deliver
  cases here : s.delivery with
  | idle | finished | crashed =>
    rw [here] at runs
    cases runs
  | receiving =>
    cases queue : s.queue with
    | nil => simp [more here queue]
    | cons => rfl
  | received packet =>
    cases s.flag
    · cases packet <;> rfl
    · rfl
  | pushing => cases verdict <;> rfl
  | _ => rfl

end

end Orator.Pipeline
