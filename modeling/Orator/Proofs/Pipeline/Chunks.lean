import Orator.Proofs.Pipeline.Step

/-! Samples cut into chunks, what a host hears of a packet if it accepts all there is in it, and what is
    counted of what it hears. -/

namespace Orator

/-- Whether the event reports on the delivery of an utterance. All others can come from anywhere. -/
def HostEvent.ofDelivery : HostEvent → Bool
  | .beforePlay | .push .. | .notifyEnd => true
  | _ => false

def HostEvent.accepted? : HostEvent → Option Frame
  | .push frame .accepted => some frame
  | _ => none

/-- The frames that the host took, in the order of the events. -/
def accepted (events : List HostEvent) : List Frame :=
  events.filterMap HostEvent.accepted?

/-- A frame that the host takes is announced to it first. -/
def Frame.played (frame : Frame) : List HostEvent :=
  [.beforePlay, .push frame .accepted]

@[simp] theorem accepted_nil : accepted [] = [] := rfl

@[simp] theorem accepted_append (a b : List HostEvent) : accepted (a ++ b) = accepted a ++ accepted b :=
  List.filterMap_append

theorem accepted_filter (events : List HostEvent) :
    accepted (events.filter HostEvent.ofDelivery) = accepted events := by
  unfold accepted
  rw [List.filterMap_filter]
  congr 1
  funext event
  cases event <;> rfl

theorem accepted_mono {a b : List HostEvent} (h : a <+: b) : accepted a <+: accepted b :=
  h.filterMap _

theorem accepted_played (frames : List Frame) : accepted (frames.flatMap Frame.played) = frames := by
  induction frames with
  | nil => rfl
  | cons frame frames ih =>
    rw [List.flatMap_cons, accepted_append, ih]
    rfl

namespace Pipeline

/-- The samples in chunks as long as the limit allows; only the last may be shorter. -/
def Limits.cut (limits : Limits) (rate : UInt32) (samples : List Sample) : List Frame :=
  if samples.isEmpty then []
  else limits.chunk rate samples :: limits.cut rate (samples.drop limits.chunkSize)
termination_by samples.length
decreasing_by
  have := limits.chunkSize_pos
  have := List.length_pos_iff.mpr (List.isEmpty_eq_false_iff.mp (by simpa using ‹¬samples.isEmpty = true›))
  rw [List.length_drop]
  omega

/-- What the host hears of these samples if it takes every chunk. -/
def Limits.play (limits : Limits) (rate : UInt32) (samples : List Sample) : List HostEvent :=
  (limits.cut rate samples).flatMap Frame.played

section
variable {limits : Limits} {rate : UInt32} {samples : List Sample}

theorem cut_nil : limits.cut rate [] = [] := by
  rw [Limits.cut]
  rfl

theorem cut_of_ne_nil (h : samples ≠ []) :
    limits.cut rate samples = limits.chunk rate samples :: limits.cut rate (samples.drop limits.chunkSize) := by
  rw [Limits.cut]
  simp [h]

theorem play_of_ne_nil (h : samples ≠ []) :
    limits.play rate samples =
      .beforePlay :: .push (limits.chunk rate samples) .accepted ::
        limits.play rate (samples.drop limits.chunkSize) := by
  unfold Limits.play
  rw [cut_of_ne_nil h]
  rfl

theorem drop_chunkSize_lt (h : samples ≠ []) : (samples.drop limits.chunkSize).length < samples.length := by
  have := limits.chunkSize_pos
  have := List.length_pos_iff.mpr h
  rw [List.length_drop]
  omega

/-- Cutting loses nothing and keeps the order. -/
theorem samples_cut : (limits.cut rate samples).flatMap (·.samples) = samples := by
  induction h : samples.length using Nat.strongRecOn generalizing samples with
  | _ n ih =>
    subst h
    by_cases hs : samples = []
    · rw [hs, cut_nil]
      rfl
    · rw [cut_of_ne_nil hs, List.flatMap_cons, ih _ (drop_chunkSize_lt hs) rfl]
      exact List.take_append_drop _ _

/-- Each chunk is a piece of what was cut, and neither empty nor too long. -/
theorem mem_cut {frame : Frame} (h : frame ∈ limits.cut rate samples) :
    frame.rate = rate ∧ frame.samples ≠ [] ∧ frame.samples.length ≤ limits.chunkSize ∧ frame.samples <:+: samples := by
  induction hn : samples.length using Nat.strongRecOn generalizing samples with
  | _ n ih =>
    subst hn
    by_cases hs : samples = []
    · rw [hs, cut_nil] at h
      cases h
    · rw [cut_of_ne_nil hs, List.mem_cons] at h
      rcases h with rfl | h
      · refine ⟨rfl, ?_, ?_, (List.take_prefix _ _).isInfix⟩
        · simp only [Limits.chunk, ne_eq, List.take_eq_nil_iff, hs, or_false]
          have := limits.chunkSize_pos
          omega
        · simp only [Limits.chunk, List.length_take]
          omega
      · obtain ⟨hr, hne, hle, hin⟩ := ih _ (drop_chunkSize_lt hs) h rfl
        exact ⟨hr, hne, hle, hin.trans (List.drop_suffix _ _).isInfix⟩

end

def Packet.frames (limits : Limits) : Packet → List Frame
  | .audio frame => limits.cut frame.rate frame.samples
  | .finish => []

/-- What the host hears of a packet if it takes every chunk of it. -/
def Packet.played (limits : Limits) : Packet → List HostEvent
  | .audio frame => limits.play frame.rate frame.samples
  | .finish => [.beforePlay, .notifyEnd]

/-- What the host hears of an utterance of these buffers if nothing comes in between. -/
def Limits.spoken (limits : Limits) (rate : UInt32) (buffers : List (List Sample)) : List HostEvent :=
  ((buffers ++ [[]]).map (Packet.ofBuffer rate)).flatMap (Packet.played limits)

theorem accepted_packet_played {limits : Limits} (packet : Packet) :
    accepted (packet.played limits) = packet.frames limits := by
  cases packet with
  | audio frame => exact accepted_played _
  | finish => rfl

theorem accepted_packets_played {limits : Limits} (packets : List Packet) :
    accepted (packets.flatMap (Packet.played limits)) = packets.flatMap (Packet.frames limits) := by
  induction packets with
  | nil => rfl
  | cons packet packets ih =>
    rw [List.flatMap_cons, accepted_append, accepted_packet_played, ih, List.flatMap_cons]

theorem frames_ofBuffer {limits : Limits} {rate : UInt32} (buffer : List Sample) :
    (Packet.ofBuffer rate buffer).frames limits = limits.cut rate buffer := by
  cases buffer with
  | nil => exact cut_nil.symm
  | cons => rfl

theorem accepted_spoken (limits : Limits) (rate : UInt32) (buffers : List (List Sample)) :
    accepted (limits.spoken rate buffers) = buffers.flatMap (limits.cut rate) := by
  unfold Limits.spoken
  rw [accepted_packets_played, List.flatMap_map, List.flatMap_append]
  simp [frames_ofBuffer, cut_nil]

theorem samples_accepted_spoken (limits : Limits) (rate : UInt32) (buffers : List (List Sample)) :
    (accepted (limits.spoken rate buffers)).flatMap (·.samples) = buffers.flatten := by
  rw [accepted_spoken, List.flatMap_assoc]
  simp only [samples_cut]
  exact List.flatMap_id

/-! ### What is counted -/

def Stats.hear (stats : Stats) : HostEvent → Stats
  | .push frame .accepted => stats.accept frame
  | .notifyEnd => { stats with ended := true }
  | _ => stats

/-- The count of an utterance of these buffers of which nothing is missing. -/
def Limits.tally (limits : Limits) (rate : UInt32) (buffers : List (List Sample)) : Stats where
  frames := (buffers.flatMap (limits.cut rate)).length
  samples := buffers.flatten.length
  ended := true

theorem hear_other {stats : Stats} {event : HostEvent} (other : event.ofDelivery = false) :
    stats.hear event = stats := by
  cases event <;> first | rfl | cases other

theorem hear_filter (stats : Stats) (events : List HostEvent) :
    (events.filter HostEvent.ofDelivery).foldl Stats.hear stats = events.foldl Stats.hear stats := by
  induction events generalizing stats with
  | nil => rfl
  | cons event events ih =>
    cases h : event.ofDelivery
    · rw [List.filter_cons_of_neg (by simp [h]), ih, List.foldl_cons, hear_other h]
    · rw [List.filter_cons_of_pos h, List.foldl_cons, List.foldl_cons, ih]

theorem hear_played (stats : Stats) (frames : List Frame) :
    (frames.flatMap Frame.played).foldl Stats.hear stats =
      { stats with
        frames := stats.frames + frames.length
        samples := stats.samples + (frames.flatMap (·.samples)).length } := by
  induction frames generalizing stats with
  | nil => rfl
  | cons frame frames ih =>
    rw [List.flatMap_cons, List.foldl_append, ih]
    simp [Frame.played, Stats.hear, Stats.accept, Nat.add_assoc, Nat.add_comm, Nat.add_left_comm]

theorem hear_packet {limits : Limits} (rate : UInt32) (stats : Stats) (buffer : List Sample) :
    (((Packet.ofBuffer rate buffer).played limits).foldl Stats.hear stats) =
      { stats with
        frames := stats.frames + (limits.cut rate buffer).length
        samples := stats.samples + buffer.length
        ended := stats.ended || buffer.isEmpty } := by
  cases buffer with
  | nil => simp [Packet.ofBuffer, Packet.played, Stats.hear, cut_nil]
  | cons sample samples =>
    rw [show Packet.ofBuffer rate (sample :: samples) = .audio { rate, samples := sample :: samples } from rfl]
    simp [Packet.played, Limits.play, hear_played, samples_cut]

theorem hear_packets {limits : Limits} (rate : UInt32) (stats : Stats) (buffers : List (List Sample)) :
    ((buffers.map (Packet.ofBuffer rate)).flatMap (Packet.played limits)).foldl Stats.hear stats =
      { stats with
        frames := stats.frames + (buffers.flatMap (limits.cut rate)).length
        samples := stats.samples + buffers.flatten.length
        ended := stats.ended || buffers.any List.isEmpty } := by
  induction buffers generalizing stats with
  | nil => simp
  | cons buffer buffers ih =>
    rw [List.map_cons, List.flatMap_cons, List.foldl_append, hear_packet, ih]
    simp [Nat.add_assoc, Bool.or_assoc]

theorem hear_spoken (limits : Limits) (rate : UInt32) (buffers : List (List Sample)) :
    (limits.spoken rate buffers).foldl Stats.hear {} = limits.tally rate buffers := by
  unfold Limits.spoken
  rw [hear_packets]
  simp [Limits.tally, cut_nil]

end Pipeline

end Orator
