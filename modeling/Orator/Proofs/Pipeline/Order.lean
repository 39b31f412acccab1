import Mathlib.Data.List.Infix
import Orator.Proofs.Pipeline.Utterance

/-! Nothing is lost, repeated or put in another order on the way from the engine to the host. In each state
    of an utterance `ahead` lists what the host would still hear if nothing came in between; a step tells the
    host at most the first of it, and all that can come in between only makes the list shorter at its end. -/

namespace Orator.Pipeline

/-! ### What is still ahead -/

/-- Whether the callback is on its way to make the engine abort, and puts nothing into the channel any more. -/
def Producer.breaking : Producer → Bool
  | .entered _ engineCancelled => engineCancelled
  | .raising | .marking | .silencing => true
  | .returned abort => abort
  | _ => false

/-- The packet that the callback is going to send of the buffer it was given. -/
def Producer.packet? (rate : UInt32) : Producer → Option Packet
  | .entered buffer _ | .asking buffer | .routing buffer => some (.ofBuffer rate buffer)
  | .sending packet => some packet
  | _ => none

/-- What the delivery loop is going to tell the host of the packet in its hands. -/
def Delivery.due (limits : Limits) (flag : Bool) : Delivery → List HostEvent
  | .received packet => if flag then [] else packet.played limits
  | .announcing rate samples =>
    .beforePlay :: .push (limits.chunk rate samples) .accepted :: limits.play rate (samples.drop limits.chunkSize)
  | .pushing rate samples =>
    .push (limits.chunk rate samples) .accepted :: limits.play rate (samples.drop limits.chunkSize)
  | .closing => [.beforePlay, .notifyEnd]
  | .ending => [.notifyEnd]
  | _ => []

/-- Whether the delivery loop is through with the channel, or about to raise the flag. -/
def Delivery.shut : Delivery → Bool
  | .refused | .raising | .settling | .finished _ | .crashed => true
  | _ => false

namespace Utterance

/-- The packets that are going to be sent yet. -/
def toCome (u : Utterance) : List Packet :=
  match u.pipe.route with
  | none => []
  | some rate =>
    if u.pipe.producer.breaking then []
    else (u.pipe.producer.packet? rate).toList ++ u.left.map (Packet.ofBuffer rate)

/-- What the host is still going to hear if nothing comes in between. -/
def ahead (limits : Limits) (u : Utterance) : List HostEvent :=
  u.pipe.delivery.due limits u.pipe.flag ++
    if u.pipe.flag || u.pipe.delivery.shut then []
    else (u.pipe.queue ++ u.toCome).flatMap (Packet.played limits)

section
variable {limits : Limits} {u v : Utterance}

theorem due_ofSamples {flag : Bool} (rate : UInt32) (samples : List Sample) :
    (Delivery.ofSamples rate samples).due limits flag = limits.play rate samples := by
  cases samples with
  | nil =>
    unfold Limits.play
    rw [cut_nil]
    rfl
  | cons sample samples =>
    rw [play_of_ne_nil (List.cons_ne_nil _ _)]
    rfl

theorem shut_ofSamples (rate : UInt32) (samples : List Sample) : (Delivery.ofSamples rate samples).shut = false := by
  cases samples <;> rfl

theorem due_of_up (flag : Bool) (delivery : Delivery) :
    delivery.due limits true <+: delivery.due limits flag := by
  cases delivery with
  | received packet =>
    cases flag
    · exact List.nil_prefix
    · exact List.prefix_refl _
  | _ => exact List.prefix_refl _

theorem ahead_shrinks (hd : v.pipe.delivery = u.pipe.delivery) (hf : u.pipe.flag = true → v.pipe.flag = true)
    (hq : v.pipe.queue ++ v.toCome <+: u.pipe.queue ++ u.toCome) : ahead limits v <+: ahead limits u := by
  unfold ahead
  rw [hd]
  cases hv : v.pipe.flag
  · have hu : u.pipe.flag = false := by
      cases hu : u.pipe.flag
      · rfl
      · rw [hf hu] at hv
        cases hv
    rw [hu]
    cases u.pipe.delivery.shut
    · exact (List.prefix_append_right_inj _).mpr (hq.flatMap _)
    · exact List.prefix_refl _
  · exact (List.append_nil _ ▸ due_of_up _ _ : _ ++ [] <+: _).trans (List.prefix_append _ _)

theorem ahead_congr (hd : v.pipe.delivery = u.pipe.delivery) (hf : v.pipe.flag = u.pipe.flag)
    (hq : v.pipe.queue ++ v.toCome = u.pipe.queue ++ u.toCome) : ahead limits v = ahead limits u := by
  unfold ahead
  rw [hd, hf, hq]

/-! ### Steps of the callback -/

/-- The callback runs only while the channel is open to it. -/
def Attended (u : Utterance) : Prop :=
  u.pipe.resting = true ∨ u.pipe.route.isSome = true

theorem toCome_of_breaking (h : u.pipe.producer.breaking = true) : u.toCome = [] := by
  unfold toCome
  split
  · rfl
  · simp [h]

theorem produced_attended {stopRequested : Bool} {pipe : State} (h : Produced limits stopRequested u.pipe pipe)
    (ha : u.Attended) : Attended { u with pipe } := by
  rcases ha with ha | ha
  · cases h <;> simp_all [State.resting]
  · exact Or.inr (h.frame.2.2.1 ▸ ha)

theorem produced_toCome {stopRequested : Bool} {pipe : State} (h : Produced limits stopRequested u.pipe pipe)
    (ha : u.Attended) (hb : pipe.producer.breaking = false) :
    pipe.flag = u.pipe.flag ∧ pipe.queue ++ toCome { u with pipe } = u.pipe.queue ++ u.toCome := by
  cases h with
  | admitted here => exact ⟨rfl, by simp [toCome, here, Producer.breaking, Producer.packet?]⟩
  | wentOn here => exact ⟨rfl, by simp [toCome, here, Producer.breaking, Producer.packet?]⟩
  | routed here some => exact ⟨rfl, by simp [toCome, here, some, Producer.breaking, Producer.packet?]⟩
  | sent here =>
    rcases ha with ha | ha
    · simp [State.resting, here] at ha
    · obtain ⟨rate, hr⟩ := Option.isSome_iff_exists.mp ha
      exact ⟨rfl, by simp [toCome, here, hr, Producer.breaking, Producer.packet?]⟩
  | verified here =>
    have hf : u.pipe.flag = false := hb
    exact ⟨rfl, by simp [toCome, here, hf, Producer.breaking, Producer.packet?]⟩
  | _ => cases hb

/-- The callback never adds to what is ahead. -/
theorem produced_ahead {stopRequested : Bool} {pipe : State} (h : Produced limits stopRequested u.pipe pipe)
    (ha : u.Attended) : ahead limits { u with pipe } <+: ahead limits u := by
  -- A step that does not break off moves one packet on its way; one that does takes all that is to come.
  cases hb : pipe.producer.breaking
  · obtain ⟨hf, hq⟩ := produced_toCome h ha hb
    rw [ahead_congr (v := { u with pipe }) h.frame.1 hf hq]
  · refine ahead_shrinks h.frame.1 h.flag_mono ?_
    rw [toCome_of_breaking (u := { u with pipe }) hb, List.append_nil]
    have hq : pipe.queue = u.pipe.queue := by
      cases h with
      | sent => cases hb
      | _ => rfl
    rw [hq]
    exact List.prefix_append _ _

/-! ### Steps of the delivery loop -/

theorem closed_toCome (h : u.pipe.closed = true) : u.toCome = [] := by
  unfold State.closed at h
  unfold toCome
  rw [Option.isNone_iff_eq_none.mp (Bool.and_eq_true_iff.mp h).1]

/-- The delivery loop tells the host the first of what is ahead and counts it; if the host breaks off, the
    rest is dropped. -/
theorem delivered_ahead {verdict : Verdict} {pipe : State} (h : Delivered limits verdict u.pipe pipe) :
    ∃ news, pipe.heard = news.reverse ++ u.pipe.heard ∧
      (u.pipe.delivery ≠ .discarding → pipe.stats = news.foldl Stats.hear u.pipe.stats) ∧
      (news.filter HostEvent.ofDelivery ++ ahead limits { u with pipe } = ahead limits u ∨
        (verdict ≠ .accepted ∧ accepted news = [] ∧ ahead limits { u with pipe } = [])) := by
  cases h with
  | took here next =>
    refine ⟨[], rfl, fun _ => rfl, Or.inl ?_⟩
    cases hf : u.pipe.flag <;> simp [ahead, here, next, hf, Delivery.due, Delivery.shut, toCome]
  | drained here empty closed =>
    refine ⟨[], rfl, fun _ => rfl, Or.inl ?_⟩
    simp [ahead, here, empty, closed_toCome closed, Delivery.due, Delivery.shut]
  | condemned here up =>
    refine ⟨[], rfl, fun _ => rfl, Or.inl ?_⟩
    simp [ahead, here, up, Delivery.due]
  | opened here down =>
    refine ⟨[], rfl, fun _ => rfl, Or.inl ?_⟩
    simp only [ahead, due_ofSamples, shut_ofSamples, here, down]
    rfl
  | closing here down =>
    refine ⟨[], rfl, fun _ => rfl, Or.inl ?_⟩
    simp only [ahead, here, down]
    rfl
  | discarded here =>
    refine ⟨[], rfl, fun h => absurd here h, Or.inl ?_⟩
    simp only [ahead, here]
    rfl
  | announced here =>
    refine ⟨[.beforePlay], rfl, fun _ => rfl, Or.inl ?_⟩
    simp only [ahead, here]
    rfl
  | @accepted rate samples here =>
    refine ⟨[.push (limits.chunk rate samples) .accepted], rfl, fun _ => rfl, Or.inl ?_⟩
    simp only [ahead, here, due_ofSamples, shut_ofSamples]
    rfl
  | @refused rate samples here verdict_eq =>
    refine ⟨[.push (limits.chunk rate samples) .refused], rfl, fun _ => rfl, Or.inr ⟨?_, rfl, ?_⟩⟩
    · rw [verdict_eq]
      exact Verdict.noConfusion
    · simp [ahead, Delivery.due, Delivery.shut]
  | @crashed rate samples taken here verdict_eq =>
    refine ⟨[.push (limits.chunk rate samples) (.crashed taken)], rfl, fun _ => rfl, Or.inr ⟨?_, rfl, ?_⟩⟩
    · rw [verdict_eq]
      exact Verdict.noConfusion
    · simp [ahead, Delivery.due, Delivery.shut]
  | marked here =>
    refine ⟨[], rfl, fun _ => rfl, Or.inl ?_⟩
    simp only [ahead, here]
    rfl
  | raised here =>
    refine ⟨[], rfl, fun _ => rfl, Or.inl ?_⟩
    simp [ahead, here, Delivery.due, Delivery.shut]
  | heralded here =>
    refine ⟨[.beforePlay], rfl, fun _ => rfl, Or.inl ?_⟩
    simp only [ahead, here]
    rfl
  | ended here =>
    refine ⟨[.notifyEnd], rfl, fun _ => rfl, Or.inl ?_⟩
    simp only [ahead, here]
    rfl
  | settled here =>
    refine ⟨[], rfl, fun _ => rfl, Or.inl ?_⟩
    simp [ahead, here, Delivery.due, Delivery.shut]

/-! ### Steps of an utterance -/

theorem handed_toCome {buffer : List Sample} {left : List (List Sample)} {engineCancelled : Bool}
    (next : u.left = buffer :: left) (rests : u.pipe.resting = true) (willing : u.pipe.refusing = false) :
    toCome { pipe := { u.pipe with producer := .entered buffer engineCancelled }, left } =
      if engineCancelled then [] else u.toCome := by
  unfold toCome
  rw [next]
  cases u.pipe.route with
  | none => simp
  | some rate =>
    unfold State.resting at rests
    unfold State.refusing at willing
    cases hp : u.pipe.producer with
    | idle => cases engineCancelled <;> simp [Producer.breaking, Producer.packet?]
    | returned abort =>
      rw [hp] at willing
      cases engineCancelled <;> simp_all [Producer.breaking, Producer.packet?]
    | _ =>
      rw [hp] at rests
      cases rests

theorem moved_attended {label : Label} (h : Moved limits u label v) (ha : u.Attended) : v.Attended := by
  cases h with
  | handed _ speaks => exact Or.inr speaks
  | produced h => exact produced_attended h ha
  | delivered h => cases h <;> exact ha
  | raised => exact ha
  | told => exact ha
  | parted => exact Or.inl rfl

/-- A step of anyone but the delivery loop tells the host nothing of the utterance, and adds nothing to what is
    ahead. -/
theorem moved_shrinks {label : Label} (h : Moved limits u label v) (ha : u.Attended) :
    (∃ verdict pipe, Delivered limits verdict u.pipe pipe ∧ v = { u with pipe }) ∨
      ∃ news : List HostEvent, v.pipe.heard = news.reverse ++ u.pipe.heard ∧ news.filter HostEvent.ofDelivery = [] ∧
        ahead limits v <+: ahead limits u := by
  cases h with
  | @handed buffer left engineCancelled next speaks rests willing =>
    refine Or.inr ⟨[], rfl, rfl, ahead_shrinks rfl id ?_⟩
    rw [handed_toCome next rests willing]
    cases engineCancelled
    · exact List.prefix_refl _
    · exact (List.append_nil _).symm ▸ List.prefix_append _ _
  | produced h =>
    have hp := produced_ahead h ha
    rcases h.heard with hh | ⟨-, -, hh⟩
    · exact Or.inr ⟨[], hh, rfl, hp⟩
    · exact Or.inr ⟨[.stop], hh, rfl, hp⟩
  | delivered h => exact Or.inl ⟨_, _, h, rfl⟩
  | raised => exact Or.inr ⟨[], rfl, rfl, ahead_shrinks rfl (fun _ => rfl) (List.prefix_refl _)⟩
  | @told event other => exact Or.inr ⟨[event], rfl, by simp [other], List.prefix_refl _⟩
  | parted =>
    refine Or.inr ⟨[], rfl, rfl, ahead_shrinks rfl id ?_⟩
    exact (List.prefix_append_right_inj _).mpr List.nil_prefix

/-- What a step tells the host comes off the front of what was ahead. -/
theorem moved_ahead {label : Label} (h : Moved limits u label v) (ha : u.Attended) :
    ∃ news, v.pipe.heard = news.reverse ++ u.pipe.heard ∧
      accepted news ++ accepted (ahead limits v) <+: accepted (ahead limits u) := by
  rcases moved_shrinks h ha with ⟨verdict, pipe, delivers, rfl⟩ | ⟨news, heard, other, shrinks⟩
  · obtain ⟨news, hh, -, hn | ⟨-, hn, hv⟩⟩ := delivered_ahead delivers
    · refine ⟨news, hh, ?_⟩
      rw [← hn, accepted_append, accepted_filter]
    · refine ⟨news, hh, ?_⟩
      rw [hn, hv]
      exact List.nil_prefix
  · refine ⟨news, heard, ?_⟩
    rw [← accepted_filter news, other]
    exact accepted_mono shrinks

/-! ### Whole utterances -/

theorem toCome_start (rate : UInt32) (buffers : List (List Sample)) (s : State) :
    (start rate buffers s).toCome = (buffers ++ [[]]).map (Packet.ofBuffer rate) := rfl

theorem ahead_start (rate : UInt32) (buffers : List (List Sample)) (s : State) :
    ahead limits (start rate buffers s) = if s.flag then [] else limits.spoken rate buffers := by
  unfold ahead
  rw [toCome_start]
  cases h : s.flag <;>
    simp [start, State.beginUtterance, State.startDelivery, Delivery.due, Delivery.shut, h, Limits.spoken]

/-- What the host took so far, with what is still ahead, is the beginning of what there is to take. -/
theorem run_ahead {rate : UInt32} {buffers : List (List Sample)} {s : State} {labels : List Label}
    (h : run limits labels (start rate buffers s) = some u) :
    ∃ told, u.pipe.heard = told.reverse ++ s.heard ∧
      accepted told ++ accepted (ahead limits u) <+: accepted (limits.spoken rate buffers) := by
  suffices hk : u.Attended ∧ ∃ told, u.pipe.heard = told.reverse ++ s.heard ∧
      accepted told ++ accepted (ahead limits u) <+: accepted (limits.spoken rate buffers) from hk.2
  refine run_keeps (P := fun u => u.Attended ∧ ∃ told, u.pipe.heard = told.reverse ++ s.heard ∧
    accepted told ++ accepted (ahead limits u) <+: accepted (limits.spoken rate buffers)) ?_ h ?_
  · rintro label - u v hm ⟨ha, told, ht, hp⟩
    obtain ⟨news, hn, hs⟩ := moved_ahead hm ha
    refine ⟨moved_attended hm ha, told ++ news, ?_, ?_⟩
    · rw [hn, ht, List.reverse_append, List.append_assoc]
    · rw [accepted_append, List.append_assoc]
      exact ((List.prefix_append_right_inj _).mpr hs).trans hp
  · refine ⟨Or.inl rfl, [], rfl, ?_⟩
    rw [ahead_start]
    cases s.flag
    · exact List.prefix_refl _
    · exact List.nil_prefix

end

end Utterance

end Orator.Pipeline
