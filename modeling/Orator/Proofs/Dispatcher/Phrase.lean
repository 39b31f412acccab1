import Orator.Proofs.Dispatcher.Flow
import Orator.Proofs.Pipeline.Chunks

/-! What the host hears of one utterance. Nothing follows the end, because the engine hands over an empty buffer last
    of all and the channel keeps the order. Nothing follows a refusal, because it raises the flag, and the flag stays
    up for as long as the utterance is under way. -/

namespace Orator

namespace Phrase

/-- Chunks that were each announced and taken. -/
def Played (events : List HostEvent) : Prop :=
  ∃ frames : List Frame, events = frames.flatMap Frame.played

/-- And then one that was announced and refused. -/
def Refused (events : List HostEvent) : Prop :=
  ∃ (frames : List Frame) (frame : Frame), events = frames.flatMap Frame.played ++ [.beforePlay, .push frame .refused]

/-- And then the end. -/
def Ended (events : List HostEvent) : Prop :=
  ∃ frames : List Frame, events = frames.flatMap Frame.played ++ [.beforePlay, .notifyEnd]

end Phrase

open Phrase (Played Refused Ended)

/-- All that a host may hear of one utterance. -/
def Phrase (events : List HostEvent) : Prop :=
  Played events ∨ Refused events ∨ Ended events

theorem Phrase.notifyEnd_notMem_of_played {events : List HostEvent} (h : Played events) : .notifyEnd ∉ events := by
  obtain ⟨frames, rfl⟩ := h
  simp [Frame.played]

/-- The end is the last to be heard. -/
theorem Phrase.notifyEnd_last {before after : List HostEvent} (h : Phrase (before ++ .notifyEnd :: after)) :
    after = [] := by
  rcases h with played | ⟨frames, frame, refused⟩ | ⟨frames, ended⟩
  · exact absurd (by simp) (notifyEnd_notMem_of_played played)
  · have told : HostEvent.notifyEnd ∈ before ++ .notifyEnd :: after := by simp
    rw [refused] at told
    simp [Frame.played] at told
  · -- With something behind it, the end would be told among the chunks.
    rcases List.eq_nil_or_concat after with none | ⟨rest, event, rfl⟩
    · exact none
    · have split : (before ++ .notifyEnd :: rest) ++ [event] =
          (frames.flatMap Frame.played ++ [.beforePlay]) ++ [.notifyEnd] := by simpa using ended
      have early := (List.append_inj' split rfl).1
      have told : HostEvent.notifyEnd ∈ before ++ .notifyEnd :: rest := by simp
      rw [early] at told
      simp [Frame.played] at told

namespace Pipeline

/-! ### On the way to the host -/

def Packet.final : Packet → Bool
  | .audio _ => false
  | .finish => true

theorem final_ofBuffer (rate : UInt32) (buffer : List Sample) :
    (Packet.ofBuffer rate buffer).final = buffer.isEmpty := by
  cases buffer <;> rfl

/-- What the callback may still put into the channel: `true` stands for the end of the utterance. -/
def Producer.hand : Producer → List Bool
  | .entered buffer _ | .asking buffer | .routing buffer => [buffer.isEmpty]
  | .sending packet => [packet.final]
  | _ => []

/-- What the delivery loop has taken out and not yet told all of. -/
def Delivery.hand : Delivery → List Bool
  | .received packet => [packet.final]
  | .announcing .. | .pushing .. => [false]
  | .closing | .ending => [true]
  | _ => []

namespace State

/-- All that is on its way to the host, in the order in which it gets there. -/
def flight (s : State) : List Bool :=
  s.delivery.hand ++ s.queue.map Packet.final ++ s.producer.hand

/-- Nothing comes behind the end of the utterance. -/
def EndsLast (s : State) : Prop :=
  s.flight.Pairwise fun first _ => first = false

end State

/-- What the host was told from the one state to the other, in order. -/
def news (s t : State) : List HostEvent :=
  (t.heard.take (t.heard.length - s.heard.length)).reverse

section
variable {limits : Limits} {s t : State} {told : List HostEvent}

theorem news_of_heard (h : t.heard = told.reverse ++ s.heard) : news s t = told := by
  simp [news, h]

theorem news_of_same (h : t.heard = s.heard) : news s t = [] := news_of_heard h

theorem hand_ofSamples (rate : UInt32) (samples : List Sample) :
    (Delivery.ofSamples rate samples).hand.Sublist [false] := by
  cases samples with
  | nil => exact List.nil_sublist _
  | cons sample samples => exact List.Sublist.refl _

theorem flight_shrinks (delivery : t.delivery.hand.Sublist s.delivery.hand) (queue : t.queue.Sublist s.queue)
    (producer : t.producer.hand.Sublist s.producer.hand) : t.flight.Sublist s.flight :=
  (delivery.append (queue.map _)).append producer

theorem produced_flight {stopRequested : Bool} (h : Produced limits stopRequested s t) :
    t.flight.Sublist s.flight := by
  cases h with
  | sent here => simp [State.flight, Producer.hand, here]
  | routed here => exact flight_shrinks (.refl _) (.refl _) (by simp [here, Producer.hand, final_ofBuffer])
  | _ here => exact flight_shrinks (.refl _) (.refl _) (by simp [here, Producer.hand])

theorem delivered_flight {verdict : Verdict} (h : Delivered limits verdict s t) : t.flight.Sublist s.flight := by
  cases h with
  | took here next => simp [State.flight, Delivery.hand, here, next]
  | opened here =>
    refine flight_shrinks ?_ (.refl _) (.refl _)
    rw [here]
    exact hand_ofSamples _ _
  | accepted here =>
    refine flight_shrinks ?_ (.refl _) (.refl _)
    rw [here]
    exact hand_ofSamples _ _
  | crashed | settled => exact flight_shrinks (List.nil_sublist _) (List.nil_sublist _) (.refl _)
  | _ here => exact flight_shrinks (by simp [here, Delivery.hand, Packet.final]) (.refl _) (.refl _)

/-! ### Part of a phrase -/

/-- What the host has heard of an utterance, by where its delivery stands. -/
def Saying (s : State) (said : List HostEvent) : Prop :=
  match s.delivery with
  | .idle | .announcing .. | .closing => Played said
  | .pushing .. | .ending => ∃ before, Played before ∧ said = before ++ [.beforePlay]
  | .refused | .raising => Refused said
  | _ => Played said ∨ (Refused said ∧ s.flag = true) ∨ (Ended said ∧ s.flight = [])

namespace Saying
variable {said : List HostEvent}

theorem of_muted (muted : s.delivery.muted = true) :
    Saying s said ↔ Played said ∨ (Refused said ∧ s.flag = true) ∨ (Ended said ∧ s.flight = []) := by
  unfold Saying
  cases here : s.delivery <;> first | rfl | (rw [here] at muted; cases muted)

/-- It stays so while the loop goes from one packet to the next. -/
theorem rest (hs : Saying s said) (here : s.delivery.muted = true) (there : t.delivery.muted = true)
    (flag : s.flag = true → t.flag = true) (flight : t.flight.Sublist s.flight) : Saying t said := by
  rw [of_muted here] at hs
  rw [of_muted there]
  have landed (last : s.flight = []) : t.flight = [] := by
    rw [last] at flight
    exact List.sublist_nil.mp flight
  exact hs.imp_right (Or.imp (And.imp_right flag) (And.imp_right landed))

/-- It stays so while the loop rests. -/
theorem keep (hs : Saying s said) (delivery : t.delivery = s.delivery) (flag : s.flag = true → t.flag = true)
    (flight : .notifyEnd ∈ said → t.flight.Sublist s.flight) : Saying t said := by
  have ended (h : Ended said ∧ s.flight = []) : Ended said ∧ t.flight = [] := by
    obtain ⟨⟨frames, rfl⟩, last⟩ := h
    have flight := flight (by simp)
    rw [last] at flight
    exact ⟨⟨frames, rfl⟩, List.sublist_nil.mp flight⟩
  unfold Saying at hs ⊢
  rw [delivery]
  cases here : s.delivery <;> rw [here] at hs <;>
    first | exact hs | exact hs.imp_right (Or.imp (And.imp_right flag) ended)

/-- A packet that was taken with the flag down has nothing behind it in what was told. -/
theorem of_received {packet : Packet} (hs : Saying s said) (here : s.delivery = .received packet)
    (down : s.flag = false) : Played said := by
  rw [of_muted (by rw [here]; rfl)] at hs
  rcases hs with played | ⟨-, up⟩ | ⟨-, last⟩
  · exact played
  · rw [down] at up
    cases up
  · simp [State.flight, here, Delivery.hand] at last

theorem phrase (hs : Saying s said) (muted : s.delivery.muted = true) : Phrase said :=
  ((of_muted muted).mp hs).imp_right (Or.imp And.left And.left)

theorem ofSamples {rate : UInt32} {samples : List Sample} (played : Played said)
    (there : s.delivery = .ofSamples rate samples) : Saying s said := by
  unfold Saying
  rw [there]
  cases samples with
  | nil => exact Or.inl played
  | cons => exact played

end Saying

/-- A step of the loop adds to the phrase. -/
theorem delivered_saying {verdict : Verdict} {said : List HostEvent} (h : Delivered limits verdict s t)
    (returns : ∀ taken, verdict ≠ .crashed taken) (last : s.EndsLast) (hs : Saying s said) :
    ∃ more : List HostEvent, t.heard = more.reverse ++ s.heard ∧ Saying t (said ++ more) := by
  have flight := delivered_flight h
  cases h with
  | took here | drained here | discarded here | settled here | condemned here =>
    refine ⟨[], rfl, ?_⟩
    rw [List.append_nil]
    exact hs.rest (by rw [here]; rfl) rfl id flight
  | opened here down =>
    refine ⟨[], rfl, ?_⟩
    rw [List.append_nil]
    exact .ofSamples (hs.of_received here down) rfl
  | closing here down =>
    refine ⟨[], rfl, ?_⟩
    rw [List.append_nil]
    exact hs.of_received here down
  | announced here =>
    refine ⟨[.beforePlay], rfl, said, ?_, rfl⟩
    simpa [Saying, here] using hs
  | @accepted rate samples here =>
    simp only [Saying, here] at hs
    obtain ⟨-, ⟨frames, rfl⟩, rfl⟩ := hs
    refine ⟨[.push (limits.chunk rate samples) .accepted], rfl, .ofSamples ?_ rfl⟩
    exact ⟨frames ++ [limits.chunk rate samples], by simp [Frame.played]⟩
  | @refused rate samples here =>
    simp only [Saying, here] at hs
    obtain ⟨-, ⟨frames, rfl⟩, rfl⟩ := hs
    exact ⟨[.push (limits.chunk rate samples) .refused], rfl, frames, limits.chunk rate samples, by simp⟩
  | crashed here verdict_eq => exact absurd verdict_eq (returns _)
  | marked here =>
    refine ⟨[], rfl, ?_⟩
    simpa [Saying, here] using hs
  | raised here =>
    refine ⟨[], rfl, Or.inr (Or.inl ⟨?_, rfl⟩)⟩
    simpa [Saying, here] using hs
  | heralded here =>
    refine ⟨[.beforePlay], rfl, said, ?_, rfl⟩
    simpa [Saying, here] using hs
  | ended here =>
    simp only [Saying, here] at hs
    obtain ⟨-, ⟨frames, rfl⟩, rfl⟩ := hs
    -- The end itself is still in hand, so nothing is behind it.
    have landed : s.queue.map Packet.final ++ s.producer.hand = [] := by
      simp only [State.EndsLast, State.flight, here, Delivery.hand, List.cons_append, List.nil_append,
        List.pairwise_cons] at last
      exact List.eq_nil_iff_forall_not_mem.mpr fun final hf => Bool.noConfusion (last.1 final hf)
    exact ⟨[.notifyEnd], rfl, Or.inr (Or.inr ⟨⟨frames, by simp⟩, landed⟩)⟩

theorem delivered_muted {verdict : Verdict} (h : Delivered limits verdict s t)
    (returns : ∀ taken, verdict ≠ .crashed taken) (rests : t.delivery.running = false) : t.delivery.muted = true := by
  cases h with
  | settled => rfl
  | opened | accepted =>
    rw [running_ofSamples] at rests
    cases rests
  | crashed here verdict_eq => exact absurd verdict_eq (returns _)
  | _ => cases rests

/-- The loop tells the host something only of what it has in hand. -/
theorem delivered_told {verdict : Verdict} (h : Delivered limits verdict s t) :
    ∃ more : List HostEvent, t.heard = more.reverse ++ s.heard ∧ ∀ event ∈ more, event.ofDelivery = true ∧
      s.delivery.hand ≠ [] ∧ (event = .notifyEnd → true ∈ s.delivery.hand) := by
  cases h with
  | announced here | heralded here => exact ⟨[.beforePlay], rfl, by simp [here, Delivery.hand, HostEvent.ofDelivery]⟩
  | accepted here | refused here | crashed here =>
    exact ⟨[.push _ _], rfl, by simp [here, Delivery.hand, HostEvent.ofDelivery]⟩
  | ended here => exact ⟨[.notifyEnd], rfl, by simp [here, Delivery.hand, HostEvent.ofDelivery]⟩
  | _ => exact ⟨[], rfl, nofun⟩

theorem produced_told {stopRequested : Bool} (h : Produced limits stopRequested s t) :
    ∃ more : List HostEvent, t.heard = more.reverse ++ s.heard ∧ ∀ event ∈ more, event = .stop := by
  rcases h.heard with same | ⟨-, -, stopped⟩
  · exact ⟨[], same, nofun⟩
  · exact ⟨[.stop], stopped, by simp⟩

end

end Pipeline

namespace Dispatcher

open Pipeline (Limits Saying news)

/-- Whether no engine is speaking or about to. -/
def Speaker.mute : Speaker → Bool
  | .spawned .. | .speaking _ => false
  | _ => true

/-- Whether the engine calls back only if it has not yet handed over an empty buffer, and the host comes back from
    what it is told. -/
def Label.fair (last : Bool) : Label → Bool
  | .call .. => !last
  | .deliver (.crashed _) => false
  | _ => true

/-- Whether the engine has handed over an empty buffer since it was called. -/
def Label.last (last : Bool) : Label → Bool
  | .call buffer _ => buffer.isEmpty
  | .spoke _ | .crash => false
  | _ => last

/-- From its speaker's beginning on, an utterance is a phrase that goes on. -/
structure Uttering (request : Request) (said : List HostEvent) (last : Bool) (s : State) : Prop where
  own : ∀ engine other, s.speaker = .spawned engine other → other = request
  saying : Saying s.pipe said
  order : s.pipe.EndsLast
  /-- Once the end is on its way or told, the engine calls back no more. -/
  known : true ∈ s.pipe.flight ∨ .notifyEnd ∈ said → last = true ∨ s.speaker.mute = true
  silent : request.speech? = none → said = [] ∧ s.pipe.flight = [] ∧ ∀ engine, s.speaker ≠ .speaking engine

section
variable {house : House} {limits : Limits} {s t : State} {label : Label} {request : Request} {said : List HostEvent}
  {last : Bool}

/-- While the loop rests and nothing new is on its way, the phrase stays as it is. -/
theorem Uttering.rest {last' : Bool} (hu : Uttering request said last s)
    (speaker : (t.speaker = s.speaker ∧ last' = last) ∨ t.speaker.mute = true)
    (delivery : t.pipe.delivery = s.pipe.delivery) (flag : s.pipe.flag = true → t.pipe.flag = true)
    (flight : t.pipe.flight.Sublist s.pipe.flight) : Uttering request said last' t where
  own := by
    intro engine other there
    rcases speaker with ⟨same, -⟩ | mute
    · exact hu.own engine other (same ▸ there)
    · rw [there] at mute
      cases mute
  saying := hu.saying.keep delivery flag fun _ => flight
  order := hu.order.sublist flight
  known := by
    intro ends
    rcases speaker with ⟨same, rfl⟩ | mute
    · rw [same]
      exact hu.known (ends.imp_left fun there => flight.subset there)
    · exact Or.inr mute
  silent := by
    intro none
    obtain ⟨nothing, empty, quiet⟩ := hu.silent none
    refine ⟨nothing, List.sublist_nil.mp (empty ▸ flight), fun engine there => ?_⟩
    rcases speaker with ⟨same, -⟩ | mute
    · exact quiet engine (same ▸ there)
    · rw [there] at mute
      cases mute

theorem Uttering.called {engine : Engine} {buffer : List Sample} {engineCancelled : Bool}
    (hu : Uttering request said false s) (here : s.speaker = .speaking engine) (rests : s.pipe.resting = true) :
    Uttering request said buffer.isEmpty
      { s with pipe := { s.pipe with producer := .entered buffer engineCancelled } } := by
  -- The end is neither told nor on its way, for else the engine would not have called.
  obtain ⟨aloft, untold⟩ : true ∉ s.pipe.flight ∧ .notifyEnd ∉ said := by
    refine not_or.mp fun ends => ?_
    rcases hu.known ends with known | mute
    · cases known
    · rw [here] at mute
      cases mute
  have hand : s.pipe.producer.hand = [] := by
    unfold Pipeline.State.resting at rests
    cases there : s.pipe.producer <;> rw [there] at rests <;> first | rfl | cases rests
  have flight : Pipeline.State.flight { s.pipe with producer := .entered buffer engineCancelled } =
      s.pipe.flight ++ [buffer.isEmpty] := by
    rw [Pipeline.State.flight, Pipeline.State.flight, hand, List.append_nil]
    rfl
  refine ⟨hu.own, hu.saying.keep rfl id fun told => absurd told untold, ?_, ?_, ?_⟩
  · rw [Pipeline.State.EndsLast, flight, List.pairwise_append]
    refine ⟨hu.order, List.pairwise_singleton _ _, fun first there _ _ => ?_⟩
    exact Bool.eq_false_iff.mpr fun ends => aloft (ends ▸ there)
  · intro ends
    rw [flight] at ends
    exact Or.inl (by simpa [aloft, untold] using ends)
  · intro none
    exact absurd here ((hu.silent none).2.2 engine)

theorem Uttering.delivered {verdict : Verdict} {pipe : Pipeline.State} {more : List HostEvent}
    (hu : Uttering request said last s) (h : Pipeline.Delivered limits verdict s.pipe pipe)
    (returns : ∀ taken, verdict ≠ .crashed taken) (heard : pipe.heard = more.reverse ++ s.pipe.heard) :
    Uttering request (said ++ more) last { s with pipe } := by
  obtain ⟨told, heard', saying⟩ := Pipeline.delivered_saying h returns hu.order hu.saying
  obtain rfl : more = told := (Pipeline.news_of_heard heard).symm.trans (Pipeline.news_of_heard heard')
  obtain ⟨told, heard', hand⟩ := Pipeline.delivered_told h
  obtain rfl : more = told := (Pipeline.news_of_heard heard).symm.trans (Pipeline.news_of_heard heard')
  have flight := Pipeline.delivered_flight h
  have aloft : ∀ {final}, final ∈ s.pipe.delivery.hand → final ∈ s.pipe.flight := fun there =>
    List.mem_append_left _ (List.mem_append_left _ there)
  refine ⟨hu.own, saying, hu.order.sublist flight, ?_, ?_⟩
  · rintro (ends | ends)
    · exact hu.known (Or.inl (flight.subset ends))
    · rcases List.mem_append.mp ends with before | now
      · exact hu.known (Or.inr before)
      · exact hu.known (Or.inl (aloft ((hand _ now).2.2 rfl)))
  · intro none
    obtain ⟨rfl, empty, quiet⟩ := hu.silent none
    refine ⟨?_, List.sublist_nil.mp (empty ▸ flight), quiet⟩
    refine List.eq_nil_iff_forall_not_mem.mpr fun event there => ?_
    obtain ⟨first, rest, full⟩ := List.exists_cons_of_ne_nil (hand event there).2.1
    have : first ∈ s.pipe.flight := aloft (by simp [full])
    rw [empty] at this
    cases this

/-- What is told in a step. Only the two workers of the utterance tell anything. -/
theorem moved_told (h : Moved house limits s label t) :
    ∃ more : List HostEvent, t.pipe.heard = more.reverse ++ s.pipe.heard ∧ ∀ event ∈ more,
      (event = .stop ∧ ∃ stopRequested, label = .produce stopRequested) ∨
        (event.ofDelivery = true ∧ ∃ verdict, label = .deliver verdict) := by
  cases h with
  | produced h =>
    obtain ⟨more, heard, stops⟩ := Pipeline.produced_told h
    exact ⟨more, heard, fun event there => Or.inl ⟨stops event there, _, rfl⟩⟩
  | delivered h =>
    obtain ⟨more, heard, told⟩ := Pipeline.delivered_told h
    exact ⟨more, heard, fun event there => Or.inr ⟨(told event there).1, _, rfl⟩⟩
  | _ => exact ⟨[], rfl, nofun⟩

theorem moved_uttering (h : Moved house limits s label t) (never : label ≠ .clear) (fair : label.fair last = true)
    (stays : label = .control → s.control.working = false) (hu : Uttering request said last s) :
    Uttering request (said ++ (news s.pipe t.pipe).filter HostEvent.ofDelivery) (label.last last) t := by
  obtain ⟨more, heard, from_⟩ := moved_told h
  rw [Pipeline.news_of_heard heard]
  by_cases delivers : ∃ verdict, label = .deliver verdict
  · obtain ⟨verdict, rfl⟩ := delivers
    cases h with
    | delivered h =>
      have all : more.filter HostEvent.ofDelivery = more := by
        refine List.filter_eq_self.mpr fun event there => ?_
        rcases from_ event there with ⟨-, stopRequested, other⟩ | ⟨told, -⟩
        · cases other
        · exact told
      rw [all]
      refine hu.delivered h ?_ heard
      rintro taken rfl
      cases fair
  · have none : more.filter HostEvent.ofDelivery = [] := by
      refine List.filter_eq_nil_iff.mpr fun event there => ?_
      rcases from_ event there with ⟨rfl, -⟩ | ⟨-, own⟩
      · exact Bool.false_ne_true
      · exact absurd own delivers
    rw [none, List.append_nil]
    cases h with
    | resolved here | unresolved here | switched here | unswitched here | stopped here | cleared here | opened here
    | spawned here | attended here =>
      have idle := stays rfl
      rw [here] at idle
      cases idle
    | @began engine other speech here uttered =>
      obtain rfl := hu.own engine other here
      refine ⟨nofun, hu.saying, hu.order, fun ends => Or.inl ?_, fun none => ?_⟩
      · refine (hu.known ends).resolve_right ?_
        rw [here]
        exact Bool.false_ne_true
      · rw [none] at uttered
        cases uttered
    | called here rests =>
      obtain rfl : last = false := by simpa [Label.fair] using fair
      exact hu.called here rests
    | produced h => exact hu.rest (Or.inl ⟨rfl, rfl⟩) h.frame.1 h.flag_mono (Pipeline.produced_flight h)
    | skipped | left => exact hu.rest (Or.inr rfl) rfl id (.refl _)
    | spoke | crashed => exact hu.rest (Or.inr rfl) rfl id (Pipeline.flight_shrinks (.refl _) (.refl _) (List.nil_sublist _))
    | concluded => exact hu.rest (Or.inr rfl) rfl id (.refl _)
    | delivered => exact absurd ⟨_, rfl⟩ delivers
    | raised => exact hu.rest (Or.inl ⟨rfl, rfl⟩) rfl (fun _ => rfl) (.refl _)
    | lowered => exact absurd rfl never
    | _ => exact hu.rest (Or.inl ⟨rfl, rfl⟩) rfl id (.refl _)

end

end Dispatcher

end Orator
