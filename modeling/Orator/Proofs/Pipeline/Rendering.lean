import Orator.Proofs.Pipeline.Undisturbed

/-! An utterance as far as it has come, whatever its engine is still going to hand over. Undisturbed, what the host
    has heard and what is on its way to it are the buffers handed over so far, each in its chunks. -/

namespace Orator.Pipeline

open Utterance (Calm ahead)

/-- What the host hears of these buffers if nothing comes in between. -/
def Limits.rendered (limits : Limits) (rate : UInt32) (buffers : List (List Sample)) : List HostEvent :=
  (buffers.map (Packet.ofBuffer rate)).flatMap (Packet.played limits)

/-- Since the host had heard `before`, it has heard `played` of an utterance, and whatever else. -/
def State.Played (before played : List HostEvent) (s : State) : Prop :=
  ∃ told : List HostEvent, s.heard = told.reverse ++ before ∧ told.filter HostEvent.ofDelivery = played

/-- An undisturbed utterance of these buffers so far. -/
structure State.Renders (limits : Limits) (rate : UInt32) (before : List HostEvent) (buffers : List (List Sample))
    (s : State) : Prop where
  calm : Calm { pipe := s, left := [] }
  route : s.route = none ∨ s.route = some rate
  /-- All of it has been heard, and counted, or is still to be heard. -/
  whole : ∃ played, s.Played before played ∧ s.stats = played.foldl Stats.hear {} ∧
    played ++ ahead limits { pipe := s, left := [] } = limits.rendered rate buffers

section
variable {limits : Limits} {rate : UInt32} {before played : List HostEvent} {buffers : List (List Sample)} {s t : State}

theorem rendered_snoc (buffer : List Sample) :
    limits.rendered rate (buffers ++ [buffer]) =
      limits.rendered rate buffers ++ (Packet.ofBuffer rate buffer).played limits := by
  simp [Limits.rendered]

theorem State.Played.refl (s : State) : s.Played s.heard [] := ⟨[], rfl, rfl⟩

theorem State.Played.more (h : s.Played before played) (news : List HostEvent)
    (heard : t.heard = news.reverse ++ s.heard) : t.Played before (played ++ news.filter HostEvent.ofDelivery) := by
  obtain ⟨told, ht, hp⟩ := h
  refine ⟨told ++ news, ?_, ?_⟩
  · rw [heard, ht, List.reverse_append, List.append_assoc]
  · rw [List.filter_append, hp]

theorem State.Played.same (h : s.Played before played) (heard : t.heard = s.heard) : t.Played before played := by
  obtain ⟨told, ht, hp⟩ := h
  exact ⟨told, heard.trans ht, hp⟩

theorem State.Played.tell (h : s.Played before played) {event : HostEvent} (other : event.ofDelivery = false) :
    (s.tell event).Played before played := by
  have more := h.more (t := s.tell event) [event] rfl
  rw [List.filter_cons_of_neg (by simp [other]), List.filter_nil, List.append_nil] at more
  exact more

/-! ### What keeps it -/

theorem beginUtterance_renders (down : s.flag = false) (idle : s.producer = .idle) (nothing : s.Played before []) :
    (s.beginUtterance rate).Renders limits rate before [] := by
  have producer : (s.beginUtterance rate).producer = .idle := idle
  refine ⟨⟨down, rfl, Or.inr rfl, ?_, fun _ => rfl, trivial⟩, Or.inr rfl, [], nothing.same rfl, rfl, ?_⟩
  · rw [producer]
    rfl
  · simp [ahead, Utterance.toCome, State.beginUtterance, idle, Delivery.due, Delivery.shut, Producer.breaking,
      Producer.packet?, Limits.rendered]

namespace State.Renders

theorem moved {label : Utterance.Label} (hs : s.Renders limits rate before buffers)
    (h : Utterance.Moved limits { pipe := s, left := [] } label { pipe := t, left := [] }) (calm : label.calm = true)
    (route : t.route = none ∨ t.route = s.route) : t.Renders limits rate before buffers := by
  obtain ⟨hc, hr, played, hp, counted, whole⟩ := hs
  obtain ⟨hc, news, heard, stats, rest⟩ := Utterance.moved_calm h calm hc
  refine ⟨hc, ?_, played ++ news.filter HostEvent.ofDelivery, hp.more news heard, ?_, ?_⟩
  · rcases route with closed | same
    · exact Or.inl closed
    · rw [same]
      exact hr
  · have counted : s.stats = played.foldl Stats.hear {} := counted
    rw [List.foldl_append, hear_filter, ← counted]
    exact stats
  · rw [List.append_assoc, rest]
    exact whole

/-- Nothing of this depends on where the callback stands, as long as it has nothing in its hands. -/
theorem resumed {producer : Producer} (hs : s.Renders limits rate before buffers) (rests : s.resting = true)
    (idle : producer = .idle) : Renders limits rate before buffers { s with producer } := by
  subst idle
  obtain ⟨⟨down, unmarked, attended, willing, listens, steady⟩, hr, played, hp, counted, whole⟩ := hs
  refine ⟨⟨down, unmarked, Or.inl rfl, rfl, listens, steady⟩, hr, played, hp.same rfl, counted, ?_⟩
  rw [← whole]
  congr 1
  refine Utterance.ahead_congr rfl rfl ?_
  unfold State.resting at rests
  cases here : s.producer with
  | idle | returned => cases hr : s.route <;> simp_all [Utterance.toCome, Producer.breaking, Producer.packet?]
  | _ =>
    rw [here] at rests
    cases rests

theorem begun (hs : s.Renders limits rate before buffers) (idle : s.delivery = .idle) :
    s.startDelivery.Renders limits rate before buffers := by
  obtain ⟨⟨down, unmarked, attended, willing, listens, steady⟩, hr, played, hp, counted, whole⟩ := hs
  refine ⟨⟨down, unmarked, attended, willing, listens, trivial⟩, hr, played, hp.same rfl, counted, ?_⟩
  rw [← whole]
  simp [ahead, Utterance.toCome, State.startDelivery, idle, Delivery.due, Delivery.shut]

/-- A buffer that the engine hands over is the next to be heard. -/
theorem called (hs : s.Renders limits rate before buffers) (speaks : s.route.isSome = true)
    (rests : s.resting = true) (buffer : List Sample) :
    Renders limits rate before (buffers ++ [buffer]) { s with producer := .entered buffer false } := by
  obtain ⟨⟨down, unmarked, attended, willing, listens, steady⟩, hr, played, hp, counted, whole⟩ := hs
  have down : s.flag = false := down
  have route : s.route = some rate := by
    rcases hr with closed | route
    · rw [closed] at speaks
      cases speaks
    · exact route
  have open_ : s.delivery.shut = false := by
    have steady : s.delivery.Steady s.route s.stats := steady
    cases here : s.delivery <;> simp_all [Delivery.Steady, Delivery.shut]
  have held : s.producer.breaking = false ∧ s.producer.packet? rate = none := by
    have willing : s.producer.breaking = false := willing
    unfold State.resting at rests
    cases here : s.producer <;> simp_all [Producer.packet?]
  refine ⟨⟨down, unmarked, Or.inr speaks, rfl, listens, steady⟩, hr, played, hp.same rfl, counted, ?_⟩
  have nothing : Utterance.toCome { pipe := s, left := [] } = [] := by
    simp [Utterance.toCome, route, held]
  have next : Utterance.toCome { pipe := { s with producer := .entered buffer false }, left := [] } =
      [.ofBuffer rate buffer] := by
    simp [Utterance.toCome, route, Producer.breaking, Producer.packet?]
  rw [rendered_snoc, ← whole, List.append_assoc]
  unfold ahead
  rw [nothing, next]
  simp [down, open_]

/-- At its end all has been heard and counted. -/
theorem finished {stats : Stats} (hs : s.Renders limits rate before buffers) (done : s.delivery = .finished stats) :
    s.Played before (limits.rendered rate buffers) ∧
      stats = { (limits.rendered rate buffers).foldl Stats.hear {} with aborted := false } := by
  obtain ⟨hc, -, played, hp, counted, whole⟩ := hs
  have steady := hc.steady
  have nothing : ahead limits { pipe := s, left := [] } = [] := by
    simp [ahead, done, Delivery.due, Delivery.shut]
  rw [nothing, List.append_nil] at whole
  simp only [done, Delivery.Steady, counted, whole] at steady
  exact ⟨whole ▸ hp, steady.2⟩

theorem uncrashed (hs : s.Renders limits rate before buffers) : s.delivery ≠ .crashed := by
  intro here
  have steady := hs.calm.steady
  simp [here, Delivery.Steady] at steady

end State.Renders

end

end Orator.Pipeline
