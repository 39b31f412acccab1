import Orator.Proofs.Pipeline.Undisturbed

/-! What the host is still asked to play, whatever it answers. It is the first of what is ahead, up to the push that
    breaks it off. So a callback that stops the host's queue puts an end to it only as far as the delivery loop takes
    notice, and the loop looks at nothing but the flag: what is in the channel is played all the same, if the engine
    cancelled on its own and the flag is down. -/

namespace Orator

/-- The event as it is if the host takes everything. -/
def HostEvent.granted : HostEvent → HostEvent
  | .push frame _ => .push frame .accepted
  | event => event

/-- What the host was asked to play, and told of the end, whatever it made of it. -/
def offered (events : List HostEvent) : List HostEvent :=
  (events.filter HostEvent.ofDelivery).map HostEvent.granted

theorem offered_append (a b : List HostEvent) : offered (a ++ b) = offered a ++ offered b := by
  simp [offered]

theorem granted_played (frames : List Frame) :
    (frames.flatMap Frame.played).map HostEvent.granted = frames.flatMap Frame.played := by
  rw [List.map_flatMap]
  rfl

namespace Pipeline

theorem granted_packet {limits : Limits} (packet : Packet) :
    (packet.played limits).map HostEvent.granted = packet.played limits := by
  cases packet with
  | audio => exact granted_played _
  | finish => rfl

section
variable {limits : Limits} {s t : State} {verdict : Verdict}

/-- A step of the loop is one of an undisturbed utterance, unless the host breaks it off in a push. -/
theorem Delivered.undisturbed (h : Delivered limits verdict s t) :
    Delivered limits .accepted s t ∨ ∃ rate samples, s.delivery = .pushing rate samples ∧
      t.heard = .push (limits.chunk rate samples) verdict :: s.heard ∧
      (t.delivery = .refused ∨ (t.delivery = .crashed ∧ ∃ taken, verdict = .crashed taken)) := by
  cases h with
  | refused here verdict_eq => exact Or.inr ⟨_, _, here, by rw [verdict_eq]; rfl, Or.inl rfl⟩
  | crashed here verdict_eq => exact Or.inr ⟨_, _, here, by rw [verdict_eq]; rfl, Or.inr ⟨rfl, _, verdict_eq⟩⟩
  | took here next => exact Or.inl (.took here next)
  | drained here empty closed => exact Or.inl (.drained here empty closed)
  | condemned here up => exact Or.inl (.condemned here up)
  | opened here down => exact Or.inl (.opened here down)
  | closing here down => exact Or.inl (.closing here down)
  | discarded here => exact Or.inl (.discarded here)
  | announced here => exact Or.inl (.announced here)
  | accepted here => exact Or.inl (.accepted here rfl)
  | marked here => exact Or.inl (.marked here)
  | raised here => exact Or.inl (.raised here)
  | heralded here => exact Or.inl (.heralded here)
  | ended here => exact Or.inl (.ended here)
  | settled here => exact Or.inl (.settled here)

end

/-- What the loop is going to tell the host of the packet in its hands, and of those in the channel. -/
def State.pending (limits : Limits) (s : State) : List HostEvent :=
  s.delivery.due limits s.flag ++
    if s.flag || s.delivery.shut then [] else s.queue.flatMap (Packet.played limits)

namespace Utterance

section
variable {limits : Limits} {u v w : Utterance} {label : Label} {labels : List Label}

theorem granted_due (flag : Bool) (delivery : Delivery) :
    (delivery.due limits flag).map HostEvent.granted = delivery.due limits flag := by
  cases delivery with
  | received packet =>
    cases flag
    · exact granted_packet packet
    · rfl
  | announcing | pushing => simp [Delivery.due, HostEvent.granted, Limits.play, granted_played]
  | _ => rfl

theorem granted_ahead (u : Utterance) : (ahead limits u).map HostEvent.granted = ahead limits u := by
  unfold ahead
  rw [List.map_append, granted_due]
  congr 1
  split
  · rfl
  · simp only [List.map_flatMap, granted_packet]

/-! ### What the host is asked to play -/

theorem delivered_offered {verdict : Verdict} {pipe : State} (h : Delivered limits verdict u.pipe pipe) :
    ∃ news, pipe.heard = news.reverse ++ u.pipe.heard ∧
      offered news ++ ahead limits { u with pipe } <+: ahead limits u := by
  rcases h.undisturbed with calm | ⟨rate, samples, here, heard, broken⟩
  · obtain ⟨news, heard, -, whole | ⟨never, -⟩⟩ := delivered_ahead calm
    · refine ⟨news, heard, ?_⟩
      -- All that is ahead is granted, so what has come of it is granted as well.
      rw [← granted_ahead u, ← granted_ahead { u with pipe }, offered, ← List.map_append, whole]
    · exact absurd rfl never
  · refine ⟨[.push (limits.chunk rate samples) verdict], heard, ?_⟩
    have nothing : ahead limits { u with pipe } = [] := by
      rcases broken with there | ⟨there, -⟩ <;> simp [ahead, there, Delivery.due, Delivery.shut]
    rw [nothing, ahead, here]
    exact List.prefix_append [HostEvent.push (limits.chunk rate samples) .accepted] _

/-- What a step asks the host to play comes off the front of what was ahead. -/
theorem moved_offered (h : Moved limits u label v) (ha : u.Attended) :
    ∃ news, v.pipe.heard = news.reverse ++ u.pipe.heard ∧ offered news ++ ahead limits v <+: ahead limits u := by
  rcases moved_shrinks h ha with ⟨verdict, pipe, delivers, rfl⟩ | ⟨news, heard, other, shrinks⟩
  · exact delivered_offered delivers
  · refine ⟨news, heard, ?_⟩
    rw [offered, other]
    exact shrinks

theorem run_offered (h : run limits labels u = some v) (ha : u.Attended) :
    v.Attended ∧ ∃ told, v.pipe.heard = told.reverse ++ u.pipe.heard ∧
      offered told ++ ahead limits v <+: ahead limits u := by
  refine run_keeps (P := fun v => v.Attended ∧ ∃ told, v.pipe.heard = told.reverse ++ u.pipe.heard ∧
    offered told ++ ahead limits v <+: ahead limits u) ?_ h ⟨ha, [], rfl, List.prefix_refl _⟩
  rintro label - v w moved ⟨ha, told, heard, first⟩
  obtain ⟨news, more, next⟩ := moved_offered moved ha
  refine ⟨moved_attended moved ha, told ++ news, ?_, ?_⟩
  · rw [more, heard, List.reverse_append, List.append_assoc]
  · rw [offered_append, List.append_assoc]
    exact ((List.prefix_append_right_inj _).mpr next).trans first

/-! ### After a halt -/

/-- The engine is to hand over nothing more. -/
def Halted (u : Utterance) : Prop :=
  u.pipe.producer = .returned true ∨ (u.pipe.producer = .idle ∧ u.pipe.route = none)

theorem Halted.toCome (hu : u.Halted) : u.toCome = [] := by
  rcases hu with here | ⟨-, closed⟩
  · exact toCome_of_breaking (by rw [here]; rfl)
  · simp [Utterance.toCome, closed]

/-- When nothing else comes in between, the host hears all that is ahead. -/
theorem moved_halted (h : Moved limits u label v) (calm : label.calm = true) (hu : u.Halted) :
    v.Halted ∧ ∃ news : List HostEvent, v.pipe.heard = news.reverse ++ u.pipe.heard ∧
      news.filter HostEvent.ofDelivery ++ ahead limits v = ahead limits u := by
  cases h with
  | handed _ speaks _ willing =>
    rcases hu with here | ⟨-, closed⟩
    · simp [State.refusing, here] at willing
    · simp [closed] at speaks
  | produced h =>
    cases h with
    | _ here =>
      rcases hu with there | ⟨there, -⟩
      all_goals
        rw [there] at here
        cases here
  | @delivered verdict pipe h =>
    obtain rfl : verdict = .accepted := by simpa [Label.calm] using calm
    obtain ⟨producer, route⟩ := h.frame
    refine ⟨?_, ?_⟩
    · unfold Halted
      rw [producer, route]
      exact hu
    · obtain ⟨news, heard, -, whole | ⟨never, -⟩⟩ := delivered_ahead h
      · exact ⟨news, heard, whole⟩
      · exact absurd rfl never
  | raised => cases calm
  | @told event other => exact ⟨hu, [event], rfl, by rw [List.filter_cons_of_neg (by simp [other])]; rfl⟩
  | parted =>
    have after : Halted { u with pipe := { u.pipe.endUtterance with producer := .idle } } := Or.inr ⟨rfl, rfl⟩
    exact ⟨after, [], rfl, ahead_congr rfl rfl (by rw [after.toCome, hu.toCome]; rfl)⟩

theorem run_halted (h : run limits labels u = some v) (calm : ∀ label ∈ labels, label.calm = true) (hu : u.Halted) :
    ∃ told : List HostEvent, v.pipe.heard = told.reverse ++ u.pipe.heard ∧
      told.filter HostEvent.ofDelivery ++ ahead limits v = ahead limits u := by
  suffices keeps : v.Halted ∧ ∃ told : List HostEvent, v.pipe.heard = told.reverse ++ u.pipe.heard ∧
      told.filter HostEvent.ofDelivery ++ ahead limits v = ahead limits u from keeps.2
  refine run_keeps (P := fun v => v.Halted ∧ ∃ told : List HostEvent, v.pipe.heard = told.reverse ++ u.pipe.heard ∧
    told.filter HostEvent.ofDelivery ++ ahead limits v = ahead limits u) ?_ h ⟨hu, [], rfl, rfl⟩
  rintro label hl v w moved ⟨hv, told, heard, whole⟩
  obtain ⟨hw, news, more, next⟩ := moved_halted moved (calm label hl) hv
  refine ⟨hw, told ++ news, ?_, ?_⟩
  · rw [more, heard, List.reverse_append, List.append_assoc]
  · rw [List.filter_append, List.append_assoc, next, whole]

theorem halted_of_silencing {stopRequested : Bool} (h : Moved limits u (.produce stopRequested) v)
    (halting : u.pipe.producer = .silencing) :
    v.Halted ∧ v.pipe.heard = .stop :: u.pipe.heard ∧ ahead limits v = u.pipe.pending limits := by
  cases h with
  | produced h =>
    cases h with
    | silenced =>
      have halted : Halted { u with pipe := { u.pipe.tell .stop with producer := .returned true } } := Or.inl rfl
      refine ⟨halted, rfl, ?_⟩
      rw [ahead, halted.toCome, List.append_nil]
      rfl
    | _ here =>
      rw [halting] at here
      cases here

end

/-- When the callback has stopped the host's queue, the host is asked to play no more than what the loop has in its
    hands and what is in the channel; with the flag up, no more than what the loop has in its hands. But if the flag
    is down and nothing else comes in between, all that is in the channel is played, and no packet dropped. -/
theorem halt_leaves_pending {rate : UInt32} {buffers : List (List Sample)} {chunkSize capacity : Nat} {s : State}
    {before after : List Label} {stopRequested : Bool} {u v w : Utterance}
    (reached : run (.ofSizes chunkSize capacity) before (start rate buffers s) = some u)
    (halting : u.pipe.producer = .silencing)
    (halted : step (.ofSizes chunkSize capacity) (.produce stopRequested) u = some v)
    (h : run (.ofSizes chunkSize capacity) after v = some w) :
    v.pipe.heard = .stop :: u.pipe.heard ∧ ∃ told : List HostEvent, w.pipe.heard = told.reverse ++ v.pipe.heard ∧
      offered told <+: u.pipe.pending (.ofSizes chunkSize capacity) ∧
      (u.pipe.flag = true → offered told <+: u.pipe.delivery.due (.ofSizes chunkSize capacity) true) ∧
      ((∀ label ∈ after, label.calm = true) → (∃ stats, w.pipe.delivery = .finished stats) →
        told.filter HostEvent.ofDelivery = u.pipe.pending (.ofSizes chunkSize capacity)) := by
  have attended := (run_offered reached (Or.inl rfl)).1
  have moved := step_inv halted
  obtain ⟨hv, heard, same⟩ := halted_of_silencing moved halting
  obtain ⟨-, told, more, first⟩ := run_offered h (moved_attended moved attended)
  rw [same] at first
  have bound := (List.prefix_append _ _).trans first
  refine ⟨heard, told, more, bound, fun up => ?_, fun calm ⟨stats, done⟩ => ?_⟩
  · simpa [State.pending, up] using bound
  · obtain ⟨told', more', whole⟩ := run_halted h calm hv
    -- The two accounts are of one run, so they tell the same.
    obtain rfl : told = told' := List.reverse_injective (List.append_cancel_right (more.symm.trans more'))
    have nothing : ahead (.ofSizes chunkSize capacity) w = [] := by
      simp [ahead, done, Delivery.due, Delivery.shut]
    rw [← same, ← whole, nothing, List.append_nil]

/-- Two buffers are in the channel when the engine cancels on its own. -/
def cancelledBehind : List Label := List.flatten [
  .hand false :: List.replicate 5 (.produce false),
  .hand false :: List.replicate 5 (.produce false),
  .hand true :: List.replicate 2 (.produce false)]

theorem halt_leaves_pending_cancelledBehind :
    ∃ u v w, run (.ofSizes 2 2) cancelledBehind (start 22050 [[1], [2], [3]] {}) = some u ∧
      step (.ofSizes 2 2) (.produce false) u = some v ∧
      run (.ofSizes 2 2) (.leave :: List.replicate 10 (.deliver .accepted)) v = some w ∧
      ∃ told : List HostEvent, w.pipe.heard = told.reverse ++ .stop :: u.pipe.heard ∧
        told.filter HostEvent.ofDelivery = u.pipe.pending (.ofSizes 2 2) := by
  have halting : (run (.ofSizes 2 2) cancelledBehind (start 22050 [[1], [2], [3]] {})).map (·.pipe.producer) =
      some .silencing := by decide +kernel
  have ended : ((run (.ofSizes 2 2) cancelledBehind (start 22050 [[1], [2], [3]] {})).bind fun u =>
      (step (.ofSizes 2 2) (.produce false) u).bind
        (run (.ofSizes 2 2) (.leave :: List.replicate 10 (.deliver .accepted)))).map (·.pipe.delivery) =
      some (.finished { frames := 2, samples := 2, aborted := true }) := by decide +kernel
  obtain ⟨u, hu, halting⟩ := Option.map_eq_some_iff.mp halting
  rw [hu, Option.bind_some] at ended
  obtain ⟨w, hw, done⟩ := Option.map_eq_some_iff.mp ended
  obtain ⟨v, hv, hw⟩ := Option.bind_eq_some_iff.mp hw
  obtain ⟨heard, told, more, -, -, whole⟩ := halt_leaves_pending hu halting hv hw
  exact ⟨u, v, w, hu, hv, hw, told, heard ▸ more, whole (by decide) ⟨_, done⟩⟩

/-- The host has to play both of them after it was told to stop. -/
theorem played_after_cancel :
    (run (.ofSizes 2 2) (cancelledBehind ++ .produce false :: List.replicate 8 (.deliver .accepted))
      (start 22050 [[1], [2], [3]] {})).map (·.pipe.heard.reverse) =
    some [.stop, .beforePlay, .push { rate := 22050, samples := [1] } .accepted,
      .beforePlay, .push { rate := 22050, samples := [2] } .accepted] := by
  decide +kernel

end Utterance

end Pipeline

end Orator
