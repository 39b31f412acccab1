import Orator.Proofs.Pipeline.Order

/-! An utterance that nobody cuts short: the flag stays down, the engine does not cancel on its own, the host
    wants no stop and takes all it is given. The host then hears all of the utterance, and the count of it
    is right. -/

namespace Orator.Pipeline

/-- Where the delivery loop can stand, and with what, if nothing has come in between. -/
def Delivery.Steady (route : Option UInt32) (stats : Stats) : Delivery → Prop
  | .discarding | .refused | .raising | .crashed => False
  | .settling => route = none
  | .finished settled => route = none ∧ settled = { stats with aborted := false }
  | _ => True

theorem steady_ofSamples {route : Option UInt32} {stats : Stats} (rate : UInt32) (samples : List Sample) :
    (Delivery.ofSamples rate samples).Steady route stats := by
  cases samples <;> trivial

theorem Delivery.Steady.parted {delivery : Delivery} {route : Option UInt32} {stats : Stats}
    (h : delivery.Steady route stats) : delivery.Steady none stats := by
  cases delivery with
  | settling => rfl
  | finished => exact ⟨rfl, h.2⟩
  | _ => exact h

namespace Utterance

/-- Whether the step cuts nothing short. -/
def Label.calm : Label → Bool
  | .hand engineCancelled => !engineCancelled
  | .produce stopRequested => !stopRequested
  | .deliver verdict => verdict = .accepted
  | .raise => false
  | .tell _ | .leave => true

structure Calm (u : Utterance) : Prop where
  down : u.pipe.flag = false
  unmarked : u.pipe.aborted = false
  attended : u.Attended
  willing : u.pipe.producer.breaking = false
  listens : u.pipe.route.isSome = true → u.pipe.receiver = true
  steady : u.pipe.delivery.Steady u.pipe.route u.pipe.stats

section
variable {limits : Limits} {u v : Utterance}

theorem produced_willing {pipe : State} (h : Produced limits false u.pipe pipe) (hc : u.Calm) :
    pipe.producer.breaking = false := by
  obtain ⟨down, -, attended, willing, listens, -⟩ := hc
  -- A callback under way finds its channel, and someone who takes out what it puts there.
  have under {p : Producer} (here : u.pipe.producer = p) (busy : u.pipe.resting = false) :
      u.pipe.route.isSome = true := attended.resolve_left (by simp [busy])
  cases h with
  | engineCancelled here => simp [here, Producer.breaking] at willing
  | cancelled here up => simp [down] at up
  | admitted => rfl
  | stopSeen here stop => cases stop
  | wentOn => rfl
  | raised here => simp [here, Producer.breaking] at willing
  | marked here => simp [here, Producer.breaking] at willing
  | silenced here => simp [here, Producer.breaking] at willing
  | unrouted here none =>
    have := under here (by simp [State.resting, here])
    simp [none] at this
  | routed => rfl
  | lost here gone =>
    have := listens (under here (by simp [State.resting, here]))
    simp [gone] at this
  | sent => rfl
  | verified here => exact down

theorem produced_calm {pipe : State} (h : Produced limits false u.pipe pipe) (hc : u.Calm) :
    Calm { u with pipe } where
  down := (produced_toCome h hc.attended (produced_willing h hc)).1.trans hc.down
  unmarked := by
    have := produced_willing h hc
    cases h with
    | marked => cases this
    | _ => exact hc.unmarked
  attended := produced_attended h hc.attended
  willing := produced_willing h hc
  listens := by
    rw [h.frame.2.2.1, h.frame.2.2.2]
    exact hc.listens
  steady := by
    rw [h.frame.1, h.frame.2.1, h.frame.2.2.1]
    exact hc.steady

theorem delivered_calm {pipe : State} (h : Delivered limits .accepted u.pipe pipe) (hc : u.Calm) :
    Calm { u with pipe } := by
  obtain ⟨down, unmarked, attended, willing, listens, steady⟩ := hc
  cases h with
  | took => exact ⟨down, unmarked, attended, willing, listens, trivial⟩
  | drained here empty closed =>
    have hr : u.pipe.route = none := Option.isNone_iff_eq_none.mp (Bool.and_eq_true_iff.mp closed).1
    exact ⟨down, unmarked, attended, willing, listens, hr⟩
  | condemned here up => simp [down] at up
  | opened => exact ⟨down, unmarked, attended, willing, listens, steady_ofSamples _ _⟩
  | closing => exact ⟨down, unmarked, attended, willing, listens, trivial⟩
  | discarded here => simp [here, Delivery.Steady] at steady
  | announced => exact ⟨down, unmarked, attended, willing, listens, trivial⟩
  | accepted => exact ⟨down, unmarked, attended, willing, listens, steady_ofSamples _ _⟩
  | refused _ verdict_eq => cases verdict_eq
  | crashed _ verdict_eq => cases verdict_eq
  | marked here => simp [here, Delivery.Steady] at steady
  | raised here => simp [here, Delivery.Steady] at steady
  | heralded => exact ⟨down, unmarked, attended, willing, listens, trivial⟩
  | ended => exact ⟨down, unmarked, attended, willing, listens, trivial⟩
  | settled here =>
    have hr : u.pipe.route = none := by simpa [here, Delivery.Steady] using steady
    refine ⟨down, unmarked, attended, willing, ?_, hr, ?_⟩
    · intro h
      simp [State.dropReceiver, hr] at h
    · rw [unmarked]
      rfl

/-- An engine that has not been asked to abort leaves only when it has handed over everything. -/
theorem toCome_of_done (willing : u.pipe.producer.breaking = false) (rests : u.pipe.resting = true)
    (done : u.left = [] ∨ u.pipe.refusing = true) : u.toCome = [] := by
  have hb : u.pipe.refusing = false := by
    cases h : u.pipe.producer <;> simp_all [State.refusing, Producer.breaking]
  have hl : u.left = [] := done.resolve_right (by simp [hb])
  have hp (rate : UInt32) : u.pipe.producer.packet? rate = none := by
    cases h : u.pipe.producer <;> simp_all [State.resting, Producer.packet?]
  unfold toCome
  cases u.pipe.route <;> simp [hl, hp]

/-- What a calm step tells the host is the first of what was ahead, and it is counted. -/
theorem moved_calm {label : Label} (h : Moved limits u label v) (hl : label.calm = true) (hc : u.Calm) :
    v.Calm ∧ ∃ news : List HostEvent, v.pipe.heard = news.reverse ++ u.pipe.heard ∧
      v.pipe.stats = news.foldl Stats.hear u.pipe.stats ∧
      news.filter HostEvent.ofDelivery ++ ahead limits v = ahead limits u := by
  cases h with
  | @handed buffer left engineCancelled next speaks rests willing =>
    obtain rfl : engineCancelled = false := by simpa [Label.calm] using hl
    refine ⟨⟨hc.down, hc.unmarked, Or.inr speaks, rfl, hc.listens, hc.steady⟩, [], rfl, rfl, ?_⟩
    refine ahead_congr rfl rfl ?_
    rw [handed_toCome next rests willing]
    rfl
  | @produced stopRequested pipe h =>
    obtain rfl : stopRequested = false := by simpa [Label.calm] using hl
    have hw := produced_willing h hc
    obtain ⟨hf, hq⟩ := produced_toCome h hc.attended hw
    refine ⟨produced_calm h hc, [], ?_, h.frame.2.1, ahead_congr (v := { u with pipe }) h.frame.1 hf hq⟩
    rcases h.heard with hh | ⟨-, hp, -⟩
    · exact hh
    · rw [hp] at hw
      cases hw
  | @delivered verdict pipe h =>
    obtain rfl : verdict = .accepted := by simpa [Label.calm] using hl
    obtain ⟨news, hh, hs, hn | ⟨hv, -⟩⟩ := delivered_ahead h
    · refine ⟨delivered_calm h hc, news, hh, hs ?_, hn⟩
      intro here
      have := hc.steady
      simp [here, Delivery.Steady] at this
    · exact absurd rfl hv
  | raised => cases hl
  | @told event other =>
    refine ⟨⟨hc.down, hc.unmarked, hc.attended, hc.willing, hc.listens, hc.steady⟩, [event], rfl, ?_, ?_⟩
    · exact (hear_other other).symm
    · rw [List.filter_cons_of_neg (by simp [other])]
      rfl
  | parted speaks rests done =>
    refine ⟨⟨hc.down, hc.unmarked, Or.inl rfl, rfl, ?_, hc.steady.parted⟩, [], rfl, rfl, ahead_congr rfl rfl ?_⟩
    · intro h
      cases h
    · rw [toCome_of_done hc.willing rests done]
      rfl

theorem start_calm (rate : UInt32) (buffers : List (List Sample)) {s : State} (down : s.flag = false) :
    Calm (start rate buffers s) :=
  ⟨down, rfl, Or.inl rfl, rfl, fun _ => rfl, trivial⟩

/-- An undisturbed utterance: what the host was told so far, with what is still ahead, is all of it. -/
theorem run_calm {rate : UInt32} {buffers : List (List Sample)} {s : State} {labels : List Label}
    (h : run limits labels (start rate buffers s) = some u) (down : s.flag = false)
    (calm : ∀ label ∈ labels, label.calm = true) :
    u.Calm ∧ ∃ told : List HostEvent, u.pipe.heard = told.reverse ++ s.heard ∧ u.pipe.stats = told.foldl Stats.hear {} ∧
      told.filter HostEvent.ofDelivery ++ ahead limits u = limits.spoken rate buffers := by
  refine run_keeps (P := fun u => u.Calm ∧ ∃ told : List HostEvent, u.pipe.heard = told.reverse ++ s.heard ∧
    u.pipe.stats = told.foldl Stats.hear {} ∧
    told.filter HostEvent.ofDelivery ++ ahead limits u = limits.spoken rate buffers) ?_ h ?_
  · rintro label hl u v hm ⟨hc, told, ht, hs, hp⟩
    obtain ⟨hv, news, hn, hs', hp'⟩ := moved_calm hm (calm label hl) hc
    refine ⟨hv, told ++ news, ?_, ?_, ?_⟩
    · rw [hn, ht, List.reverse_append, List.append_assoc]
    · rw [hs', hs, List.foldl_append]
    · rw [List.filter_append, List.append_assoc, hp', hp]
  · refine ⟨start_calm rate buffers down, [], rfl, rfl, ?_⟩
    rw [ahead_start, down]
    rfl

end

/-! ### The order of delivery -/

theorem chunk_of_buffers {limits : Limits} {rate : UInt32} {buffers : List (List Sample)} {frame : Frame}
    (h : frame ∈ accepted (limits.spoken rate buffers)) :
    frame.rate = rate ∧ frame.samples ≠ [] ∧ frame.samples.length ≤ limits.chunkSize ∧
      ∃ buffer ∈ buffers, frame.samples <:+: buffer := by
  rw [accepted_spoken, List.mem_flatMap] at h
  obtain ⟨buffer, hb, hf⟩ := h
  obtain ⟨hr, hne, hle, hin⟩ := mem_cut hf
  exact ⟨hr, hne, hle, buffer, hb, hin⟩

/-- Whatever comes in between, the host takes the samples of the engine's buffers in order, from the first
    on, with none left out and none repeated, in chunks that each lie within one buffer. If nothing comes in
    between, it hears the whole utterance, and the count of it is right. -/
theorem heard_in_order {rate : UInt32} {buffers : List (List Sample)} {chunkSize capacity : Nat} {s : State}
    {labels : List Label} {u : Utterance}
    (h : run (.ofSizes chunkSize capacity) labels (start rate buffers s) = some u) :
    ∃ told : List HostEvent, u.pipe.heard = told.reverse ++ s.heard ∧
      (accepted told).flatMap (·.samples) <+: buffers.flatten ∧
      (∀ frame ∈ accepted told, frame.rate = rate ∧ frame.samples ≠ [] ∧
        frame.samples.length ≤ max chunkSize 1 ∧ ∃ buffer ∈ buffers, frame.samples <:+: buffer) ∧
      (s.flag = false → (∀ label ∈ labels, label.calm = true) →
        told.filter HostEvent.ofDelivery <+: (Limits.ofSizes chunkSize capacity).spoken rate buffers ∧
        ∀ stats, u.pipe.delivery = .finished stats →
          told.filter HostEvent.ofDelivery = (Limits.ofSizes chunkSize capacity).spoken rate buffers ∧
          stats = (Limits.ofSizes chunkSize capacity).tally rate buffers) := by
  obtain ⟨told, ht, hp⟩ := run_ahead h
  have hp : accepted told <+: accepted ((Limits.ofSizes chunkSize capacity).spoken rate buffers) :=
    (List.prefix_append _ _).trans hp
  refine ⟨told, ht, ?_, ?_, ?_⟩
  · rw [← samples_accepted_spoken (.ofSizes chunkSize capacity) rate buffers]
    exact hp.flatMap _
  · intro frame hf
    exact chunk_of_buffers (hp.subset hf)
  · intro down calm
    obtain ⟨hc, told', ht', hs, hw⟩ := run_calm h down calm
    -- The two accounts are of one run, so they tell the same.
    obtain rfl : told = told' := List.reverse_injective (List.append_cancel_right (ht.symm.trans ht'))
    refine ⟨hw ▸ List.prefix_append _ _, ?_⟩
    intro stats hd
    -- Nothing is ahead of a loop that has finished.
    have hw : told.filter HostEvent.ofDelivery = (Limits.ofSizes chunkSize capacity).spoken rate buffers := by
      rw [← hw]
      simp [ahead, hd, Delivery.due, Delivery.shut]
    have hst := hc.steady
    rw [hd] at hst
    refine ⟨hw, ?_⟩
    rw [hst.2, hs, ← hear_filter, hw, hear_spoken]
    rfl

/-- One buffer of three samples, the two sides by turns. -/
def byTurns : List Label :=
  [.hand false] ++ List.replicate 5 (.produce false) ++ List.replicate 6 (.deliver .accepted) ++
    [.hand false] ++ List.replicate 5 (.produce false) ++ List.replicate 4 (.deliver .accepted) ++
    [.leave] ++ List.replicate 2 (.deliver .accepted)

theorem heard_in_order_byTurns :
    ∃ u, run (.ofSizes 2 1) byTurns (start 22050 [[1, 2, 3]] {}) = some u ∧
      u.pipe.heard.reverse.filter HostEvent.ofDelivery = (Limits.ofSizes 2 1).spoken 22050 [[1, 2, 3]] ∧
      u.pipe.delivery = .finished ((Limits.ofSizes 2 1).tally 22050 [[1, 2, 3]]) := by
  have hd : (run (.ofSizes 2 1) byTurns (start 22050 [[1, 2, 3]] {})).map (·.pipe.delivery) =
      some (.finished { frames := 2, samples := 3, ended := true }) := by decide +kernel
  obtain ⟨u, hu, hd⟩ := Option.map_eq_some_iff.mp hd
  obtain ⟨told, ht, -, -, hc⟩ := heard_in_order hu
  obtain ⟨hw, hs⟩ := (hc rfl (by decide)).2 _ hd
  rw [List.append_nil] at ht
  refine ⟨u, hu, ?_, ?_⟩
  · rw [ht, List.reverse_reverse, hw]
  · rw [hd, hs]

end Utterance

end Orator.Pipeline
