import Orator.Proofs.Dispatcher.Deeds

/-! What can happen to the pipeline while one utterance is under way, and what a raised flag makes of it: the
    callback turns away what it is called with, and the delivery loop throws away what it takes. -/

namespace Orator

def Deed.ofCallback : Deed → Bool
  | .called | .sent | .stopped | .returned _ => true
  | _ => false

def Deed.ofLoop : Deed → Bool
  | .took | .dropped | .pushed | .ended => true
  | _ => false

namespace Pipeline

/-- Whether the callback has been called and will refuse if the flag is up: it is about to look at the flag,
    or on its way back with the wish that the engine abort. -/
def Producer.turning : Producer → Bool
  | .entered .. | .marking | .silencing => true
  | _ => false

/-- Whether the callback has nothing in its hands that can still get into the channel if the flag is up. -/
def Producer.quiet : Producer → Bool
  | .idle | .returned _ => true
  | producer => producer.turning

/-- Whether the delivery loop has a packet in its hands and has not yet looked at the flag, or has seen that it
    is up. -/
def Delivery.holding : Delivery → Bool
  | .received _ | .discarding => true
  | _ => false

/-- Whether the delivery loop has nothing in its hands that the host will still hear of if the flag is up. -/
def Delivery.muted : Delivery → Bool
  | .receiving | .received _ | .discarding | .settling | .finished _ => true
  | _ => false

/-- The loop has counted what it says. -/
def State.Counted (s : State) : Prop :=
  ∀ stats, s.delivery = .finished stats → stats.dropped = s.stats.dropped

/-- The utterance is marked, and so is its count once there is one. -/
def State.Marked (s : State) : Prop :=
  s.aborted = true ∧ ∀ stats, s.delivery = .finished stats → stats.aborted = true

/-- A callback or a packet has met the raised flag; the utterance is marked or is just about to be. -/
def State.Touched (s : State) : Prop :=
  (s.producer.turning = true ∧ s.producer ≠ .silencing) ∨ s.delivery.holding = true ∨ s.Marked

theorem holding_running {delivery : Delivery} (h : delivery.holding = true) : delivery.running = true := by
  cases delivery <;> first | rfl | cases h

theorem muted_holding {delivery : Delivery} (h : delivery.holding = true) : delivery.muted = true := by
  cases delivery <;> first | rfl | cases h

theorem quiet_turning {producer : Producer} (h : producer.turning = true) : producer.quiet = true := by
  cases producer <;> first | rfl | cases h

section
variable {limits : Limits} {s t : State}

/-! ### The callback -/

/-- A callback that is called while the flag is up marks the utterance, stops the host's queue and returns. -/
theorem Produced.turned {stopRequested : Bool} (h : Produced limits stopRequested s t) (up : s.flag = true)
    (here : s.producer.turning = true) :
    (t.producer.turning = true ∧ produceDeeds s = []) ∨ produceDeeds s = [.stopped, .returned true] := by
  cases h with
  | engineCancelled here => exact Or.inl ⟨rfl, by simp [produceDeeds, here]⟩
  | cancelled here => exact Or.inl ⟨rfl, by simp [produceDeeds, here]⟩
  | admitted _ down => simp [up] at down
  | marked here => exact Or.inl ⟨rfl, by simp [produceDeeds, here]⟩
  | silenced here => exact Or.inr (by simp [produceDeeds, here])
  | _ at_ =>
    rw [at_] at here
    cases here

theorem produce_of_turning (limits : Limits) (here : s.producer.turning = true) (stopRequested : Bool) :
    (produce limits stopRequested s).isSome = true := by
  unfold produce
  cases hp : s.producer with
  | entered _ engineCancelled => cases engineCancelled <;> rfl
  | marking => rfl
  | silencing => rfl
  | _ =>
    rw [hp] at here
    cases here

theorem deliver_of_holding (limits : Limits) (here : s.delivery.holding = true) (verdict : Verdict) :
    (deliver limits verdict s).isSome = true := by
  unfold deliver
  cases hd : s.delivery with
  | received packet =>
    cases s.flag
    · cases packet <;> rfl
    · rfl
  | discarding => rfl
  | _ =>
    rw [hd] at here
    cases here

theorem Produced.quiet {stopRequested : Bool} (h : Produced limits stopRequested s t) (up : s.flag = true)
    (here : s.producer.quiet = true) : t.producer.quiet = true ∧ Deed.sent ∉ produceDeeds s := by
  cases h with
  | engineCancelled here => exact ⟨rfl, by simp [produceDeeds, here]⟩
  | cancelled here => exact ⟨rfl, by simp [produceDeeds, here]⟩
  | admitted _ down => simp [up] at down
  | marked here => exact ⟨rfl, by simp [produceDeeds, here]⟩
  | silenced here => exact ⟨rfl, by simp [produceDeeds, here]⟩
  | _ at_ =>
    rw [at_] at here
    cases here

theorem Produced.marks {stopRequested : Bool} (h : Produced limits stopRequested s t) (up : s.flag = true)
    (here : s.producer.turning = true) (unmarked : s.producer ≠ .silencing) :
    (t.producer.turning = true ∧ t.producer ≠ .silencing) ∨ t.aborted = true := by
  cases h with
  | engineCancelled here => exact Or.inl ⟨rfl, nofun⟩
  | cancelled here => exact Or.inl ⟨rfl, nofun⟩
  | admitted _ down => simp [up] at down
  | marked here => exact Or.inr rfl
  | silenced here => exact absurd here unmarked
  | _ at_ =>
    rw [at_] at here
    cases here

/-! ### The delivery loop -/

namespace Delivered
variable {verdict : Verdict}

theorem discards (h : Delivered limits verdict s t) (up : s.flag = true) (here : s.delivery.holding = true) :
    (t.delivery.holding = true ∧ deliverDeeds verdict s = []) ∨
      (t.aborted = true ∧ t.delivery = .receiving ∧ deliverDeeds verdict s = [.dropped]) := by
  cases h with
  | condemned here => exact Or.inl ⟨rfl, by simp [deliverDeeds, here]⟩
  | opened _ down => simp [up] at down
  | closing _ down => simp [up] at down
  | discarded here => exact Or.inr ⟨rfl, rfl, by simp [deliverDeeds, here]⟩
  | _ at_ =>
    rw [at_] at here
    cases here

theorem muted (h : Delivered limits verdict s t) (up : s.flag = true) (here : s.delivery.muted = true) :
    t.delivery.muted = true ∧ Deed.pushed ∉ deliverDeeds verdict s ∧ Deed.ended ∉ deliverDeeds verdict s := by
  cases h with
  | took here next => exact ⟨rfl, by simp [deliverDeeds, here, next]⟩
  | drained here empty => exact ⟨rfl, by simp [deliverDeeds, here, empty]⟩
  | condemned here => exact ⟨rfl, by simp [deliverDeeds, here]⟩
  | opened _ down => simp [up] at down
  | closing _ down => simp [up] at down
  | discarded here => exact ⟨rfl, by simp [deliverDeeds, here]⟩
  | settled here => exact ⟨rfl, by simp [deliverDeeds, here]⟩
  | _ at_ =>
    rw [at_] at here
    cases here

theorem dropped (h : Delivered limits verdict s t) :
    t.stats.dropped = s.stats.dropped + (deliverDeeds verdict s).count .dropped := by
  cases h with
  | took here next => simp [deliverDeeds, here, next]
  | drained here empty => simp [deliverDeeds, here, empty]
  | accepted here verdict_eq => simp [deliverDeeds, here, verdict_eq, Stats.accept]
  | refused here verdict_eq => simp [deliverDeeds, here, verdict_eq, State.tell]
  | crashed here verdict_eq => simp [deliverDeeds, here, verdict_eq, State.dropReceiver, State.tell]
  | _ here => simp [deliverDeeds, here, State.tell, State.dropReceiver]

end Delivered

/-! ### One utterance -/

/-- What can happen to the pipeline while an utterance is under way, and what is done with it. -/
inductive Flow (limits : Limits) (s : State) : List Deed → State → Prop where
  | told {heard} : Flow limits s [] { s with heard }
  | raised : Flow limits s [] { s with flag := true }
  | spawned : Flow limits s [.speakerBegan] s
  | begun (idle : s.delivery.running = false) : Flow limits s [.deliveryBegan] s.startDelivery
  | called {buffer engineCancelled} (rests : s.resting = true) :
    Flow limits s [.called] { s with producer := .entered buffer engineCancelled }
  | produced {stopRequested t} (h : Produced limits stopRequested s t) : Flow limits s (produceDeeds s) t
  | back (rests : s.resting = true) : Flow limits s [] { s with producer := .idle }
  | closed : Flow limits s [.closed, .speakerEnded] s.endUtterance
  | delivered {verdict t} (h : Delivered limits verdict s t) : Flow limits s (deliverDeeds verdict s) t

theorem produceDeeds_ofLoop : (produceDeeds s).filter Deed.ofLoop = [] := by
  unfold produceDeeds
  split
  · rfl
  · split <;> rfl
  · split <;> rfl
  · rfl
  · rfl

theorem deliverDeeds_ofCallback (verdict : Verdict) : (deliverDeeds verdict s).filter Deed.ofCallback = [] := by
  unfold deliverDeeds
  split
  · split <;> rfl
  · rfl
  · split <;> rfl
  · rfl
  · rfl
  · rfl

theorem busy_of_turning (here : s.producer.turning = true) : s.resting = false := by
  unfold State.resting
  cases hp : s.producer <;> first | rfl | (rw [hp] at here; cases here)

theorem unsettled_of_turning (here : s.producer.turning = true)
    (inside : s.producer = .idle ∨ s.delivery.through = false) (stats : Stats) : s.delivery ≠ .finished stats := by
  intro there
  rcases inside with idle | open_
  · rw [idle] at here
    cases here
  · rw [there] at open_
    cases open_

theorem State.Touched.settled (h : s.Touched) (inside : s.producer = .idle ∨ s.delivery.through = false)
    {stats : Stats} (there : s.delivery = .finished stats) : stats.aborted = true := by
  rcases h with ⟨here, -⟩ | here | here
  · exact absurd there (unsettled_of_turning here inside stats)
  · rw [there] at here
    cases here
  · exact here.2 stats there

namespace Flow
variable {done : List Deed}

theorem flag_mono (h : Flow limits s done t) (up : s.flag = true) : t.flag = true := by
  cases h with
  | raised => rfl
  | produced h => exact h.flag_mono up
  | delivered h => exact h.flag_mono up
  | _ => exact up

theorem aborted_mono (h : Flow limits s done t) (marked : s.aborted = true) : t.aborted = true := by
  cases h with
  | produced h => exact h.aborted_mono marked
  | delivered h => exact h.aborted_mono marked
  | _ => exact marked

theorem quiet (h : Flow limits s done t) (up : s.flag = true) (here : s.producer.quiet = true) :
    t.producer.quiet = true ∧ Deed.sent ∉ done := by
  cases h with
  | called => exact ⟨rfl, by simp⟩
  | produced h => exact h.quiet up here
  | back => exact ⟨rfl, by simp⟩
  | delivered h =>
    refine ⟨h.frame.1 ▸ here, fun hm => ?_⟩
    have := List.mem_filter.mpr ⟨hm, (rfl : Deed.sent.ofCallback = true)⟩
    rw [deliverDeeds_ofCallback] at this
    cases this
  | _ => exact ⟨here, by simp⟩

theorem turned (h : Flow limits s done t) (up : s.flag = true) (here : s.producer.turning = true) :
    (t.producer.turning = true ∧ done.filter Deed.ofCallback = []) ∨
      done.filter Deed.ofCallback = [.stopped, .returned true] := by
  have busy := busy_of_turning here
  cases h with
  | called rests => simp [busy] at rests
  | back rests => simp [busy] at rests
  | produced h =>
    rcases h.turned up here with ⟨there, hd⟩ | hd
    · exact Or.inl ⟨there, by rw [hd]; rfl⟩
    · exact Or.inr (by rw [hd]; rfl)
  | delivered h => exact Or.inl ⟨h.frame.1 ▸ here, deliverDeeds_ofCallback _⟩
  | _ => exact Or.inl ⟨here, rfl⟩

theorem muted (h : Flow limits s done t) (up : s.flag = true) (here : s.delivery.muted = true) :
    t.delivery.muted = true ∧ Deed.pushed ∉ done ∧ Deed.ended ∉ done := by
  cases h with
  | begun => exact ⟨rfl, by simp⟩
  | produced h =>
    have others {deed : Deed} (hl : deed.ofLoop = true) : deed ∉ produceDeeds s := by
      intro hm
      have := List.mem_filter.mpr ⟨hm, hl⟩
      rw [produceDeeds_ofLoop] at this
      cases this
    exact ⟨h.frame.1 ▸ here, others rfl, others rfl⟩
  | delivered h => exact h.muted up here
  | _ => exact ⟨here, by simp⟩

theorem discarded (h : Flow limits s done t) (up : s.flag = true) (here : s.delivery.holding = true) :
    (t.delivery.holding = true ∧ done.filter Deed.ofLoop = []) ∨
      (t.aborted = true ∧ t.delivery = .receiving ∧ done.filter Deed.ofLoop = [.dropped]) := by
  cases h with
  | begun idle => simp [holding_running here] at idle
  | produced h => exact Or.inl ⟨h.frame.1 ▸ here, produceDeeds_ofLoop⟩
  | delivered h =>
    rcases h.discards up here with ⟨there, hd⟩ | ⟨marked, there, hd⟩
    · exact Or.inl ⟨there, by rw [hd]; rfl⟩
    · exact Or.inr ⟨marked, there, by rw [hd]; rfl⟩
  | _ => exact Or.inl ⟨here, rfl⟩

theorem dropped (h : Flow limits s done t) :
    t.stats.dropped = s.stats.dropped + done.count .dropped := by
  cases h with
  | produced h =>
    have : (produceDeeds s).count .dropped = 0 := by
      refine List.count_eq_zero_of_not_mem fun hm => ?_
      have := List.mem_filter.mpr ⟨hm, (rfl : Deed.dropped.ofLoop = true)⟩
      rw [produceDeeds_ofLoop] at this
      cases this
    rw [this, h.frame.2.1]
    rfl
  | delivered h => exact h.dropped
  | _ => rfl

theorem counted (h : Flow limits s done t) (hc : s.Counted) : t.Counted := by
  cases h with
  | begun => exact nofun
  | produced h =>
    unfold State.Counted
    rw [h.frame.1, h.frame.2.1]
    exact hc
  | delivered h =>
    intro stats there
    obtain ⟨rfl, hs⟩ := h.finished there
    rw [hs]
  | _ => exact hc

theorem marked (h : Flow limits s done t) (hm : s.Marked) : t.Marked := by
  refine ⟨h.aborted_mono hm.1, ?_⟩
  cases h with
  | begun => exact nofun
  | produced h =>
    rw [h.frame.1]
    exact hm.2
  | delivered h =>
    intro stats there
    obtain ⟨rfl, -⟩ := h.finished there
    exact hm.1
  | _ => exact hm.2

theorem touched (h : Flow limits s done t) (up : s.flag = true) (hs : s.Touched)
    (inside : s.producer = .idle ∨ s.delivery.through = false) : t.Touched := by
  rcases hs with ⟨here, before⟩ | here | here
  · have busy := busy_of_turning here
    cases h with
    | called rests => simp [busy] at rests
    | back rests => simp [busy] at rests
    | produced h =>
      rcases h.marks up here before with there | marked
      · exact Or.inl there
      · refine Or.inr (Or.inr ⟨marked, ?_⟩)
        rw [h.frame.1]
        intro stats there
        exact absurd there (unsettled_of_turning here inside stats)
    | delivered h => exact Or.inl (h.frame.1 ▸ ⟨here, before⟩)
    | _ => exact Or.inl ⟨here, before⟩
  · rcases h.discarded up here with ⟨there, -⟩ | ⟨marked, there, -⟩
    · exact Or.inr (Or.inl there)
    · refine Or.inr (Or.inr ⟨marked, ?_⟩)
      rw [there]
      exact nofun
  · exact Or.inr (Or.inr (h.marked here))

end Flow

end

end Pipeline

end Orator
