import Orator.Proofs.Dispatcher.Flow

/-! An utterance is under way from the moment its flag is lowered until both its workers have ended and the
    watcher has seen it. Nobody lowers the flag in that time. -/

namespace Orator

namespace Dispatcher

open Pipeline (Limits Stats Flow)

/-- Whether the flag is lowered and the channel not yet open. -/
def Control.opens : Control → Bool
  | .opening .. => true
  | _ => false

def State.underway (s : State) : Bool :=
  s.control.opens || s.control.spawns || s.control.attends || s.speaker.running || s.pipe.delivery.running ||
    s.watcher.awaiting

section
variable {house : House} {limits : Limits} {s t : State} {label : Label}

/-- No task lowers the flag of an utterance that is under way. -/
theorem Exclusive.not_clearing (hs : Exclusive s) (under : s.underway = true) (engine : Engine) (request : Request) :
    s.control ≠ .clearing engine request := by
  intro here
  have works : s.control.working = true := by rw [here]; rfl
  have speaker := hs.speaker_absent works (by rw [here]; rfl)
  have delivery := hs.delivery_idle works
  simp [State.underway, here, speaker, delivery, hs.alone works, Control.opens, Control.spawns, Control.attends,
    Speaker.running, Watcher.awaiting] at under

theorem moved_flag (h : Moved house limits s label t) (never : label ≠ .clear) (hs : Exclusive s)
    (under : s.underway = true) (up : s.pipe.flag = true) : t.pipe.flag = true := by
  cases h with
  | cleared here => exact absurd here (hs.not_clearing under _ _)
  | produced h => exact h.flag_mono up
  | delivered h => exact h.flag_mono up
  | raised => rfl
  | lowered => exact absurd rfl never
  | _ => exact up

theorem opens_enter (task : Task) : task.enter.opens = false := by
  cases task <;> rfl

theorem opens_proceed (task : Task) (outcome : Option Outcome) : (task.proceed outcome).opens = false := by
  cases task <;> rfl

theorem moved_opens (h : Moved house limits s label t) (hs : Exclusive s) (under : s.underway = true)
    (past : s.control.opens = false) : t.control.opens = false := by
  cases h with
  | took => exact opens_enter _
  | wentOn => exact opens_proceed _ _
  | collected => exact opens_proceed _ _
  | cleared here => exact absurd here (hs.not_clearing under _ _)
  | reported | unresolved | resolved | unswitched | switched | stopped | opened | spawned | attended | released => rfl
  | _ => exact past

/-- What happens to the pipeline while an utterance is under way and its channel has been opened. -/
theorem moved_flow (h : Moved house limits s label t) (never : label ≠ .clear) (hs : Exclusive s)
    (under : s.underway = true) (past : s.control.opens = false) :
    Flow limits s.pipe (deeds label s) t.pipe := by
  cases h with
  | reported here | wentOn here | collected here | unresolved here | resolved here | unswitched here | switched here
  | stopped here =>
    have hd : deeds .control s = [] := by simp [deeds, here]
    rw [hd]
    exact .told
  | cleared here => exact absurd here (hs.not_clearing under _ _)
  | opened here =>
    rw [here] at past
    cases past
  | spawned here =>
    have hd : deeds .control s = [.speakerBegan] := by simp [deeds, here]
    rw [hd]
    exact .spawned
  | attended here =>
    have hd : deeds .control s = [.deliveryBegan] := by simp [deeds, here]
    rw [hd]
    exact .begun (hs.delivery_idle (by rw [here]; rfl))
  | skipped here | began here =>
    have hd : deeds .speak s = [] := by simp [deeds, here]
    rw [hd]
    exact .told
  | left here =>
    have hd : deeds .speak s = [.closed, .speakerEnded] := by simp [deeds, here]
    rw [hd]
    exact .closed
  | called _ rests => exact .called rests
  | produced h => exact .produced h
  | spoke _ rests => exact .back rests
  | crashed _ rests => exact .back rests
  | delivered h => exact .delivered h
  | raised => exact .raised
  | lowered => exact absurd rfl never
  | _ => exact .told

theorem moved_called (h : Moved house limits s label t) (hd : Deed.called ∈ deeds label s) :
    (∃ engine, s.speaker = .speaking engine) ∧ t.control = s.control ∧ t.pipe.flag = s.pipe.flag ∧
      t.pipe.producer.turning = true ∧ t.pipe.producer ≠ .silencing := by
  cases h with
  | called here => exact ⟨⟨_, here⟩, rfl, rfl, rfl, nofun⟩
  | produced h => cases h <;> simp_all [deeds, Pipeline.produceDeeds]
  | delivered h =>
    have := List.mem_filter.mpr ⟨hd, (rfl : Deed.called.ofCallback = true)⟩
    rw [deeds, Pipeline.deliverDeeds_ofCallback] at this
    cases this
  | _ => simp_all [deeds]

theorem moved_took (h : Moved house limits s label t) (hd : Deed.took ∈ deeds label s) :
    s.pipe.delivery.running = true ∧ t.control = s.control ∧ t.pipe.flag = s.pipe.flag ∧
      t.pipe.delivery.holding = true ∧ t.pipe.Counted := by
  cases h with
  | produced h =>
    have := List.mem_filter.mpr ⟨hd, (rfl : Deed.took.ofLoop = true)⟩
    rw [deeds, Pipeline.produceDeeds_ofLoop] at this
    cases this
  | delivered h =>
    have runs := h.runs
    cases h with
    | took =>
      refine ⟨runs, rfl, rfl, rfl, ?_⟩
      intro stats there
      cases there
    | _ => simp_all [deeds, Pipeline.deliverDeeds]
  | _ => simp_all [deeds]

end

end Dispatcher

end Orator
