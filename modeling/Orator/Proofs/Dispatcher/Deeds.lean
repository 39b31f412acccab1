import Orator.Proofs.Dispatcher.Exclusive

/-! What the threads do that counts for each other, and how often they have done it: channels are opened and
    closed, and workers begin and end, strictly by turns. -/

namespace Orator

/-- What a thread can do with a single step that another thread may be waiting for, or may want undone. -/
inductive Deed where
  /-- The channel of an accepted request is opened, and is closed again. -/
  | opened | closed
  | speakerBegan | speakerEnded
  | deliveryBegan | deliveryEnded
  /-- The engine calls back; the callback puts a packet into the channel, stops the host's queue, and
      returns. -/
  | called | sent | stopped
  | returned (abort : Bool)
  /-- The delivery loop takes a packet out of the channel, throws it away, pushes a chunk of it to the host, or
      notifies the host of the end. -/
  | took | dropped | pushed | ended
deriving DecidableEq, Repr

def Deed.tallied : Deed → Bool
  | .opened | .closed | .speakerBegan | .speakerEnded | .deliveryBegan | .deliveryEnded => true
  | _ => false

namespace Pipeline

/-- What the next step of the callback does. -/
def produceDeeds (s : State) : List Deed :=
  match s.producer with
  | .silencing => [.stopped, .returned true]
  | .routing _ => if s.route.isSome then [] else [.returned true]
  | .sending _ => if s.receiver then [.sent] else [.returned true]
  | .verifying => [.returned s.flag]
  | _ => []

/-- What the next step of the delivery loop does. -/
def deliverDeeds (verdict : Verdict) (s : State) : List Deed :=
  match s.delivery with
  | .receiving => if s.queue.isEmpty then [] else [.took]
  | .discarding => [.dropped]
  | .pushing .. =>
    match verdict with
    | .crashed _ => [.pushed, .deliveryEnded]
    | _ => [.pushed]
  | .ending => [.ended]
  | .settling => [.deliveryEnded]
  | _ => []

end Pipeline

namespace Dispatcher

open Pipeline (Limits Produced Delivered produceDeeds deliverDeeds)

/-- What the step of that label does. -/
def deeds : Label → State → List Deed
  | .control, s =>
    match s.control with
    | .opening .. => [.opened]
    | .spawning .. => [.speakerBegan]
    | .attending _ => [.deliveryBegan]
    | _ => []
  | .speak, s =>
    match s.speaker with
    | .leaving _ => [.closed, .speakerEnded]
    | _ => []
  | .call .., _ => [.called]
  | .produce _, s => produceDeeds s.pipe
  | .deliver verdict, s => deliverDeeds verdict s.pipe
  | _, _ => []

/-- Every channel opened so far is closed again, and both workers of it have begun and ended. -/
structure AllEnded (past : List Deed) : Prop where
  closed : past.count .closed = past.count .opened
  speakerBegan : past.count .speakerBegan = past.count .opened
  speakerEnded : past.count .speakerEnded = past.count .opened
  deliveryBegan : past.count .deliveryBegan = past.count .opened
  deliveryEnded : past.count .deliveryEnded = past.count .opened

/-- What is open or running is what has been opened, or begun, once more than closed, or ended. -/
structure Tallied (past : List Deed) (s : State) : Prop where
  closed : past.count .opened = past.count .closed + s.pipe.route.isSome.toNat
  speaker : past.count .speakerBegan = past.count .speakerEnded + s.speaker.running.toNat
  delivery : past.count .deliveryBegan = past.count .deliveryEnded + s.pipe.delivery.running.toNat
  spawned : past.count .opened = past.count .speakerBegan + s.control.spawns.toNat
  attended : past.count .speakerBegan = past.count .deliveryBegan + s.control.attends.toNat

/-- No channel was opened before all was over with those before it. -/
def Apart (past : List Deed) : Prop :=
  ∀ before after, past = before ++ .opened :: after → AllEnded before

section
variable {house : House} {limits : Limits} {s t : State} {label : Label} {past : List Deed}

theorem start_tallied (session : Session) : Tallied [] { session } where
  closed := rfl
  speaker := rfl
  delivery := rfl
  spawned := rfl
  attended := rfl

theorem Tallied.rest (h : Tallied past s) {more : List Deed} (others : more.all (!·.tallied) = true)
    (route : t.pipe.route.isSome = s.pipe.route.isSome) (speaker : t.speaker.running = s.speaker.running)
    (delivery : t.pipe.delivery.running = s.pipe.delivery.running) (spawns : t.control.spawns = s.control.spawns)
    (attends : t.control.attends = s.control.attends) : Tallied (past ++ more) t := by
  have count {deed : Deed} (hd : deed.tallied = true) : (past ++ more).count deed = past.count deed := by
    have hm : more.count deed = 0 := by
      refine List.count_eq_zero_of_not_mem fun hm => ?_
      have := List.all_eq_true.mp others deed hm
      simp [hd] at this
    rw [List.count_append, hm]
    rfl
  refine ⟨?_, ?_, ?_, ?_, ?_⟩
  · rw [count rfl, count rfl, route]
    exact h.closed
  · rw [count rfl, count rfl, speaker]
    exact h.speaker
  · rw [count rfl, count rfl, delivery]
    exact h.delivery
  · rw [count rfl, count rfl, spawns]
    exact h.spawned
  · rw [count rfl, count rfl, attends]
    exact h.attended

theorem produced_others {stopRequested : Bool} {pipe : Pipeline.State}
    (h : Produced limits stopRequested s.pipe pipe) : (produceDeeds s.pipe).all (!·.tallied) = true := by
  cases h <;> simp_all [produceDeeds, Deed.tallied]

theorem delivered_deeds {verdict : Verdict} {pipe : Pipeline.State} (h : Delivered limits verdict s.pipe pipe) :
    ((deliverDeeds verdict s.pipe).all (!·.tallied) = true ∧ pipe.delivery.running = true) ∨
      (pipe.delivery.running = false ∧
        ∃ rest : List Deed, deliverDeeds verdict s.pipe = rest ++ [.deliveryEnded] ∧ rest.all (!·.tallied) = true) := by
  cases h with
  | opened here => exact Or.inl ⟨by simp [deliverDeeds, here], Pipeline.running_ofSamples _ _⟩
  | accepted here verdict_eq =>
    exact Or.inl ⟨by simp [deliverDeeds, here, verdict_eq, Deed.tallied], Pipeline.running_ofSamples _ _⟩
  | crashed here verdict_eq => exact Or.inr ⟨rfl, [.pushed], by simp [deliverDeeds, here, verdict_eq], rfl⟩
  | settled here => exact Or.inr ⟨rfl, [], by simp [deliverDeeds, here], rfl⟩
  | took here next => exact Or.inl ⟨by simp [deliverDeeds, here, next, Deed.tallied], rfl⟩
  | drained here empty => exact Or.inl ⟨by simp [deliverDeeds, here, empty], rfl⟩
  | refused here verdict_eq => exact Or.inl ⟨by simp [deliverDeeds, here, verdict_eq, Deed.tallied], rfl⟩
  | _ here => exact Or.inl ⟨by simp [deliverDeeds, here, Deed.tallied], rfl⟩

theorem delivered_tallied {verdict : Verdict} {pipe : Pipeline.State} (h : Delivered limits verdict s.pipe pipe)
    (ht : Tallied past s) : Tallied (past ++ deliverDeeds verdict s.pipe) { s with pipe } := by
  obtain ⟨-, hr⟩ := h.frame
  rcases delivered_deeds h with ⟨others, runs⟩ | ⟨stops, rest, hd, others⟩
  · exact ht.rest others (by rw [hr]) rfl (by rw [runs, h.runs]) rfl rfl
  · obtain ⟨closed, speaker, delivery, spawned, attended⟩ :=
      ht.rest others (rfl : s.pipe.route.isSome = s.pipe.route.isSome) rfl rfl rfl rfl
    rw [h.runs] at delivery
    rw [hd, ← List.append_assoc]
    constructor <;> simp_all [List.count_append, Nat.add_assoc]

theorem moved_tallied (h : Moved house limits s label t) (hs : Exclusive s) (ht : Tallied past s) :
    Tallied (past ++ deeds label s) t := by
  -- Five steps change a count; every other one leaves all five equations as they are.
  cases h with
  | @took task here =>
    obtain ⟨-, hs, ha⟩ := enter_idle task
    exact ht.rest rfl rfl rfl rfl (by rw [here]; exact hs) (by rw [here]; exact ha)
  | reported here => exact ht.rest (by simp [deeds, here]) rfl rfl rfl (by rw [here]; rfl) (by rw [here]; rfl)
  | @wentOn task here alone =>
    obtain ⟨hs, ha⟩ := proceed_idle task none
    exact ht.rest (by simp [deeds, here]) rfl rfl rfl (by rw [here]; exact hs) (by rw [here]; exact ha)
  | @collected task outcome here done =>
    obtain ⟨hs, ha⟩ := proceed_idle task (some outcome)
    exact ht.rest (by simp [deeds, here]) rfl rfl rfl (by rw [here]; exact hs) (by rw [here]; exact ha)
  | unresolved here => exact ht.rest (by simp [deeds, here]) rfl rfl rfl (by rw [here]; rfl) (by rw [here]; rfl)
  | resolved here => exact ht.rest (by simp [deeds, here]) rfl rfl rfl (by rw [here]; rfl) (by rw [here]; rfl)
  | unswitched here => exact ht.rest (by simp [deeds, here]) rfl rfl rfl (by rw [here]; rfl) (by rw [here]; rfl)
  | switched here => exact ht.rest (by simp [deeds, here]) rfl rfl rfl (by rw [here]; rfl) (by rw [here]; rfl)
  | stopped here => exact ht.rest (by simp [deeds, here]) rfl rfl rfl (by rw [here]; rfl) (by rw [here]; rfl)
  | cleared here => exact ht.rest (by simp [deeds, here]) rfl rfl rfl (by rw [here]; rfl) (by rw [here]; rfl)
  | released here => exact ht.rest rfl rfl rfl rfl (by rw [here]; rfl) (by rw [here]; rfl)
  | opened here =>
    obtain ⟨closed, speaker, delivery, spawned, attended⟩ := ht
    have works : s.control.working = true := by rw [here]; rfl
    have hr : s.pipe.route.isSome = false := by
      rw [hs.routed, here, hs.speaker_absent works (by rw [here]; rfl)]
      rfl
    rw [hs.delivery_idle works] at delivery
    have hd : deeds .control s = [.opened] := by simp [deeds, here]
    rw [hd]
    constructor <;>
      simp_all [List.count_append, Pipeline.State.beginUtterance, Control.spawns, Control.attends,
        Pipeline.Delivery.running]
  | spawned here =>
    obtain ⟨closed, speaker, delivery, spawned, attended⟩ := ht
    have hd : deeds .control s = [.speakerBegan] := by simp [deeds, here]
    rw [hs.speaker_absent (by rw [here]; rfl) (by rw [here]; rfl)] at speaker
    rw [hd]
    constructor <;> simp_all [List.count_append, Control.spawns, Control.attends, Speaker.running]
  | attended here =>
    obtain ⟨closed, speaker, delivery, spawned, attended⟩ := ht
    have hd : deeds .control s = [.deliveryBegan] := by simp [deeds, here]
    rw [hs.delivery_idle (by rw [here]; rfl)] at delivery
    rw [hd]
    constructor <;>
      simp_all [List.count_append, Pipeline.State.startDelivery, Control.spawns, Control.attends,
        Pipeline.Delivery.running]
  | left here =>
    obtain ⟨closed, speaker, delivery, spawned, attended⟩ := ht
    have hd : deeds .speak s = [.closed, .speakerEnded] := by simp [deeds, here]
    have hr : s.pipe.route.isSome = true := by simp [hs.routed, here, Speaker.running]
    rw [hd]
    constructor <;> simp_all [List.count_append, Pipeline.State.endUtterance, Speaker.running]
  | skipped here => exact ht.rest (by simp [deeds, here]) rfl (by rw [here]; rfl) rfl rfl rfl
  | began here => exact ht.rest (by simp [deeds, here]) rfl (by rw [here]; rfl) rfl rfl rfl
  | called here => exact ht.rest rfl rfl rfl rfl rfl rfl
  | produced h =>
    obtain ⟨hd, -, hr, -⟩ := h.frame
    exact ht.rest (produced_others h) (by rw [hr]) rfl (by rw [hd]) rfl rfl
  | spoke here => exact ht.rest rfl rfl (by rw [here]; rfl) rfl rfl rfl
  | crashed here => exact ht.rest rfl rfl (by rw [here]; rfl) rfl rfl rfl
  | delivered h => exact delivered_tallied h ht
  | counted => exact ht.rest rfl rfl rfl rfl rfl rfl
  | forgone => exact ht.rest rfl rfl rfl rfl rfl rfl
  | concluded here done => exact ht.rest rfl rfl (by rw [done]; rfl) rfl rfl rfl
  | raised => exact ht.rest rfl rfl rfl rfl rfl rfl
  | lowered => exact ht.rest rfl rfl rfl rfl rfl rfl

theorem Tallied.allEnded (ht : Tallied past s) (hs : Exclusive s) (here : s.control.working = true)
    (spawns : s.control.spawns = false) (attends : s.control.attends = false) : AllEnded past := by
  obtain ⟨closed, speaker, delivery, spawned, attended⟩ := ht
  rw [hs.routed, spawns, hs.speaker_absent here attends] at closed
  rw [hs.speaker_absent here attends] at speaker
  rw [hs.delivery_idle here] at delivery
  rw [spawns] at spawned
  rw [attends] at attended
  simp only [Speaker.running, Bool.or_false, Bool.toNat_false, Nat.add_zero] at closed speaker delivery spawned attended
  constructor <;> omega

/-- Only a task opens a channel, and it does nothing else with that step. -/
theorem opened_deeds (h : Deed.opened ∈ deeds label s) :
    deeds label s = [.opened] ∧ ∃ engine request, s.control = .opening engine request := by
  cases label with
  | control =>
    cases here : s.control <;> simp [deeds, here] at h ⊢
  | speak => cases here : s.speaker <;> simp [deeds, here] at h
  | produce =>
    cases here : s.pipe.producer <;> simp only [deeds, produceDeeds, here] at h
    all_goals try split at h
    all_goals simp at h
  | deliver verdict =>
    cases here : s.pipe.delivery <;> simp only [deeds, deliverDeeds, here] at h
    all_goals try split at h
    all_goals simp at h
  | _ => simp [deeds] at h

theorem deeds_apart (hs : Exclusive s) (ht : Tallied past s) (ha : Apart past) : Apart (past ++ deeds label s) := by
  -- At its own turn everything before the deed is the past.
  have now {rest : List Deed} (h : deeds label s = .opened :: rest) : AllEnded past := by
    obtain ⟨-, engine, request, here⟩ := opened_deeds (h ▸ List.mem_cons_self)
    exact ht.allEnded hs (by rw [here]; rfl) (by rw [here]; rfl) (by rw [here]; rfl)
  intro before after h
  rcases List.append_eq_append_iff.mp h with ⟨more, rfl, hm⟩ | ⟨more, rfl, hm⟩
  · have opens : Deed.opened ∈ deeds label s := by simp [hm]
    obtain ⟨hd, -⟩ := opened_deeds opens
    rw [hd] at hm
    obtain ⟨rfl, rfl⟩ : more = [] ∧ after = [] := by
      cases more <;> simp_all
    rw [List.append_nil]
    exact now hd
  · cases more with
    | nil =>
      rw [List.append_nil] at now
      exact now hm.symm
    | cons deed more =>
      rw [List.cons_append, List.cons.injEq] at hm
      exact ha before more (by rw [hm.1])

end

end Dispatcher

end Orator
