import Orator.Proofs.Pipeline.Effort
import Orator.Proofs.Pipeline.Rendering

/-! The count of an utterance, held against what was put into its channel and what the host heard of it. The channel
    is open to the callback, which may be called with anything, and to anyone else, who may put anything into it; the
    count must be right for whatever comes out of it. -/

namespace Orator

def HostEvent.verdict? : HostEvent → Option Verdict
  | .push _ verdict => some verdict
  | _ => none

/-- How the host answered the pushes, in the order of the events. -/
def verdicts (events : List HostEvent) : List Verdict :=
  events.filterMap HostEvent.verdict?

@[simp] theorem verdicts_nil : verdicts [] = [] := rfl

@[simp] theorem verdicts_append (a b : List HostEvent) : verdicts (a ++ b) = verdicts a ++ verdicts b :=
  List.filterMap_append

@[simp] theorem verdicts_cons (event : HostEvent) (events : List HostEvent) :
    verdicts (event :: events) = event.verdict?.toList ++ verdicts events := by
  unfold verdicts
  rw [List.filterMap_cons]
  cases event.verdict? <;> rfl

@[simp] theorem accepted_cons (event : HostEvent) (events : List HostEvent) :
    accepted (event :: events) = event.accepted?.toList ++ accepted events := by
  unfold accepted
  rw [List.filterMap_cons]
  cases event.accepted? <;> rfl

theorem verdicts_filter (events : List HostEvent) :
    verdicts (events.filter HostEvent.ofDelivery) = verdicts events := by
  unfold verdicts
  rw [List.filterMap_filter]
  congr 1
  funext event
  cases event <;> rfl

namespace Pipeline

/-! ### The channel and who uses it -/

/-- A channel, with all that was ever put into it and all the buffers whose delivery was begun. -/
structure Passage where
  pipe : State
  entered : List Packet := []
  begun : List Frame := []
deriving DecidableEq

/-- What the next step of the callback puts into the channel. -/
def State.sends (s : State) : List Packet :=
  match s.producer with
  | .sending packet => if s.receiver then [packet] else []
  | _ => []

/-- The buffer whose delivery begins with the next step of the loop. -/
def State.begins (s : State) : List Frame :=
  if s.flag then []
  else
    match s.delivery with
    | .received (.audio frame) => [frame]
    | _ => []

namespace Passage

/-- The channel of a new utterance, whatever was before it; the loop is about to take from it. -/
def start (rate : UInt32) (s : State) : Passage where
  pipe := (s.beginUtterance rate).startDelivery

inductive Label where
  /-- Someone else than the callback puts a packet into the channel. -/
  | put (packet : Packet)
  /-- The callback is called. -/
  | call (buffer : List Sample) (engineCancelled : Bool)
  /-- The callback takes a step; should it ask, this is whether the host wants playback to stop. -/
  | produce (stopRequested : Bool)
  /-- The delivery loop takes a step; should it push, this is the host's verdict. -/
  | deliver (verdict : Verdict)
  /-- Someone raises the cancellation flag. -/
  | raise
  /-- Someone else tells the host something. -/
  | tell (event : HostEvent)
  /-- The channel is closed to whoever does not have it in hand. -/
  | close
deriving DecidableEq, Repr

def step (limits : Limits) : Label → Passage → Option Passage
  | .put packet, p =>
    if p.pipe.route.isSome && p.pipe.receiver && p.pipe.queue.length < limits.capacity then
      some { p with pipe := { p.pipe with queue := p.pipe.queue ++ [packet] }, entered := p.entered ++ [packet] }
    else none
  | .call buffer engineCancelled, p =>
    (Pipeline.step limits (.call buffer engineCancelled) p.pipe).map fun pipe => { p with pipe }
  | .produce stopRequested, p =>
    (Pipeline.step limits (.produce stopRequested) p.pipe).map fun pipe =>
      { p with pipe, entered := p.entered ++ p.pipe.sends }
  | .deliver verdict, p =>
    (Pipeline.step limits (.deliver verdict) p.pipe).map fun pipe =>
      { p with pipe, begun := p.begun ++ p.pipe.begins }
  | .raise, p => (Pipeline.step limits .raise p.pipe).map fun pipe => { p with pipe }
  | .tell event, p => if event.ofDelivery then none else some { p with pipe := p.pipe.tell event }
  | .close, p => some { p with pipe := p.pipe.endUtterance }

/-- The passage after a whole schedule; `none` if one of its steps cannot be taken. -/
def run (limits : Limits) : List Label → Passage → Option Passage
  | [], p => some p
  | label :: labels, p => (step limits label p).bind (run limits labels)

/-- What a step of anyone but the delivery loop can do: put something behind all that is in the channel, raise the
    flag, mark the utterance, and tell the host something else. -/
structure Fed (p q : Passage) : Prop where
  delivery : q.pipe.delivery = p.pipe.delivery
  stats : q.pipe.stats = p.pipe.stats
  begun : q.begun = p.begun
  flag : p.pipe.flag = true → q.pipe.flag = true
  aborted : p.pipe.aborted = true → q.pipe.aborted = true
  entered : ∃ more, q.entered = p.entered ++ more ∧ q.pipe.queue = p.pipe.queue ++ more
  /-- Once nothing can come any more, nothing does. -/
  closed : p.pipe.closed = true → q.pipe.closed = true ∧ q.pipe.queue = p.pipe.queue
  heard : ∃ news : List HostEvent, q.pipe.heard = news.reverse ++ p.pipe.heard ∧ news.filter HostEvent.ofDelivery = []

inductive Moved (limits : Limits) (p : Passage) : Passage → Prop where
  | fed {q} (h : Fed p q) : Moved limits p q
  | delivered {verdict pipe} (h : Delivered limits verdict p.pipe pipe) :
    Moved limits p { p with pipe, begun := p.begun ++ p.pipe.begins }

section
variable {limits : Limits} {p q : Passage} {label : Label} {labels : List Label}

theorem not_closed_of_route (speaks : p.pipe.route.isSome = true) : p.pipe.closed = false := by
  obtain ⟨rate, route⟩ := Option.isSome_iff_exists.mp speaks
  simp [State.closed, route]

theorem produced_fed {stopRequested : Bool} {pipe : State} (h : Produced limits stopRequested p.pipe pipe) :
    Fed p { p with pipe, entered := p.entered ++ p.pipe.sends } := by
  obtain ⟨delivery, stats, -, -⟩ := h.frame
  refine ⟨delivery, stats, rfl, h.flag_mono, h.aborted_mono, ⟨p.pipe.sends, rfl, ?_⟩, ?_, ?_⟩
  · cases h with
    | lost here gone => simp [State.sends, here, gone]
    | sent here listens => simp [State.sends, here, listens]
    | _ here => simp [State.sends, State.tell, here]
  · -- A callback that still holds on to the channel keeps it open.
    intro closed
    cases h with
    | routed _ some => simp [State.closed, some] at closed
    | lost here | sent here | verified here => simp [State.closed, here] at closed
    | _ => simp_all [State.closed, State.tell]
  · rcases h.heard with same | ⟨-, -, stop⟩
    · exact ⟨[], same, rfl⟩
    · exact ⟨[.stop], stop, rfl⟩

theorem step_inv (h : step limits label p = some q) : Moved limits p q := by
  cases label with
  | put packet =>
    simp only [step] at h
    split at h <;> cases h
    rename_i room
    simp only [Bool.and_eq_true] at room
    have open_ := not_closed_of_route room.1.1
    exact .fed ⟨rfl, rfl, rfl, id, id, ⟨[packet], rfl, rfl⟩, by simp [open_], [], rfl, rfl⟩
  | call buffer engineCancelled =>
    obtain ⟨pipe, hp, rfl⟩ := Option.map_eq_some_iff.mp h
    simp only [Pipeline.step] at hp
    split at hp <;> cases hp
    refine .fed ⟨rfl, rfl, rfl, id, id, ⟨[], by simp, by simp⟩, fun closed => ⟨?_, rfl⟩, [], rfl, rfl⟩
    simp_all [State.closed]
  | produce stopRequested =>
    obtain ⟨pipe, hp, rfl⟩ := Option.map_eq_some_iff.mp h
    exact .fed (produced_fed (produce_inv hp))
  | deliver verdict =>
    obtain ⟨pipe, hp, rfl⟩ := Option.map_eq_some_iff.mp h
    exact .delivered (deliver_inv hp)
  | raise =>
    cases h
    exact .fed ⟨rfl, rfl, rfl, fun _ => rfl, id, ⟨[], by simp, by simp⟩, fun closed => ⟨closed, rfl⟩, [], rfl, rfl⟩
  | tell event =>
    simp only [step] at h
    split at h <;> cases h
    rename_i other
    exact .fed ⟨rfl, rfl, rfl, id, id, ⟨[], by simp, by simp [State.tell]⟩, fun closed => ⟨closed, rfl⟩, [event],
      rfl, List.filter_cons_of_neg other⟩
  | close =>
    cases h
    refine .fed ⟨rfl, rfl, rfl, id, id, ⟨[], by simp, by simp [State.endUtterance]⟩, fun closed => ⟨?_, rfl⟩, [],
      rfl, rfl⟩
    simp_all [State.closed, State.endUtterance]

/-- What each step keeps, the whole schedule keeps. -/
theorem run_keeps {P : Passage → Prop} (keeps : ∀ {p q}, Moved limits p q → P p → P q)
    (h : run limits labels p = some q) (hp : P p) : P q := by
  induction labels generalizing p with
  | nil =>
    cases h
    exact hp
  | cons label labels ih =>
    obtain ⟨r, hr, h⟩ := Option.bind_eq_some_iff.mp h
    exact ih h (keeps (step_inv hr) hp)

end

end Passage

/-! ### What a step of the loop adds to the count -/

def Delivery.reckoning (stats : Stats) : Delivery → Stats
  | .finished settled => settled
  | _ => stats

/-- The count as far as it has come. Once it is returned the mark no longer changes it. -/
def State.reckoning (s : State) : Stats :=
  s.delivery.reckoning { s.stats with aborted := s.aborted }

/-- What the next step of the loop tells the host. -/
def State.tells (limits : Limits) (verdict : Verdict) (s : State) : List HostEvent :=
  match s.delivery with
  | .announcing _ _ | .closing => [.beforePlay]
  | .pushing rate samples => [.push (limits.chunk rate samples) verdict]
  | .ending => [.notifyEnd]
  | _ => []

/-- How much was announced that has not come yet. -/
def Delivery.announced : Delivery → Nat
  | .pushing _ _ | .ending => 1
  | _ => 0

/-- How many packets the loop has in its hands of which it has not made anything yet. -/
def Delivery.held : Delivery → Nat
  | .received _ | .discarding | .closing | .ending => 1
  | _ => 0

/-- A push was refused. Once that is marked and the flag is up, nothing more is announced. -/
def State.spurned (s : State) : Bool :=
  match s.delivery with
  | .refused => true
  | .raising => s.aborted
  | .announcing _ _ | .pushing _ _ | .closing | .ending => false
  | _ => s.flag && s.reckoning.aborted

section
variable {limits : Limits} {verdict : Verdict} {s t : State} (rate : UInt32) (samples : List Sample)

@[simp] theorem reckoning_ofSamples (stats : Stats) : (Delivery.ofSamples rate samples).reckoning stats = stats := by
  cases samples <;> rfl

@[simp] theorem announced_ofSamples : (Delivery.ofSamples rate samples).announced = 0 := by
  cases samples <;> rfl

@[simp] theorem held_ofSamples : (Delivery.ofSamples rate samples).held = 0 := by
  cases samples <;> rfl

theorem crashed_ofSamples : Delivery.ofSamples rate samples ≠ .crashed := by
  cases samples <;> nofun

namespace Delivered

theorem heard (h : Delivered limits verdict s t) : t.heard = (s.tells limits verdict).reverse ++ s.heard := by
  cases h with
  | accepted here verdict_eq | refused here verdict_eq | crashed here verdict_eq =>
    simp [State.tells, State.tell, State.dropReceiver, here, verdict_eq]
  | _ here => simp [State.tells, State.tell, State.dropReceiver, here]

theorem reckoned (h : Delivered limits verdict s t) :
    t.reckoning.frames = s.reckoning.frames + (Orator.accepted (s.tells limits verdict)).length ∧
      t.reckoning.samples =
        s.reckoning.samples + ((Orator.accepted (s.tells limits verdict)).map (·.samples.length)).sum ∧
      t.reckoning.ended = (s.reckoning.ended || (s.tells limits verdict).contains .notifyEnd) := by
  unfold State.reckoning
  cases h with
  | opened here =>
    rw [here, reckoning_ofSamples]
    simp [Delivery.reckoning, State.tells, here]
  | accepted here verdict_eq =>
    rw [here, reckoning_ofSamples]
    simp [Delivery.reckoning, State.tells, Stats.accept, HostEvent.accepted?, here, verdict_eq]
  | refused here verdict_eq | crashed here verdict_eq =>
    simp [Delivery.reckoning, State.tells, State.dropReceiver, State.tell, HostEvent.accepted?, here, verdict_eq]
  | _ here => simp [Delivery.reckoning, State.tells, State.tell, HostEvent.accepted?, here]

theorem announces (h : Delivered limits verdict s t) (back : t.delivery ≠ .crashed) :
    s.delivery.announced + (s.tells limits verdict).count .beforePlay =
      (verdicts (s.tells limits verdict)).length + (s.tells limits verdict).count .notifyEnd +
        t.delivery.announced := by
  cases h with
  | crashed => exact absurd rfl back
  | opened here | accepted here =>
    rw [here, announced_ofSamples]
    simp [State.tells, Delivery.announced, HostEvent.verdict?, here]
  | _ here => simp [State.tells, Delivery.announced, HostEvent.verdict?, here]

theorem conserves (h : Delivered limits verdict s t) (back : t.delivery ≠ .crashed)
    (last : s.delivery.through = true → s.queue = []) :
    t.reckoning.dropped + s.begins.length + (s.tells limits verdict).count .notifyEnd + t.delivery.held +
      t.queue.length = s.reckoning.dropped + s.delivery.held + s.queue.length := by
  unfold State.reckoning
  cases h with
  | crashed => exact absurd rfl back
  | took here next =>
    simp [Delivery.reckoning, State.begins, State.tells, Delivery.held, here, next]
    omega
  | condemned here up => simp [Delivery.reckoning, State.begins, State.tells, Delivery.held, here, up]
  | opened here down =>
    rw [here, reckoning_ofSamples, held_ofSamples]
    simp [Delivery.reckoning, State.begins, State.tells, Delivery.held, here, down]
  | accepted here =>
    rw [here, reckoning_ofSamples, held_ofSamples]
    simp [Delivery.reckoning, State.begins, State.tells, Delivery.held, State.tell, Stats.accept, here]
  | settled here =>
    have empty := last (by rw [here]; rfl)
    simp [Delivery.reckoning, State.begins, State.tells, Delivery.held, State.dropReceiver, here, empty]
  | _ here => simp [Delivery.reckoning, State.begins, State.tells, Delivery.held, State.tell, here]

theorem closed_eq (h : Delivered limits verdict s t) : t.closed = s.closed := by
  obtain ⟨producer, route⟩ := h.frame
  rw [State.closed, State.closed, producer, route]

/-- Only a push can fail to come back. -/
theorem back (h : Delivered limits verdict s t) (returns : ∀ taken, verdict ≠ .crashed taken) :
    t.delivery ≠ .crashed := by
  cases h with
  | crashed _ verdict_eq => exact absurd verdict_eq (returns _)
  | opened | accepted => exact crashed_ofSamples _ _
  | _ => exact nofun

theorem emptied (h : Delivered limits verdict s t) (through : t.delivery.through = true)
    (hs : s.delivery.through = true → s.queue = [] ∧ s.closed = true) : t.queue = [] ∧ t.closed = true := by
  cases h with
  | drained _ empty closed => exact ⟨empty, closed⟩
  | opened | accepted => simp [through_ofSamples] at through
  | settled here => exact ⟨rfl, (hs (by rw [here]; rfl)).2⟩
  | _ => cases through

/-- What is dropped is marked. -/
theorem loses (h : Delivered limits verdict s t) (lost : 0 < s.reckoning.dropped → s.reckoning.aborted = true) :
    0 < t.reckoning.dropped → t.reckoning.aborted = true := by
  unfold State.reckoning at lost ⊢
  cases h with
  | discarded | marked => exact fun _ => rfl
  | opened here | accepted here =>
    rw [here] at lost
    rw [reckoning_ofSamples]
    exact lost
  | _ here =>
    rw [here] at lost
    exact lost

theorem answered (h : Delivered limits verdict s t) (back : t.delivery ≠ .crashed) :
    verdicts (s.tells limits verdict) = List.replicate (Orator.accepted (s.tells limits verdict)).length .accepted ∨
      (verdicts (s.tells limits verdict) = [.refused] ∧ Orator.accepted (s.tells limits verdict) = [] ∧
        t.spurned = true) := by
  unfold State.tells
  cases h with
  | accepted here verdict_eq =>
    rw [here, verdict_eq]
    exact Or.inl rfl
  | refused here verdict_eq =>
    rw [here, verdict_eq]
    exact Or.inr ⟨rfl, rfl, rfl⟩
  | crashed => exact absurd rfl back
  | _ here =>
    rw [here]
    exact Or.inl rfl

theorem spurned (h : Delivered limits verdict s t) (hs : s.spurned = true) :
    s.tells limits verdict = [] ∧ t.spurned = true := by
  cases h with
  | opened here down | closing here down => simp [State.spurned, here, down] at hs
  | _ here =>
    simp_all [State.tells, State.spurned, State.reckoning, Delivery.reckoning, State.dropReceiver]

end Delivered

theorem filter_tells : (s.tells limits verdict).filter HostEvent.ofDelivery = s.tells limits verdict := by
  unfold State.tells
  cases s.delivery <;> rfl

end

namespace Passage

/-! ### What the count has to add up to -/

/-- The count, held against what the host has heard of the delivery. -/
structure Balanced (played : List HostEvent) (p : Passage) : Prop where
  frames : p.pipe.reckoning.frames = (accepted played).length
  samples : p.pipe.reckoning.samples = ((accepted played).map (·.samples.length)).sum
  ended : p.pipe.reckoning.ended = played.contains .notifyEnd
  announced : played.count .beforePlay =
    (verdicts played).length + played.count .notifyEnd + p.pipe.delivery.announced
  /-- All that was put into the channel was dropped, delivered or announced as the end, or is still on its way. -/
  conserved : p.entered.length = p.pipe.reckoning.dropped + p.begun.length + played.count .notifyEnd +
    p.pipe.delivery.held + p.pipe.queue.length
  lost : 0 < p.pipe.reckoning.dropped → p.pipe.reckoning.aborted = true
  answered : verdicts played = List.replicate (accepted played).length .accepted ∨
    (verdicts played = List.replicate (accepted played).length .accepted ++ [.refused] ∧ p.pipe.spurned = true)
  emptied : p.pipe.delivery.through = true → p.pipe.queue = [] ∧ p.pipe.closed = true

section
variable {limits : Limits} {played before : List HostEvent} {p q : Passage}

theorem Fed.reckoned (h : Fed p q) :
    q.pipe.reckoning = { p.pipe.reckoning with aborted := q.pipe.reckoning.aborted } ∧
      (p.pipe.reckoning.aborted = true → q.pipe.reckoning.aborted = true) := by
  unfold State.reckoning
  rw [h.delivery, h.stats]
  cases p.pipe.delivery with
  | finished => exact ⟨rfl, id⟩
  | _ => exact ⟨rfl, h.aborted⟩

theorem Fed.spurned (h : Fed p q) (hs : p.pipe.spurned = true) : q.pipe.spurned = true := by
  have flag := h.flag
  have aborted := h.aborted
  have marked := h.reckoned.2
  unfold State.spurned at hs ⊢
  rw [h.delivery]
  split at hs <;> simp_all

theorem Balanced.fed (hb : Balanced played p) (h : Fed p q) : Balanced played q := by
  obtain ⟨more, entered, queue⟩ := h.entered
  obtain ⟨reckoning, marked⟩ := h.reckoned
  constructor
  case frames =>
    rw [reckoning]
    exact hb.frames
  case samples =>
    rw [reckoning]
    exact hb.samples
  case ended =>
    rw [reckoning]
    exact hb.ended
  case announced =>
    rw [h.delivery]
    exact hb.announced
  case conserved =>
    have conserved := hb.conserved
    rw [reckoning, h.delivery, h.begun, entered, queue, List.length_append, List.length_append]
    dsimp only
    omega
  case lost =>
    rw [reckoning]
    exact fun lost => marked (hb.lost lost)
  case answered => exact hb.answered.imp id fun ⟨all, last⟩ => ⟨all, h.spurned last⟩
  case emptied =>
    rw [h.delivery]
    intro through
    obtain ⟨empty, closed⟩ := hb.emptied through
    obtain ⟨closed, same⟩ := h.closed closed
    exact ⟨same.trans empty, closed⟩

theorem Balanced.delivered {verdict : Verdict} {pipe : State} (hb : Balanced played p)
    (h : Delivered limits verdict p.pipe pipe) (back : pipe.delivery ≠ .crashed) :
    Balanced (played ++ p.pipe.tells limits verdict) { p with pipe, begun := p.begun ++ p.pipe.begins } := by
  obtain ⟨frames, samples, ended⟩ := h.reckoned
  constructor
  case frames => rw [frames, hb.frames, accepted_append, List.length_append]
  case samples => rw [samples, hb.samples, accepted_append, List.map_append, List.sum_append]
  case ended =>
    rw [ended, hb.ended]
    simp
  case announced =>
    have announced := hb.announced
    have announces := h.announces back
    rw [verdicts_append, List.count_append, List.count_append, List.length_append]
    dsimp only
    omega
  case conserved =>
    have conserved := hb.conserved
    have conserves := h.conserves back fun through => (hb.emptied through).1
    rw [List.count_append, List.length_append]
    dsimp only
    omega
  case lost => exact h.loses hb.lost
  case answered =>
    rw [verdicts_append, accepted_append, List.length_append]
    rcases hb.answered with all | ⟨all, last⟩
    · rw [all, List.replicate_add]
      rcases h.answered back with more | ⟨refused, none, spurned⟩
      · rw [more]
        exact Or.inl rfl
      · rw [refused, none]
        exact Or.inr ⟨by simp, spurned⟩
    · -- Nothing comes after the refusal.
      obtain ⟨nothing, spurned⟩ := h.spurned last
      rw [all, nothing]
      exact Or.inr ⟨by simp, spurned⟩
  case emptied => exact fun through => h.emptied through hb.emptied

/-- As long as the host comes back from each push, the count adds up. -/
def Sound (before : List HostEvent) (p : Passage) : Prop :=
  ∃ played, p.pipe.Played before played ∧ (p.pipe.delivery = .crashed ∨ Balanced played p)

theorem start_sound (rate : UInt32) (s : State) : Sound s.heard (start rate s) :=
  ⟨[], .refl _, Or.inr ⟨rfl, rfl, rfl, rfl, rfl, nofun, Or.inl rfl, nofun⟩⟩

theorem moved_sound (h : Moved limits p q) (hs : Sound before p) : Sound before q := by
  obtain ⟨played, hp, hb⟩ := hs
  cases h with
  | fed h =>
    obtain ⟨news, heard, other⟩ := h.heard
    have hp := hp.more news heard
    rw [other, List.append_nil] at hp
    exact ⟨played, hp, hb.imp h.delivery.trans fun hb => hb.fed h⟩
  | @delivered verdict pipe h =>
    have runs := h.runs
    have hb := hb.resolve_left fun crashed => by simp [crashed, Delivery.running] at runs
    have hp := hp.more _ h.heard
    rw [filter_tells] at hp
    by_cases back : pipe.delivery = .crashed
    · exact ⟨_, hp, Or.inl back⟩
    · exact ⟨_, hp, Or.inr (hb.delivered h back)⟩

/-! ### The loop comes to its end -/

theorem moved_begun (h : Moved limits p q) (begun : p.pipe.delivery ≠ .idle) : q.pipe.delivery ≠ .idle := by
  cases h with
  | fed h => rwa [h.delivery]
  | delivered h =>
    cases h with
    | opened | accepted => exact idle_ofSamples _ _
    | _ => exact nofun

/-- With the channel closed the loop returns, whatever the host answers. -/
theorem settles (begun : p.pipe.delivery ≠ .idle) (back : p.pipe.delivery ≠ .crashed) (closed : p.pipe.closed = true)
    (answer : Nat → Verdict) (returns : ∀ i taken, answer i ≠ .crashed taken) :
    ∃ n q stats, run limits ((List.range n).map fun i => .deliver (answer i)) p = some q ∧
      q.pipe.delivery = .finished stats := by
  induction effort : p.pipe.effort using Nat.strongRecOn generalizing p answer with
  | _ _ ih =>
    subst effort
    cases runs : p.pipe.delivery.running
    · cases here : p.pipe.delivery with
      | idle => exact absurd here begun
      | crashed => exact absurd here back
      | finished stats => exact ⟨0, p, stats, rfl, here⟩
      | _ => simp [here, Delivery.running] at runs
    · have ready : (Pipeline.deliver limits (answer 0) p.pipe).isSome = true :=
        deliver_ready runs (fun _ _ => closed) (answer 0)
      obtain ⟨pipe, hp⟩ := Option.isSome_iff_exists.mp ready
      have h := deliver_inv hp
      have moved : step limits (.deliver (answer 0)) p = some { p with pipe, begun := p.begun ++ p.pipe.begins } := by
        rw [step, Pipeline.step, hp]
        rfl
      obtain ⟨n, q, stats, hq, done⟩ := ih _ h.effort_lt (moved_begun (step_inv moved) begun)
        (h.back (returns 0)) (h.closed_eq.trans closed) (fun i => answer (i + 1)) (fun i => returns (i + 1)) rfl
      refine ⟨n + 1, q, stats, ?_, done⟩
      rw [List.range_succ_eq_map, List.map_cons, List.map_map, run, moved]
      exact hq

/-- The count is exact, and there is one unless a push never comes back. -/
theorem count_exact {rate : UInt32} {chunkSize capacity : Nat} {s : State} {labels : List Label}
    (h : run (.ofSizes chunkSize capacity) labels (start rate s) = some p) :
    (p.pipe.closed = true → p.pipe.delivery ≠ .crashed →
      ∀ answer : Nat → Verdict, (∀ i taken, answer i ≠ .crashed taken) → ∃ n q stats,
        run (.ofSizes chunkSize capacity) ((List.range n).map fun i => .deliver (answer i)) p = some q ∧
          q.pipe.delivery = .finished stats) ∧
    ∀ stats, p.pipe.delivery = .finished stats → ∃ told : List HostEvent, p.pipe.heard = told.reverse ++ s.heard ∧
      stats.frames = (accepted told).length ∧ stats.samples = ((accepted told).map (·.samples.length)).sum ∧
      stats.dropped + p.begun.length + told.count .notifyEnd = p.entered.length ∧
      (stats.ended = true ↔ .notifyEnd ∈ told) ∧
      told.count .beforePlay = (verdicts told).length + told.count .notifyEnd ∧
      (verdicts told = List.replicate stats.frames .accepted ∨
        verdicts told = List.replicate stats.frames .accepted ++ [.refused] ∧ stats.aborted = true ∧
          p.pipe.flag = true) ∧
      (0 < stats.dropped → stats.aborted = true) := by
  refine ⟨fun closed back => settles (run_keeps moved_begun h nofun) back closed, fun stats finished => ?_⟩
  obtain ⟨played, ⟨told, heard, rfl⟩, hb⟩ := run_keeps moved_sound h (start_sound rate s)
  have hb := hb.resolve_left (by simp [finished])
  have reckoning : p.pipe.reckoning = stats := by
    rw [State.reckoning, finished]
    rfl
  have announced := hb.announced
  have conserved := hb.conserved
  obtain ⟨empty, -⟩ := hb.emptied (by rw [finished]; rfl)
  rw [List.count_filter rfl, List.count_filter rfl, verdicts_filter, finished] at announced
  rw [List.count_filter rfl, reckoning, finished, empty] at conserved
  refine ⟨told, heard, ?_, ?_, conserved.symm, ?_, announced, ?_, ?_⟩
  · rw [← reckoning, hb.frames, accepted_filter]
  · rw [← reckoning, hb.samples, accepted_filter]
  · rw [← reckoning, hb.ended, List.contains_iff_mem, List.mem_filter]
    exact and_iff_left rfl
  · have answered := hb.answered
    rw [← hb.frames, reckoning, verdicts_filter] at answered
    refine answered.imp id fun ⟨all, spurned⟩ => ⟨all, ?_⟩
    simpa [State.spurned, finished, reckoning, and_comm] using spurned
  · rw [← reckoning]
    exact hb.lost

/-- The second chunk of a buffer is refused, and the end behind it dropped. -/
def refusedWithin : List Label :=
  [.put (.audio { rate := 22050, samples := [1, 2, 3] }), .put .finish, .close] ++
    List.replicate 5 (.deliver .accepted) ++ [.deliver .refused] ++ List.replicate 7 (.deliver .accepted)

theorem count_exact_refusedWithin :
    ∃ p, run (.ofSizes 2 3) refusedWithin (start 22050 {}) = some p ∧
      p.pipe.delivery = .finished { frames := 1, samples := 2, dropped := 1, aborted := true } ∧
      p.begun.length + p.pipe.heard.count .notifyEnd = 1 ∧
      p.pipe.heard.count .beforePlay = (verdicts p.pipe.heard.reverse).length + p.pipe.heard.count .notifyEnd := by
  have hd : (run (.ofSizes 2 3) refusedWithin (start 22050 {})).map (fun p => (p.pipe.delivery, p.entered.length)) =
      some (.finished { frames := 1, samples := 2, dropped := 1, aborted := true }, 2) := by decide +kernel
  obtain ⟨p, hp, hd⟩ := Option.map_eq_some_iff.mp hd
  obtain ⟨finished, entered⟩ := Prod.mk.inj hd
  obtain ⟨told, heard, -, -, conserved, -, announced, -, -⟩ := (count_exact hp).2 _ finished
  rw [entered] at conserved
  rw [List.append_nil] at heard
  refine ⟨p, hp, finished, ?_, ?_⟩
  · rw [heard, List.count_reverse]
    dsimp only at conserved
    omega
  · rw [heard, List.count_reverse, List.count_reverse, List.reverse_reverse]
    exact announced

end

end Passage

end Pipeline

end Orator
