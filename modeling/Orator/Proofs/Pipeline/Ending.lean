import Orator.Proofs.Pipeline.Order

/-! How an utterance ends: with the end told to the host, or with its mark. There is a third way. If the flag
    goes up after the delivery loop has looked at it for the last packet in the channel and before the
    callback that sent it looks for the last time, the engine is made to abort, and nobody tells or marks it. -/

namespace Orator.Pipeline

def Delivery.closes : Delivery → Bool
  | .closing | .ending => true
  | _ => false

theorem closes_ofSamples (rate : UInt32) (samples : List Sample) :
    (Delivery.ofSamples rate samples).closes = false := by
  cases samples <;> rfl

theorem received_ofSamples (rate : UInt32) (samples : List Sample) (packet : Packet) :
    Delivery.ofSamples rate samples ≠ .received packet := by
  cases samples <;> nofun

theorem discarding_ofSamples (rate : UInt32) (samples : List Sample) :
    Delivery.ofSamples rate samples ≠ .discarding := by
  cases samples <;> nofun

/-- No end mark is on its way to the delivery loop, or with it. -/
structure State.Unended (s : State) : Prop where
  stats : s.stats.ended = false
  queue : .finish ∉ s.queue
  received : s.delivery ≠ .received .finish
  closes : s.delivery.closes = false

theorem State.Unended.rest {s t : State} (hs : s.Unended) (stats : t.stats = s.stats) (queue : t.queue = s.queue)
    (delivery : t.delivery = s.delivery) : t.Unended where
  stats := stats ▸ hs.stats
  queue := queue ▸ hs.queue
  received := delivery ▸ hs.received
  closes := delivery ▸ hs.closes

theorem unfinished {delivery : Delivery} (h : delivery.through = false) (stats : Stats) :
    delivery ≠ .finished stats := by
  rintro rfl
  cases h

theorem Delivered.unended {limits : Limits} {verdict : Verdict} {s t : State} (h : Delivered limits verdict s t)
    (hs : s.Unended) : t.Unended := by
  obtain ⟨stats, queue, received, closes⟩ := hs
  cases h with
  | @took packet queue' here next =>
    rw [next, List.mem_cons, not_or] at queue
    refine ⟨stats, queue.2, ?_, rfl⟩
    intro h
    cases h
    exact queue.1 rfl
  | opened => exact ⟨stats, queue, received_ofSamples _ _ _, closes_ofSamples _ _⟩
  | closing here => exact absurd here received
  | accepted => exact ⟨stats, queue, received_ofSamples _ _ _, closes_ofSamples _ _⟩
  | crashed => exact ⟨stats, List.not_mem_nil, nofun, rfl⟩
  | heralded here =>
    rw [here] at closes
    cases closes
  | ended here =>
    rw [here] at closes
    cases closes
  | settled => exact ⟨stats, List.not_mem_nil, nofun, rfl⟩
  | _ => exact ⟨stats, queue, nofun, rfl⟩

namespace Utterance

/-- The engine still has something to hand over, or the callback has it in its hands. -/
structure Going (u : Utterance) : Prop where
  unended : u.pipe.Unended
  unmarked : u.pipe.aborted = false
  listens : u.pipe.receiver = true
  speaks : u.pipe.route.isSome = true
  open_ : u.pipe.delivery.through = false
  willing : u.pipe.refusing = false ∧ u.pipe.producer ≠ .silencing
  /-- The packet in the callback's hands is the end mark if and only if it is the last. -/
  hand : ∀ rate packet, u.pipe.producer.packet? rate = some packet → (packet = .finish ↔ u.left = [])
  last : u.left = [] → u.pipe.resting = false ∧ u.pipe.producer ≠ .verifying

/-- The end mark is on its way to the delivery loop. -/
structure Sent (u : Utterance) : Prop where
  unmarked : u.pipe.aborted = false
  unended : u.pipe.stats.ended = false
  open_ : u.pipe.delivery.through = false
  closes : u.pipe.delivery.closes = false
  done : u.left = []
  past : u.pipe.producer = .verifying ∨ u.pipe.resting = true
  sent : (∃ before, u.pipe.queue = before ++ [.finish] ∧ .finish ∉ before ∧ u.pipe.delivery ≠ .received .finish) ∨
    (u.pipe.queue = [] ∧ (u.pipe.delivery = .received .finish ∨ u.pipe.delivery = .discarding))

/-- The host is told of the end, and nothing follows. -/
structure Told (u : Utterance) : Prop where
  unmarked : u.pipe.aborted = false
  done : u.left = []
  past : u.pipe.producer = .verifying ∨ u.pipe.resting = true
  queue : u.pipe.queue = []
  told : u.pipe.delivery.closes = true ∨ (u.pipe.stats.ended = true ∧
    (u.pipe.delivery = .receiving ∨ u.pipe.delivery = .settling ∨
      ∃ stats, u.pipe.delivery = .finished stats ∧ stats.ended = true ∧ stats.aborted = false))

/-- The utterance is marked, and no end mark will get past the delivery loop. -/
structure Marked (u : Utterance) : Prop where
  marked : u.pipe.aborted = true
  unended : u.pipe.stats.ended = false
  closes : u.pipe.delivery.closes = false
  sealed : u.pipe.flag = true ∨ u.pipe.delivery = .raising ∨
    (u.pipe.Unended ∧ (u.pipe.producer = .silencing ∨ u.pipe.refusing = true ∨
      (u.pipe.producer = .idle ∧ u.pipe.route = none)))
  settled : ∀ stats, u.pipe.delivery = .finished stats → stats.ended = false ∧ stats.aborted = true

/-- The engine has been made to abort before it could hand over the end, without a mark on the way. -/
structure Broken (u : Utterance) : Prop where
  unended : u.pipe.Unended
  left : u.left ≠ []
  over_ : u.pipe.refusing = true ∨ (u.pipe.producer = .idle ∧ u.pipe.route = none)
  settled : ∀ stats, u.pipe.delivery = .finished stats → stats.ended = false

/-- Whether the callback sees the flag only when it looks for the last time, while it has something else than
    the end mark behind it. -/
def Label.lapses (u : Utterance) : Label → Bool
  | .produce _ => u.pipe.producer = .verifying && u.pipe.flag && !u.left.isEmpty && !u.pipe.aborted
  | _ => false

/-- Whether the host comes back from this step. -/
def Label.returns : Label → Bool
  | .deliver (.crashed _) => false
  | _ => true

/-- What is left ends with the end mark, and holds no other. -/
def Scripted (left : List (List Sample)) : Prop :=
  left = [] ∨ ∃ buffers, left = buffers ++ [[]] ∧ ∀ buffer ∈ buffers, buffer ≠ []

theorem Scripted.tail {buffer : List Sample} {left : List (List Sample)} (h : Scripted (buffer :: left)) :
    Scripted left ∧ (buffer = [] ↔ left = []) := by
  rcases h with h | ⟨buffers, h, solid⟩
  · cases h
  · cases buffers with
    | nil =>
      cases h
      exact ⟨Or.inl rfl, by simp⟩
    | cons first buffers =>
      rw [List.cons_append, List.cons.injEq] at h
      obtain ⟨rfl, rfl⟩ := h
      refine ⟨Or.inr ⟨buffers, rfl, fun b hb => solid b (List.mem_cons_of_mem _ hb)⟩, ?_⟩
      simp [solid buffer List.mem_cons_self]

theorem finish_ofBuffer (rate : UInt32) (buffer : List Sample) :
    Packet.ofBuffer rate buffer = .finish ↔ buffer = [] := by
  cases buffer with
  | nil => exact ⟨fun _ => rfl, fun _ => rfl⟩
  | cons => exact ⟨nofun, nofun⟩

section
variable {limits : Limits} {u v : Utterance} {label : Label}

/-! ### The callback -/

theorem Going.rest (hs : Going u) {pipe : State} (unended : pipe.Unended) (unmarked : pipe.aborted = false)
    (route : pipe.route = u.pipe.route) (receiver : pipe.receiver = u.pipe.receiver)
    (delivery : pipe.delivery = u.pipe.delivery) (willing : pipe.refusing = false ∧ pipe.producer ≠ .silencing)
    (hand : ∀ rate packet, pipe.producer.packet? rate = some packet → (packet = .finish ↔ u.left = []))
    (last : u.left = [] → pipe.resting = false ∧ pipe.producer ≠ .verifying) : Going { u with pipe } where
  unended := unended
  unmarked := unmarked
  listens := receiver ▸ hs.listens
  speaks := route ▸ hs.speaks
  open_ := delivery ▸ hs.open_
  willing := willing
  hand := hand
  last := last

theorem Sent.rest (hs : Sent u) {pipe : State} (aborted : pipe.aborted = u.pipe.aborted)
    (stats : pipe.stats = u.pipe.stats) (queue : pipe.queue = u.pipe.queue) (delivery : pipe.delivery = u.pipe.delivery)
    (past : pipe.producer = .verifying ∨ pipe.resting = true) : Sent { u with pipe } where
  unmarked := aborted.trans hs.unmarked
  unended := stats ▸ hs.unended
  open_ := delivery ▸ hs.open_
  closes := delivery ▸ hs.closes
  done := hs.done
  past := past
  sent := by
    rw [queue, delivery]
    exact hs.sent

theorem Told.rest (hs : Told u) {pipe : State} (aborted : pipe.aborted = u.pipe.aborted)
    (stats : pipe.stats = u.pipe.stats) (queue : pipe.queue = u.pipe.queue) (delivery : pipe.delivery = u.pipe.delivery)
    (past : pipe.producer = .verifying ∨ pipe.resting = true) : Told { u with pipe } where
  unmarked := aborted.trans hs.unmarked
  done := hs.done
  past := past
  queue := queue.trans hs.queue
  told := by
    rw [stats, delivery]
    exact hs.told

theorem produced_going {stopRequested : Bool} {pipe : State} (h : Produced limits stopRequested u.pipe pipe)
    (hs : Going u) :
    Going { u with pipe } ∨ Marked { u with pipe } ∨ Sent { u with pipe } ∨
      (Label.lapses u (.produce stopRequested) = true ∧ Broken { u with pipe }) := by
  have unended := hs.unended
  have hand := hs.hand
  cases h with
  | engineCancelled | cancelled =>
    exact Or.inl (hs.rest (unended.rest rfl rfl rfl) hs.unmarked rfl rfl rfl
      ⟨rfl, nofun⟩ nofun fun _ => ⟨rfl, nofun⟩)
  | admitted here | wentOn here =>
    rw [here] at hand
    exact Or.inl (hs.rest (unended.rest rfl rfl rfl) hs.unmarked rfl rfl rfl
      ⟨rfl, nofun⟩ hand fun _ => ⟨rfl, nofun⟩)
  | stopSeen | raised =>
    exact Or.inl (hs.rest (unended.rest rfl rfl rfl) hs.unmarked rfl rfl rfl
      ⟨rfl, nofun⟩ nofun fun _ => ⟨rfl, nofun⟩)
  | marked here =>
    refine Or.inr (Or.inl ⟨rfl, unended.stats, unended.closes, Or.inr (Or.inr ⟨?_, Or.inl rfl⟩), ?_⟩)
    · exact unended.rest rfl rfl rfl
    · exact fun stats there => absurd there (unfinished hs.open_ stats)
  | silenced here => exact absurd here hs.willing.2
  | unrouted here none =>
    have := hs.speaks
    rw [none] at this
    cases this
  | @routed buffer rate here some =>
    refine Or.inl (hs.rest (unended.rest rfl rfl rfl) hs.unmarked rfl rfl rfl
      ⟨rfl, nofun⟩ ?_ fun _ => ⟨rfl, nofun⟩)
    intro rate' packet h
    cases h
    exact hand rate _ (by rw [here]; rfl)
  | lost here gone =>
    rw [hs.listens] at gone
    cases gone
  | @sent packet here =>
    have last : packet = .finish ↔ u.left = [] := hand 0 packet (by rw [here]; rfl)
    by_cases hl : u.left = []
    · have hf := last.mpr hl
      refine Or.inr (Or.inr (Or.inl ⟨hs.unmarked, unended.stats, hs.open_, unended.closes, hl, Or.inl rfl, ?_⟩))
      exact Or.inl ⟨u.pipe.queue, by rw [hf], unended.queue, unended.received⟩
    · refine Or.inl (hs.rest ⟨unended.stats, ?_, unended.received, unended.closes⟩ hs.unmarked rfl rfl rfl
        ⟨rfl, nofun⟩ nofun fun h => absurd h hl)
      intro hm
      rcases List.mem_append.mp hm with hm | hm
      · exact unended.queue hm
      · exact hl (last.mp (List.mem_singleton.mp hm).symm)
  | verified here =>
    have hl : u.left ≠ [] := fun hl => (hs.last hl).2 here
    cases hf : u.pipe.flag
    · exact Or.inl (hs.rest (unended.rest rfl rfl rfl) hs.unmarked rfl rfl rfl
        ⟨rfl, nofun⟩ nofun fun h => absurd h hl)
    · refine Or.inr (Or.inr (Or.inr ⟨by simp [Label.lapses, here, hf, hl, hs.unmarked], ?_, hl, Or.inl rfl, ?_⟩))
      · exact unended.rest rfl rfl rfl
      · exact fun stats there => absurd there (unfinished hs.open_ stats)

/-- Once the end mark is sent, the callback does nothing but to look at the flag for the last time. -/
theorem produced_past {stopRequested : Bool} {pipe : State} (h : Produced limits stopRequested u.pipe pipe)
    (past : u.pipe.producer = .verifying ∨ u.pipe.resting = true) :
    pipe = { u.pipe with producer := .returned u.pipe.flag } := by
  rcases past with past | past
  · cases h with
    | verified => rfl
    | _ here =>
      rw [past] at here
      cases here
  · cases h with
    | _ here => simp [State.resting, here] at past

/-! ### The delivery loop -/

theorem delivered_going {verdict : Verdict} {pipe : State} (h : Delivered limits verdict u.pipe pipe)
    (returns : Label.returns (.deliver verdict) = true) (up : u.pipe.delivery = .discarding → u.pipe.flag = true)
    (hs : Going u) : Going { u with pipe } ∨ Marked { u with pipe } := by
  have unended := h.unended hs.unended
  have open_ := h.through hs.speaks hs.open_
  obtain ⟨hp, hr⟩ := h.frame
  have going (unmarked : pipe.aborted = false) (listens : pipe.receiver = true) : Going { u with pipe } := by
    refine ⟨unended, unmarked, listens, hr ▸ hs.speaks, open_, ?_, ?_, ?_⟩
    · simpa only [State.refusing, hp] using hs.willing
    · simpa only [hp] using hs.hand
    · simpa only [State.resting, hp] using hs.last
  cases h with
  | discarded here =>
    refine Or.inr ⟨rfl, unended.stats, unended.closes, Or.inl (up here), ?_⟩
    intro stats there
    cases there
  | crashed here verdict_eq =>
    rw [verdict_eq] at returns
    cases returns
  | marked here =>
    refine Or.inr ⟨rfl, unended.stats, unended.closes, Or.inr (Or.inl rfl), ?_⟩
    intro stats there
    cases there
  | settled => cases open_
  | _ => exact Or.inl (going hs.unmarked hs.listens)

/-- While the delivery loop is busy with something else, the end mark waits in the channel. -/
theorem Sent.waits (hs : Sent u) (received : u.pipe.delivery ≠ .received .finish)
    (discarding : u.pipe.delivery ≠ .discarding) :
    ∃ before, u.pipe.queue = before ++ [.finish] ∧ .finish ∉ before := by
  rcases hs.sent with ⟨before, hq, hn, -⟩ | ⟨-, here | here⟩
  · exact ⟨before, hq, hn⟩
  · exact absurd here received
  · exact absurd here discarding

theorem Sent.goesOn (hs : Sent u) (received : u.pipe.delivery ≠ .received .finish)
    (discarding : u.pipe.delivery ≠ .discarding) {pipe : State} (aborted : pipe.aborted = u.pipe.aborted)
    (ended : pipe.stats.ended = u.pipe.stats.ended) (producer : pipe.producer = u.pipe.producer)
    (queue : pipe.queue = u.pipe.queue) (open_ : pipe.delivery.through = false) (closes : pipe.delivery.closes = false)
    (there : pipe.delivery ≠ .received .finish) : Sent { u with pipe } where
  unmarked := aborted.trans hs.unmarked
  unended := ended.trans hs.unended
  open_ := open_
  closes := closes
  done := hs.done
  past := by
    rw [State.resting, producer]
    exact hs.past
  sent := by
    obtain ⟨before, hq, hn⟩ := hs.waits received discarding
    exact Or.inl ⟨before, queue.trans hq, hn, there⟩

theorem delivered_sent {verdict : Verdict} {pipe : State} (h : Delivered limits verdict u.pipe pipe)
    (returns : Label.returns (.deliver verdict) = true) (up : u.pipe.delivery = .discarding → u.pipe.flag = true)
    (hs : Sent u) : Sent { u with pipe } ∨ Marked { u with pipe } ∨ Told { u with pipe } := by
  have ⟨unmarked, unended, open_, closes, done, past, sent⟩ := hs
  cases h with
  | @took packet queue here next =>
    obtain ⟨before, hq, hn⟩ := hs.waits (by simp [here]) (by simp [here])
    refine Or.inl ⟨unmarked, unended, rfl, rfl, done, past, ?_⟩
    cases before with
    | nil =>
      rw [next, List.nil_append, List.cons.injEq] at hq
      exact Or.inr ⟨hq.2, Or.inl (by rw [hq.1])⟩
    | cons first before =>
      rw [next, List.cons_append, List.cons.injEq] at hq
      rw [List.mem_cons, not_or] at hn
      refine Or.inl ⟨before, hq.2, hn.2, ?_⟩
      rw [hq.1]
      intro h
      cases h
      exact hn.1 rfl
  | drained here empty =>
    obtain ⟨before, hq, -⟩ := hs.waits (by simp [here]) (by simp [here])
    rw [empty] at hq
    simp at hq
  | condemned here flag =>
    refine Or.inl ⟨unmarked, unended, rfl, rfl, done, past, ?_⟩
    rcases sent with ⟨before, hq, hn, -⟩ | ⟨hq, -⟩
    · exact Or.inl ⟨before, hq, hn, nofun⟩
    · exact Or.inr ⟨hq, Or.inr rfl⟩
  | opened here =>
    exact Or.inl (hs.goesOn (by simp [here]) (by simp [here]) rfl rfl rfl rfl (through_ofSamples _ _)
      (closes_ofSamples _ _) (received_ofSamples _ _ _))
  | closing here =>
    rcases sent with ⟨-, -, -, hd⟩ | ⟨hq, -⟩
    · exact absurd here hd
    · exact Or.inr (Or.inr ⟨unmarked, done, past, hq, Or.inl rfl⟩)
  | discarded here => exact Or.inr (Or.inl ⟨rfl, unended, rfl, Or.inl (up here), nofun⟩)
  | accepted here =>
    exact Or.inl (hs.goesOn (by simp [here]) (by simp [here]) rfl rfl rfl rfl (through_ofSamples _ _)
      (closes_ofSamples _ _) (received_ofSamples _ _ _))
  | crashed here verdict_eq =>
    rw [verdict_eq] at returns
    cases returns
  | marked here => exact Or.inr (Or.inl ⟨rfl, unended, rfl, Or.inr (Or.inl rfl), nofun⟩)
  | announced here | refused here | raised here =>
    exact Or.inl (hs.goesOn (by simp [here]) (by simp [here]) rfl rfl rfl rfl rfl rfl nofun)
  | heralded here | ended here =>
    rw [here] at closes
    cases closes
  | settled here =>
    rw [here] at open_
    cases open_

theorem delivered_told {verdict : Verdict} {pipe : State} (h : Delivered limits verdict u.pipe pipe) (hs : Told u) :
    Told { u with pipe } := by
  obtain ⟨unmarked, done, past, queue, told⟩ := hs
  cases h with
  | took _ next =>
    rw [queue] at next
    cases next
  | drained here =>
    rw [here] at told
    exact ⟨unmarked, done, past, queue, Or.inr ⟨(told.resolve_left nofun).1, Or.inr (Or.inl rfl)⟩⟩
  | heralded => exact ⟨unmarked, done, past, queue, Or.inl rfl⟩
  | ended => exact ⟨unmarked, done, past, queue, Or.inr ⟨rfl, Or.inl rfl⟩⟩
  | settled here =>
    rw [here] at told
    have ended := (told.resolve_left nofun).1
    exact ⟨unmarked, done, past, rfl, Or.inr ⟨ended, Or.inr (Or.inr ⟨_, rfl, ended, unmarked⟩)⟩⟩
  | _ here => simp [here, Delivery.closes] at told

theorem delivered_marked {verdict : Verdict} {pipe : State} (h : Delivered limits verdict u.pipe pipe) (hs : Marked u) :
    Marked { u with pipe } := by
  obtain ⟨marked, unended, closes, sealed, -⟩ := hs
  obtain ⟨hp, hr⟩ := h.frame
  have sealed' : pipe.flag = true ∨ pipe.delivery = .raising ∨
      (pipe.Unended ∧ (pipe.producer = .silencing ∨ pipe.refusing = true ∨
        (pipe.producer = .idle ∧ pipe.route = none))) := by
    rcases sealed with up | here | ⟨he, gone⟩
    · exact Or.inl (h.flag_mono up)
    · cases h with
      | raised => exact Or.inl rfl
      | _ there =>
        rw [here] at there
        cases there
    · exact Or.inr (Or.inr ⟨h.unended he, by simpa only [State.refusing, hp, hr] using gone⟩)
  refine ⟨h.aborted_mono marked, ?_, ?_, sealed', ?_⟩
  · cases h with
    | ended here =>
      rw [here] at closes
      cases closes
    | _ => exact unended
  · cases h with
    | closing here down =>
      -- The flag is down, so nothing but the callback's refusal can have sealed the channel.
      rcases sealed with up | there | ⟨he, -⟩
      · simp [down] at up
      · rw [here] at there
        cases there
      · exact absurd here he.received
    | heralded here =>
      rw [here] at closes
      cases closes
    | opened => exact closes_ofSamples _ _
    | accepted => exact closes_ofSamples _ _
    | _ => rfl
  · intro stats there
    obtain ⟨rfl, -⟩ := h.finished there
    exact ⟨unended, marked⟩

theorem delivered_broken {verdict : Verdict} {pipe : State} (h : Delivered limits verdict u.pipe pipe) (hs : Broken u) :
    Broken { u with pipe } := by
  obtain ⟨unended, left, gone, -⟩ := hs
  obtain ⟨hp, hr⟩ := h.frame
  refine ⟨h.unended unended, left, by simpa only [State.refusing, hp, hr] using gone, ?_⟩
  intro stats there
  obtain ⟨rfl, -⟩ := h.finished there
  exact unended.stats

/-! ### The utterance -/

/-- The ways of an utterance whose host comes back from every push, as long as the callback does not see the
    flag too late. -/
inductive Ending (u : Utterance) : Prop where
  | going (hs : Going u)
  | sent (hs : Sent u)
  | told (hs : Told u)
  | marked (hs : Marked u)

/-- What the engine goes by, and what the delivery loop has seen before it throws a packet away. -/
structure Sound (u : Utterance) : Prop where
  script : Scripted u.left
  up : u.pipe.delivery = .discarding → u.pipe.flag = true

theorem moved_sound (h : Moved limits u label v) (hs : Sound u) : Sound v := by
  obtain ⟨script, up⟩ := hs
  cases h with
  | handed next => exact ⟨(next ▸ script).tail.1, up⟩
  | produced h => exact ⟨script, fun here => h.flag_mono (up (h.frame.1 ▸ here))⟩
  | delivered h =>
    refine ⟨script, fun here => ?_⟩
    cases h with
    | condemned _ flag => exact flag
    | opened => exact absurd here (discarding_ofSamples _ _)
    | accepted => exact absurd here (discarding_ofSamples _ _)
    | _ => cases here
  | raised => exact ⟨script, fun _ => rfl⟩
  | told => exact ⟨script, up⟩
  | parted => exact ⟨script, up⟩

theorem handed_going {buffer : List Sample} {left : List (List Sample)} {engineCancelled : Bool}
    (next : u.left = buffer :: left) (script : Scripted u.left) (hs : Going u) :
    Going { pipe := { u.pipe with producer := .entered buffer engineCancelled }, left } where
  unended := hs.unended.rest rfl rfl rfl
  unmarked := hs.unmarked
  listens := hs.listens
  speaks := hs.speaks
  open_ := hs.open_
  willing := ⟨rfl, nofun⟩
  hand rate packet h := by
    cases h
    exact (finish_ofBuffer rate buffer).trans (next ▸ script).tail.2
  last _ := ⟨rfl, nofun⟩

theorem moved_broken (h : Moved limits u label v) (hs : Broken u) : Broken v := by
  have ⟨unended, left, gone, settled⟩ := hs
  cases h with
  | handed _ speaks _ willing =>
    rcases gone with refusing | ⟨-, none⟩
    · simp [willing] at refusing
    · simp [none] at speaks
  | produced h =>
    cases h with
    | _ here => simp [State.refusing, here] at gone
  | delivered h => exact delivered_broken h hs
  | raised | told => exact ⟨unended.rest rfl rfl rfl, left, gone, settled⟩
  | parted => exact ⟨unended.rest rfl rfl rfl, left, Or.inr ⟨rfl, rfl⟩, settled⟩

theorem produced_marked {stopRequested : Bool} {pipe : State} (h : Produced limits stopRequested u.pipe pipe)
    (hs : Marked u) : Marked { u with pipe } := by
  obtain ⟨marked, unended, closes, sealed, settled⟩ := hs
  obtain ⟨hd, hst, -, -⟩ := h.frame
  refine ⟨h.aborted_mono marked, hst ▸ unended, hd ▸ closes, ?_, hd ▸ settled⟩
  rcases sealed with up | here | ⟨he, gone⟩
  · exact Or.inl (h.flag_mono up)
  · exact Or.inr (Or.inl (hd.trans here))
  · refine Or.inr (Or.inr ?_)
    cases h with
    | silenced => exact ⟨he.rest rfl rfl rfl, Or.inr (Or.inl rfl)⟩
    | _ here => simp [State.refusing, here] at gone

/-- What neither lowers the flag nor touches the delivery loop leaves a marked utterance marked. -/
theorem Marked.rest (hs : Marked u) (aborted : v.pipe.aborted = u.pipe.aborted) (stats : v.pipe.stats = u.pipe.stats)
    (queue : v.pipe.queue = u.pipe.queue) (delivery : v.pipe.delivery = u.pipe.delivery)
    (flag : u.pipe.flag = true → v.pipe.flag = true)
    (gone : u.pipe.producer = .silencing ∨ u.pipe.refusing = true ∨ (u.pipe.producer = .idle ∧ u.pipe.route = none) →
      v.pipe.producer = .silencing ∨ v.pipe.refusing = true ∨ (v.pipe.producer = .idle ∧ v.pipe.route = none)) :
    Marked v where
  marked := aborted.trans hs.marked
  unended := stats ▸ hs.unended
  closes := delivery ▸ hs.closes
  sealed := hs.sealed.imp flag (Or.imp delivery.trans (And.imp (fun he => he.rest stats queue delivery) gone))
  settled := delivery ▸ hs.settled

theorem moved_marked (h : Moved limits u label v) (hs : Marked u) : Marked v := by
  cases h with
  | handed _ speaks rests willing =>
    refine hs.rest rfl rfl rfl rfl id fun gone => ?_
    rcases gone with here | refusing | ⟨-, none⟩
    · simp [State.resting, here] at rests
    · simp [willing] at refusing
    · simp [none] at speaks
  | produced h => exact produced_marked h hs
  | delivered h => exact delivered_marked h hs
  | raised => exact hs.rest rfl rfl rfl rfl (fun _ => rfl) id
  | told => exact hs.rest rfl rfl rfl rfl id id
  | parted => exact hs.rest rfl rfl rfl rfl id fun _ => Or.inr (Or.inr ⟨rfl, rfl⟩)

theorem moved_ending (h : Moved limits u label v) (returns : label.returns = true) (sound : Sound u) (hs : Ending u) :
    Ending v ∨ label.lapses u = true := by
  obtain ⟨script, up⟩ := sound
  cases hs with
  | going hs =>
    cases h with
    | handed next => exact Or.inl (.going (handed_going next script hs))
    | produced h =>
      rcases produced_going h hs with hv | hv | hv | ⟨hl, -⟩
      · exact Or.inl (.going hv)
      · exact Or.inl (.marked hv)
      · exact Or.inl (.sent hv)
      · exact Or.inr hl
    | delivered h =>
      rcases delivered_going h returns up hs with hv | hv
      · exact Or.inl (.going hv)
      · exact Or.inl (.marked hv)
    | raised | told =>
      refine Or.inl (.going (hs.rest ?_ hs.unmarked rfl rfl rfl hs.willing hs.hand hs.last))
      exact hs.unended.rest rfl rfl rfl
    | parted speaks rests done =>
      rcases done with done | refusing
      · have := (hs.last done).1
        rw [rests] at this
        cases this
      · have := hs.willing.1
        rw [refusing] at this
        cases this
  | sent hs =>
    cases h with
    | handed next =>
      rw [hs.done] at next
      cases next
    | produced h =>
      obtain rfl := produced_past h hs.past
      exact Or.inl (.sent (hs.rest rfl rfl rfl rfl (Or.inr rfl)))
    | delivered h =>
      rcases delivered_sent h returns up hs with hv | hv | hv
      · exact Or.inl (.sent hv)
      · exact Or.inl (.marked hv)
      · exact Or.inl (.told hv)
    | raised | told => exact Or.inl (.sent (hs.rest rfl rfl rfl rfl hs.past))
    | parted => exact Or.inl (.sent (hs.rest rfl rfl rfl rfl (Or.inr rfl)))
  | told hs =>
    cases h with
    | handed next =>
      rw [hs.done] at next
      cases next
    | produced h =>
      obtain rfl := produced_past h hs.past
      exact Or.inl (.told (hs.rest rfl rfl rfl rfl (Or.inr rfl)))
    | delivered h => exact Or.inl (.told (delivered_told h hs))
    | raised | told => exact Or.inl (.told (hs.rest rfl rfl rfl rfl hs.past))
    | parted => exact Or.inl (.told (hs.rest rfl rfl rfl rfl (Or.inr rfl)))
  | marked hs => exact Or.inl (.marked (moved_marked h hs))

theorem moved_lapse (h : Moved limits u label v) (lapse : label.lapses u = true) (hs : Ending u) : Broken v := by
  cases h with
  | @produced stopRequested pipe h =>
    simp only [Label.lapses, Bool.and_eq_true, decide_eq_true_eq, Bool.not_eq_true', List.isEmpty_eq_false_iff] at lapse
    obtain ⟨⟨⟨here, up⟩, left⟩, unmarked⟩ := lapse
    obtain rfl := produced_past h (Or.inl here)
    cases hs with
    | going hs =>
      exact ⟨hs.unended.rest rfl rfl rfl, left, Or.inl up, fun stats there => absurd there (unfinished hs.open_ stats)⟩
    | sent hs => exact absurd hs.done left
    | told hs => exact absurd hs.done left
    | marked hs => simp [hs.marked] at unmarked
  | _ => cases lapse

/-- The callback sees the flag too late somewhere in the schedule. -/
def Lapses (limits : Limits) : List Label → Utterance → Prop
  | [], _ => False
  | label :: labels, u =>
    label.lapses u = true ∨ ∃ v, step limits label u = some v ∧ Lapses limits labels v

theorem run_broken {labels : List Label} (h : run limits labels u = some v) (hs : Broken u) : Broken v :=
  run_keeps (fun _ _ _ _ => moved_broken) h hs

theorem run_ending {labels : List Label} (returns : ∀ label ∈ labels, label.returns = true)
    (h : run limits labels u = some v) (sound : Sound u) (hs : Ending u) :
    (¬ Lapses limits labels u ∧ Ending v) ∨ (Lapses limits labels u ∧ Broken v) := by
  induction labels generalizing u with
  | nil =>
    cases h
    exact Or.inl ⟨id, hs⟩
  | cons label labels ih =>
    obtain ⟨w, hw, h⟩ := Option.bind_eq_some_iff.mp h
    have hm := step_inv hw
    -- The first lapse settles it: from there on the utterance stays broken.
    by_cases lapse : label.lapses u = true
    · exact Or.inr ⟨Or.inl lapse, run_broken h (moved_lapse hm lapse hs)⟩
    · have hs := (moved_ending hm (returns label List.mem_cons_self) sound hs).resolve_right lapse
      obtain ⟨none, hv⟩ | ⟨some, hv⟩ :=
        ih (fun l hl => returns l (List.mem_cons_of_mem _ hl)) h (moved_sound hm sound) hs
      · refine Or.inl ⟨?_, hv⟩
        rintro (now | ⟨w', hw', later⟩)
        · exact lapse now
        · rw [hw] at hw'
          cases hw'
          exact none later
      · exact Or.inr ⟨Or.inr ⟨w, hw, some⟩, hv⟩

theorem start_ending (rate : UInt32) (buffers : List (List Sample)) (s : State) : Ending (start rate buffers s) :=
  .going {
    unended := ⟨rfl, List.not_mem_nil, nofun, rfl⟩
    unmarked := rfl
    listens := rfl
    speaks := rfl
    open_ := rfl
    willing := ⟨rfl, nofun⟩
    hand := nofun
    last := fun h => by simp [start] at h }

theorem Ending.settled {stats : Stats} (hs : Ending u) (there : u.pipe.delivery = .finished stats) :
    stats.ended = !stats.aborted := by
  cases hs with
  | going hs => exact absurd there (unfinished hs.open_ stats)
  | sent hs => exact absurd there (unfinished hs.open_ stats)
  | told hs =>
    rcases hs.told with closes | ⟨-, here | here | ⟨own, here, ended, unmarked⟩⟩
    · rw [there] at closes
      cases closes
    · rw [there] at here
      cases here
    · rw [there] at here
      cases here
    · rw [there] at here
      cases here
      rw [ended, unmarked]
      rfl
  | marked hs =>
    obtain ⟨unended, marked⟩ := hs.settled stats there
    rw [unended, marked]
    rfl

end

/-- An utterance whose host comes back from every push never counts both as told to its end and as cut short;
    and it counts as one of the two, unless the callback saw the flag too late and nothing else has marked it. -/
theorem ended_or_aborted {rate : UInt32} {buffers : List (List Sample)} {chunkSize capacity : Nat} {s : State}
    {labels : List Label} {u : Utterance} {stats : Stats} (solid : ∀ buffer ∈ buffers, buffer ≠ [])
    (returns : ∀ label ∈ labels, label.returns = true)
    (h : run (.ofSizes chunkSize capacity) labels (start rate buffers s) = some u)
    (finished : u.pipe.delivery = .finished stats) :
    ¬ (stats.ended = true ∧ stats.aborted = true) ∧
      ((stats.ended = true ∨ stats.aborted = true) ↔
        ¬ (Lapses (.ofSizes chunkSize capacity) labels (start rate buffers s) ∧ stats.aborted = false)) := by
  have sound : Sound (start rate buffers s) := ⟨Or.inr ⟨buffers, rfl, solid⟩, nofun⟩
  rcases run_ending returns h sound (start_ending rate buffers s) with ⟨none, hs⟩ | ⟨some, hs⟩
  · have := hs.settled finished
    cases ha : stats.aborted <;> simp_all
  · have := hs.settled stats finished
    cases ha : stats.aborted <;> simp_all

/-- A buffer is sent, delivered and played; then someone raises the flag, and the callback looks. -/
def lateLook : List Label :=
  [.hand false] ++ List.replicate 4 (.produce false) ++ List.replicate 4 (.deliver .accepted) ++
    [.raise, .produce false, .leave] ++ List.replicate 2 (.deliver .accepted)

/-- The utterance is broken off, and its count does not show it. -/
theorem neither_ended_nor_aborted :
    (run (.ofSizes 2 1) lateLook (start 22050 [[1], [2]] {})).map (·.pipe.delivery) =
      some (.finished { frames := 1, samples := 1, ended := false, aborted := false }) := by
  decide +kernel

end Utterance

end Orator.Pipeline
