import Orator.Proofs.Dispatcher.Renewed
import Orator.Proofs.Service.OneAtATime

/-! Whoever raises the flag while an utterance is under way cuts that utterance short, at once and on both
    sides of the channel, and no other. -/

namespace Orator

/-- The count that comes with an outcome. -/
def Dispatcher.Outcome.stats? : Dispatcher.Outcome → Option Pipeline.Stats
  | .completed stats | .cancelled stats => some stats
  | _ => none

namespace Service

open Dispatcher (Exclusive Clean)
open Pipeline (Flow Stats)

/-- The state after a schedule all of whose steps are taken while one utterance is under way. -/
def runUnderway (setup : Setup) : List Label → State → Option State
  | [], s => some s
  | label :: labels, s =>
    if s.dispatcher.underway then (step setup label s).bind (runUnderway setup labels) else none

/-- Whether the step cuts no utterance short. -/
def Label.calm : Label → Bool
  | .stop | .cancel => false
  | .inner label => label.calm
  | _ => true

section
variable {setup : Setup} {s t u : State} {label : Label} {labels : List Label}

theorem stirred_flag (h : Stirred setup s.dispatcher label t.dispatcher) (hs : Exclusive s.dispatcher)
    (under : s.dispatcher.underway = true) (up : s.dispatcher.pipe.flag = true) :
    t.dispatcher.pipe.flag = true := by
  generalize t.dispatcher = d at h
  cases h with
  | moved _ never h => exact Dispatcher.moved_flag h never hs under up
  | raised => rfl
  | _ => exact up

theorem stirred_opens (h : Stirred setup s.dispatcher label t.dispatcher) (hs : Exclusive s.dispatcher)
    (under : s.dispatcher.underway = true) (past : s.dispatcher.control.opens = false) :
    t.dispatcher.control.opens = false := by
  generalize t.dispatcher = d at h
  cases h with
  | moved _ _ h => exact Dispatcher.moved_opens h hs under past
  | _ => exact past

theorem stirred_flow (h : Stirred setup s.dispatcher label t.dispatcher) (hs : Exclusive s.dispatcher)
    (under : s.dispatcher.underway = true) (past : s.dispatcher.control.opens = false) :
    Flow setup.limits s.dispatcher.pipe (deeds label s) t.dispatcher.pipe := by
  unfold deeds
  generalize t.dispatcher = d at h
  cases h with
  | moved own never h =>
    rw [own]
    exact Dispatcher.moved_flow h never hs under past
  | told _ own =>
    rw [own]
    exact .told
  | raised own =>
    rcases own with rfl | rfl <;> exact .raised
  | rested own =>
    rw [own]
    exact .told

theorem stirred_clean (h : Stirred setup s.dispatcher label t.dispatcher) (calm : label.calm = true)
    (hs : Exclusive s.dispatcher) (under : s.dispatcher.underway = true) (hc : Clean s.dispatcher) :
    Clean t.dispatcher := by
  generalize t.dispatcher = d at h
  cases h with
  | moved own _ h =>
    refine Dispatcher.moved_clean h ?_ hs under hc
    cases label <;> cases own <;> first | rfl | exact calm
  | told =>
    refine ⟨hc.down, fun past => ?_⟩
    obtain ⟨down, unmarked, producer, delivery⟩ := hc.opened past
    exact ⟨down, unmarked, producer, delivery⟩
  | raised own =>
    rcases own with rfl | rfl <;> cases calm
  | rested => exact hc

theorem runUnderway_cons (h : runUnderway setup (label :: labels) s = some u) :
    s.dispatcher.underway = true ∧ ∃ t, step setup label s = some t ∧ runUnderway setup labels t = some u := by
  unfold runUnderway at h
  split at h
  · exact ⟨‹_›, Option.bind_eq_some_iff.mp h⟩
  · cases h

theorem runUnderway_flag (h : runUnderway setup labels s = some t) (hs : Exclusive s.dispatcher)
    (up : s.dispatcher.pipe.flag = true) : Exclusive t.dispatcher ∧ t.dispatcher.pipe.flag = true := by
  induction labels generalizing s with
  | nil =>
    cases h
    exact ⟨hs, up⟩
  | cons label labels ih =>
    obtain ⟨under, u, hu, h⟩ := runUnderway_cons h
    have hst := step_inv hu
    exact ih h (stirred_exclusive hst hs) (stirred_flag hst hs under up)

/-- Once the channel has been opened, what each step of the pipeline keeps is kept to the end of the
    utterance. -/
theorem runUnderway_keeps {P : List Deed → Pipeline.State → Prop} (past : List Deed)
    (keeps : ∀ {p q : Pipeline.State} {past done}, Flow setup.limits p done q →
      (p.producer = .idle ∨ p.delivery.through = false) → P past p → P (past ++ done) q)
    (h : runUnderway setup labels s = some t) (hs : Exclusive s.dispatcher)
    (opened : s.dispatcher.control.opens = false) (hp : P past s.dispatcher.pipe) :
    Exclusive t.dispatcher ∧ P (past ++ journal setup labels s) t.dispatcher.pipe := by
  induction labels generalizing s past with
  | nil =>
    cases h
    rw [journal, List.append_nil]
    exact ⟨hs, hp⟩
  | cons label labels ih =>
    obtain ⟨under, u, hu, h⟩ := runUnderway_cons h
    have hst := step_inv hu
    rw [journal_cons hu, ← List.append_assoc]
    exact ih _ h (stirred_exclusive hst hs) (stirred_opens hst hs under opened)
      (keeps (stirred_flow hst hs under opened) hs.unfinished hp)

theorem runUnderway_clean (h : runUnderway setup labels s = some t) (calm : ∀ label ∈ labels, label.calm = true)
    (hs : Exclusive s.dispatcher) (hc : Clean s.dispatcher) : Exclusive t.dispatcher ∧ Clean t.dispatcher := by
  induction labels generalizing s with
  | nil =>
    cases h
    exact ⟨hs, hc⟩
  | cons label labels ih =>
    obtain ⟨under, u, hu, h⟩ := runUnderway_cons h
    have hst := step_inv hu
    exact ih h (fun l hl => calm l (List.mem_cons_of_mem _ hl)) (stirred_exclusive hst hs)
      (stirred_clean hst (calm label List.mem_cons_self) hs under hc)

/-! ### The two sides of a cancelled utterance -/

theorem deeds_inner {inner : Dispatcher.Label} (own : label.inner? = some inner) :
    deeds label s = Dispatcher.deeds inner s.dispatcher := by
  rw [deeds, own]

theorem deeds_none (own : label.inner? = none) : deeds label s = [] := by
  rw [deeds, own]

theorem step_called (h : step setup label s = some t) (hs : Exclusive s.dispatcher) (hd : .called ∈ deeds label s) :
    t.dispatcher.control.opens = false ∧ t.dispatcher.pipe.flag = s.dispatcher.pipe.flag ∧
      t.dispatcher.pipe.producer.turning = true ∧ t.dispatcher.pipe.producer ≠ .silencing := by
  have hst := step_inv h
  generalize t.dispatcher = d at hst
  cases hst with
  | moved own _ h =>
    rw [deeds_inner own] at hd
    obtain ⟨⟨engine, speaks⟩, hc, hf, hp⟩ := Dispatcher.moved_called h hd
    exact ⟨hc ▸ hs.opened_of_running (Or.inl (by simp [speaks])), hf, hp⟩
  | raised own => obtain rfl | rfl := own <;> cases hd
  | told _ own | rested own =>
    rw [deeds_none own] at hd
    cases hd

theorem step_took (h : step setup label s = some t) (hs : Exclusive s.dispatcher) (hd : .took ∈ deeds label s) :
    t.dispatcher.control.opens = false ∧ t.dispatcher.pipe.flag = s.dispatcher.pipe.flag ∧
      t.dispatcher.pipe.delivery.holding = true ∧ t.dispatcher.pipe.Counted := by
  have hst := step_inv h
  generalize t.dispatcher = d at hst
  cases hst with
  | moved own _ h =>
    rw [deeds_inner own] at hd
    obtain ⟨runs, hc, hf, hp⟩ := Dispatcher.moved_took h hd
    exact ⟨hc ▸ hs.opened_of_running (Or.inr runs), hf, hp⟩
  | raised own => obtain rfl | rfl := own <;> cases hd
  | told _ own | rested own =>
    rw [deeds_none own] at hd
    cases hd

theorem runUnderway_quiet (h : runUnderway setup labels s = some t) (hs : Exclusive s.dispatcher)
    (opened : s.dispatcher.control.opens = false) (up : s.dispatcher.pipe.flag = true)
    (here : s.dispatcher.pipe.producer.quiet = true) : .sent ∉ journal setup labels s := by
  have := runUnderway_keeps []
    (P := fun past p => p.flag = true ∧ p.producer.quiet = true ∧ .sent ∉ past) ?_ h hs opened ⟨up, here, by simp⟩
  · exact this.2.2.2
  · rintro p q past done hf - ⟨up, here, hn⟩
    obtain ⟨there, hd⟩ := hf.quiet up here
    exact ⟨hf.flag_mono up, there, by simp [hn, hd]⟩

theorem runUnderway_turned (h : runUnderway setup labels s = some t) (hs : Exclusive s.dispatcher)
    (opened : s.dispatcher.control.opens = false) (up : s.dispatcher.pipe.flag = true)
    (here : s.dispatcher.pipe.producer.turning = true) :
    (t.dispatcher.pipe.producer.turning = true ∧ (journal setup labels s).filter Deed.ofCallback = []) ∨
      [.stopped, .returned true] <+: (journal setup labels s).filter Deed.ofCallback := by
  have := runUnderway_keeps []
    (P := fun past p => p.flag = true ∧ ((p.producer.turning = true ∧ past.filter Deed.ofCallback = []) ∨
      [.stopped, .returned true] <+: past.filter Deed.ofCallback)) ?_ h hs opened ⟨up, Or.inl ⟨here, rfl⟩⟩
  · exact this.2.2
  -- The callback has done nothing yet, or its first two deeds are known; what it does later adds to them.
  · rintro p q past done hf - ⟨up, ⟨here, hn⟩ | hn⟩
    · refine ⟨hf.flag_mono up, ?_⟩
      rw [List.filter_append, hn, List.nil_append]
      rcases hf.turned up here with hd | hd
      · exact Or.inl hd
      · exact Or.inr (hd ▸ List.prefix_refl _)
    · refine ⟨hf.flag_mono up, Or.inr ?_⟩
      rw [List.filter_append]
      exact hn.trans (List.prefix_append _ _)

theorem runUnderway_muted (h : runUnderway setup labels s = some t) (hs : Exclusive s.dispatcher)
    (opened : s.dispatcher.control.opens = false) (up : s.dispatcher.pipe.flag = true)
    (here : s.dispatcher.pipe.delivery.muted = true) :
    .pushed ∉ journal setup labels s ∧ .ended ∉ journal setup labels s := by
  have := runUnderway_keeps []
    (P := fun past p => p.flag = true ∧ p.delivery.muted = true ∧ .pushed ∉ past ∧ .ended ∉ past) ?_ h hs opened
    ⟨up, here, by simp⟩
  · exact this.2.2.2
  · rintro p q past done hf - ⟨up, here, hp, he⟩
    obtain ⟨there, hp', he'⟩ := hf.muted up here
    exact ⟨hf.flag_mono up, there, by simp [hp, hp'], by simp [he, he']⟩

theorem runUnderway_discarded (h : runUnderway setup labels s = some t) (hs : Exclusive s.dispatcher)
    (opened : s.dispatcher.control.opens = false) (up : s.dispatcher.pipe.flag = true)
    (here : s.dispatcher.pipe.delivery.holding = true) :
    (t.dispatcher.pipe.delivery.holding = true ∧ (journal setup labels s).filter Deed.ofLoop = []) ∨
      [.dropped] <+: (journal setup labels s).filter Deed.ofLoop := by
  have := runUnderway_keeps []
    (P := fun past p => p.flag = true ∧ ((p.delivery.holding = true ∧ past.filter Deed.ofLoop = []) ∨
      [.dropped] <+: past.filter Deed.ofLoop)) ?_ h hs opened ⟨up, Or.inl ⟨here, rfl⟩⟩
  · exact this.2.2
  · rintro p q past done hf - ⟨up, ⟨here, hn⟩ | hn⟩
    · refine ⟨hf.flag_mono up, ?_⟩
      rw [List.filter_append, hn, List.nil_append]
      rcases hf.discarded up here with hd | ⟨-, -, hd⟩
      · exact Or.inl hd
      · exact Or.inr (hd ▸ List.prefix_refl _)
    · refine ⟨hf.flag_mono up, Or.inr ?_⟩
      rw [List.filter_append]
      exact hn.trans (List.prefix_append _ _)

theorem runUnderway_dropped (h : runUnderway setup labels s = some t) (hs : Exclusive s.dispatcher)
    (opened : s.dispatcher.control.opens = false) (counted : s.dispatcher.pipe.Counted) :
    t.dispatcher.pipe.stats.dropped =
      s.dispatcher.pipe.stats.dropped + (journal setup labels s).count .dropped ∧ t.dispatcher.pipe.Counted := by
  have := runUnderway_keeps []
    (P := fun past p => p.stats.dropped = s.dispatcher.pipe.stats.dropped + past.count .dropped ∧ p.Counted) ?_ h hs
    opened ⟨rfl, counted⟩
  · exact this.2
  · rintro p q past done hf - ⟨hd, hc⟩
    refine ⟨?_, hf.counted hc⟩
    rw [hf.dropped, hd, List.count_append, Nat.add_assoc]

theorem runUnderway_touched (h : runUnderway setup labels s = some t) (hs : Exclusive s.dispatcher)
    (opened : s.dispatcher.control.opens = false) (up : s.dispatcher.pipe.flag = true)
    (here : s.dispatcher.pipe.Touched) {stats : Stats} (there : t.dispatcher.pipe.delivery = .finished stats) :
    stats.aborted = true := by
  have := runUnderway_keeps [] (P := fun _ p => p.flag = true ∧ p.Touched) ?_ h hs opened ⟨up, here⟩
  · exact this.2.2.settled this.1.unfinished there
  · rintro p q past done hf inside ⟨up, here⟩
    exact ⟨hf.flag_mono up, hf.touched up here inside⟩

end

/-! ### Cancellation -/

/-- What a raised flag brings about from this state on, to the end of the utterance. -/
structure Upheld (setup : Setup) (s : State) : Prop where
  /-- A callback that begins now sends nothing, nor does a later one; it stops the host's queue and makes the
      engine abort, and nothing can hold it up on its way. -/
  refused : ∀ {label t labels u}, step setup label s = some t → .called ∈ deeds label s →
    runUnderway setup labels t = some u →
    .sent ∉ journal setup labels t ∧
      ((∀ stopRequested, (step setup (.inner (.produce stopRequested)) u).isSome = true) ∧
          (journal setup labels t).filter Deed.ofCallback = [] ∨
        [.stopped, .returned true] <+: (journal setup labels t).filter Deed.ofCallback)
  /-- A packet that is taken now is the next to be thrown away, which nothing can hold up; it is counted, and the
      host hears nothing of it nor of a later one. -/
  discarded : ∀ {label t labels u}, step setup label s = some t → .took ∈ deeds label s →
    runUnderway setup labels t = some u →
    (.pushed ∉ journal setup labels t ∧ .ended ∉ journal setup labels t) ∧
      ((∀ verdict, (step setup (.inner (.deliver verdict)) u).isSome = true) ∧
          (journal setup labels t).filter Deed.ofLoop = [] ∨
        [.dropped] <+: (journal setup labels t).filter Deed.ofLoop) ∧
      u.dispatcher.pipe.stats.dropped =
        t.dispatcher.pipe.stats.dropped + (journal setup labels t).count .dropped ∧
      ∀ stats, u.dispatcher.pipe.delivery = .finished stats → stats.dropped = u.dispatcher.pipe.stats.dropped
  /-- Either way the utterance counts as cut short. Only if the host never comes back from a push can it be reported
      as complete all the same, with a count of zeros. -/
  marked : ∀ {label t labels u}, step setup label s = some t → (.called ∈ deeds label s ∨ .took ∈ deeds label s) →
    runUnderway setup labels t = some u →
    (∀ stats, u.dispatcher.pipe.delivery = .finished stats → stats.aborted = true) ∧
      ∀ outcome, u.dispatcher.watcher = .finished outcome →
        (∀ stats, outcome.stats? = some stats → stats.aborted = true) ∨
          u.dispatcher.pipe.delivery = .crashed ∧ outcome = .completed {}

/-- What becomes of flag and mark when a request is accepted, whatever they were before. -/
structure Renewed (setup : Setup) (s : State) (engine : Engine) (request : Request) : Prop where
  alone : s.dispatcher.speaker = .absent ∧ s.dispatcher.pipe.delivery.running = false
  /-- The flag is lowered, and if nobody cuts the new utterance short, it stays down and the utterance does not
      count as cut short. -/
  lowered : ∃ t, step setup (.inner .control) s = some t ∧ t.dispatcher.control = .opening engine request ∧
    t.dispatcher.pipe.flag = false ∧
    ∀ labels u, runUnderway setup labels t = some u → (∀ label ∈ labels, label.calm = true) →
      u.dispatcher.pipe.flag = false ∧
        (u.dispatcher.control.opens = false → u.dispatcher.pipe.aborted = false ∧
          (∀ stats, u.dispatcher.pipe.delivery = .finished stats → stats.aborted = false) ∧
          ∀ stats, u.dispatcher.watcher ≠ .finished (.cancelled stats))

section
variable {setup : Setup} {s t u : State} {labels : List Label}

theorem outcome_of_marked {kind : MessageKind} {stats other : Stats} {result : Dispatcher.Synthesis}
    (marked : stats.aborted = true) (h : (Dispatcher.Outcome.of kind stats result).stats? = some other) :
    other.aborted = true := by
  cases result with
  | spoke success =>
    simp only [Dispatcher.Outcome.of, marked, if_true, Dispatcher.Outcome.stats?, Option.some.injEq] at h
    rw [← h]
    exact marked
  | _ => cases h

/-- A delivery that left no count goes unnoticed if the engine ends well. -/
theorem outcome_of_uncounted (kind : MessageKind) (result : Dispatcher.Synthesis) :
    Dispatcher.Outcome.of kind {} result = .completed {} ∨ (Dispatcher.Outcome.of kind {} result).stats? = none := by
  cases result with
  | spoke success =>
    cases success with
    | true => exact Or.inl rfl
    | false => exact Or.inr rfl
  | _ => exact Or.inr rfl

theorem upheld_of_up (hs : Exclusive s.dispatcher) (up : s.dispatcher.pipe.flag = true) : Upheld setup s where
  refused {label t labels u} h hd hr := by
    obtain ⟨opened, hf, turning, -⟩ := step_called h hs hd
    have ht := stirred_exclusive (step_inv h) hs
    rw [← hf] at up
    refine ⟨runUnderway_quiet hr ht opened up (Pipeline.quiet_turning turning), ?_⟩
    rcases runUnderway_turned hr ht opened up turning with ⟨there, hn⟩ | hn
    · refine Or.inl ⟨?_, hn⟩
      intro stopRequested
      have := Pipeline.produce_of_turning setup.limits there stopRequested
      simpa [step, internal, Dispatcher.step, Dispatcher.State.withPipe, Pipeline.step] using this
    · exact Or.inr hn
  discarded {label t labels u} h hd hr := by
    obtain ⟨opened, hf, holding, counted⟩ := step_took h hs hd
    have ht := stirred_exclusive (step_inv h) hs
    rw [← hf] at up
    refine ⟨runUnderway_muted hr ht opened up (Pipeline.muted_holding holding), ?_,
      runUnderway_dropped hr ht opened counted⟩
    rcases runUnderway_discarded hr ht opened up holding with ⟨there, hn⟩ | hn
    · refine Or.inl ⟨?_, hn⟩
      intro verdict
      have := Pipeline.deliver_of_holding setup.limits there verdict
      simpa [step, internal, Dispatcher.step, Dispatcher.State.withPipe, Pipeline.step] using this
    · exact Or.inr hn
  marked {label t labels u} h hd hr := by
    have ht := stirred_exclusive (step_inv h) hs
    have up : t.dispatcher.pipe.flag = true := by
      rcases hd with hd | hd
      · exact (step_called h hs hd).2.1.trans up
      · exact (step_took h hs hd).2.1.trans up
    have settled {stats : Stats} (there : u.dispatcher.pipe.delivery = .finished stats) : stats.aborted = true := by
      rcases hd with hd | hd
      · obtain ⟨opened, -, here⟩ := step_called h hs hd
        exact runUnderway_touched hr ht opened up (Or.inl here) there
      · obtain ⟨opened, -, here, -⟩ := step_took h hs hd
        exact runUnderway_touched hr ht opened up (Or.inr (Or.inl here)) there
    refine ⟨fun _ => settled, ?_⟩
    intro outcome hw
    obtain ⟨hu, -⟩ := runUnderway_flag hr ht up
    obtain ⟨kind, own, result, rfl, there | ⟨there, rfl⟩⟩ := hu.reported _ hw
    · exact Or.inl fun _ => outcome_of_marked (settled there)
    · rcases outcome_of_uncounted kind result with complete | uncounted
      · exact Or.inr ⟨there, complete⟩
      · exact Or.inl fun stats counted => by simp [uncounted] at counted

theorem renewed_of_clearing (hs : Exclusive s.dispatcher) {engine : Engine} {request : Request}
    (here : s.dispatcher.control = .clearing engine request) : Renewed setup s engine request where
  alone := by
    have works : s.dispatcher.control.working = true := by rw [here]; rfl
    exact ⟨hs.speaker_absent works (by rw [here]; rfl), hs.delivery_idle works⟩
  lowered := by
    have hst : ∃ t, step setup (.inner .control) s = some t ∧ t.dispatcher.control = .opening engine request ∧
        t.dispatcher.pipe.flag = false := by
      simp [step, internal, Dispatcher.step, Dispatcher.control, here]
    obtain ⟨t, ht, hc, hf⟩ := hst
    refine ⟨t, ht, hc, hf, ?_⟩
    intro labels u hr calm
    have clean : Clean t.dispatcher := ⟨hf, fun past => by rw [hc] at past; cases past⟩
    obtain ⟨hu, clean⟩ := runUnderway_clean hr calm (stirred_exclusive (step_inv ht) hs) clean
    refine ⟨clean.down, fun past => ⟨(clean.opened past).unmarked, ?_, clean.reported hu past⟩⟩
    intro stats there
    have := (clean.opened past).delivery
    rw [there] at this
    simpa [Pipeline.Delivery.clean] using this

/-- A flag that is raised while an utterance is under way stays up to its end, and from then on the callback
    refuses, the delivery loop discards, and the utterance counts as cut short; if the host never comes back from
    a push, it may be reported as complete instead, with a count of zeros. The next request starts afresh: flag and
    mark are down before its workers are there. -/
theorem cancellation_upheld {config : Config} {library : Library} {program : List String}
    {isDirectory : String → Bool} {s₀ : State} {history : History}
    (loaded : load config library program isDirectory = (.ok (setup, s₀), history))
    (h : run setup labels s₀ = some s) :
    (s.dispatcher.underway = true → s.dispatcher.pipe.flag = true → ∀ later t, runUnderway setup later s = some t →
      t.dispatcher.pipe.flag = true ∧ Upheld setup t) ∧
    (∀ engine request, s.dispatcher.control = .clearing engine request → Renewed setup s engine request) ∧
    (s.dispatcher.control.spawns = true →
      s.dispatcher.pipe.aborted = false ∧ s.dispatcher.speaker = .absent ∧ s.dispatcher.pipe.delivery = .idle) := by
  obtain rfl := load_start loaded
  obtain ⟨hs, -, -⟩ := run_orderly h
  refine ⟨?_, fun engine request => renewed_of_clearing hs, ?_⟩
  · intro _ up later t hr
    obtain ⟨ht, up⟩ := runUnderway_flag hr hs up
    exact ⟨up, upheld_of_up ht up⟩
  · intro spawns
    obtain ⟨unmarked, idle⟩ := hs.fresh spawns
    have works := Dispatcher.working_of_spawns spawns
    exact ⟨unmarked, hs.speaker_absent works (Dispatcher.attends_of_spawns spawns), idle⟩

end

/-- A request is accepted, its first buffer is being pushed, and someone cancels. -/
def cancelledInPush : List Label :=
  [.call (.speak { payload := [104] }), .grant (.speak { payload := [104] })] ++
    List.replicate 6 (.inner .control) ++ [.inner .release, .inner .speak, .inner (.call [1] false)] ++
    List.replicate 5 (.inner (.produce false)) ++ List.replicate 3 (.inner (.deliver .accepted)) ++ [.cancel]

theorem cancellation_upheld_inPush :
    ∃ setup s₀ s history,
      load { libraryDir := some "/lib" } plainLibrary [] (fun _ => true) = (.ok (setup, s₀), history) ∧
      run setup cancelledInPush s₀ = some s ∧ s.dispatcher.underway = true ∧ s.dispatcher.pipe.flag = true ∧
      ∀ later t, runUnderway setup later s = some t → t.dispatcher.pipe.flag = true ∧ Upheld setup t := by
  have hr : (serve { libraryDir := some "/lib" } plainLibrary [] (fun _ => true) cancelledInPush).map
      (fun (_, s) => (s.dispatcher.underway, s.dispatcher.pipe.flag)) = some (true, true) := by
    decide +kernel
  obtain ⟨⟨setup, s⟩, hs, hf⟩ := Option.map_eq_some_iff.mp hr
  obtain ⟨s₀, history, loaded, h⟩ := serve_inv hs
  obtain ⟨under, up⟩ := Prod.mk.inj hf
  exact ⟨setup, s₀, s, history, loaded, h, under, up, (cancellation_upheld loaded h).1 under up⟩

/-- The callback is called again and refuses; then the push crashes, and the engine ends well all the same. -/
def crashesInPush : List Label :=
  List.replicate 3 (.inner (.produce false)) ++
    [.inner (.deliver (.crashed false)), .inner (.spoke true), .inner .speak, .inner .watch, .inner .watch]

/-- A crash of the host hides a cancellation: the utterance is reported as complete, without its mark. -/
theorem crash_hides_cancellation :
    ∃ setup s₀ s t u history,
      load { libraryDir := some "/lib" } plainLibrary [] (fun _ => true) = (.ok (setup, s₀), history) ∧
      run setup cancelledInPush s₀ = some s ∧ s.dispatcher.underway = true ∧ s.dispatcher.pipe.flag = true ∧
      step setup (.inner (.call [2] false)) s = some t ∧ .called ∈ deeds (.inner (.call [2] false)) s ∧
      runUnderway setup crashesInPush t = some u ∧ u.dispatcher.watcher = .finished (.completed {}) ∧
      ({} : Stats).aborted = false := by
  have hr : (serve { libraryDir := some "/lib" } plainLibrary [] (fun _ => true) cancelledInPush).bind
      (fun (setup, s) => (step setup (.inner (.call [2] false)) s).bind fun t =>
        (runUnderway setup crashesInPush t).map fun u =>
          (s.dispatcher.underway, s.dispatcher.pipe.flag, u.dispatcher.watcher)) =
      some (true, true, .finished (.completed {})) := by
    decide +kernel
  obtain ⟨⟨setup, s⟩, hs, hr⟩ := Option.bind_eq_some_iff.mp hr
  obtain ⟨t, ht, hr⟩ := Option.bind_eq_some_iff.mp hr
  obtain ⟨u, hu, hf⟩ := Option.map_eq_some_iff.mp hr
  obtain ⟨s₀, history, loaded, h⟩ := serve_inv hs
  obtain ⟨under, hf⟩ := Prod.mk.inj hf
  obtain ⟨up, there⟩ := Prod.mk.inj hf
  exact ⟨setup, s₀, s, t, u, history, loaded, h, under, up, ht, List.mem_singleton_self _, hu, there, rfl⟩

end Service

end Orator
