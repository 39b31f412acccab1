import Orator.Proofs.Dispatcher.Recital
import Orator.Proofs.Dispatcher.Performance
import Orator.Proofs.Dispatcher.Underway
import Orator.Proofs.Pipeline.Offered

/-! What a completed utterance has delivered, when only the host may break it off. Until it does, the utterance goes
    on as if undisturbed. A refusal marks it before the delivery loop comes to count, so its outcome is another one.
    A crash leaves no count at all, and the watcher takes an empty one for it, which does not tell it apart. -/

namespace Orator

namespace Pipeline

/-- The host has refused a chunk: the utterance is marked before its loop comes to count. -/
def State.Refused (s : State) : Prop :=
  s.delivery = .refused ∨ (s.Marked ∧ (s.delivery = .raising ∨ (s.flag = true ∧ s.delivery.muted = true)))

section
variable {limits : Limits} {s t : State}

theorem Flow.refused {done : List Deed} (h : Flow limits s done t) (hs : s.Refused) : t.Refused := by
  rcases hs with here | ⟨marked, here | ⟨up, muted⟩⟩
  · cases h with
    | begun idle =>
      rw [here] at idle
      cases idle
    | produced h => exact Or.inl (h.frame.1.trans here)
    | delivered h =>
      cases h with
      | marked => exact Or.inr ⟨⟨rfl, nofun⟩, Or.inl rfl⟩
      | _ there =>
        rw [here] at there
        cases there
    | _ => exact Or.inl here
  · refine Or.inr ⟨h.marked marked, ?_⟩
    cases h with
    | begun idle =>
      rw [here] at idle
      cases idle
    | produced h => exact Or.inl (h.frame.1.trans here)
    | delivered h =>
      cases h with
      | raised => exact Or.inr ⟨rfl, rfl⟩
      | _ there =>
        rw [here] at there
        cases there
    | _ => exact Or.inl here
  · exact Or.inr ⟨h.marked marked, Or.inr ⟨h.flag_mono up, (h.muted up muted).1⟩⟩

theorem State.Refused.settled (hs : s.Refused) : s.delivery ≠ .crashed ∧
    ∀ stats, s.delivery = .finished stats → stats.aborted = true := by
  rcases hs with here | ⟨marked, here | ⟨-, muted⟩⟩
  · simp [here]
  · simp [here]
  · refine ⟨fun there => ?_, marked.2⟩
    rw [there] at muted
    cases muted

end

end Pipeline

namespace Dispatcher

open Pipeline (Limits Stats)

/-- Whether nobody cancels in the step, and the host does not ask to stop. -/
def Label.undisturbed : Label → Bool
  | .produce stopRequested => !stopRequested
  | .raise | .clear => false
  | _ => true

theorem completed_inv {kind : MessageKind} {counted stats : Stats} {result : Synthesis}
    (h : Outcome.of kind counted result = .completed stats) :
    result = .spoke true ∧ counted.aborted = false ∧ stats = counted := by
  cases result with
  | spoke success => cases marked : counted.aborted <;> cases success <;> simp_all [Outcome.of]
  | skipped | crashed => cases h

/-- The host has crashed in a push since it had heard `before`, and the loop with it. -/
structure Crashed (before : List HostEvent) (s : State) : Prop where
  here : s.pipe.delivery = .crashed
  heard : ∃ (told : List HostEvent) (frame : Frame) (taken : Bool), s.pipe.heard = told.reverse ++ before ∧
    .push frame (.crashed taken) ∈ told

section
variable {house : House} {limits : Limits} {cue : Cue} {handed : List (List Sample)} {returned : List Bool}
variable {s t : State} {label : Label}

/-! ### Until the host breaks it off -/

theorem Proceeds.willing (he : Exclusive s) (busy : s.busy = true) (hp : Proceeds limits cue handed returned s) :
    s.pipe.refusing = false := by
  cases hp with
  | ready here => simp [Pipeline.State.refusing, (he.quiet here.working here.attends).producer]
  | performing here =>
    have willing := here.renders.calm.willing
    unfold Pipeline.State.refusing
    cases there : s.pipe.producer <;> simp_all [Pipeline.Producer.breaking]
  | performed here =>
    rw [here.not_busy he] at busy
    cases busy

theorem Proceeds.heard (hp : Proceeds limits cue handed returned s) :
    ∃ told : List HostEvent, s.pipe.heard = told.reverse ++ cue.heard := by
  cases hp with
  | ready here => exact here.unheard.imp fun _ => And.left
  | performing here =>
    obtain ⟨played, heard, -⟩ := here.renders.whole
    exact heard.imp fun _ => And.left
  | performed here => exact here.played.imp fun _ => And.left

/-- The loop goes on as if the host took everything, until the host breaks it off. -/
theorem Proceeds.delivered {verdict : Verdict} (h : Moved house limits s (.deliver verdict) t) (he : Exclusive s)
    (busy : s.busy = true) (hp : Proceeds limits cue handed returned s) :
    s.control.working = false ∧
      (Proceeds limits cue handed returned t ∨ t.pipe.Refused ∨ Crashed cue.heard t) := by
  cases h with
  | delivered h =>
    obtain ⟨kind, watched⟩ := he.watched h.runs
    refine ⟨he.not_working_of_awaiting (by rw [watched]; rfl), ?_⟩
    rcases h.undisturbed with accepted | ⟨rate, samples, -, push, refused | ⟨crashed, taken, rfl⟩⟩
    · have same : Moved house limits s (.deliver .accepted) _ := .delivered accepted
      have there := moved_proceeds same nofun rfl he busy hp
      exact Or.inl there
    · exact Or.inr (Or.inl (Or.inl refused))
    · obtain ⟨told, heard⟩ := hp.heard
      refine Or.inr (Or.inr ⟨crashed, told ++ [.push (limits.chunk rate samples) (.crashed taken)], _, taken, ?_,
        List.mem_append_right _ (List.mem_singleton_self _)⟩)
      simp [push, heard]

theorem Ended.answered {spoke : Bool} {history : History} (h : Ended cue returned (.spoke spoke) history) :
    returned ≠ [] := by
  cases h
  nofun

/-! ### From then on -/

/-- While an utterance is in flight, no task gets past its wait. -/
theorem moved_idle (h : Moved house limits s label t) (he : Exclusive s) (busy : s.busy = true)
    (idle : s.control.working = false) : t.control.working = false := by
  cases h with
  | took => exact (enter_idle _).1
  | reported | released => rfl
  | wentOn here done | collected here done =>
    rw [he.not_busy idle (by rw [done]; rfl)] at busy
    cases busy
  | unresolved here | resolved here | unswitched here | switched here | stopped here | cleared here | opened here
  | spawned here | attended here =>
    rw [here] at idle
    cases idle
  | _ => exact idle

theorem moved_refused (h : Moved house limits s label t) (never : label ≠ .clear) (he : Exclusive s)
    (busy : s.busy = true) (idle : s.control.working = false) (hs : s.pipe.Refused) : t.pipe.Refused := by
  have under : s.underway = true := by simpa [State.busy, idle] using busy
  have past : s.control.opens = false := by
    cases here : s.control <;> simp_all [Control.opens, Control.working]
  exact (moved_flow h never he under past).refused hs

theorem moved_crashed {before : List HostEvent} (h : Moved house limits s label t) (idle : s.control.working = false)
    (hs : Crashed before s) : Crashed before t := by
  obtain ⟨here, told, frame, taken, heard, crash⟩ := hs
  cases h with
  | opened place | attended place =>
    rw [place] at idle
    cases idle
  | produced h =>
    refine ⟨h.frame.1.trans here, ?_⟩
    rcases h.heard with same | ⟨-, -, stopped⟩
    · exact ⟨told, frame, taken, same.trans heard, crash⟩
    · exact ⟨told ++ [.stop], frame, taken, by simp [stopped, heard], List.mem_append_left _ crash⟩
  | delivered h =>
    have runs := h.runs
    rw [here] at runs
    cases runs
  | _ => exact ⟨here, told, frame, taken, heard, crash⟩

end

/-! ### The utterance -/

/-- The ways of an utterance that only the host may break off. -/
inductive Recital.Fares (limits : Limits) (cue : Cue) (success : Bool → Bool) (buffers : List (List Sample))
    (r : Recital) : Prop where
  /-- So far nothing has disturbed it. -/
  | proceeds {handed left returned} (here : Proceeds limits cue handed returned r.state)
    (script : handed.reverse ++ left = buffers) (next : r.next false = .reads success left)
    (done : returned ≠ [] → left = [])
  | refused (idle : r.state.control.working = false) (here : r.state.pipe.Refused)
  | crashed (idle : r.state.control.working = false) (here : Crashed cue.heard r.state)

section
variable {house : House} {limits : Limits} {cue : Cue} {success : Bool → Bool} {buffers : List (List Sample)}
variable {r t : Recital} {label : Label}

/-- An engine that has not been asked to abort hands over its next buffer, or returns with nothing left. -/
theorem Recital.next_of_reads {handed left : List (List Sample)} {returned : List Bool} {next : Bool → Conduct}
    (own : label.ofEngine = true → label = (Conduct.reads success left).label ∧
      next = (Conduct.reads success left).next)
    (other : label.ofEngine = false → next false = .reads success left)
    (script : handed.reverse ++ left = buffers) (done : returned ≠ [] → left = []) :
    ∃ rest, (label.buffer?.toList ++ handed).reverse ++ rest = buffers ∧ next false = .reads success rest ∧
      (label.returned?.toList ++ returned ≠ [] → rest = []) := by
  cases engine : label.ofEngine
  · have neither : label.buffer? = none ∧ label.returned? = none := by
      cases label <;> first | exact ⟨rfl, rfl⟩ | cases engine
    rw [neither.1, neither.2]
    exact ⟨left, script, other engine, done⟩
  · obtain ⟨rfl, rfl⟩ := own engine
    cases left with
    | nil => exact ⟨[], by simpa [Conduct.reads, Conduct.label, Label.buffer?] using script, rfl, fun _ => rfl⟩
    | cons buffer left =>
      refine ⟨left, by simpa [Conduct.reads, Conduct.label, Label.buffer?] using script, rfl, fun spent => ?_⟩
      have : returned ≠ [] := by simpa [Conduct.reads, Conduct.label, Label.returned?] using spent
      cases done this

theorem gentle_of_reads {left : List (List Sample)} (h : label = (Conduct.reads success left).label) :
    label.gentle = true := by
  cases left <;> (rw [h]; rfl)

theorem moved_fares (h : Recital.Moved house limits r label t) (calm : label.undisturbed = true)
    (he : Exclusive r.state) (busy : r.state.busy = true) (hs : r.Fares limits cue success buffers) :
    t.Fares limits cue success buffers := by
  have never : label ≠ .clear := by
    rintro rfl
    cases calm
  obtain ⟨state, after⟩ := t
  obtain ⟨moved, own, other⟩ := h
  cases hs with
  | @proceeds handed left returned here script next done =>
    have conduct : r.conduct = .reads success left := by
      rw [Recital.conduct, here.willing he busy, next]
    rw [conduct] at own
    obtain ⟨rest, script, next, done⟩ := Recital.next_of_reads own (fun o => (congrFun (other o) false).trans next)
      script done
    have goOn
        (there : Proceeds limits cue (label.buffer?.toList ++ handed) (label.returned?.toList ++ returned) state) :
        Recital.Fares limits cue success buffers { state, next := after } := .proceeds there script next done
    cases label with
    | deliver verdict =>
      obtain ⟨idle, there | refused | crashed⟩ := here.delivered moved he busy
      · exact goOn there
      · exact .refused (moved_idle moved he busy idle) refused
      · exact .crashed (moved_idle moved he busy idle) crashed
    | call | crash | spoke => exact goOn (moved_proceeds moved never (gentle_of_reads (own rfl).1) he busy here)
    | raise | clear => cases calm
    | produce stopRequested => exact goOn (moved_proceeds moved never calm he busy here)
    | _ => exact goOn (moved_proceeds moved never rfl he busy here)
  | refused idle here =>
    exact .refused (moved_idle moved he busy idle) (moved_refused moved never he busy idle here)
  | crashed idle here => exact .crashed (moved_idle moved he busy idle) (moved_crashed moved idle here)

theorem run_fares {labels : List Label} (h : Recital.run house limits labels r = some t)
    (undisturbed : ∀ label ∈ labels, label.undisturbed = true) (he : Exclusive r.state)
    (hs : r.Fares limits cue success buffers) : Exclusive t.state ∧ t.Fares limits cue success buffers := by
  refine Recital.run_keeps (P := fun r => Exclusive r.state ∧ r.Fares limits cue success buffers) ?_ h ⟨he, hs⟩
  rintro label hl r t busy moved ⟨he, hs⟩
  exact ⟨moved_exclusive moved.moved he, moved_fares moved (undisturbed label hl) he busy hs⟩

/-- The engine of a request that has one is ready for it. -/
theorem ready_of_accepted {s : State} {engine : Engine} {request : Request} (staffed : Staffed s)
    (accepted : s.control = .clearing engine request) :
    Ready { request, engine, history := s.session.history, heard := s.pipe.heard } s where
  place := Or.inl accepted
  live := staffed.chosen engine (by rw [accepted]; rfl)
  history := rfl
  unheard := .refl _

end

/-- Nobody cancels, and the host does not ask to stop; but it may refuse any push, or crash in it. An utterance that
    counts as completed then has been delivered completely, its end included, and its count says so; unless the host
    has crashed in a push, for then it can count as completed as well, with an empty count. -/
theorem completed_or_crashed {house : House} {chunkSize capacity : Nat} {history : History}
    (rests : history.Solo none) {past labels : List Label} {s : State} {engine : Engine} {request : Request}
    {success : Bool → Bool} {buffers : List (List Sample)} {t : Recital} {stats : Stats}
    (reached : run house (.ofSizes chunkSize capacity) past { session := { history } } = some s)
    (accepted : s.control = .clearing engine request)
    (h : Recital.run house (.ofSizes chunkSize capacity) labels
      { state := s, next := fun _ => .reads success (buffers ++ [[]]) } = some t)
    (undisturbed : ∀ label ∈ labels, label.undisturbed = true)
    (completed : t.state.watcher = .finished (.completed stats)) :
    ∃ told : List HostEvent, t.state.pipe.heard = told.reverse ++ s.pipe.heard ∧
      ((told.filter HostEvent.ofDelivery = (Limits.ofSizes chunkSize capacity).spoken engine.sampleRate buffers ∧
          stats = (Limits.ofSizes chunkSize capacity).tally engine.sampleRate buffers) ∨
        ((∃ frame taken, .push frame (.crashed taken) ∈ told) ∧ stats = {})) := by
  have start : Exclusive s ∧ Staffed s := by
    refine run_keeps (P := fun s => Exclusive s ∧ Staffed s) ?_ reached ⟨start_exclusive _, start_staffed rests⟩
    rintro label - s t moved ⟨he, hs⟩
    exact ⟨moved_exclusive moved he, moved_staffed moved he hs⟩
  obtain ⟨he, fares⟩ := run_fares h undisturbed start.1
    (.proceeds (.ready (ready_of_accepted start.2 accepted)) rfl rfl (absurd rfl))
  obtain ⟨kind, counted, result, outcome, settled⟩ := he.reported _ completed
  obtain ⟨rfl, unmarked, rfl⟩ := completed_inv outcome.symm
  cases fares with
  | @proceeds handed left returned here script _ done =>
    obtain ⟨-, ⟨told, heard, whole⟩, result, ended, concluded⟩ := here.performed_of_finished he completed
    rw [completed] at concluded
    obtain ⟨rfl, -, count⟩ := completed_inv (Watcher.finished.inj concluded).symm
    -- The engine has returned, so it has handed over everything.
    obtain rfl := done ended.answered
    rw [List.append_nil] at script
    rw [script] at whole count
    exact ⟨told, heard, Or.inl ⟨whole, count.trans (congrArg (fun stats : Stats => { stats with aborted := false })
      (Pipeline.hear_spoken _ _ _))⟩⟩
  | refused _ here =>
    obtain ⟨uncrashed, marked⟩ := here.settled
    rcases settled with finished | ⟨crashed, -⟩
    · rw [marked _ finished] at unmarked
      cases unmarked
    · exact absurd crashed uncrashed
  | crashed _ here =>
    obtain ⟨gone, told, frame, taken, heard, crash⟩ := here
    rcases settled with finished | ⟨-, empty⟩
    · rw [gone] at finished
      cases finished
    · exact ⟨told, heard, Or.inr ⟨⟨frame, taken, crash⟩, empty⟩⟩

/-- One buffer of three samples, which the host takes in two chunks. -/
def takenWhole : List Label := List.flatten [
  [.control, .control, .control, .control, .speak],
  .call [1, 2, 3] false :: List.replicate 5 (.produce false),
  .call [] false :: List.replicate 3 (.produce false),
  [.deliver .accepted, .produce false, .produce false, .spoke true, .speak],
  List.replicate 11 (.deliver .accepted),
  [.watch, .watch]]

theorem completed_or_crashed_takenWhole : ∃ s t, ∃ told : List HostEvent,
    run halfHouse (.ofSizes 2 0) [.take (.speak alan), .control, .control] {} = some s ∧
    Recital.run halfHouse (.ofSizes 2 0) takenWhole
      { state := s, next := fun _ => .reads (fun _ => true) ([[1, 2, 3]] ++ [[]]) } = some t ∧
    t.state.pipe.heard = told.reverse ++ s.pipe.heard ∧
    told.filter HostEvent.ofDelivery = (Limits.ofSizes 2 0).spoken 22050 [[1, 2, 3]] := by
  obtain ⟨s, hs, accepted⟩ := alan_accepted
  have ended : ((run halfHouse (.ofSizes 2 0) [.take (.speak alan), .control, .control] {}).bind fun s =>
      Recital.run halfHouse (.ofSizes 2 0) takenWhole
        { state := s, next := fun _ => .reads (fun _ => true) ([[1, 2, 3]] ++ [[]]) }).map (·.state.watcher) =
      some (.finished (.completed { frames := 2, samples := 3, ended := true })) := by decide +kernel
  rw [hs, Option.bind_some] at ended
  obtain ⟨t, ht, completed⟩ := Option.map_eq_some_iff.mp ended
  obtain ⟨told, heard, whole⟩ := completed_or_crashed .nil hs accepted ht (by decide) completed
  exact ⟨s, t, told, hs, ht, heard, (whole.resolve_right (by simp)).1⟩

/-- The host crashes in the first push, when the engine has handed over all it has. -/
def crashedAtOnce : List Label := List.flatten [
  [.control, .control, .control, .control, .speak],
  .call [1, 2, 3] false :: List.replicate 5 (.produce false),
  .call [] false :: List.replicate 5 (.produce false),
  [.spoke true, .speak, .deliver .accepted, .deliver .accepted, .deliver .accepted, .deliver (.crashed false)],
  [.watch, .watch]]

/-- The utterance counts as completed, though the host has taken nothing and was not told of the end. -/
theorem completed_without_delivery :
    ((run halfHouse (.ofSizes 2 2) [.take (.speak alan), .control, .control] {}).bind fun s =>
      Recital.run halfHouse (.ofSizes 2 2) crashedAtOnce
        { state := s, next := fun _ => .reads (fun _ => true) ([[1, 2, 3]] ++ [[]]) }).map
      (fun r => (r.state.watcher.outcome?, r.state.pipe.heard)) =
    some (some (.completed {}), [.push { rate := 22050, samples := [1, 2] } (.crashed false), .beforePlay]) := by
  decide +kernel

end Dispatcher

end Orator
