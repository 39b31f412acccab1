import Orator.Proofs.Dispatcher.Staffed
import Orator.Proofs.Service.OneAtATime

/-! No instance of an engine is left behind: discovery stops each that it starts, a session stops one before it
    starts the next, and closing the service stops the last. -/

namespace Orator

open History (Began Orderly Released running)

/-! ### Discovery -/

section
variable {h : History}

theorem audition_solo (library : Library) (libDir name : String) (rests : h.Solo none) :
    (library.audition libDir name h).2.Solo none := by
  unfold Library.audition Library.launch
  cases library.start h libDir name false with
  | error fault => exact .failed rests
  | ok sampleRate =>
    let engine : Engine := { number := h.started, name, sampleRate }
    have started : History.Solo (.start engine.name false (some engine) :: h) (some engine) := .started rests rfl
    exact .stopped (.called started rfl)

theorem auditions_solo (library : Library) (libDir : String) (names : List String) (rests : h.Solo none) :
    (library.auditions libDir names h).2.Solo none := by
  induction names generalizing h with
  | nil => exact rests
  | cons name names ih => exact ih (audition_solo library libDir name rests)

theorem discover_solo (library : Library) (libDir : String) (dirExists : Bool) (rests : h.Solo none) :
    (Catalog.discover library libDir dirExists h).2.Solo none := by
  have listed : History.Solo (.listEngines libDir :: h) none := .listed rests
  have after := auditions_solo library libDir (library.engines h libDir) listed
  unfold Catalog.discover
  cases dirExists with
  | false => exact rests
  | true =>
    dsimp only
    split
    · split <;> exact after
    · exact rests

end

/-! ### A session by itself -/

namespace Session

/-- What runs is the live engine. -/
theorem Sound.running_length {s : Session} (hs : s.Sound) : (running s.history).length = s.live.toNat := by
  rw [hs.solo.running_eq, engine?, live]
  cases s.active <;> rfl

/-- With a last stop nothing runs any more. -/
theorem Sound.released {s : Session} (hs : s.Sound) : Orderly s.stop.history ∧ Released s.stop.history := by
  obtain ⟨calls, steps⟩ := stop_steps (fun _ => none) s
  have solo := (steps.sound hs).solo
  rw [engine?_of_dark (stop_active s)] at solo
  exact ⟨solo.orderly, solo.released⟩

end Session

/-! ### Closing -/

namespace Dispatcher

/-- The last task is done, and no engine is live any more. -/
def Parted (s : State) : Prop :=
  (s.control = .answered .closed ∨ s.control = .free) ∧ s.session.active = none

/-- The last task is under way or done. -/
def Parting (s : State) : Prop :=
  s.control = .waiting .close ∨ s.control = .releasing ∨ Parted s

section
variable {house : House} {limits : Pipeline.Limits} {s t : State} {label : Label}

theorem moved_parted (h : Moved house limits s label t) (last : ∀ task, label ≠ .take task) (hs : Parted s) :
    Parted t := by
  obtain ⟨place, dark⟩ := hs
  cases h with
  | took => exact absurd rfl (last _)
  | released => exact ⟨Or.inr rfl, dark⟩
  | reported here | wentOn here | collected here | unresolved here | resolved here | unswitched here
  | switched here | stopped here | cleared here | opened here | spawned here | attended here =>
    rw [here] at place
    rcases place with place | place <;> cases place
  | _ => exact ⟨place, dark⟩

theorem moved_parting (h : Moved house limits s label t) (last : ∀ task, label ≠ .take task) (hs : Parting s) :
    Parting t := by
  rcases hs with waits | releases | parted
  · cases h with
    | took => exact absurd rfl (last _)
    | wentOn here | collected here =>
      rw [waits] at here
      cases here
      exact Or.inr (Or.inl rfl)
    | reported here | unresolved here | resolved here | unswitched here | switched here | stopped here
    | cleared here | opened here | spawned here | attended here | released here =>
      rw [waits] at here
      cases here
    | _ => exact Or.inl waits
  · cases h with
    | took => exact absurd rfl (last _)
    | stopped => exact Or.inr (Or.inr ⟨Or.inl rfl, Session.stop_active s.session⟩)
    | reported here | wentOn here | collected here | unresolved here | resolved here | unswitched here
    | switched here | cleared here | opened here | spawned here | attended here | released here =>
      rw [releases] at here
      cases here
    | _ => exact Or.inr (Or.inl releases)
  · exact Or.inr (Or.inr (moved_parted h last parted))

end

end Dispatcher

namespace Service

open Dispatcher (Exclusive Parted Parting Staffed)

/-- Once the service is being closed, closing it is all there is to do. -/
structure Leaving (s : State) : Prop where
  nobody : s.stage ≠ .serving → s.waiting = []
  parting : s.stage ≠ .serving → Parting s.dispatcher
  parted : s.stage = .closed → Parted s.dispatcher

section
variable {setup : Setup} {s t : State} {label : Label}

theorem leaving_of_serving (serving : s.stage = .serving) : Leaving s where
  nobody left := absurd serving left
  parting left := absurd serving left
  parted closed := by
    rw [serving] at closed
    cases closed

theorem step_leaving (h : step setup label s = some t) (hs : Leaving s) : Leaving t := by
  cases stepped h with
  | refused serving | initialized serving | asked serving | called serving | stopped serving | paused serving
  | cancelled serving => exact leaving_of_serving serving
  | silenced => exact ⟨hs.nobody, hs.parting, hs.parted⟩
  | granted waits =>
    -- Nobody waits once the service is being closed.
    by_cases serving : s.stage = .serving
    · exact leaving_of_serving serving
    · rw [hs.nobody serving] at waits
      cases waits
  | moved own moved =>
    have last := not_take_of_internal own
    exact ⟨hs.nobody, fun left => Dispatcher.moved_parting moved last (hs.parting left),
      fun closed => Dispatcher.moved_parted moved last (hs.parted closed)⟩
  | closed serving nobody _ moved =>
    refine ⟨fun _ => nobody, fun _ => Or.inl ?_, Stage.noConfusion⟩
    cases moved with
    | took => rfl
  | terminated closing free =>
    have left : s.stage ≠ .serving := by simp [closing]
    -- With the dispatcher free again, its last task is done.
    have parted : Parted s.dispatcher := by
      rcases hs.parting left with waits | releases | parted
      · rw [free] at waits
        cases waits
      · rw [free] at releases
        cases releases
      · exact parted
    exact ⟨fun _ => hs.nobody left, fun _ => hs.parting left, fun _ => parted⟩

theorem run_leaving {labels : List Label} (h : run setup labels s = some t) (hs : Leaving s) : Leaving t := by
  induction labels generalizing s with
  | nil =>
    cases h
    exact hs
  | cons label labels ih =>
    obtain ⟨u, hu, h⟩ := Option.bind_eq_some_iff.mp h
    exact ih h (step_leaving hu hs)

theorem stirred_staffed (h : Stirred setup s.dispatcher label t.dispatcher) (he : Exclusive s.dispatcher)
    (hs : Staffed s.dispatcher) : Staffed t.dispatcher := by
  generalize t.dispatcher = d at h
  cases h with
  | moved _ _ h => exact Dispatcher.moved_staffed h he hs
  | rested => exact hs
  | _ => exact hs.rest rfl (fun _ => id) fun _ => Or.inl

theorem run_staffed {history : History} {labels : List Label} (rests : history.Solo none)
    (h : run setup labels (start history) = some s) : Exclusive s.dispatcher ∧ Staffed s.dispatcher := by
  refine run_keeps (P := fun _ d => Exclusive d ∧ Staffed d) [] ?_ h ?_
  · rintro s t label past stirred ⟨he, hs⟩
    exact ⟨stirred_exclusive stirred he, stirred_staffed stirred he hs⟩
  · exact ⟨Dispatcher.start_exclusive _, Dispatcher.start_staffed rests⟩

theorem load_solo (config : Config) (library : Library) (program : List String) (isDirectory : String → Bool) :
    (load config library program isDirectory).2.Solo none := by
  unfold load
  split
  · exact .nil
  · split
    · exact .nil
    · have after := discover_solo library ‹String› (isDirectory ‹String›) .nil
      split
      all_goals
        rename_i found
        rw [found] at after
        exact after

end

/-- At every moment, from the load of the service to its close, at most one instance of all engines runs:
    the live one, if there is one. None is called before its start or after its stop, and each gets one stop
    call, by the time the load fails or the close is done. A session by itself keeps to this as well, if it is
    stopped in the end. -/
theorem stopped_once {config : Config} {library : Library} {program : List String} {isDirectory : String → Bool}
    {result : Except Fault (Setup × State)} {history : History}
    (loaded : load config library program isDirectory = (result, history)) :
    (Orderly history ∧ Released history) ∧
    (∀ setup s₀ labels s, result = .ok (setup, s₀) → run setup labels s₀ = some s →
      Orderly s.dispatcher.session.history ∧
      (running s.dispatcher.session.history).length = s.dispatcher.session.live.toNat ∧
      (s.stage = .closed → Released s.dispatcher.session.history)) ∧
    ∀ house ops s, Session.operate house ops {} = s →
      (running s.history).length = s.live.toNat ∧ Orderly s.stop.history ∧ Released s.stop.history := by
  have rests := load_solo config library program isDirectory
  rw [loaded] at rests
  refine ⟨⟨rests.orderly, rests.released⟩, ?_, ?_⟩
  · rintro setup s₀ labels s rfl h
    obtain rfl := load_start loaded
    obtain ⟨-, staffed⟩ := run_staffed rests h
    have sound := staffed.sound
    refine ⟨sound.solo.orderly, sound.running_length, ?_⟩
    intro closed
    have leaving := run_leaving h (leaving_of_serving rfl)
    have solo := sound.solo
    rw [Session.engine?_of_dark (leaving.parted closed).2] at solo
    exact solo.released
  · rintro house ops s rfl
    have sound := Session.operate_sound house ops (Session.start_sound .nil)
    exact ⟨sound.running_length, sound.released⟩

/-- A request for a single letter, to which the engine returns at once; then the service is closed. -/
def oneRequest : List Label :=
  List.flatten [[.call (.speak { payload := [104] }), .grant (.speak { payload := [104] })],
    .replicate 6 (.inner .control), [.inner .release, .inner .speak, .inner (.spoke true), .inner .speak],
    .replicate 2 (.inner (.deliver .accepted)), .replicate 2 (.inner .watch),
    [.close, .inner .control, .inner .control, .inner .release, .terminate]]

theorem stopped_once_oneRequest :
    ∃ setup s₀ s history,
      load { libraryDir := some "/lib" } plainLibrary [] (fun _ => true) = (.ok (setup, s₀), history) ∧
      run setup oneRequest s₀ = some s ∧ s.stage = .closed ∧
      s.dispatcher.session.history.count (.stop { number := 1, name := "espeak", sampleRate := 22050 }) = 1 := by
  have hr : (serve { libraryDir := some "/lib" } plainLibrary [] (fun _ => true) oneRequest).map
      (fun (_, s) => (s.stage, s.dispatcher.session.history.contains
        (.start "espeak" true (some { number := 1, name := "espeak", sampleRate := 22050 })))) =
      some (.closed, true) := by
    decide +kernel
  obtain ⟨⟨setup, s⟩, hs, there⟩ := Option.map_eq_some_iff.mp hr
  obtain ⟨closed, began⟩ := Prod.mk.inj there
  obtain ⟨s₀, history, loaded, h⟩ := serve_inv hs
  obtain ⟨-, served, -⟩ := stopped_once loaded
  obtain ⟨-, -, released⟩ := served _ _ _ _ rfl h
  exact ⟨setup, s₀, s, history, loaded, h, closed, released closed _ ⟨_, _, List.contains_iff_mem.mp began⟩⟩

end Service

end Orator
